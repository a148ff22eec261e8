import PageExport.Markdown.Escape
import PageExport.Markdown.Options
import PageExport.Unicode.Alphanumeric

/-!
Content inside a line and its rendering. The mark of emphasised text depends on the characters
beside it, so siblings are rendered twice: alone, and again between their neighbours.
-/
namespace PageExport.Markdown

inductive Inline where
  | text (value : String)
  | code (value : String)
  | strong (content : List Inline)
  | emphasis (content : List Inline)
  | delete (content : List Inline)
  | link (url : String) (title : Option String) (content : List Inline)
  | image (url : String) (title alt : Option String)
  deriving Inhabited

def Inline.isDelimited : Inline → Bool
  | .strong _ | .emphasis _ | .delete _ => true
  | _ => false

/-- An underscore beside a letter or a number would be read as part of a word; a star is not. -/
def settleMark (mark : Text) (beside : List Char) : Text :=
  if mark = ['_'] && beside.any Unicode.isAlphanumeric then ['*'] else mark

/-- Content between marks, which go inside the blanks at its edges; blank content takes none.
`before` and `after` are the characters just outside, `none` at the edge of a line. -/
def delimit (mark : Text) (before after : Option Char) (inner : Text) : Text :=
  let core := inner.strip
  if core.isEmpty then inner
  else
    let beside := (inner.leading.getLast?.or before).toList
      ++ (inner.trailing.head?.or after).toList
    let mark := settleMark mark beside
    inner.leading ++ mark ++ core ++ mark ++ inner.trailing

mutual

/-- Renders content that stands between the characters `before` and `after`. -/
def Inline.render (o : Options) (before after : Option Char) : Inline → Text
  | .text value => escape value.toList
  | .code value => codeSpan value.toList
  | .strong content =>
    delimit ['*', '*'] before after (renderAmong o before after content (renderEach o content))
  | .emphasis content =>
    delimit [o.emphasis.char] before after
      (renderAmong o before after content (renderEach o content))
  | .delete content =>
    delimit ['~', '~'] before after (renderAmong o before after content (renderEach o content))
  | .link url title content =>
    '[' :: renderAmong o (some '[') (some ']') content (renderEach o content) ++ [']', '(']
      ++ linkDestination url.toList ++ titlePart title ++ [')']
  | .image url title alt =>
    ['!', '['] ++ escape (alt.getD "").toList ++ [']', '('] ++ linkDestination url.toList
      ++ titlePart title ++ [')']

/-- Each sibling rendered as if it stood alone. -/
def renderEach (o : Options) : List Inline → List Text
  | [] => []
  | n :: ns => n.render o none none :: renderEach o ns

/-- Siblings one after another, given what each of them is alone: delimited content is rendered
again between the character before it and the first character of what follows. -/
def renderAmong (o : Options) (before after : Option Char) : List Inline → List Text → Text
  | n :: ns, alone :: rest =>
    let following := (rest.flatten.head?).or after
    let t := if n.isDelimited then n.render o before following else alone
    t ++ renderAmong o (t.getLast?.or before) after ns rest
  | _, _ => []

end

theorem renderEach_eq_map (o : Options) (content : List Inline) :
    renderEach o content = content.map (Inline.render o none none) := by
  induction content with
  | nil => rfl
  | cons n ns ih => simp [renderEach, ih]

/-- Siblings in a line, between the characters `before` and `after`. -/
def phrasing (o : Options) (before after : Option Char) (content : List Inline) : Text :=
  renderAmong o before after content (renderEach o content)

end PageExport.Markdown
