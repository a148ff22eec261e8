import PageExport.Markdown.LineStart
import PageExport.Markdown.Phrasing

/-!
Blocks and their rendering. Lists that follow each other alternate their marks, so that a reader
keeps them apart; nested blocks are indented under their item or marked as quoted line by line.
-/
namespace PageExport.Markdown

mutual

inductive Flow where
  | paragraph (content : List Inline)
  | heading (depth : Nat) (content : List Inline)
  | code (language info : Option String) (value : String)
  | thematicBreak
  | blockquote (content : List Flow)
  | list (ordered : Bool) (start : Option Int) (spread : Bool) (items : List Item)
  | table (align : List (Option String)) (rows : List (List (List Inline)))

inductive Item where
  | mk (checked : Option Bool) (spread : Bool) (content : List Flow)

end

instance : Inhabited Flow := ⟨.thematicBreak⟩

instance : Inhabited Item := ⟨.mk none false []⟩

/-- Whether a list is ordered; `none` for a block that is not a list. -/
def Flow.order? : Flow → Option Bool
  | .list ordered _ _ _ => some ordered
  | _ => none

/-- A list that may start on the line after a paragraph: it is not empty, and if it is ordered it
starts at one. -/
def Flow.interrupts : Flow → Bool
  | .list ordered start _ items => !items.isEmpty && (!ordered || start.getD 1 = 1)
  | _ => false

/-- A rendered sibling: its text and whether it may follow on the next line. -/
structure Piece where
  text : Text
  interrupts : Bool
  deriving DecidableEq, Repr

/-- The line breaks between a block and the one before it. -/
def Piece.gap (tight : Bool) (p : Piece) : Text :=
  if tight && p.interrupts then ['\n'] else ['\n', '\n']

/-- Siblings one below the other; those without text leave no trace. -/
def stack (tight : Bool) (pieces : List Piece) : Text :=
  match pieces.filter fun p => !p.text.isEmpty with
  | [] => []
  | p :: ps => p.text ++ ps.flatMap fun q => q.gap tight ++ q.text

/-- The other marks are due for a list right after a list of the same kind that has not got them. -/
def alternates (previous : Option Bool) (alternate : Bool) (order : Option Bool) : Bool :=
  previous.isSome && order == previous && !alternate

def itemMark (o : Options) (alternate ordered : Bool) (start : Option Int) (index : Nat) : Text :=
  if ordered then
    Text.ofInt (start.getD 1 + index) ++ [if alternate then ')' else '.']
  else [if alternate then o.bullet.other.char else o.bullet.char]

def checkbox : Option Bool → Text
  | some true => ['[', 'x', ']', ' ']
  | some false => ['[', ' ', ']', ' ']
  | none => []

/-- Lines after the first are indented, unless they are empty. -/
def indentLine (width : Nat) (line : Text) : Text :=
  if line.isEmpty then [] else List.replicate width ' ' ++ line

/-- Content behind a list mark; an item without content is its mark alone. -/
def hang (mark content : Text) : Text :=
  if content.isEmpty then mark
  else match content.lines with
    | [] => mark
    | first :: rest =>
      Text.unlines ((mark ++ ' ' :: first) :: rest.map (indentLine (mark.length + 1)))

def quoteLine (line : Text) : Text :=
  if line.isEmpty then ['>'] else '>' :: ' ' :: line

def quote (content : Text) : Text := Text.unlines (content.lines.map quoteLine)

def headingText (depth : Nat) (content : Text) : Text :=
  List.replicate depth '#' ++ if content.isEmpty then [] else ' ' :: content

def infoText (language info : Option String) : Text :=
  (language.getD "").toList ++
    match info with
    | some s => if s.isEmpty then [] else ' ' :: s.toList
    | none => []

def codeBlock (language info : Option String) (value : Text) : Text :=
  fence 3 value ++ infoText language info ++ '\n'
    :: (if value.isEmpty then [] else value ++ ['\n']) ++ fence 3 value

/-- The text of a table cell from its rendered content. -/
def cellText (content : Text) : Text :=
  (Text.replaceChar '\n' [' '] (Text.replaceChar '|' ['\\', '|'] content)).strip

def rowLine (width : Nat) (cells : List Text) : Text :=
  ['|', ' '] ++ Text.join [' ', '|', ' '] (cells ++ List.replicate (width - cells.length) [])
    ++ [' ', '|']

def alignMark : Option String → Text
  | some "left" => [':', '-', '-']
  | some "right" => ['-', '-', ':']
  | some "center" => [':', '-', ':']
  | _ => ['-', '-', '-']

/-- A table from the texts of its cells; the first row is its head. -/
def tableText (align : List (Option String)) (rows : List (List Text)) : Text :=
  let width := (rows.map List.length).foldl max 0
  match rows with
  | [] => []
  | head :: body =>
    if width = 0 then []
    else
      let marks := (align ++ List.replicate width none).take width
      Text.unlines
        (rowLine width head :: rowLine width (marks.map alignMark) :: body.map (rowLine width))

mutual

/-- Renders a block; `alternate` gives a list the other marks. -/
def Flow.render (o : Options) (alternate : Bool) : Flow → Text
  | .paragraph content => guardLines (phrasing o none none content)
  | .heading depth content =>
    headingText depth (Text.replaceChar '\n' [' '] (guardLines (phrasing o none none content)))
  | .code language info value => codeBlock language info value.toList
  | .thematicBreak => o.rule.text
  | .blockquote content => quote (stack false (renderSiblings o none false content))
  | .list ordered start spread items =>
    Text.join (if spread then ['\n', '\n'] else ['\n'])
      (renderItems o (itemMark o alternate ordered start) 0 items)
  | .table align rows =>
    tableText align (rows.map fun cells => cells.map fun c => cellText (phrasing o none none c))

/-- Renders siblings, the first of them after a sibling of order `previous` whose marks were the
other ones if `alternate`. -/
def renderSiblings (o : Options) (previous : Option Bool) (alternate : Bool) : List Flow → List Piece
  | [] => []
  | n :: ns =>
    let alternate := alternates previous alternate n.order?
    ⟨n.render o alternate, n.interrupts⟩ :: renderSiblings o n.order? alternate ns

def renderItems (o : Options) (mark : Nat → Text) (index : Nat) : List Item → List Text
  | [] => []
  | item :: items => item.render o (mark index) :: renderItems o mark (index + 1) items

def Item.render (o : Options) (mark : Text) : Item → Text
  | .mk checked spread content =>
    hang mark (checkbox checked ++ stack (!spread) (renderSiblings o none false content))

end

def flowText (o : Options) (tight : Bool) (content : List Flow) : Text :=
  stack tight (renderSiblings o none false content)

end PageExport.Markdown
