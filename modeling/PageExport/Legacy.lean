import PageExport.Page
import PageExport.Template
import PageExport.Unicode.Lowercase

/-!
The legacy profile: Markdown straight from blocks, without a syntax tree. Nested blocks are indented
by two spaces a level, from the nearest page or container on; images link to their assets by a
template, as HTML where they have a size.
-/
namespace PageExport.Legacy

open Markdown (Options)

/-- The name of the argument of link templates. -/
def argumentName : Text := "blob_id".toList

def defaultTemplate : String := "assets/\x7bblob_id\x7d"

abbrev Render := ExceptT TemplateFault Logged

/-- Headings and quotes are marked at the start of their line. -/
def paragraphMark (type : Option String) : Text :=
  match type with
  | some "h1" => "# ".toList
  | some "h2" => "## ".toList
  | some "h3" => "### ".toList
  | some "h4" => "#### ".toList
  | some "h5" => "##### ".toList
  | some "h6" => "###### ".toList
  | some "quote" => "> ".toList
  | _ => []

def itemMark (type : Option String) : Text :=
  if type = some "bulleted" then "* ".toList else "1. ".toList

def inlineLine (o : Options) (runs : List Delta) : Text :=
  Markdown.phrasing o none none (Delta.content 0 runs) ++ ['\n']

def codeText (p : CodeProps) : Text :=
  "```".toList ++ Unicode.lowercase (p.language.getD "").toList ++ '\n'
    :: (Delta.plainText "" p.text).toList ++ "\n```\n\n".toList

def dimension (size : Option Binary64) : Text :=
  match size with
  | none => "auto".toList
  | some x =>
    match x.toInt? with
    | some i => Text.ofInt i
    | none => x.text

def isSized (size : Option Binary64) : Bool :=
  match size with
  | some x => !x.isZero
  | none => false

def imageText (url : Text) (p : ImageProps) : Text :=
  if isSized p.width || isSized p.height then
    "\n<img src=\"".toList ++ url ++ "\" width=\"".toList ++ dimension p.width
      ++ "\" height=\"".toList ++ dimension p.height ++ "\" />\n\n".toList
  else "\n![".toList ++ p.sourceId.toList ++ "](".toList ++ url ++ ")\n\n".toList

/-- Renders the props of a block; a block with unreadable props is noted and renders as nothing. -/
def withProps {α : Type} (read : Members → Logged (Reading α)) (b : Block)
    (render : α → Except TemplateFault Text) : Render (Option Text) := do
  match ← b.readAs read with
  | .ok p => return some (← render p)
  | .error m =>
    Logged.note .error ("Error converting block to md: " ++ m.message)
    return none

/-- The image of an embed block of type image; other embeds have none. -/
def embedText (template : Text) (b : Block) : Render (Option Text) :=
  withProps EmbedProps.read b fun p => do
    if b.flavour = .image || p.type = "image" then
      let url ← Template.fill argumentName p.image.sourceId.toList template
      return imageText url p.image
    else return []

/-- The text of a block without its children, or nothing if its props are unreadable. -/
def ownText (o : Options) (template : Text) (b : Block) : Render (Option Text) :=
  match b.flavour with
  | .paragraph =>
    withProps ParagraphProps.read b fun p => .ok (paragraphMark p.type ++ inlineLine o p.text)
  | .divider => return some "\n---\n\n".toList
  | .list => withProps ListProps.read b fun p => .ok (itemMark p.type ++ inlineLine o p.text)
  | .code => withProps CodeProps.read b fun p => .ok (codeText p)
  | .image | .embed => embedText template b
  | .page | .note | .surface | .frame => return some []
  | .database | .unknown => do
    Logged.note .warning s!"Unknown flavour {quotedName b.tag} (block {quotedName b.id})"
    return some []

/-- The indentation of the children of a block with the indentation `pad`. -/
def childPad (b : Block) (pad : Text) : Text :=
  if b.flavour = .page || b.flavour.isContainer then [] else pad ++ [' ', ' ']

mutual

/-- Renders a block and all below it; a block with unreadable props leaves no trace of either. -/
def blockText (o : Options) (template pad : Text) : Block → Render Text
  | ⟨id, tag, props, children⟩ => do
    let b : Block := ⟨id, tag, props, children⟩
    match ← ownText o template b with
    | none => return []
    | some own => return pad ++ own ++ (← siblingsText o template (childPad b pad) children)

def siblingsText (o : Options) (template pad : Text) : List Block → Render Text
  | [] => return []
  | b :: bs => return (← blockText o template pad b) ++ (← siblingsText o template pad bs)

end

/-- Image blocks, and embeds whose props say that they are images. -/
def isImage (b : Block) : Bool :=
  b.flavour = .image ||
    (b.flavour = .embed && match b.prop "type" with
      | .string t => t = "image"
      | _ => false)

/-- The reference of the image that a block is, if it is one. -/
def reference? (b : Block) : Option String :=
  match b.prop "sourceId" with
  | .string ref => if isImage b && !ref.isEmpty then some ref else none
  | _ => none

mutual

/-- The references of images in pre-order. -/
def references : Block → List String
  | ⟨id, tag, props, children⟩ =>
    (reference? ⟨id, tag, props, children⟩).toList ++ referencesAmong children

def referencesAmong : List Block → List String
  | [] => []
  | b :: bs => references b ++ referencesAmong bs

end

theorem referencesAmong_eq_flatMap (bs : List Block) : referencesAmong bs = bs.flatMap references := by
  induction bs with
  | nil => rfl
  | cons b bs ih => simp [referencesAmong, ih]

/-- The page of a block tree in the legacy profile. -/
def toPage (template : String) (o : Options) (b : Block) : Logged (Except TemplateFault Page) := do
  match ← (blockText o template.toList [] b).run with
  | .ok t => return .ok ⟨String.ofList t, references b⟩
  | .error e => return .error e

end PageExport.Legacy
