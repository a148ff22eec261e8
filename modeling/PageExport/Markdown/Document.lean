import PageExport.Markdown.Flow
import PageExport.Markdown.Node

/-!
Documents: syntax trees in which every child sits where Markdown has a place for it. Reading a
tree as a document refuses at the first misplaced node in pre-order; a document has a text.
-/
namespace PageExport.Markdown

/-- The kind of place that a node does not fit. -/
inductive Position where
  | phrasing | flow | item | row | cell | root
  deriving DecidableEq, Repr

/-- A node of a type that its place does not hold. -/
structure Misplaced where
  place : Position
  found : NodeType
  deriving DecidableEq, Repr

def Misplaced.message (m : Misplaced) : String :=
  let found := "'" ++ m.found.name ++ "'"
  match m.place with
  | .phrasing => "Cannot serialize " ++ found ++ " as phrasing content"
  | .flow => "Cannot serialize " ++ found ++ " as flow content"
  | .item => "List children must be listItem, got " ++ found
  | .row => "Table children must be tableRow, got " ++ found
  | .cell => "Table rows must hold tableCell nodes, got " ++ found
  | .root => "Expected a root node, got " ++ found

mutual

def Inline.ofNode : Node → Except Misplaced Inline
  | .text value => .ok (.text (value.getD ""))
  | .inlineCode value => .ok (.code value)
  | .strong cs => (inlinesOfNodes cs).map .strong
  | .emphasis cs => (inlinesOfNodes cs).map .emphasis
  | .delete cs => (inlinesOfNodes cs).map .delete
  | .link url title cs => (inlinesOfNodes cs).map (.link url title)
  | .image url title alt => .ok (.image url title alt)
  | n => .error ⟨.phrasing, n.type⟩

def inlinesOfNodes : List Node → Except Misplaced (List Inline)
  | [] => .ok []
  | n :: ns => do
    let c ← Inline.ofNode n
    let cs ← inlinesOfNodes ns
    .ok (c :: cs)

end

mutual

def Inline.toNode : Inline → Node
  | .text value => .text (some value)
  | .code value => .inlineCode value
  | .strong content => .strong (nodesOfInlines content)
  | .emphasis content => .emphasis (nodesOfInlines content)
  | .delete content => .delete (nodesOfInlines content)
  | .link url title content => .link url title (nodesOfInlines content)
  | .image url title alt => .image url title alt

def nodesOfInlines : List Inline → List Node
  | [] => []
  | c :: cs => c.toNode :: nodesOfInlines cs

end

theorem nodesOfInlines_eq_map (cs : List Inline) : nodesOfInlines cs = cs.map Inline.toNode := by
  induction cs with
  | nil => rfl
  | cons c cs ih => simp [nodesOfInlines, ih]

mutual

theorem Inline.ofNode_toNode (c : Inline) : Inline.ofNode c.toNode = .ok c := by
  cases c with
  | text value => rfl
  | code value => rfl
  | strong content => simp [Inline.toNode, Inline.ofNode, inlinesOfNodes_nodesOfInlines, Except.map]
  | emphasis content => simp [Inline.toNode, Inline.ofNode, inlinesOfNodes_nodesOfInlines, Except.map]
  | delete content => simp [Inline.toNode, Inline.ofNode, inlinesOfNodes_nodesOfInlines, Except.map]
  | link url title content => simp [Inline.toNode, Inline.ofNode, inlinesOfNodes_nodesOfInlines, Except.map]
  | image url title alt => rfl

theorem inlinesOfNodes_nodesOfInlines (cs : List Inline) :
    inlinesOfNodes (nodesOfInlines cs) = .ok cs := by
  cases cs with
  | nil => rfl
  | cons c cs =>
    simp [nodesOfInlines, inlinesOfNodes, Inline.ofNode_toNode, inlinesOfNodes_nodesOfInlines,
      bind, Except.bind]

end

def cellsOfNodes : List Node → Except Misplaced (List (List Inline))
  | [] => .ok []
  | .tableCell cs :: ns => do
    let cell ← inlinesOfNodes cs
    let cells ← cellsOfNodes ns
    .ok (cell :: cells)
  | n :: _ => .error ⟨.cell, n.type⟩

def rowsOfNodes : List Node → Except Misplaced (List (List (List Inline)))
  | [] => .ok []
  | .tableRow cs :: ns => do
    let row ← cellsOfNodes cs
    let rows ← rowsOfNodes ns
    .ok (row :: rows)
  | n :: _ => .error ⟨.row, n.type⟩

mutual

def Flow.ofNode : Node → Except Misplaced Flow
  | .paragraph cs => (inlinesOfNodes cs).map .paragraph
  | .heading depth cs => (inlinesOfNodes cs).map (.heading depth)
  | .code language info value => .ok (.code language info value)
  | .thematicBreak => .ok .thematicBreak
  | .blockquote cs => (flowOfNodes cs).map .blockquote
  | .list ordered start spread cs => (itemsOfNodes cs).map (.list ordered start spread)
  | .table align cs => (rowsOfNodes cs).map (.table (align.getD []))
  | n => .error ⟨.flow, n.type⟩

def flowOfNodes : List Node → Except Misplaced (List Flow)
  | [] => .ok []
  | n :: ns => do
    let c ← Flow.ofNode n
    let cs ← flowOfNodes ns
    .ok (c :: cs)

def Item.ofNode : Node → Except Misplaced Item
  | .listItem checked spread cs => (flowOfNodes cs).map (.mk checked spread)
  | n => .error ⟨.item, n.type⟩

def itemsOfNodes : List Node → Except Misplaced (List Item)
  | [] => .ok []
  | n :: ns => do
    let c ← Item.ofNode n
    let cs ← itemsOfNodes ns
    .ok (c :: cs)

end

/-- The blocks of a page. -/
structure Document where
  content : List Flow
  deriving Inhabited

def Document.ofNode : Node → Except Misplaced Document
  | .root cs => (flowOfNodes cs).map .mk
  | n => .error ⟨.root, n.type⟩

/-- A line before its line break: an encoded or a non-breaking space at the end is a plain one. -/
def softenEnd (line : Text) : Text :=
  if encodedSpace.isSuffixOf line then line.take (line.length - encodedSpace.length) ++ [' ']
  else if line.getLast? = some '\u00a0' then line.dropLast ++ [' ']
  else line

/-- Softens the ends of all lines but the last one. -/
def softenLines : List Text → List Text
  | [] => []
  | [line] => [line]
  | line :: lines => softenEnd line :: softenLines lines

def softenEnds (t : Text) : Text := Text.unlines (softenLines t.lines)

/-- The text of a document before its line ends are softened; it ends in one line break. -/
def Document.rawText (o : Options) (d : Document) : Text :=
  let body := flowText o false d.content
  if body.isEmpty then [] else body ++ ['\n']

def Document.text (o : Options) (d : Document) : Text := softenEnds (d.rawText o)

/-- The Markdown of a syntax tree, which must be a document. -/
def markdown (o : Options) (n : Node) : Except Misplaced String :=
  (Document.ofNode n).map fun d => String.ofList (d.text o)

end PageExport.Markdown
