/-!
Markdown syntax trees of any shape. A node may sit anywhere here; which child belongs under which
parent is settled when a tree is read as a document.
-/
namespace PageExport.Markdown

inductive NodeType where
  | text | inlineCode | strong | emphasis | delete | link | image
  | paragraph | heading | code | thematicBreak | blockquote | listItem | list
  | tableCell | tableRow | table | root
  deriving DecidableEq, Repr, Inhabited

def NodeType.name : NodeType → String
  | .text => "text"
  | .inlineCode => "inlineCode"
  | .strong => "strong"
  | .emphasis => "emphasis"
  | .delete => "delete"
  | .link => "link"
  | .image => "image"
  | .paragraph => "paragraph"
  | .heading => "heading"
  | .code => "code"
  | .thematicBreak => "thematicBreak"
  | .blockquote => "blockquote"
  | .listItem => "listItem"
  | .list => "list"
  | .tableCell => "tableCell"
  | .tableRow => "tableRow"
  | .table => "table"
  | .root => "root"

inductive Node where
  | text (value : Option String)
  | inlineCode (value : String)
  | strong (children : List Node)
  | emphasis (children : List Node)
  | delete (children : List Node)
  | link (url : String) (title : Option String) (children : List Node)
  | image (url : String) (title alt : Option String)
  | paragraph (children : List Node)
  | heading (depth : Nat) (children : List Node)
  | code (language info : Option String) (value : String)
  | thematicBreak
  | blockquote (children : List Node)
  | listItem (checked : Option Bool) (spread : Bool) (children : List Node)
  | list (ordered : Bool) (start : Option Int) (spread : Bool) (children : List Node)
  | tableCell (children : List Node)
  | tableRow (children : List Node)
  | table (align : Option (List (Option String))) (children : List Node)
  | root (children : List Node)
  deriving Inhabited

namespace Node

def type : Node → NodeType
  | .text _ => .text
  | .inlineCode _ => .inlineCode
  | .strong _ => .strong
  | .emphasis _ => .emphasis
  | .delete _ => .delete
  | .link _ _ _ => .link
  | .image _ _ _ => .image
  | .paragraph _ => .paragraph
  | .heading _ _ => .heading
  | .code _ _ _ => .code
  | .thematicBreak => .thematicBreak
  | .blockquote _ => .blockquote
  | .listItem _ _ _ => .listItem
  | .list _ _ _ _ => .list
  | .tableCell _ => .tableCell
  | .tableRow _ => .tableRow
  | .table _ _ => .table
  | .root _ => .root

def children? : Node → Option (List Node)
  | .strong cs | .emphasis cs | .delete cs | .link _ _ cs | .paragraph cs | .heading _ cs
  | .blockquote cs | .listItem _ _ cs | .list _ _ _ cs | .tableCell cs | .tableRow cs
  | .table _ cs | .root cs => some cs
  | .text _ | .inlineCode _ | .image _ _ _ | .code _ _ _ | .thematicBreak => none

def children (n : Node) : List Node := n.children?.getD []

/-- The node with other children; a childless node stays as it is. -/
def withChildren (cs : List Node) : Node → Node
  | .strong _ => .strong cs
  | .emphasis _ => .emphasis cs
  | .delete _ => .delete cs
  | .link url title _ => .link url title cs
  | .paragraph _ => .paragraph cs
  | .heading depth _ => .heading depth cs
  | .blockquote _ => .blockquote cs
  | .listItem checked spread _ => .listItem checked spread cs
  | .list ordered start spread _ => .list ordered start spread cs
  | .tableCell _ => .tableCell cs
  | .tableRow _ => .tableRow cs
  | .table align _ => .table align cs
  | .root _ => .root cs
  | .text value => .text value
  | .inlineCode value => .inlineCode value
  | .image url title alt => .image url title alt
  | .code language info value => .code language info value
  | .thematicBreak => .thematicBreak

/-- The node with `child` as its last child. -/
def addChild (n child : Node) : Node := n.withChildren (n.children ++ [child])

@[simp] theorem type_withChildren (n : Node) (cs : List Node) :
    (n.withChildren cs).type = n.type := by cases n <;> rfl

theorem children?_withChildren (n : Node) (cs : List Node) :
    (n.withChildren cs).children? = n.children?.map fun _ => cs := by cases n <;> rfl

end Node
end PageExport.Markdown
