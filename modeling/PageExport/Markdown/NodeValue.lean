import PageExport.Markdown.Node
import PageExport.Value.Basic

/-!
Syntax trees as structured values: an object for each node, its type first. Parts that are absent
leave no member. Where a node is made for children of one type, a child of another type shows only
the members that it shares with that type.
-/
namespace PageExport.Markdown

/-- The type that the children of a list, a table or a row are meant to have. -/
def NodeType.childType? : NodeType → Option NodeType
  | .list => some .listItem
  | .table => some .tableRow
  | .tableRow => some .tableCell
  | _ => none

/-- The members that a node of a type may have, besides its type. -/
def NodeType.memberNames : NodeType → List String
  | .text | .inlineCode => ["value"]
  | .link => ["url", "title", "children"]
  | .image => ["url", "title", "alt"]
  | .heading => ["depth", "children"]
  | .code => ["lang", "meta", "value"]
  | .thematicBreak => []
  | .listItem => ["checked", "spread", "children"]
  | .list => ["ordered", "start", "spread", "children"]
  | .table => ["align", "children"]
  | .strong | .emphasis | .delete | .paragraph | .blockquote | .tableCell | .tableRow | .root =>
    ["children"]

/-- A member for a part that may be absent. -/
def optionalMember (key : String) (part : Option Value) : Members :=
  match part with
  | some v => [(key, v)]
  | none => []

/-- The alignments of the columns of a table; null for a column without one. -/
def alignValue (columns : List (Option String)) : Value :=
  .array (columns.map fun c => (c.map Value.string).getD .null)

/-- The members of a node besides its type and its children. -/
def Node.ownMembers : Node → Members
  | .text value => optionalMember "value" (value.map .string)
  | .inlineCode value => [("value", .string value)]
  | .link url title _ => ("url", .string url) :: optionalMember "title" (title.map .string)
  | .image url title alt =>
    ("url", .string url) :: optionalMember "title" (title.map .string)
      ++ optionalMember "alt" (alt.map .string)
  | .heading depth _ => [("depth", .int depth)]
  | .code language info value =>
    optionalMember "lang" (language.map .string) ++ optionalMember "meta" (info.map .string)
      ++ [("value", .string value)]
  | .listItem checked spread _ =>
    optionalMember "checked" (checked.map .bool) ++ [("spread", .bool spread)]
  | .list ordered start spread _ =>
    ("ordered", .bool ordered) :: optionalMember "start" (start.map .int)
      ++ [("spread", .bool spread)]
  | .table align _ => optionalMember "align" (align.map alignValue)
  | _ => []

/-- The object of a node that is seen as one of type `view`, given the values of its children. -/
def Node.shape (view : NodeType) (n : Node) (children : Option (List Value)) : Value :=
  .object (("type", .string n.type.name) ::
    (n.ownMembers ++ optionalMember "children" (children.map .array)).filter fun m =>
      view.memberNames.contains m.1)

mutual

/-- The value of a node that is seen as one of type `view`. -/
def Node.valueAs (view : NodeType) : Node → Value
  | .strong cs => (Node.strong cs).shape view (some (childValues view.childType? cs))
  | .emphasis cs => (Node.emphasis cs).shape view (some (childValues view.childType? cs))
  | .delete cs => (Node.delete cs).shape view (some (childValues view.childType? cs))
  | .link url title cs =>
    (Node.link url title cs).shape view (some (childValues view.childType? cs))
  | .paragraph cs => (Node.paragraph cs).shape view (some (childValues view.childType? cs))
  | .heading depth cs => (Node.heading depth cs).shape view (some (childValues view.childType? cs))
  | .blockquote cs => (Node.blockquote cs).shape view (some (childValues view.childType? cs))
  | .listItem checked spread cs =>
    (Node.listItem checked spread cs).shape view (some (childValues view.childType? cs))
  | .list ordered start spread cs =>
    (Node.list ordered start spread cs).shape view (some (childValues view.childType? cs))
  | .tableCell cs => (Node.tableCell cs).shape view (some (childValues view.childType? cs))
  | .tableRow cs => (Node.tableRow cs).shape view (some (childValues view.childType? cs))
  | .table align cs => (Node.table align cs).shape view (some (childValues view.childType? cs))
  | .root cs => (Node.root cs).shape view (some (childValues view.childType? cs))
  | n => n.shape view none

/-- The values of children in a place for nodes of one type, or for nodes of several types. -/
def childValues (place : Option NodeType) : List Node → List Value
  | [] => []
  | n :: ns => n.valueAs (place.getD n.type) :: childValues place ns

end

def Node.toValue (n : Node) : Value := n.valueAs n.type

end PageExport.Markdown
