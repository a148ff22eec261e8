import PageExport.Markdown.Document

/-!
The content model: which types of node a node of a type may hold. The nodes of a tree fit if each of
them sits below a node that holds its type.
-/
namespace PageExport.Markdown
namespace NodeType

def isPhrasing : NodeType → Bool
  | .text | .inlineCode | .strong | .emphasis | .delete | .link | .image => true
  | _ => false

def isFlow : NodeType → Bool
  | .paragraph | .heading | .code | .thematicBreak | .blockquote | .list | .table => true
  | _ => false

/-- Nodes of the type `parent` hold nodes of the type `child`. -/
def holds (parent child : NodeType) : Bool :=
  match parent with
  | .strong | .emphasis | .delete | .link | .paragraph | .heading | .tableCell => child.isPhrasing
  | .root | .blockquote | .listItem => child.isFlow
  | .list => child = .listItem
  | .table => child = .tableRow
  | .tableRow => child = .tableCell
  | .text | .inlineCode | .image | .code | .thematicBreak => false

end NodeType

mutual

/-- Every node below this one sits below a node that holds its type. -/
def Node.fits : Node → Bool
  | .strong cs => allFit .strong cs
  | .emphasis cs => allFit .emphasis cs
  | .delete cs => allFit .delete cs
  | .link _ _ cs => allFit .link cs
  | .paragraph cs => allFit .paragraph cs
  | .heading _ cs => allFit .heading cs
  | .blockquote cs => allFit .blockquote cs
  | .listItem _ _ cs => allFit .listItem cs
  | .list _ _ _ cs => allFit .list cs
  | .tableCell cs => allFit .tableCell cs
  | .tableRow cs => allFit .tableRow cs
  | .table _ cs => allFit .table cs
  | .root cs => allFit .root cs
  | .text _ | .inlineCode _ | .image _ _ _ | .code _ _ _ | .thematicBreak => true

/-- A node of the type `parent` holds each of these nodes, and they fit. -/
def allFit (parent : NodeType) : List Node → Bool
  | [] => true
  | n :: ns => parent.holds n.type && n.fits && allFit parent ns

end

theorem allFit_iff {parent : NodeType} {ns : List Node} :
    allFit parent ns = true ↔ ∀ n ∈ ns, parent.holds n.type = true ∧ n.fits = true := by
  induction ns with
  | nil => simp [allFit]
  | cons n ns ih => simp [allFit, ih, and_assoc]

theorem allFit_append (parent : NodeType) (ms ns : List Node) :
    allFit parent (ms ++ ns) = (allFit parent ms && allFit parent ns) := by
  induction ms with
  | nil => simp [allFit]
  | cons m ms ih => simp [allFit, ih, Bool.and_assoc]

theorem Node.fits_eq (n : Node) : n.fits = allFit n.type n.children := by
  cases n <;> simp [fits, allFit, children, children?, type]

/-- Children added at the end fit if they and the node before fit. -/
theorem Node.fits_withChildren_append {n : Node} (h : n.children?.isSome) (ns : List Node) :
    (n.withChildren (n.children ++ ns)).fits = (n.fits && allFit n.type ns) := by
  have hc : (n.withChildren (n.children ++ ns)).children = n.children ++ ns := by
    obtain ⟨cs, hcs⟩ := Option.isSome_iff_exists.1 h
    simp [children, children?_withChildren, hcs]
  rw [fits_eq, type_withChildren, hc, allFit_append, ← fits_eq]

end PageExport.Markdown
