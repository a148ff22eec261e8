import PageExport.Markdown.Node

/-!
Trees under construction: a stack of open nodes, the innermost of which is where new nodes go. Each
open node has a scope of its own that ends when the node is closed; one scope lasts for the whole
construction.
-/
namespace PageExport

open Markdown (Node NodeType)

/-- An open node with the children closed so far. -/
structure OpenNode (σ : Type) where
  node : Node
  scope : σ

/-- Open nodes from the innermost one outwards, the root last. -/
structure Context (γ σ : Type) where
  current : OpenNode σ
  outer : List (OpenNode σ)
  global : γ

/-- A step that the open nodes do not allow. -/
inductive ContextFault where
  | childless (opened parent : NodeType)
  | closesRoot
  | itemExpected (found : NodeType)
  deriving DecidableEq, Repr

def ContextFault.message : ContextFault → String
  | .childless opened parent => s!"Cannot open {opened.name} inside childless {parent.name}"
  | .closesRoot => "Cannot close the root node"
  | .itemExpected found => s!"Cannot read a list item from {found.name}"

namespace Context

variable {γ σ : Type}

/-- Nothing is open but the root. -/
def start [Inhabited σ] (root : Node) (global : γ) : Context γ σ :=
  ⟨⟨root, default⟩, [], global⟩

def depth (c : Context γ σ) : Nat := c.outer.length

/-- An inner tree as the last child of the open nodes around it. -/
def close (inner : Node) (outer : List (OpenNode σ)) : Node :=
  outer.foldl (fun n o => o.node.addChild n) inner

def tree (c : Context γ σ) : Node := close c.current.node c.outer

/-- Opens a node as the last child of the current one. -/
def openNode [Inhabited σ] (n : Node) (c : Context γ σ) : Except ContextFault (Context γ σ) :=
  if c.current.node.children?.isSome then
    .ok { c with current := ⟨n, default⟩, outer := c.current :: c.outer }
  else .error (.childless n.type c.current.node.type)

/-- Closes the current node. -/
def closeNode (c : Context γ σ) : Except ContextFault (Context γ σ) :=
  match c.outer with
  | [] => .error .closesRoot
  | o :: outer =>
    .ok { c with current := { o with node := o.node.addChild c.current.node }, outer := outer }

/-- Opens a node and closes it at once. -/
def append [Inhabited σ] (n : Node) (c : Context γ σ) : Except ContextFault (Context γ σ) := do
  (← c.openNode n).closeNode

def setScope (scope : σ) (c : Context γ σ) : Context γ σ :=
  { c with current := { c.current with scope := scope } }

theorem openNode_eq_ok_iff [Inhabited σ] {n : Node} {c d : Context γ σ} :
    c.openNode n = .ok d ↔ c.current.node.children?.isSome ∧
      d = { c with current := ⟨n, default⟩, outer := c.current :: c.outer } := by
  unfold openNode
  constructor
  · intro h
    split at h
    · next hc => exact ⟨hc, (Except.ok.inj h).symm⟩
    · cases h
  · rintro ⟨hc, rfl⟩
    rw [if_pos hc]

theorem depth_of_openNode [Inhabited σ] {n : Node} {c d : Context γ σ}
    (h : c.openNode n = .ok d) : d.depth = c.depth + 1 := by
  obtain ⟨-, rfl⟩ := openNode_eq_ok_iff.1 h
  rfl

theorem tree_of_openNode [Inhabited σ] {n : Node} {c d : Context γ σ}
    (h : c.openNode n = .ok d) : d.tree = close (c.current.node.addChild n) c.outer := by
  obtain ⟨-, rfl⟩ := openNode_eq_ok_iff.1 h
  rfl

/-- Closing a node moves the place for new nodes and leaves the tree. -/
theorem tree_of_closeNode {c d : Context γ σ} (h : c.closeNode = .ok d) : d.tree = c.tree := by
  unfold closeNode at h
  split at h
  · cases h
  · next o outer ho => cases h; simp [tree, close, ho]

theorem closeNode_eq_error_iff {c : Context γ σ} {f : ContextFault} :
    c.closeNode = .error f ↔ c.outer = [] ∧ f = .closesRoot := by
  unfold closeNode
  split <;> simp_all [eq_comm]

/-- Appending a node adds it to the current one and opens nothing. -/
theorem append_eq [Inhabited σ] (n : Node) (c : Context γ σ) :
    c.append n = if c.current.node.children?.isSome then
      .ok { c with current := { c.current with node := c.current.node.addChild n } }
    else .error (.childless n.type c.current.node.type) := by
  unfold append openNode
  split <;> rfl

@[simp] theorem tree_setScope (scope : σ) (c : Context γ σ) : (c.setScope scope).tree = c.tree := rfl

@[simp] theorem depth_setScope (scope : σ) (c : Context γ σ) :
    (c.setScope scope).depth = c.depth := rfl

end Context
end PageExport
