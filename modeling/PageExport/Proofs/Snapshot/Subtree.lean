import PageExport.Snapshot.Block

/-!
The blocks of a tree: all of them in pre-order, and each at its position, the path of child indices
that leads to it.
-/
namespace PageExport.Block

mutual

/-- A block and the blocks below it, in pre-order. -/
def subtree : Block → List Block
  | ⟨id, tag, props, children⟩ => ⟨id, tag, props, children⟩ :: subtrees children

def subtrees : List Block → List Block
  | [] => []
  | b :: bs => b.subtree ++ subtrees bs

end

/-- The block at a position, if the path does not leave the tree. -/
def at? : List Nat → Block → Option Block
  | [], b => some b
  | i :: path, b => b.children[i]?.bind (at? path)

/-- The tree with another block at a position. -/
def replaceAt : List Nat → Block → Block → Block
  | [], _, new => new
  | i :: path, b, new => { b with children := b.children.modify i fun c => replaceAt path c new }

theorem at?_cons_eq_some_iff {i : Nat} {path : List Nat} {t b : Block} :
    t.at? (i :: path) = some b ↔ ∃ c, t.children[i]? = some c ∧ c.at? path = some b := by
  simp [at?, Option.bind_eq_some_iff]

end PageExport.Block
