import PageExport.Proofs.Walk.Steps

/-!
Open nodes that stay open. Steps of the walk add children to an open node and open nodes above it, but
they close lists only.
-/
namespace PageExport

open Markdown (Node NodeType)

/-- The open node `o` is still there above `rest`, with further children at most. -/
def Over (o : OpenNode (Option String)) (rest stack : List (OpenNode (Option String))) : Prop :=
  ∃ above ns, stack = above ++ { o with node := o.node.addChildren ns } :: rest

namespace Over

variable {o x : OpenNode (Option String)} {rest xs : List (OpenNode (Option String))}

theorem refl (o : OpenNode (Option String)) (rest : List (OpenNode (Option String))) :
    Over o rest (o :: rest) := ⟨[], [], by simp⟩

theorem append (h : Over o rest xs) (above : List (OpenNode (Option String))) :
    Over o rest (above ++ xs) := by
  obtain ⟨above', ns, rfl⟩ := h
  exact ⟨above ++ above', ns, (List.append_assoc ..).symm⟩

theorem addChildren (h : Over o rest (x :: xs)) (ns : List Node) :
    Over o rest ({ x with node := x.node.addChildren ns } :: xs) := by
  obtain ⟨above, ms, hx⟩ := h
  cases above with
  | nil =>
    obtain ⟨rfl, rfl⟩ := List.cons.inj hx
    exact ⟨[], ms ++ ns, by simp⟩
  | cons y above =>
    obtain ⟨rfl, rfl⟩ := List.cons.inj hx
    exact ⟨_ :: above, ms, rfl⟩

theorem tail (h : Over o rest (x :: xs)) (ho : o.node.type ≠ x.node.type) : Over o rest xs := by
  obtain ⟨above, ms, hx⟩ := h
  cases above with
  | nil =>
    obtain ⟨rfl, -⟩ := List.cons.inj hx
    simp at ho
  | cons y above => exact ⟨above, ms, (List.cons.inj hx).2⟩

end Over

namespace Over

variable {o : OpenNode (Option String)} {rest : List (OpenNode (Option String))} {c : WalkContext}

theorem closed (h : Over o rest c.stack) (ho : o.node.type ≠ .list) (parent : Option String) :
    Over o rest (Walk.closed parent c).stack := by
  unfold Walk.closed
  split
  · next hn hout =>
    split
    · have htail : Over o rest c.outer := Over.tail h (by rwa [hn])
      rw [hout] at htail
      exact htail.addChildren _
    · exact h
  · exact h

/-- Below the item that a list block opens. -/
theorem tail_itemEntered (h : Over o rest c.stack) (ho : o.node.type ≠ .list) (p : ListProps)
    (parent : Option String) (prior : Option ListSignature) :
    Over o rest (Walk.itemEntered p parent prior c).stack.tail := by
  unfold Walk.itemEntered
  split
  · exact h
  · exact (h.closed ho parent).append [_]

end Over
end PageExport
