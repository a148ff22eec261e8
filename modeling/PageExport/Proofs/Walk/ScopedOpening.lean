import PageExport.Proofs.Walk.Spine

/-!
Blocks that keep a node open. What is done inside a block does not touch the open nodes around it, as
long as the node of the block is not closed there. The end of the block closes the node that is then the
current one, which is the node of the block just if the inner actions left no other node open.
-/
namespace PageExport.KeyContext

open Markdown (Node)

/-- The open nodes of `c` with further ones around them. -/
def above (outer : List (OpenNode Members)) (c : KeyContext) : KeyContext :=
  { c with outer := c.outer ++ outer }

section
variable {outer : List (OpenNode Members)} {c d : KeyContext} {n : Node}

theorem openNode_above (outer : List (OpenNode Members)) (c : KeyContext) (n : Node) :
    (c.above outer).openNode n = (c.openNode n).map (above outer) := by
  unfold Context.openNode above
  split <;> rfl

theorem append_above (outer : List (OpenNode Members)) (c : KeyContext) (n : Node) :
    (c.above outer).append n = (c.append n).map (above outer) := by
  rw [Context.append_eq, Context.append_eq]
  unfold above
  split <;> rfl

theorem closeNode_above (h : c.closeNode = .ok d) (outer : List (OpenNode Members)) :
    (c.above outer).closeNode = .ok (d.above outer) := by
  unfold Context.closeNode at h
  split at h
  · cases h
  · next o inner ho =>
    obtain rfl := Except.ok.inj h
    simp [Context.closeNode, above, ho]

/-- What is done `here` is done alike `there`, where `outer` are open around it, unless it fails for
closing the root. -/
def Lifts (outer : List (OpenNode Members)) (here there : Outcome) : Prop :=
  here.1 ≠ .error .closesRoot → there = (here.1, here.2.above outer)

theorem lifts_settle {x : Except ContextFault KeyContext} :
    Lifts outer (settle c x) (settle (c.above outer) (x.map (above outer))) := by
  intro _
  cases x <;> rfl

theorem lifts_closeNode : Lifts outer (settle c c.closeNode)
    (settle (c.above outer) (c.above outer).closeNode) := by
  intro h
  cases hc : c.closeNode with
  | ok d => rw [closeNode_above hc outer]; rfl
  | error e =>
    obtain ⟨-, rfl⟩ := Context.closeNode_eq_error_iff.1 hc
    rw [hc] at h
    exact absurd rfl h

theorem Lifts.closeAfter {here there : Outcome} (h : Lifts outer here there) :
    Lifts outer (closeAfter here) (closeAfter there) := by
  intro hclosed
  unfold KeyContext.closeAfter at hclosed ⊢
  cases hc : here.2.closeNode with
  | ok d =>
    rw [hc] at hclosed
    rw [h hclosed, closeNode_above hc outer]
  | error e =>
    -- with no node left to close, the block would have failed for closing the root
    obtain ⟨-, rfl⟩ := Context.closeNode_eq_error_iff.1 hc
    rw [hc] at hclosed
    exact absurd rfl hclosed

end

variable (outer : List (OpenNode Members))

mutual

theorem lifts_perform (c : KeyContext) (a : Action) :
    Lifts outer (perform c a) (perform (c.above outer) a) := by
  cases a with
  | openNode n =>
    rw [perform, perform, openNode_above]
    exact lifts_settle
  | append n =>
    rw [perform, perform, append_above]
    exact lifts_settle
  | closeNode =>
    rw [perform, perform]
    exact lifts_closeNode
  | setGlobal key v | getGlobal key default | setLocal key v | getLocal key default =>
    rw [perform, perform]
    exact fun _ => rfl
  | opened n inner =>
    rw [perform, perform, openNode_above]
    cases ho : c.openNode n with
    | ok d => exact (lifts_performAll d inner).closeAfter
    | error e => exact fun _ => rfl

theorem lifts_performAll (c : KeyContext) (as : List Action) :
    Lifts outer (performAll c as) (performAll (c.above outer) as) := by
  cases as with
  | nil =>
    rw [performAll, performAll]
    exact fun _ => rfl
  | cons a as =>
    have hstep := lifts_perform c a
    rw [performAll, performAll]
    cases ha : perform c a with
    | mk answer d =>
      rw [ha] at hstep
      cases answer with
      | ok v =>
        rw [hstep (by simp)]
        exact lifts_performAll d as
      | error e =>
        intro hroot
        rw [hstep hroot]

end

/-- The actions do not close the node around them: with that node as the root, none of them fails for
closing the root. -/
def KeepsOpen (n : Node) (global : Members) (inner : List Action) : Prop :=
  (performAll (.start n global) inner).1 ≠ .error .closesRoot

/-- New nodes go where they went in `c`: the nodes and scopes around that place are those of `c`, and so is
the scope of its node, which has got `n` as a further child. -/
structure Restored (n : Node) (c d : KeyContext) : Prop where
  outer : d.outer = c.outer
  scope : d.current.scope = c.current.scope
  node : ∃ ns, d.current.node = c.current.node.addChild (n.addChildren ns)

theorem openNode_eq_above {c : KeyContext} {n : Node} (h : c.current.node.children?.isSome) :
    c.openNode n = .ok (above c.stack (.start n c.global)) :=
  Context.openNode_eq_ok_iff.2 ⟨h, rfl⟩

/-- The end of a block closes the innermost of the nodes that were left open in it. -/
theorem closeNode_above_stack (c inside : KeyContext) : (inside.above c.stack).closeNode = .ok
    (match inside.outer with
      | [] => ⟨{ c.current with node := c.current.node.addChild inside.current.node }, c.outer,
          inside.global⟩
      | o :: outer => ⟨{ o with node := o.node.addChild inside.current.node }, outer ++ c.stack,
          inside.global⟩) := by
  unfold Context.closeNode above
  cases inside.outer <;> rfl

/-- A block whose inner actions do not close its node ends as they do, be it by a fault. It gives the place
for new nodes back just if they left no node open but that of the block. Otherwise the innermost node they
left open is closed in its place, and all that was open before the block is still there below. -/
theorem restored_opened_iff (c : KeyContext) {n : Node} {inner : List Action}
    (hopen : c.current.node.children?.isSome) (hinner : KeepsOpen n c.global inner) :
    let inside := performAll (.start n c.global) inner
    let left := perform c (.opened n inner)
    left.1 = inside.1 ∧ left.2.depth = c.depth + inside.2.depth ∧
    (Restored n c left.2 ↔ inside.2.depth = 0) ∧
    (inside.2.depth ≠ 0 → c.stack <:+ left.2.outer) := by
  intro inside left
  have hinside : performAll (above c.stack (.start n c.global)) inner =
      (inside.1, inside.2.above c.stack) := lifts_performAll c.stack _ inner hinner
  obtain ⟨ns, hns⟩ :=
    (grown_performAll (Context.GrownFrom.start n c.global) inner).exists_tree_eq
  have hleft : left = closeAfter (inside.1, inside.2.above c.stack) := by
    show perform c (.opened n inner) = _
    rw [perform, openNode_eq_above hopen, ← hinside]
  rw [closeAfter, closeNode_above_stack] at hleft
  change inside.2.tree = n.addChildren ns at hns
  cases houter : inside.2.outer with
  | nil =>
    have hdepth : inside.2.depth = 0 := by rw [Context.depth, houter]; rfl
    rw [houter] at hleft
    rw [Context.tree, houter] at hns
    rw [hleft, hdepth]
    refine ⟨rfl, rfl, iff_of_true ?_ rfl, fun h => absurd rfl h⟩
    exact ⟨rfl, rfl, ns, by rw [← hns]; rfl⟩
  | cons o outer =>
    have hdepth : inside.2.depth = outer.length + 1 := by rw [Context.depth, houter]; rfl
    have hlength : (outer ++ c.stack).length = c.depth + (outer.length + 1) := by
      rw [List.length_append, Context.stack, List.length_cons, Context.depth]
      omega
    rw [houter] at hleft
    rw [hleft, hdepth]
    refine ⟨rfl, hlength, iff_of_false ?_ (Nat.succ_ne_zero _), fun _ => List.suffix_append _ _⟩
    intro h
    have hsame := congrArg List.length h.outer
    change (outer ++ c.stack).length = c.depth at hsame
    omega

def listOpen : KeyContext :=
  run (.start (.root []) []) [.openNode (.list false none false []), .setLocal "k" (.bool true)]

/-- A paragraph in an item, and a rule that has no place for the text in it. -/
def failingBlocks : List Action :=
  [.opened (.paragraph []) [.append (.text (some "a"))], .setLocal "k" .null,
    .opened .thematicBreak [.append (.text (some "b"))]]

theorem restored_failingBlocks : KeepsOpen (.listItem none false []) listOpen.global failingBlocks ∧
    (perform listOpen (.opened (.listItem none false []) failingBlocks)).1 =
      .error (.childless .text .thematicBreak) ∧
    Restored (.listItem none false []) listOpen
      (perform listOpen (.opened (.listItem none false []) failingBlocks)).2 := by
  have hinner : KeepsOpen (.listItem none false []) listOpen.global failingBlocks := by
    intro h
    cases h
  exact ⟨hinner, rfl, ((restored_opened_iff listOpen rfl hinner).2.2.1).2 rfl⟩

/-- A text stays open in a paragraph when the next one fails; closing it leaves the paragraph open. -/
theorem not_restored_openText :
    let texts := [.openNode (.text (some "a")), .openNode (.text (some "b"))]
    let c : KeyContext := .start (.root []) []
    KeepsOpen (.paragraph []) c.global texts ∧
    (perform c (.opened (.paragraph []) texts)).1 = .error (.childless .text .text) ∧
    (perform c (.opened (.paragraph []) texts)).2.depth = 1 ∧
    (perform c (.opened (.paragraph []) texts)).2.current.node.type = .paragraph ∧
    ¬Restored (.paragraph []) c (perform c (.opened (.paragraph []) texts)).2 := by
  intro texts c
  refine ⟨?_, rfl, rfl, rfl, ?_⟩
  · intro h
    cases h
  · intro h
    cases h.outer

end PageExport.KeyContext
