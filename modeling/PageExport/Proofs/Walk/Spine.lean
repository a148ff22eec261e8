import PageExport.Proofs.Walk.Steps
import PageExport.Walk.Script

/-!
A new node comes in below the innermost of the open nodes, each of which is the last child of the one
around it. So in pre-order it stands behind all that the tree had before.
-/
namespace PageExport

open Markdown (Node NodeType)

namespace Markdown

/-- A node of a tree without its children, and the number of nodes above it. -/
structure Placed where
  depth : Nat
  label : Node

mutual

/-- The nodes of a tree in pre-order, where `depth` nodes are above the tree. -/
def Node.placed (depth : Nat) (n : Node) : List Placed :=
  ⟨depth, n.withChildren []⟩ ::
    match n with
    | .strong cs | .emphasis cs | .delete cs | .link _ _ cs | .paragraph cs | .heading _ cs
    | .blockquote cs | .listItem _ _ cs | .list _ _ _ cs | .tableCell cs | .tableRow cs
    | .table _ cs | .root cs => placedAll (depth + 1) cs
    | .text _ | .inlineCode _ | .image _ _ _ | .code _ _ _ | .thematicBreak => []

def placedAll (depth : Nat) : List Node → List Placed
  | [] => []
  | n :: ns => n.placed depth ++ placedAll depth ns

end

theorem placedAll_append (depth : Nat) (ms ns : List Node) :
    placedAll depth (ms ++ ns) = placedAll depth ms ++ placedAll depth ns := by
  induction ms with
  | nil => rfl
  | cons m ms ih => simp only [List.cons_append, placedAll, ih, List.append_assoc]

namespace Node

theorem placed_eq (depth : Nat) (n : Node) :
    n.placed depth = ⟨depth, n.withChildren []⟩ :: placedAll (depth + 1) n.children := by
  cases n <;> rfl

theorem children_addChildren {n : Node} (h : n.children?.isSome) (ns : List Node) :
    (n.addChildren ns).children = n.children ++ ns := by
  obtain ⟨cs, hcs⟩ := Option.isSome_iff_exists.1 h
  simp [addChildren, children, children?_withChildren, hcs]

theorem placed_addChildren {n : Node} (h : n.children?.isSome) (depth : Nat) (ns : List Node) :
    (n.addChildren ns).placed depth = n.placed depth ++ placedAll (depth + 1) ns := by
  have hlabel : (n.addChildren ns).withChildren [] = n.withChildren [] := by cases n <;> rfl
  rw [placed_eq, placed_eq, hlabel, children_addChildren h, placedAll_append, List.cons_append]

theorem placed_addChild {n : Node} (h : n.children?.isSome) (depth : Nat) (m : Node) :
    (n.addChild m).placed depth = n.placed depth ++ m.placed (depth + 1) := by
  have := placed_addChildren h depth [m]
  rwa [placedAll, placedAll, List.append_nil] at this

end Node
end Markdown

namespace Context

variable {γ σ : Type}

def scopes (c : Context γ σ) : List σ := c.stack.map (·.scope)

/-- The nodes of a tree in pre-order, without those below the innermost of its open nodes. -/
def placedAround : List (OpenNode σ) → List Markdown.Placed
  | [] => []
  | o :: outer => placedAround outer ++ o.node.placed outer.length

theorem placed_close {outer : List (OpenNode σ)} (h : ∀ o ∈ outer, o.node.children?.isSome)
    (n : Node) : (close n outer).placed 0 = placedAround outer ++ n.placed outer.length := by
  induction outer generalizing n with
  | nil => rfl
  | cons o outer ih =>
    obtain ⟨ho, houter⟩ := List.forall_mem_cons.1 h
    change (close (o.node.addChild n) outer).placed 0 = _
    rw [ih houter, Node.placed_addChild ho, placedAround, List.append_assoc]
    rfl

/-- The tree is `root` with further children behind its own, and each open node has room for the
next one. -/
structure GrownFrom (root : Node) (c : Context γ σ) : Prop where
  room : ∀ o ∈ c.outer, o.node.children?.isSome
  bottom : ∃ ns, (c.current.node :: c.outer.map (·.node)).getLast? = some (root.addChildren ns)

theorem exists_close_eq {n bottom : Node} {outer : List (OpenNode σ)}
    (h : (n :: outer.map (·.node)).getLast? = some bottom) :
    ∃ ns, close n outer = bottom.addChildren ns := by
  induction outer generalizing n with
  | nil =>
    obtain rfl : n = bottom := by simpa using h
    exact ⟨[], (Node.addChildren_nil n).symm⟩
  | cons o outer ih =>
    rw [List.map_cons, List.getLast?_cons_cons] at h
    cases outer with
    | nil =>
      obtain rfl : o.node = bottom := by simpa using h
      exact ⟨[n], rfl⟩
    | cons p outer =>
      refine ih (n := o.node.addChild n) ?_
      rwa [List.map_cons, List.getLast?_cons_cons] at h ⊢

namespace GrownFrom

variable {root n : Node} {c d : Context γ σ}

theorem start [Inhabited σ] (root : Node) (global : γ) :
    GrownFrom root (Context.start root global : Context γ σ) where
  room := by simp [Context.start]
  bottom := ⟨[], by simp [Context.start]⟩

theorem exists_tree_eq (h : GrownFrom root c) : ∃ ns, c.tree = root.addChildren ns := by
  obtain ⟨ms, hms⟩ := h.bottom
  obtain ⟨ns, hns⟩ := exists_close_eq hms
  exact ⟨ms ++ ns, by rw [tree, hns, Node.addChildren_addChildren]⟩

theorem placed_tree (h : GrownFrom root c) : c.tree.placed 0 = placedAround c.stack :=
  placed_close h.room c.current.node

theorem extend (h : GrownFrom root c) (ns : List Node) : GrownFrom root (c.extend ns) where
  room := h.room
  bottom := by
    obtain ⟨ms, hms⟩ := h.bottom
    cases hc : c.outer with
    | nil =>
      have hroot : c.current.node = root.addChildren ms := by simpa [hc] using hms
      exact ⟨ms ++ ns, by simp [Context.extend, hc, hroot]⟩
    | cons o outer =>
      refine ⟨ms, ?_⟩
      simpa [Context.extend, hc, List.getLast?_cons_cons] using hms

theorem openNode [Inhabited σ] (h : GrownFrom root c) (hd : c.openNode n = .ok d) :
    GrownFrom root d := by
  obtain ⟨hc, rfl⟩ := openNode_eq_ok_iff.1 hd
  obtain ⟨ns, hns⟩ := h.bottom
  exact ⟨List.forall_mem_cons.2 ⟨hc, h.room⟩, ns, by simpa [List.getLast?_cons_cons] using hns⟩

theorem closeNode (h : GrownFrom root c) (hd : c.closeNode = .ok d) : GrownFrom root d := by
  unfold Context.closeNode at hd
  split at hd
  · cases hd
  · next o outer ho =>
    obtain rfl := Except.ok.inj hd
    obtain ⟨ns, hns⟩ := h.bottom
    have hpopped : GrownFrom root (⟨o, outer, c.global⟩ : Context γ σ) := by
      refine ⟨fun p hp => h.room p (by simp [ho, hp]), ns, ?_⟩
      simpa [ho, List.getLast?_cons_cons] using hns
    exact hpopped.extend [c.current.node]

/-- The nodes of an opened node come last in pre-order. -/
theorem placed_openNode [Inhabited σ] (h : GrownFrom root c) (hd : c.openNode n = .ok d) :
    d.tree.placed 0 = c.tree.placed 0 ++ n.placed (c.depth + 1) := by
  rw [(h.openNode hd).placed_tree, h.placed_tree]
  obtain ⟨-, rfl⟩ := openNode_eq_ok_iff.1 hd
  rfl

end GrownFrom

theorem append_eq_ok [Inhabited σ] {n : Node} {c d : Context γ σ} (h : c.append n = .ok d) :
    ∃ e, c.openNode n = .ok e ∧ e.closeNode = .ok d := by
  unfold Context.append at h
  cases he : c.openNode n with
  | ok e =>
    rw [he] at h
    exact ⟨e, rfl, h⟩
  | error f =>
    rw [he] at h
    cases h

/-- A context that went on growing: the nodes of its tree stand before the further ones. -/
structure Grows (root : Node) (c : Context γ σ) (further : List Markdown.Placed) (d : Context γ σ) :
    Prop where
  grown : GrownFrom root d
  placed : d.tree.placed 0 = c.tree.placed 0 ++ further
  same : further = [] → d.tree = c.tree

namespace Grows

variable {root n : Node} {c d e : Context γ σ} {ms ns : List Markdown.Placed}

theorem of_tree_eq (h : GrownFrom root d) (htree : d.tree = c.tree) : Grows root c [] d :=
  ⟨h, by rw [htree, List.append_nil], fun _ => htree⟩

theorem refl (h : GrownFrom root c) : Grows root c [] c := .of_tree_eq h rfl

theorem trans (h : Grows root c ms d) (h' : Grows root d ns e) : Grows root c (ms ++ ns) e where
  grown := h'.grown
  placed := by rw [h'.placed, h.placed, List.append_assoc]
  same hnil := by
    obtain ⟨hms, hns⟩ := List.append_eq_nil_iff.1 hnil
    rw [h'.same hns, h.same hms]

theorem openNode [Inhabited σ] (h : GrownFrom root c) (hd : c.openNode n = .ok d) :
    Grows root c (n.placed (c.depth + 1)) d where
  grown := h.openNode hd
  placed := h.placed_openNode hd
  same hnil := by
    rw [Node.placed_eq] at hnil
    cases hnil

theorem closeNode (h : GrownFrom root c) (hd : c.closeNode = .ok d) : Grows root c [] d :=
  .of_tree_eq (h.closeNode hd) (tree_of_closeNode hd)

theorem append [Inhabited σ] (h : GrownFrom root c) (hd : c.append n = .ok d) :
    Grows root c (n.placed (c.depth + 1)) d := by
  obtain ⟨e, he, hclose⟩ := append_eq_ok hd
  have hopen := Grows.openNode h he
  simpa using hopen.trans (Grows.closeNode hopen.grown hclose)

end Grows
end Context

namespace KeyContext

open Context (GrownFrom Grows)

variable {root : Node}

theorem grows_closeAfter {c : KeyContext} {r : Outcome} {further : List Markdown.Placed}
    (h : Grows root c further r.2) : Grows root c further (closeAfter r).2 := by
  unfold closeAfter
  split
  · next d hd => simpa using h.trans (Grows.closeNode h.grown hd)
  · exact h

mutual

theorem grown_perform {c : KeyContext} (h : GrownFrom root c) (a : Action) :
    GrownFrom root (perform c a).2 := by
  cases a with
  | openNode n =>
    rw [perform]
    cases ho : c.openNode n with
    | ok d => exact h.openNode ho
    | error e => exact h
  | append n =>
    rw [perform]
    cases ha : c.append n with
    | ok d => exact (Grows.append h ha).grown
    | error e => exact h
  | closeNode =>
    rw [perform]
    cases hc : c.closeNode with
    | ok d => exact h.closeNode hc
    | error e => exact h
  | setGlobal key v | getGlobal key default | setLocal key v | getLocal key default =>
    exact ⟨h.room, h.bottom⟩
  | opened n inner =>
    rw [perform]
    cases ho : c.openNode n with
    | ok d => exact (grows_closeAfter (Grows.refl (grown_performAll (h.openNode ho) inner))).grown
    | error e => exact h

theorem grown_performAll {c : KeyContext} (h : GrownFrom root c) (as : List Action) :
    GrownFrom root (performAll c as).2 := by
  cases as with
  | nil => exact h
  | cons a as =>
    have hstep := grown_perform h a
    rw [performAll]
    cases ha : perform c a with
    | mk answer d =>
      rw [ha] at hstep
      cases answer with
      | ok v => exact grown_performAll hstep as
      | error e => exact hstep

end

/-- The context after some actions, of which each is performed whether or not others failed. -/
def run (c : KeyContext) (as : List Action) : KeyContext :=
  as.foldl (fun c a => (perform c a).2) c

end KeyContext
end PageExport
