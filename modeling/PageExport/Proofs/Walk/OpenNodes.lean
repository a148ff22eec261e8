import PageExport.Proofs.Bind
import PageExport.Proofs.Walk.SharedNodes

/-!
A context where nodes are shared does what one without shared nodes does: each operation ends the same
way in both, and takes corresponding states to corresponding ones.
-/
namespace PageExport

open Markdown (Node)

namespace SharedContext

open Context (GrownFrom Grows)

/-- The open nodes, their scopes and the lasting values of `s` are those of `c`. -/
structure Refines (s : SharedContext) (c : KeyContext) : Prop where
  branch : Branch s.nodes [] s.nodes.length c.stack s.stack.reverse
  bottom : s.stack.head? = some 0
  locals : s.locals.reverse = c.stack.map (·.scope)
  globals : s.globals = c.global

/-- The state after another tree is stored. -/
def stored (s : SharedContext) (n : Node) : SharedContext :=
  { s with nodes := s.nodes ++ n.store s.nodes.length }

variable {root n : Node} {s t : SharedContext} {c d : KeyContext}

theorem refines_start (root : Node) : Refines (start root) (.start root []) where
  branch := by
    have hstored : Holds (root.store 0) 0 (root.store 0).length root := holds_stored [] root
    obtain @⟨_, _, _, ids, hroot, hbelow⟩ := hstored
    have hnode : (root.store 0)[0]? =
        some ⟨root.withChildren [], root.children?.map fun _ => ids ++ []⟩ := by simpa using hroot
    exact .cons hnode hbelow (.nil _ _)
  bottom := rfl
  locals := rfl
  globals := rfl

namespace Refines

theorem exists_stack (h : Refines s c) : ∃ id ids, s.stack.reverse = id :: ids :=
  h.branch.exists_ids

theorem length_stack (h : Refines s c) : s.stack.length = c.depth + 1 := by
  have hlength := h.branch.length_eq
  rw [List.length_reverse] at hlength
  exact hlength.symm

theorem length_locals (h : Refines s c) : s.locals.length = c.depth + 1 := by
  have hlength := congrArg List.length h.locals
  rw [List.length_reverse, List.length_map] at hlength
  exact hlength

theorem getLast?_locals (h : Refines s c) : s.locals.getLast? = some c.current.scope := by
  rw [← List.head?_reverse, h.locals]
  rfl

theorem tree?_eq (h : Refines s c) (hc : GrownFrom root c) : s.tree? = some c.tree := by
  obtain ⟨id, ids, hs⟩ := h.exists_stack
  have hbranch := h.branch
  rw [hs] at hbranch
  obtain ⟨first, hfirst, hholds⟩ := hbranch.holds hc.room
  rw [← hs, List.getLast?_reverse] at hfirst
  rw [tree?, hfirst]
  exact hholds.readNode (Nat.le_add_left _ _)

theorem setScope (h : Refines s c) (scope : Members) :
    Refines { s with locals := s.locals.dropLast ++ [scope] } (c.setScope scope) where
  branch := h.branch.setScope scope
  bottom := h.bottom
  locals := by
    rw [List.reverse_concat, ← List.tail_reverse, h.locals]
    rfl
  globals := h.globals

theorem stored (h : Refines s c) (n : Node) : Refines (s.stored n) c where
  branch := by
    refine (h.branch.congr fun i hi => ?_).mono ?_
    · exact List.getElem?_append_left hi
    · simp [SharedContext.stored]
  bottom := h.bottom
  locals := h.locals
  globals := h.globals

end Refines

theorem look_eq {α : Type} {f : SharedContext → Option α} {a : α} (h : f s = some a) :
    look f s = .ok a s := by
  rw [look, h]

/-- An operation that starts in `s` succeeds where the one without shared nodes does, or changes nothing. -/
inductive Settles {α : Type} (s : SharedContext) :
    EStateM.Result SharedFault SharedContext α → Except ContextFault KeyContext → Prop
  | ok {a : α} {t : SharedContext} {d : KeyContext} (h : Refines t d) : Settles s (.ok a t) (.ok d)
  | error (f : ContextFault) : Settles s (.error (.context f) s) (.error f)

/-- Actions give the same answer or fault, and the states that they leave correspond. -/
inductive Ends : EStateM.Result SharedFault SharedContext Value → KeyContext.Outcome → Prop
  | ok {v : Value} {t : SharedContext} {d : KeyContext} (h : Refines t d) : Ends (.ok v t) (.ok v, d)
  | error {f : ContextFault} {t : SharedContext} {d : KeyContext} (h : Refines t d) :
    Ends (.error (.context f) t) (.error f, d)

theorem Settles.exists_ok {α : Type} {x : EStateM.Result SharedFault SharedContext α}
    (hx : Settles s x (.ok d)) : ∃ a t, x = .ok a t ∧ Refines t d := by
  cases hx with
  | ok h => exact ⟨_, _, rfl, h⟩

theorem Settles.eq_error {α : Type} {x : EStateM.Result SharedFault SharedContext α} {f : ContextFault}
    (hx : Settles s x (.error f)) : x = .error (.context f) s := by
  cases hx
  rfl

theorem Ends.exists_ok {x : EStateM.Result SharedFault SharedContext Value} {v : Value}
    (hx : Ends x (.ok v, d)) : ∃ t, x = .ok v t ∧ Refines t d := by
  cases hx with
  | ok h => exact ⟨_, rfl, h⟩

theorem Ends.exists_error {x : EStateM.Result SharedFault SharedContext Value} {f : ContextFault}
    (hx : Ends x (.error f, d)) : ∃ t, x = .error (.context f) t ∧ Refines t d := by
  cases hx with
  | error h => exact ⟨_, rfl, h⟩

theorem Settles.bind {α : Type} {x : Building α} {f : α → Building Value}
    {r : Except ContextFault KeyContext} {o : KeyContext.Outcome}
    (hx : Settles s (x s) r) (h : Refines s c)
    (hok : ∀ a t d, r = .ok d → Refines t d → Ends (f a t) o)
    (herror : ∀ e, r = .error e → o = (.error e, c)) : Ends ((x >>= f) s) o := by
  cases r with
  | ok d =>
    obtain ⟨a, t, hs, ht⟩ := hx.exists_ok
    rw [bind_of_eq_ok hs]
    exact hok a t d rfl ht
  | error e =>
    rw [bind_of_eq_error hx.eq_error, herror e rfl]
    exact .error h

theorem Ends.bind {x : Building Value} {f : Value → Building Value} {r o : KeyContext.Outcome}
    (hx : Ends (x s) r) (hok : ∀ v t d, r = (.ok v, d) → Refines t d → Ends (f v t) o)
    (herror : ∀ e d, r = (.error e, d) → o = r) : Ends ((x >>= f) s) o := by
  obtain ⟨answer, d⟩ := r
  cases answer with
  | ok v =>
    obtain ⟨t, hs, ht⟩ := hx.exists_ok
    rw [bind_of_eq_ok hs]
    exact hok v t d rfl ht
  | error e =>
    obtain ⟨t, hs, ht⟩ := hx.exists_error
    rw [bind_of_eq_error hs, herror e d rfl]
    exact .error ht

theorem Settles.ends {x : Building Unit} {r : Except ContextFault KeyContext} (hx : Settles s (x s) r)
    (h : Refines s c) : Ends ((do x; return .null : Building Value) s) (KeyContext.settle c r) := by
  refine hx.bind h (fun _ t d hd ht => ?_) fun e he => ?_
  · rw [hd]
    exact .ok ht
  · rw [he, KeyContext.settle]

/-- A stored tree is opened as the last child of the current node. -/
theorem openNode_settles (h : Refines s c) (n : Node) :
    Settles (s.stored n) (openNode s.nodes.length (s.stored n)) (c.openNode n) := by
  obtain ⟨id, ids, hs⟩ := h.exists_stack
  have htop : (s.stored n).stack.getLast? = some id := by
    rw [← List.head?_reverse]
    exact congrArg List.head? hs
  have hnew : Holds (s.stored n).nodes s.nodes.length (s.stored n).nodes.length n :=
    holds_stored s.nodes n
  have hbranch : Branch (s.stored n).nodes [] s.nodes.length (c.current :: c.outer) (id :: ids) := by
    rw [← hs]
    exact h.branch.congr fun i hi => List.getElem?_append_left hi
  obtain ⟨hlt, closed, hnode⟩ := hbranch.exists_node
  unfold openNode
  rw [bind_of_eq_ok (look_eq htop), bind_of_eq_ok (look_eq hnode)]
  cases hc : c.current.node.children? with
  | none =>
    obtain ⟨hroot, -⟩ := hnew
    have hfault : c.openNode n = .error (.childless n.type c.current.node.type) := by
      rw [Context.openNode, hc]
      rfl
    simp only [Option.map_none]
    rw [bind_of_eq_ok (look_eq hroot), hfault]
    rw [Node.type_withChildren, Node.type_withChildren]
    exact .error _
  | some cs =>
    have hroom : c.current.node.children?.isSome := Option.isSome_iff_exists.2 ⟨cs, hc⟩
    rw [Context.openNode, if_pos hroom]
    refine .ok ⟨?_, ?_, ?_, h.globals⟩
    · let nodes := (s.stored n).nodes.set id
        ⟨c.current.node.withChildren [], some (closed ++ [s.nodes.length])⟩
      have hlength : nodes.length = (s.stored n).nodes.length := List.length_set
      have hwritten : nodes[id]? = ((s.stored n).nodes[id]?).map fun node =>
          { node with children := node.children.map (· ++ [s.nodes.length]) } := by
        have hbound : id < (s.stored n).nodes.length := hlt.trans hnew.lt
        rw [List.getElem?_set_self hbound, hnode, hc]
        rfl
      have hopened : Branch nodes [] nodes.length (⟨n, default⟩ :: c.stack)
          (s.stack ++ [s.nodes.length]).reverse := by
        rw [List.reverse_concat, hs, hlength]
        exact hbranch.openBehind hnew hroom hwritten fun i hi => List.getElem?_set_ne hi.symm
      exact hopened
    · change (s.stack ++ [s.nodes.length]).head? = some 0
      rw [List.head?_append, h.bottom]
      rfl
    · change (s.locals ++ [[]]).reverse = [] :: c.stack.map (·.scope)
      rw [List.reverse_concat, h.locals]

/-- The two lists lose their last elements one after the other. -/
theorem pop_eq {id : Nat} {scope : Members} (hid : s.stack.getLast? = some id)
    (hscope : s.locals.getLast? = some scope) : (do popStack; popLocals : Building Unit) s =
      .ok () { s with stack := s.stack.dropLast, locals := s.locals.dropLast } := by
  have hpopped : popStack s = .ok () { s with stack := s.stack.dropLast } := bind_of_eq_ok (look_eq hid)
  rw [bind_of_eq_ok hpopped]
  exact bind_of_eq_ok (look_eq hscope)

/-- The node that is closed stays the last child of the one around it. -/
theorem closeNode_settles (h : Refines s c) (hc : GrownFrom root c) :
    Settles s (closeNode s) c.closeNode := by
  have hlength := h.length_stack
  have hlook : look (fun s => some s.stack.length) s = .ok (c.depth + 1) s := by
    rw [← hlength]
    exact look_eq rfl
  unfold closeNode
  rw [bind_of_eq_ok hlook]
  cases ho : c.outer with
  | nil =>
    have hdepth : c.depth + 1 = 1 := by rw [Context.depth, ho]; rfl
    have hfault : c.closeNode = .error .closesRoot := Context.closeNode_eq_error_iff.2 ⟨ho, rfl⟩
    rw [if_pos hdepth, hfault]
    exact .error _
  | cons o outer =>
    have hdepth : c.depth + 1 ≠ 1 := by simp [Context.depth, ho]
    have hclose : c.closeNode = .ok ⟨{ o with node := o.node.addChild c.current.node }, outer, c.global⟩ := by
      rw [Context.closeNode, ho]
    have hbranch : Branch s.nodes [] s.nodes.length (c.current :: o :: outer) s.stack.reverse := by
      rw [← ho]
      exact h.branch
    have hscopes : s.locals.reverse = c.current.scope :: o.scope :: outer.map (·.scope) := by
      rw [h.locals, Context.stack, ho]
      rfl
    obtain ⟨id, ids, hs⟩ := h.exists_stack
    have htop : s.stack.getLast? = some id := by rw [← List.head?_reverse, hs]; rfl
    rw [if_neg hdepth, pop_eq htop h.getLast?_locals, hclose]
    refine .ok ⟨?_, ?_, ?_, h.globals⟩
    · change Branch s.nodes [] s.nodes.length _ s.stack.dropLast.reverse
      rw [hs] at hbranch
      rw [← List.tail_reverse, hs]
      exact hbranch.close (hc.room o (by simp [ho]))
    · change s.stack.dropLast.head? = some 0
      rw [List.head?_dropLast, if_pos (by omega), h.bottom]
    · change s.locals.dropLast.reverse = o.scope :: outer.map (·.scope)
      rw [← List.tail_reverse, hscopes]
      rfl

/-- What is opened can be closed. -/
theorem append_settles (h : Refines s c) (hc : GrownFrom root c) (n : Node) :
    Settles (s.stored n) (append s.nodes.length (s.stored n)) (c.append n) := by
  have hopen := openNode_settles h n
  unfold append Context.append
  cases hd : c.openNode n with
  | ok d =>
    rw [hd] at hopen
    obtain ⟨_, t, hx, ht⟩ := hopen.exists_ok
    have hclose := closeNode_settles ht (hc.openNode hd)
    obtain ⟨-, rfl⟩ := Context.openNode_eq_ok_iff.1 hd
    obtain ⟨_, u, hy, hu⟩ := hclose.exists_ok
    rw [bind_of_eq_ok hx, hy]
    exact .ok hu
  | error f =>
    rw [hd] at hopen
    rw [bind_of_eq_error hopen.eq_error]
    exact .error f

/-- However the computation ends, in both the current node is closed behind it. -/
theorem ends_closing {x : Building Value} {r : KeyContext.Outcome} (hx : Ends (x s) r)
    (hr : GrownFrom root r.2) : Ends (closing x s) (KeyContext.closeAfter r) := by
  unfold closing KeyContext.closeAfter
  generalize x s = outcome at hx
  cases hx with
  | @ok v t d ht =>
    have hclose := closeNode_settles ht hr
    dsimp only
    generalize closeNode t = closed, d.closeNode = closed' at hclose
    cases hclose with
    | ok hu => exact .ok hu
    | error f => exact .error ht
  | @error f t d ht =>
    have hclose := closeNode_settles ht hr
    dsimp only
    generalize closeNode t = closed, d.closeNode = closed' at hclose
    cases hclose with
    | ok hu => exact .error hu
    | error f => exact .error ht

mutual

theorem ends_perform {s : SharedContext} {c : KeyContext} (h : Refines s c) (hc : GrownFrom root c)
    (a : Action) :
    Ends (perform a s) (c.perform a) := by
  cases a with
  | openNode n => exact (openNode_settles h n).ends (h.stored n)
  | append n => exact (append_settles h hc n).ends (h.stored n)
  | closeNode => exact (closeNode_settles h hc).ends h
  | setGlobal key v => exact .ok ⟨h.branch, h.bottom, h.locals, congrArg (·.insert key v) h.globals⟩
  | getGlobal key default =>
    have hlook : look (fun s => some s.globals) s = .ok c.global s := by
      rw [← h.globals]
      exact look_eq rfl
    rw [perform, KeyContext.perform, bind_of_eq_ok hlook]
    exact .ok h
  | setLocal key v =>
    rw [perform, KeyContext.perform, bind_of_eq_ok (look_eq h.getLast?_locals)]
    exact .ok (h.setScope _)
  | getLocal key default =>
    rw [perform, KeyContext.perform, bind_of_eq_ok (look_eq h.getLast?_locals)]
    exact .ok h
  | opened n inner =>
    rw [perform, KeyContext.perform, bind_of_eq_ok (rfl : store n s = .ok s.nodes.length (s.stored n))]
    refine (openNode_settles h n).bind (h.stored n) (fun _ t d hd ht => ?_) fun e he => by rw [he]
    rw [hd]
    have hgrown := hc.openNode hd
    exact ends_closing (ends_performAll ht hgrown inner) (KeyContext.grown_performAll hgrown inner)

theorem ends_performAll {s : SharedContext} {c : KeyContext} (h : Refines s c)
    (hc : GrownFrom root c) (as : List Action) :
    Ends (performAll as s) (c.performAll as) := by
  cases as with
  | nil => exact .ok h
  | cons a as =>
    rw [performAll, KeyContext.performAll]
    refine (ends_perform h hc a).bind (fun v t d hd ht => ?_) fun e d hd => by rw [hd]
    have hgrown := KeyContext.grown_perform hc a
    rw [hd] at hgrown ⊢
    exact ends_performAll ht hgrown as

end

/-- The nodes of `n`, if `a` puts them into the tree. -/
def added (s : SharedContext) (n : Node) (a : Action) : List Markdown.Placed :=
  match perform a s with
  | .ok _ _ => n.placed (s.depth + 1)
  | .error _ _ => []

mutual

/-- The nodes that the openings of an action put into the tree. -/
def openings (s : SharedContext) : Action → List Markdown.Placed
  | .openNode n => added s n (.openNode n)
  | .append n => added s n (.append n)
  | .opened n inner =>
    match perform (.openNode n) s with
    | .ok _ t => n.placed (s.depth + 1) ++ openingsAll t inner
    | .error _ _ => []
  | .closeNode | .setGlobal _ _ | .getGlobal _ _ | .setLocal _ _ | .getLocal _ _ => []

/-- The actions up to the first one that fails. -/
def openingsAll (s : SharedContext) : List Action → List Markdown.Placed
  | [] => []
  | a :: as =>
    openings s a ++ match perform a s with
      | .ok _ t => openingsAll t as
      | .error _ _ => []

end

theorem Refines.depth_eq (h : Refines s c) : s.depth = c.depth := by
  rw [depth, h.length_stack, Nat.add_sub_cancel]

theorem grows_added {a : Action} {r : Except ContextFault KeyContext}
    (hends : Ends (perform a s) (KeyContext.settle c r)) (h : Refines s c) (hc : GrownFrom root c)
    (hr : ∀ d, r = .ok d → Grows root c (n.placed (c.depth + 1)) d) :
    Grows root c (added s n a) (KeyContext.settle c r).2 := by
  rw [added, h.depth_eq]
  generalize perform a s = x at hends
  cases r with
  | ok d => cases hends with
    | ok _ => exact hr d rfl
  | error f => cases hends with
    | error _ => exact Grows.refl hc

mutual

theorem grows_perform {s : SharedContext} {c : KeyContext} (h : Refines s c) (hc : GrownFrom root c)
    (a : Action) : Grows root c (openings s a) (c.perform a).2 := by
  cases a with
  | openNode n => exact grows_added (ends_perform h hc (.openNode n)) h hc fun d => Grows.openNode hc
  | append n => exact grows_added (ends_perform h hc (.append n)) h hc fun d => Grows.append hc
  | closeNode =>
    rw [KeyContext.perform, openings]
    cases hd : c.closeNode with
    | ok d => exact Grows.closeNode hc hd
    | error f => exact Grows.refl hc
  | setGlobal key v | getGlobal key default | setLocal key v | getLocal key default =>
    exact Grows.of_tree_eq ⟨hc.room, hc.bottom⟩ rfl
  | opened n inner =>
    have hends : Ends (perform (.openNode n) s) (KeyContext.settle c (c.openNode n)) :=
      ends_perform h hc (.openNode n)
    rw [KeyContext.perform, openings, h.depth_eq]
    generalize perform (.openNode n) s = x at hends
    cases hd : c.openNode n with
    | ok d =>
      rw [hd] at hends
      obtain ⟨ht⟩ := hends
      have hopen := Grows.openNode hc hd
      exact KeyContext.grows_closeAfter (hopen.trans (grows_performAll ht hopen.grown inner))
    | error f =>
      rw [hd] at hends
      obtain ⟨ht⟩ := hends
      exact Grows.refl hc

theorem grows_performAll {s : SharedContext} {c : KeyContext} (h : Refines s c)
    (hc : GrownFrom root c) (as : List Action) : Grows root c (openingsAll s as) (c.performAll as).2 := by
  cases as with
  | nil => exact Grows.refl hc
  | cons a as =>
    have hends := ends_perform h hc a
    have hstep := grows_perform h hc a
    rw [openingsAll, KeyContext.performAll]
    generalize perform a s = x at hends
    generalize c.perform a = r at hends hstep
    cases hends with
    | ok ht => exact hstep.trans (grows_performAll ht hstep.grown as)
    | error ht => simpa using hstep

end

/-- The state after some actions, of which each is performed whether or not others failed. -/
def run (s : SharedContext) (as : List Action) : SharedContext := as.foldl after s

theorem refines_after (h : Refines s c) (hc : GrownFrom root c) (a : Action) :
    Refines (s.after a) (c.perform a).2 := by
  have hends := ends_perform h hc a
  unfold after
  generalize perform a s = x, c.perform a = r at hends
  cases hends with
  | ok ht | error ht => exact ht

theorem exists_refines_run (h : Refines s c) (hc : GrownFrom root c) (as : List Action) :
    ∃ further d, Grows root c further d ∧ Refines (run s as) d := by
  induction as generalizing s c with
  | nil => exact ⟨[], c, Grows.refl hc, h⟩
  | cons a as ih =>
    have hstep := grows_perform h hc a
    obtain ⟨further, d, hrest, hd⟩ := ih (refines_after h hc a) hstep.grown
    exact ⟨_, d, hstep.trans hrest, hd⟩

theorem Settles.eq_of_error {α : Type} {x : Building α} {f : α → Building Value}
    {r : Except ContextFault KeyContext} {e : SharedFault} (hx : Settles s (x s) r)
    (hf : ∀ a u, x s = .ok a u → ∃ v, f a u = .ok v u) (he : (x >>= f) s = .error e t) : t = s := by
  cases r with
  | ok d =>
    obtain ⟨a, u, hs, -⟩ := hx.exists_ok
    obtain ⟨v, hv⟩ := hf a u hs
    rw [bind_of_eq_ok hs, hv] at he
    cases he
  | error f =>
    rw [bind_of_eq_error hx.eq_error] at he
    cases he
    rfl

/-- An action that fails changes nothing, unless it is a block whose node was opened. The node that it
was about is stored all the same, apart from the tree. -/
theorem perform_of_error {a : Action} {e : SharedFault} (h : Refines s c) (hc : GrownFrom root c)
    (he : perform a s = .error e t)
    (ha : ∀ n inner v u, a = .opened n inner → perform (.openNode n) s ≠ .ok v u) :
    t = s ∨ ∃ n, t = s.stored n := by
  have hends := ends_perform h hc a
  rw [he] at hends
  cases a with
  | openNode n => exact .inr ⟨n, (openNode_settles h n).eq_of_error (fun _ _ _ => ⟨.null, rfl⟩) he⟩
  | append n => exact .inr ⟨n, (append_settles h hc n).eq_of_error (fun _ _ _ => ⟨.null, rfl⟩) he⟩
  | closeNode => exact .inl ((closeNode_settles h hc).eq_of_error (fun _ _ _ => ⟨.null, rfl⟩) he)
  | setGlobal key v | getGlobal key default | setLocal key v | getLocal key default => cases hends
  | opened n inner =>
    have hopen (v : Unit) (u : SharedContext) : openNode s.nodes.length (s.stored n) ≠ .ok v u :=
      fun hu => ha n inner .null u rfl (bind_of_eq_ok hu)
    exact .inr ⟨n, (openNode_settles h n).eq_of_error (fun v u hu => absurd hu (hopen v u)) he⟩

/-- After any actions on the shared state there are as many scopes as open nodes, which are a branch of the
tree: the first is the root, and each other one is the last child of the one before. An action that fails
leaves the tree, the open nodes and the scopes as they were, apart from a block that could be opened. The
tree only grows behind its last node in pre-order, by the nodes that are opened or appended. -/
theorem open_nodes_of_run (root : Node) (as : List Action) :
    let s := run (start root) as
    ∃ tree, s.tree? = some tree ∧
    (s.stack.length = s.locals.length ∧ 1 ≤ s.stack.length) ∧
    (s.stack.head? = some 0 ∧ ∃ ns, tree = root.addChildren ns) ∧
    (s.stack.IsChain fun parent id =>
      ∃ node ids, s.nodes[parent]? = some ⟨node, some (ids ++ [id])⟩) ∧
    (∀ a e t, perform a s = .error e t → (∃ f, e = .context f) ∧
      ((∀ n inner v u, a = .opened n inner → perform (.openNode n) s ≠ .ok v u) →
        s.nodes <+: t.nodes ∧ t.stack = s.stack ∧ t.locals = s.locals ∧ t.globals = s.globals ∧
          t.tree? = some tree)) ∧
    (∀ a, ∃ grown, (s.after a).tree? = some grown ∧
      grown.placed 0 = tree.placed 0 ++ openings s a ∧ (openings s a = [] → grown = tree)) ∧
    ∀ bs, ∃ grown, (run s bs).tree? = some grown ∧ tree.placed 0 <+: grown.placed 0 := by
  intro s
  obtain ⟨_, c, hrun, h⟩ := exists_refines_run (refines_start root) (GrownFrom.start root []) as
  have hc := hrun.grown
  refine ⟨c.tree, h.tree?_eq hc, ⟨?_, ?_⟩, ⟨h.bottom, hc.exists_tree_eq⟩, ?_, fun a e t he => ⟨?_, fun ha => ?_⟩,
    fun a => ?_, fun bs => ?_⟩
  · rw [h.length_stack, h.length_locals]
  · rw [h.length_stack]
    omega
  · exact List.isChain_reverse.1 (h.branch.isChain hc.room)
  · have hends := ends_perform h hc a
    rw [he] at hends
    generalize KeyContext.perform c a = r at hends
    cases hends
    exact ⟨_, rfl⟩
  · obtain rfl | ⟨n, rfl⟩ := perform_of_error h hc he ha
    · exact ⟨List.prefix_rfl, rfl, rfl, rfl, h.tree?_eq hc⟩
    · exact ⟨List.prefix_append _ _, rfl, rfl, rfl, (h.stored n).tree?_eq hc⟩
  · have hgrows := grows_perform h hc a
    exact ⟨_, (refines_after h hc a).tree?_eq hgrows.grown, hgrows.placed, hgrows.same⟩
  · obtain ⟨further, d, hgrows, hd⟩ := exists_refines_run h hc bs
    exact ⟨d.tree, hd.tree?_eq hgrows.grown, further, hgrows.placed.symm⟩

end SharedContext
end PageExport
