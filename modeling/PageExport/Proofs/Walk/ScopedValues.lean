import Mathlib.Data.List.Forall2
import PageExport.Proofs.Walk.Spine

/-!
What scopes answer, read off the operations before. The global scope answers with the last value set
under a key, and the scope of an open node with the last value set while the same opening of that node
was the innermost one, whatever was opened, set and closed in between, and whether or not other
operations failed.
-/
namespace PageExport.KeyContext

open Markdown (Node)

/-- An operation with its answer. -/
structure Performed where
  action : Action
  answer : Except ContextFault Value

mutual

/-- The single operations that an action comes down to, the last one first. A block opens its node,
does what is inside it up to the first failure, and closes the current node. -/
def operations (c : KeyContext) : Action → List Performed
  | .opened n inner =>
    match c.openNode n with
    | .ok d =>
      ⟨.closeNode, (perform (performAll d inner).2 .closeNode).1⟩ ::
        (operationsAll d inner ++ [⟨.openNode n, .ok .null⟩])
    | .error e => [⟨.openNode n, .error e⟩]
  | a => [⟨a, (perform c a).1⟩]

def operationsAll (c : KeyContext) : List Action → List Performed
  | [] => []
  | a :: as =>
    match perform c a with
    | (.ok _, d) => operationsAll d as ++ operations c a
    | (.error _, _) => operations c a

end

/-- The operations of some actions, the last one first. Each action is performed whether or not others
failed. -/
def history (c : KeyContext) : List Action → List Performed
  | [] => []
  | a :: as => history (perform c a).2 as ++ operations c a

/-- The openings that last after some operations (the last one first), the innermost opening first. An
opening goes by the number of operations up to it, the root by zero. -/
def openingsAfter : List Performed → List Nat
  | [] => [0]
  | p :: before =>
    match p.action, p.answer with
    | .openNode _, .ok _ => (before.length + 1) :: openingsAfter before
    | .closeNode, .ok _ => (openingsAfter before).tail
    | _, _ => openingsAfter before

/-- The opening of the node that is the current one after some operations. -/
def innermost (before : List Performed) : Nat := (openingsAfter before).headD 0

/-- The last value that some operations set under a key of the global scope. -/
def lastGlobal (k : String) : List Performed → Option Value
  | [] => none
  | p :: before =>
    match p.action with
    | .setGlobal key v => if k = key then some v else lastGlobal k before
    | _ => lastGlobal k before

/-- The last value that some operations set under a key of a node's scope while `opening` was the
innermost opening. -/
def lastLocal (k : String) (opening : Nat) : List Performed → Option Value
  | [] => none
  | p :: before =>
    match p.action with
    | .setLocal key v =>
      if k = key ∧ innermost before = opening then some v else lastLocal k opening before
    | _ => lastLocal k opening before

/-- Openings are numbered in the order in which they were made. -/
theorem openingsAfter_sorted (before : List Performed) :
    (openingsAfter before).Pairwise (· > ·) ∧ ∀ i ∈ openingsAfter before, i ≤ before.length := by
  induction before with
  | nil => simp [openingsAfter]
  | cons p before ih =>
    obtain ⟨hsorted, hbound⟩ := ih
    have hbound' : ∀ i ∈ openingsAfter before, i ≤ (p :: before).length := by
      intro i hi
      have := hbound i hi
      simp only [List.length_cons]
      omega
    rw [openingsAfter]
    split
    · refine ⟨List.pairwise_cons.2 ⟨?_, hsorted⟩, List.forall_mem_cons.2 ⟨by simp, hbound'⟩⟩
      intro i hi
      have := hbound i hi
      omega
    · exact ⟨hsorted.tail, fun i hi => hbound' i (List.mem_of_mem_tail hi)⟩
    · exact ⟨hsorted, hbound'⟩

theorem innermost_le_length (before : List Performed) : innermost before ≤ before.length := by
  unfold innermost
  cases hlist : openingsAfter before with
  | nil => simp
  | cons i is =>
    apply (openingsAfter_sorted before).2
    simp [hlist]

theorem lastLocal_setLocal (k key : String) (v : Value) (answer : Except ContextFault Value)
    (opening : Nat) (before : List Performed) :
    lastLocal k opening (⟨.setLocal key v, answer⟩ :: before) =
      if k = key ∧ innermost before = opening then some v else lastLocal k opening before := rfl

/-- Nothing was set under an opening that is still to come. -/
theorem lastLocal_eq_none {before : List Performed} {opening : Nat} (h : before.length < opening)
    (k : String) : lastLocal k opening before = none := by
  induction before with
  | nil => rfl
  | cons p before ih =>
    rw [List.length_cons] at h
    have hrest := ih (by omega)
    have hinner : innermost before ≠ opening := by
      have := innermost_le_length before
      omega
    rw [lastLocal]
    split
    · rw [if_neg fun hset => hinner hset.2]
      exact hrest
    · exact hrest

/-- The scopes of a context hold what some operations set. -/
structure Holds (before : List Performed) (c : KeyContext) : Prop where
  global : ∀ k, c.global.lookup k = lastGlobal k before
  scopes : List.Forall₂ (fun opening (scope : Members) => ∀ k, scope.lookup k = lastLocal k opening before)
    (openingsAfter before) c.scopes

theorem scopes_openNode {c d : KeyContext} {n : Node} (h : c.openNode n = .ok d) :
    d.scopes = [] :: c.scopes ∧ d.global = c.global := by
  obtain ⟨-, rfl⟩ := Context.openNode_eq_ok_iff.1 h
  exact ⟨rfl, rfl⟩

theorem scopes_closeNode {c d : KeyContext} (h : c.closeNode = .ok d) :
    c.scopes = c.current.scope :: d.scopes ∧ d.global = c.global := by
  unfold Context.closeNode at h
  split at h
  · cases h
  · next o outer ho =>
    obtain rfl := Except.ok.inj h
    simp [Context.scopes, Context.stack, ho]

theorem scopes_append {c d : KeyContext} {n : Node} (h : c.append n = .ok d) :
    d.scopes = c.scopes ∧ d.global = c.global := by
  rw [Context.append_eq] at h
  split at h
  · obtain rfl := Except.ok.inj h
    exact ⟨rfl, rfl⟩
  · cases h

namespace Holds

variable {before : List Performed} {c d : KeyContext} {n : Node} {answer : Except ContextFault Value}

theorem start (root : Node) : Holds [] (.start root []) where
  global _ := rfl
  scopes := List.Forall₂.cons (fun _ => rfl) List.Forall₂.nil

/-- An operation that neither sets a value nor opens or closes a node. -/
theorem skip (h : Holds before c) {a : Action}
    (hglobal : ∀ k, lastGlobal k (⟨a, answer⟩ :: before) = lastGlobal k before)
    (hlocal : ∀ k i, lastLocal k i (⟨a, answer⟩ :: before) = lastLocal k i before)
    (hopenings : openingsAfter (⟨a, answer⟩ :: before) = openingsAfter before)
    (hscopes : d.scopes = c.scopes) (hsame : d.global = c.global) :
    Holds (⟨a, answer⟩ :: before) d where
  global k := by rw [hsame, hglobal, h.global]
  scopes := by
    rw [hscopes, hopenings]
    simpa only [hlocal] using h.scopes

theorem openNode (h : Holds before c) (hd : c.openNode n = .ok d) :
    Holds (⟨.openNode n, .ok .null⟩ :: before) d := by
  obtain ⟨hscopes, hglobal⟩ := scopes_openNode hd
  refine ⟨fun k => by rw [hglobal, h.global]; rfl, ?_⟩
  rw [hscopes]
  refine List.Forall₂.cons (fun k => ?_) h.scopes
  exact (lastLocal_eq_none (Nat.lt_succ_self before.length) k).symm

theorem closeNode (h : Holds before c) (hd : c.closeNode = .ok d) :
    Holds (⟨.closeNode, .ok .null⟩ :: before) d := by
  obtain ⟨hscopes, hglobal⟩ := scopes_closeNode hd
  refine ⟨fun k => by rw [hglobal, h.global]; rfl, ?_⟩
  have hall := h.scopes
  rw [hscopes] at hall
  show List.Forall₂ _ (openingsAfter before).tail _
  cases hlist : openingsAfter before with
  | nil => simp [hlist] at hall
  | cons i is =>
    rw [hlist] at hall
    exact (List.forall₂_cons.1 hall).2

theorem setGlobal (h : Holds before c) (key : String) (v : Value) :
    Holds (⟨.setGlobal key v, answer⟩ :: before) { c with global := c.global.insert key v } where
  global k := by rw [Members.lookup_insert, h.global]; rfl
  scopes := h.scopes

/-- Setting a value in the current scope leaves the scopes of other openings. -/
theorem setLocal (h : Holds before c) (key : String) (v : Value) :
    Holds (⟨.setLocal key v, answer⟩ :: before) (c.setScope (c.current.scope.insert key v)) := by
  refine ⟨h.global, ?_⟩
  have hall := h.scopes
  change List.Forall₂ _ _ (c.current.scope :: c.outer.map (·.scope)) at hall
  show List.Forall₂ _ (openingsAfter before) (c.current.scope.insert key v :: c.outer.map (·.scope))
  cases hlist : openingsAfter before with
  | nil => simp [hlist] at hall
  | cons i is =>
    have hinner : innermost before = i := by simp [innermost, hlist]
    have hsorted := (openingsAfter_sorted before).1
    rw [hlist] at hall hsorted
    obtain ⟨hcurrent, houter⟩ := List.forall₂_cons.1 hall
    refine List.Forall₂.cons (fun k => ?_) ?_
    · rw [Members.lookup_insert, hcurrent, lastLocal_setLocal, hinner]
      simp
    · have hothers : ∀ j ∈ is, innermost before ≠ j := by
        intro j hj
        have := List.rel_of_pairwise_cons hsorted hj
        omega
      refine ((List.forall₂_and_left _ _).2 ⟨hothers, houter⟩).imp ?_
      intro j scope ⟨hj, hscope⟩ k
      rw [hscope, lastLocal_setLocal, if_neg fun hset => hj hset.2]

/-- What a single operation does to the scopes. -/
theorem perform (h : Holds before c) {a : Action} (ha : ∀ n inner, a ≠ .opened n inner) :
    Holds (⟨a, (perform c a).1⟩ :: before) (perform c a).2 := by
  cases a with
  | openNode n =>
    rw [KeyContext.perform]
    cases hd : c.openNode n with
    | ok d => exact h.openNode hd
    | error e => exact h.skip (fun _ => rfl) (fun _ _ => rfl) rfl rfl rfl
  | append n =>
    rw [KeyContext.perform]
    cases hd : c.append n with
    | ok d =>
      obtain ⟨hscopes, hglobal⟩ := scopes_append hd
      exact h.skip (fun _ => rfl) (fun _ _ => rfl) rfl hscopes hglobal
    | error e => exact h.skip (fun _ => rfl) (fun _ _ => rfl) rfl rfl rfl
  | closeNode =>
    rw [KeyContext.perform]
    cases hd : c.closeNode with
    | ok d => exact h.closeNode hd
    | error e => exact h.skip (fun _ => rfl) (fun _ _ => rfl) rfl rfl rfl
  | setGlobal key v =>
    rw [KeyContext.perform]
    exact h.setGlobal key v
  | setLocal key v =>
    rw [KeyContext.perform]
    exact h.setLocal key v
  | getGlobal key default | getLocal key default =>
    rw [KeyContext.perform]
    exact h.skip (fun _ => rfl) (fun _ _ => rfl) rfl rfl rfl
  | opened n inner => exact absurd rfl (ha n inner)

theorem getGlobal (h : Holds before c) (k : String) (v : Value) :
    (KeyContext.perform c (.getGlobal k v)).1 = .ok ((lastGlobal k before).getD v) := by
  rw [KeyContext.perform, h.global]

/-- The scope that answers is that of the innermost opening. -/
theorem getLocal (h : Holds before c) (k : String) (v : Value) :
    (KeyContext.perform c (.getLocal k v)).1 = .ok ((lastLocal k (innermost before) before).getD v) := by
  have hall := h.scopes
  change List.Forall₂ _ _ (c.current.scope :: c.outer.map (·.scope)) at hall
  rw [KeyContext.perform]
  cases hlist : openingsAfter before with
  | nil => simp [hlist] at hall
  | cons i is =>
    rw [hlist] at hall
    have hinner : innermost before = i := by simp [innermost, hlist]
    rw [(List.forall₂_cons.1 hall).1, hinner]

end Holds

theorem run_append (c : KeyContext) (as bs : List Action) : run c (as ++ bs) = run (run c as) bs :=
  List.foldl_append ..

/-- Single operations (the last one first) that lead from one context to another, each with the answer
that it gets. -/
inductive Recorded (c : KeyContext) : List Performed → KeyContext → Prop
  | nil : Recorded c [] c
  | cons {before : List Performed} {d : KeyContext} (h : Recorded c before d) {a : Action}
      (ha : ∀ n inner, a ≠ .opened n inner) :
      Recorded c (⟨a, (perform d a).1⟩ :: before) (perform d a).2

namespace Recorded

variable {c d : KeyContext} {before later : List Performed} {p : Performed}

theorem holds {root : Node} (h : Recorded (.start root []) before d) : Holds before d := by
  induction h with
  | nil => exact Holds.start root
  | cons h ha ih => exact ih.perform ha

theorem eq_run (h : Recorded c before d) : d = run c (before.reverse.map (·.action)) := by
  induction h with
  | nil => rfl
  | cons h ha ih =>
    rw [List.reverse_cons, List.map_append, run_append, ← ih]
    rfl

/-- Each operation of a record gets its answer in the context that those before it lead to. -/
theorem exists_before (h : Recorded c (later ++ p :: before) d) :
    ∃ e, Recorded c before e ∧ p.answer = (perform e p.action).1 := by
  induction later generalizing d with
  | nil =>
    cases h with
    | cons h ha => exact ⟨_, h, rfl⟩
  | cons q later ih =>
    cases h with
    | cons h ha => exact ih h

end Recorded

theorem closeAfter_snd (r : Outcome) : (closeAfter r).2 = (perform r.2 .closeNode).2 := by
  rw [closeAfter, perform]
  cases r.2.closeNode <;> rfl

mutual

theorem recorded_operations {start c : KeyContext} {before : List Performed}
    (h : Recorded start before c) (a : Action) :
    Recorded start (operations c a ++ before) (perform c a).2 := by
  cases a with
  | opened n inner =>
    rw [operations, perform]
    cases ho : c.openNode n with
    | ok d =>
      have hperform : perform c (.openNode n) = (.ok .null, d) := by rw [perform, ho]; rfl
      have hopen := h.cons (a := .openNode n) (by simp)
      rw [hperform] at hopen
      have hclose := (recorded_operationsAll hopen inner).cons (a := .closeNode) (by simp)
      simpa [closeAfter_snd] using hclose
    | error e =>
      have hperform : perform c (.openNode n) = (.error e, c) := by rw [perform, ho]; rfl
      have hopen := h.cons (a := .openNode n) (by simp)
      rwa [hperform] at hopen
  | openNode n | append n | closeNode | setGlobal key v | getGlobal key v | setLocal key v
  | getLocal key v =>
    rw [operations]
    · exact h.cons (by simp)
    · simp

theorem recorded_operationsAll {start c : KeyContext} {before : List Performed}
    (h : Recorded start before c) (as : List Action) :
    Recorded start (operationsAll c as ++ before) (performAll c as).2 := by
  cases as with
  | nil =>
    rw [operationsAll, performAll]
    exact h
  | cons a as =>
    have hfirst := recorded_operations h a
    rw [operationsAll, performAll]
    cases ha : perform c a with
    | mk answer d =>
      rw [ha] at hfirst
      cases answer with
      | ok v => simpa using recorded_operationsAll hfirst as
      | error e => exact hfirst

end

theorem recorded_history {start c : KeyContext} {before : List Performed}
    (h : Recorded start before c) (as : List Action) :
    Recorded start (history c as ++ before) (run c as) := by
  induction as generalizing c before with
  | nil => exact h
  | cons a as ih =>
    have hrest := ih (recorded_operations h a)
    rwa [← List.append_assoc] at hrest

/-- Whatever was done before, and whether or not it failed, the global scope answers with the last value
set under the key and the current node's scope with the last value set under it while the same opening
was innermost. So it is after a script and at each operation on the way, inside blocks too; a block does
what its operations do one by one. -/
theorem answers_of_history (root : Node) (as : List Action) :
    let before := history (.start root []) as
    let c := run (.start root []) as
    c = run (.start root []) (before.reverse.map (·.action)) ∧
    (∀ k v, (perform c (.getGlobal k v)).1 = .ok ((lastGlobal k before).getD v)) ∧
    (∀ k v, (perform c (.getLocal k v)).1 =
      .ok ((lastLocal k (innermost before) before).getD v)) ∧
    ∀ later p earlier, before = later ++ p :: earlier →
      p.answer = (perform (run (.start root []) (earlier.reverse.map (·.action))) p.action).1 ∧
      (∀ k v, p.action = .getGlobal k v → p.answer = .ok ((lastGlobal k earlier).getD v)) ∧
      ∀ k v, p.action = .getLocal k v →
        p.answer = .ok ((lastLocal k (innermost earlier) earlier).getD v) := by
  intro before c
  have hrecorded : Recorded (.start root []) before c := by
    simpa using recorded_history Recorded.nil as
  refine ⟨hrecorded.eq_run, hrecorded.holds.getGlobal, hrecorded.holds.getLocal, ?_⟩
  intro later p earlier hsplit
  rw [hsplit] at hrecorded
  obtain ⟨d, hd, hanswer⟩ := hrecorded.exists_before
  refine ⟨by rw [hanswer, ← hd.eq_run], fun k v hget => ?_, fun k v hget => ?_⟩
  · rw [hanswer, hget]
    exact hd.holds.getGlobal k v
  · rw [hanswer, hget]
    exact hd.holds.getLocal k v

/-- A value is set in the root, in a paragraph and in bold text within it. Then a text in a rule fails,
and another paragraph is opened. -/
def scopedScript : List Action :=
  [.setLocal "k" (.int 1),
    .opened (.paragraph []) [.setLocal "k" (.int 2),
      .opened (.strong []) [.setLocal "k" (.int 3)],
      .getLocal "k" .null,
      .opened .thematicBreak [.append (.text (some "a"))],
      .setLocal "k" (.int 4)],
    .openNode (.paragraph []), .getLocal "k" .null, .closeNode]

theorem answers_of_history_scopedScript :
    let before := history (.start (.root []) []) scopedScript
    let inside := before.drop 8
    before = before.take 7 ++ ⟨.getLocal "k" .null, .ok (.int 2)⟩ :: inside ∧
    (Except.ok (.int 2) : Except ContextFault Value) =
      .ok ((lastLocal "k" (innermost inside) inside).getD .null) ∧
    innermost inside = 2 ∧
    (perform (run (.start (.root []) []) scopedScript) (.getLocal "k" .null)).1 = .ok (.int 1) := by
  intro before inside
  have hsplit : before = before.take 7 ++ ⟨.getLocal "k" .null, .ok (.int 2)⟩ :: inside := by rfl
  obtain ⟨-, -, hlocal, hway⟩ := answers_of_history (.root []) scopedScript
  obtain ⟨-, -, hget⟩ := hway _ _ _ hsplit
  exact ⟨hsplit, hget "k" .null rfl, rfl, hlocal "k" .null⟩

end PageExport.KeyContext
