import Mathlib.Computability.StateTransition
import Mathlib.Data.Finset.Card
import Mathlib.Data.Finset.Dedup
import Mathlib.Order.Bounds.Basic
import Mathlib.Order.Interval.Finset.Nat
import PageExport.Proofs.Slug.Fresh

/-!
The search for a slug that is free. It has no bound of its own: it ends since the candidates differ from
each other and only finitely many texts are taken, and then its candidate is the slug itself or has the
least number that is free. Slugs that are searched for one after the other all differ.
-/
namespace PageExport.Slug

variable {taken slugs names : List Text} {slug name : Text}

/-- Where a search is: the candidate that it looks at, and the number of that candidate. -/
structure Search where
  candidate : Text
  number : Nat

namespace Search

/-- A search looks at the slug itself first. -/
def start (slug : Text) : Search := ⟨slug, 1⟩

/-- A candidate that is taken gives way to the slug with the next number; one that is free ends the
search. -/
def next? (taken : List Text) (slug : Text) (s : Search) : Option Search :=
  if taken.contains s.candidate then
    some ⟨slug ++ '-' :: Text.ofNat (s.number + 1), s.number + 1⟩
  else none

theorem next?_numbered {n : Nat} (hn : 1 ≤ n) (h : numbered slug n ∈ taken) :
    next? taken slug ⟨numbered slug n, n⟩ = some ⟨numbered slug (n + 1), n + 1⟩ := by
  rw [next?, if_pos (List.contains_iff_mem.2 h), numbered_of_one_lt (Nat.lt_succ_of_le hn)]

theorem reaches_numbered {n : Nat} (hn : 1 ≤ n)
    (h : ∀ k, 1 ≤ k → k < n → numbered slug k ∈ taken) :
    StateTransition.Reaches (next? taken slug) (start slug) ⟨numbered slug n, n⟩ := by
  induction n, hn using Nat.le_induction with
  | base => exact .refl
  | succ n hn ih =>
    have hbefore := ih fun k hk hkn => h k hk (Nat.lt_succ_of_lt hkn)
    exact hbefore.tail (next?_numbered hn (h n hn (Nat.lt_succ_self n)))

/-- The candidates that are passed over are different texts that are taken. -/
theorem number_le_card {n : Nat} (h : ∀ k, 1 ≤ k → k < n → numbered slug k ∈ taken) :
    n ≤ taken.toFinset.card + 1 := by
  have hcard : (Finset.Ico 1 n).card ≤ taken.toFinset.card := by
    refine Finset.card_le_card_of_injOn (numbered slug) (fun k hk => ?_) fun k hk l hl heq => ?_
    · obtain ⟨hk, hkn⟩ := Finset.mem_Ico.1 hk
      exact List.mem_toFinset.2 (h k hk hkn)
    · exact numbered_injective (Finset.mem_Ico.1 hk).1 (Finset.mem_Ico.1 hl).1 heq
  rw [Nat.card_Ico] at hcard
  omega

/-- The search ends, with the slug that is found at a number within the bound. -/
theorem exists_mem_eval (taken : List Text) (slug : Text) :
    ∃ n ≤ taken.toFinset.card + 1,
      ⟨unique taken slug, n⟩ ∈ StateTransition.eval (next? taken slug) (start slug) := by
  obtain ⟨n, hn, heq, hfree, hbefore⟩ := exists_unique_first taken slug
  refine ⟨n, number_le_card hbefore, StateTransition.mem_eval.2 ⟨?_, ?_⟩⟩
  · rw [heq]
    exact reaches_numbered hn hbefore
  · rw [next?, if_neg (mt List.contains_iff_mem.1 (unique_not_mem taken slug))]

end Search

/-- The slug itself if it is free, and otherwise the slug with the least number from two on that is. -/
inductive IsFirstFree (taken : List Text) (slug : Text) : Text → Prop where
  | own (h : slug ∉ taken) : IsFirstFree taken slug slug
  | numbered {n : Nat} (h : slug ∈ taken)
      (hn : IsLeast {n | 2 ≤ n ∧ slug ++ '-' :: Text.ofNat n ∉ taken} n) :
      IsFirstFree taken slug (slug ++ '-' :: Text.ofNat n)

theorem isFirstFree_unique (taken : List Text) (slug : Text) :
    IsFirstFree taken slug (unique taken slug) := by
  obtain ⟨n, hn, heq, hfree, hbefore⟩ := exists_unique_first taken slug
  rw [heq]
  rcases Nat.eq_or_lt_of_le hn with rfl | hn
  · exact .own hfree
  · have hslug : slug ∈ taken := hbefore 1 (Nat.le_refl 1) hn
    rw [numbered_of_one_lt hn] at hfree ⊢
    refine .numbered hslug ⟨⟨hn, hfree⟩, fun k ⟨hk, hkfree⟩ => ?_⟩
    rw [← numbered_of_one_lt hk] at hkfree
    exact Nat.le_of_not_lt fun hkn => hkfree (hbefore k (Nat.le_of_succ_le hk) hkn)

theorem IsFirstFree.not_mem (h : IsFirstFree taken slug name) : name ∉ taken := by
  cases h with
  | own h => exact h
  | numbered _ hn => exact hn.1.2

/-- Names for slugs one after the other, each of them the first that is free when it is its turn. -/
inductive AreFirstFree : List Text → List Text → List Text → Prop where
  | nil (taken : List Text) : AreFirstFree taken [] []
  | cons {taken slugs names : List Text} {slug name : Text} (h : IsFirstFree taken slug name)
      (hs : AreFirstFree (taken ++ [name]) slugs names) :
      AreFirstFree taken (slug :: slugs) (name :: names)

/-- Such names differ from each other and from what was taken before. -/
theorem AreFirstFree.nodup (h : AreFirstFree taken slugs names) :
    names.Nodup ∧ ∀ name ∈ names, name ∉ taken := by
  induction h with
  | nil taken => simp
  | @cons taken slugs names slug name h _ ih =>
    obtain ⟨hnodup, hnew⟩ := ih
    have hname : name ∉ names := fun hmem => hnew name hmem (by simp)
    refine ⟨List.nodup_cons.2 ⟨hname, hnodup⟩, List.forall_mem_cons.2 ⟨h.not_mem, fun u hu hmem => ?_⟩⟩
    exact hnew u hu (List.mem_append_left _ hmem)

/-- The names that slugs get one after the other. -/
def uniques (taken : List Text) : List Text → List Text
  | [] => []
  | slug :: slugs => unique taken slug :: uniques (taken ++ [unique taken slug]) slugs

theorem areFirstFree_uniques (taken slugs : List Text) :
    AreFirstFree taken slugs (uniques taken slugs) := by
  induction slugs generalizing taken with
  | nil => exact .nil taken
  | cons slug slugs ih => exact .cons (isFirstFree_unique taken slug) (ih _)

/-- A slug that looks numbered is one of the candidates for another. -/
example : uniques [] (["a-2", "a", "a", "a-2"].map String.toList) =
    ["a-2", "a", "a-3", "a-2-2"].map String.toList := by decide +kernel

end PageExport.Slug
