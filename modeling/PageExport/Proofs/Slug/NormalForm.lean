import Mathlib.Data.List.DropRight
import PageExport.Proofs.Markdown.StyledEdges
import PageExport.Proofs.Slug.Fresh
import PageExport.Proofs.Unicode.Settled

/-!
The normal form of slugs. Hyphens stand between words, one at a time. Trimming sets that up and the cut of a
long text keeps it, since the hyphen that is cut at is the only one there. A text of that form with settled
characters passes through every stage as it is, so a slug is its own slug.
-/
namespace PageExport.Slug

open Unicode (Settled)

/-- Hyphens stand between words: not at either end of the text, and not beside each other. -/
structure Tidy (t : Text) : Prop where
  head : t.head? ≠ some '-'
  last : t.getLast? ≠ some '-'
  single : ¬ ['-', '-'] <:+: t

variable {t u : Text} {c : Char}

theorem doubled_infix_cons_iff :
    ['-', '-'] <:+: c :: t ↔ (c = '-' ∧ t.head? = some '-') ∨ ['-', '-'] <:+: t := by
  rw [List.infix_cons_iff, List.cons_prefix_cons]
  refine or_congr_left (and_congr eq_comm ?_)
  cases t with
  | nil => simp
  | cons d t => simp [eq_comm]

theorem tidy_of_start (hhead : t.head? ≠ some '-') (hsingle : ¬ ['-', '-'] <:+: t) (hu : u <+: t)
    (hlast : u.getLast? ≠ some '-') : Tidy u where
  head := by
    obtain ⟨rest, rfl⟩ := hu
    cases u with
    | nil => simp
    | cons c u => simpa using hhead
  last := hlast
  single := fun h => hsingle (h.trans hu.isInfix)

/-- A run of separators becomes one hyphen, and none where a run goes on. -/
theorem single_collapse (inRun : Bool) (t : Text) :
    ¬ ['-', '-'] <:+: collapse inRun t ∧
      (inRun = true → (collapse inRun t).head? ≠ some '-') := by
  fun_induction collapse inRun t with
  | case1 inRun => simp
  | case2 c cs h ih => exact ih
  | case3 inRun c cs h hrun ih =>
    refine ⟨?_, fun h => absurd h hrun⟩
    rw [doubled_infix_cons_iff]
    exact not_or.2 ⟨fun h => ih.2 rfl h.2, ih.1⟩
  | case4 inRun c cs h ih =>
    have hc : c ≠ '-' := by
      rintro rfl
      exact h (by decide)
    refine ⟨?_, fun _ => by simpa using hc⟩
    rw [doubled_infix_cons_iff]
    exact not_or.2 ⟨fun h => hc h.1, ih.1⟩

theorem trimHyphens_eq (t : Text) :
    trimHyphens t = (t.dropWhile (· = '-')).rdropWhile (· = '-') := rfl

theorem tidy_trimHyphens (h : ¬ ['-', '-'] <:+: t) : Tidy (trimHyphens t) := by
  have hhead : (t.dropWhile (· = '-')).head? ≠ some '-' := by
    intro hc
    have hnot := List.head?_dropWhile_not (· = '-') t
    rw [hc] at hnot
    simp at hnot
  have hsingle : ¬ ['-', '-'] <:+: t.dropWhile (· = '-') := fun hd =>
    h (hd.trans (List.dropWhile_suffix _).isInfix)
  rw [trimHyphens_eq]
  refine tidy_of_start hhead hsingle (List.rdropWhile_prefix _ _) fun hc => ?_
  have hne := List.ne_nil_of_mem (List.mem_of_getLast? hc)
  have hnot := List.rdropWhile_last_not _ _ hne
  rw [List.getLast?_eq_some_getLast hne, Option.some_inj] at hc
  simp [hc] at hnot

theorem exists_append_beforeLastHyphen (h : '-' ∈ t) :
    ∃ rest, t = beforeLastHyphen t ++ '-' :: rest := by
  let p : Char → Bool := (· ≠ '-')
  have hne : t.reverse.dropWhile p ≠ [] := by
    rw [Ne, List.dropWhile_eq_nil_iff]
    exact fun hall => by simpa [p] using hall '-' (List.mem_reverse.2 h)
  obtain ⟨c, before, hdrop⟩ := List.exists_cons_of_ne_nil hne
  obtain rfl : c = '-' := by
    have hnot := List.head?_dropWhile_not p t.reverse
    rw [hdrop] at hnot
    simpa [p] using hnot
  have hbefore : beforeLastHyphen t = before.reverse := by
    rw [beforeLastHyphen, hdrop]
    rfl
  refine ⟨(t.reverse.takeWhile p).reverse, List.reverse_injective ?_⟩
  rw [hbefore, List.reverse_append, List.reverse_cons, List.reverse_reverse, List.reverse_reverse,
    List.append_assoc, List.singleton_append, ← hdrop, List.takeWhile_append_dropWhile]

theorem tidy_beforeLastHyphen (hhead : t.head? ≠ some '-') (hsingle : ¬ ['-', '-'] <:+: t)
    (h : '-' ∈ t) : Tidy (beforeLastHyphen t) := by
  obtain ⟨rest, hrest⟩ := exists_append_beforeLastHyphen h
  refine tidy_of_start hhead hsingle ⟨'-' :: rest, hrest.symm⟩ fun hlast => hsingle ?_
  -- a hyphen before the one that is cut at would double it
  obtain ⟨init, hinit⟩ := List.getLast?_eq_some_iff.1 hlast
  refine ⟨init, rest, ?_⟩
  rw [hrest, hinit]
  simp

theorem tidy_shorten (h : Tidy t) : Tidy (shorten t) ∧ (shorten t).length ≤ maxLength := by
  by_cases hlength : t.length ≤ maxLength
  · rw [shorten, if_pos hlength]
    exact ⟨h, hlength⟩
  · let cut := t.take maxLength
    have hcut : cut <+: t := List.take_prefix maxLength t
    have hle : cut.length ≤ maxLength := List.length_take_le maxLength t
    have hhead : cut.head? ≠ some '-' := by
      rw [List.head?_take, if_neg (by decide)]
      exact h.head
    have hsingle : ¬ ['-', '-'] <:+: cut := fun hd => h.single (hd.trans hcut.isInfix)
    rw [shorten, if_neg hlength]
    by_cases hmem : '-' ∈ cut
    · obtain ⟨rest, hrest⟩ := exists_append_beforeLastHyphen hmem
      have hshort : (beforeLastHyphen cut).length ≤ cut.length :=
        List.IsPrefix.length_le ⟨'-' :: rest, hrest.symm⟩
      rw [if_pos (List.contains_iff_mem.2 hmem)]
      exact ⟨tidy_beforeLastHyphen hhead hsingle hmem, hshort.trans hle⟩
    · rw [if_neg (mt List.contains_iff_mem.1 hmem)]
      exact ⟨tidy_of_start h.head h.single hcut fun hlast => hmem (List.mem_of_getLast? hlast), hle⟩

theorem collapse_of_single {inRun : Bool} (hseparator : ∀ c ∈ t, isSeparator c = true → c = '-')
    (hsingle : ¬ ['-', '-'] <:+: t) (hhead : inRun = true → t.head? ≠ some '-') :
    collapse inRun t = t := by
  induction t generalizing inRun with
  | nil => rfl
  | cons c t ih =>
    obtain ⟨hc, ht⟩ := List.forall_mem_cons.1 hseparator
    rw [doubled_infix_cons_iff, not_or] at hsingle
    rw [collapse]
    by_cases h : isSeparator c = true
    · obtain rfl := hc h
      have hrun : inRun ≠ true := fun hrun => hhead hrun rfl
      rw [if_pos h, if_neg hrun, ih ht hsingle.2 fun _ hnext => hsingle.1 ⟨rfl, hnext⟩]
    · rw [if_neg h, ih ht hsingle.2 Bool.noConfusion]

theorem trimHyphens_of_tidy (h : Tidy t) : trimHyphens t = t := by
  have hleft : t.dropWhile (· = '-') = t := by
    rw [List.dropWhile_eq_self_iff]
    intro hpos hc
    exact h.head (by simpa [List.head?_eq_getElem?, hpos] using hc)
  have hright : t.rdropWhile (· = '-') = t := by
    rw [List.rdropWhile_eq_self_iff]
    intro hne hc
    exact h.last (by simpa [List.getLast?_eq_getLast_of_ne_nil hne] using hc)
  rw [trimHyphens_eq, hleft, hright]

theorem isBlank_of_isAlphanumeric (h : Unicode.isAlphanumeric c = true) : isBlank c = false := by
  rw [← Bool.not_eq_true]
  intro hblank
  rw [Markdown.isAlphanumeric_of_isBlank hblank] at h
  exact Bool.noConfusion h

theorem isSeparator_of_isAlphanumeric (h : Unicode.isAlphanumeric c = true) :
    isSeparator c = false := by
  have hother : c ≠ '_' ∧ c ≠ '-' := by
    constructor
    · rintro rfl
      exact absurd h (by decide)
    · rintro rfl
      exact absurd h (by decide)
  simp [isSeparator, isBlank_of_isAlphanumeric h, hother]

theorem settled_of_mem_ofTitle {title : Text} (h : c ∈ ofTitle title) : Settled c := by
  obtain rfl | ⟨hmem, -⟩ := mem_collapse (trimHyphens_subset _ (shorten_subset _ h))
  · exact Unicode.settled_of_isAscii (by decide) (by decide)
  · exact Unicode.settled_of_mem_lowercase (List.mem_filter.1 hmem).1

theorem tidy_ofTitle (title : Text) :
    Tidy (ofTitle title) ∧ (ofTitle title).length ≤ maxLength :=
  tidy_shorten (tidy_trimHyphens (single_collapse false _).1)

/-- Every stage leaves a text in normal form as it is. -/
theorem ofTitle_of_tidy (htidy : Tidy t) (hlength : t.length ≤ maxLength)
    (hsettled : ∀ c ∈ t, Settled c) (hword : ∀ c ∈ t, Unicode.isAlphanumeric c = true ∨ c = '-') :
    ofTitle t = t := by
  have hkept : t.filter isKept = t := by
    refine List.filter_eq_self.2 fun c hc => ?_
    rcases hword c hc with halpha | rfl
    · rw [isKept, halpha, Bool.true_or]
    · decide
  have hseparator : ∀ c ∈ t, isSeparator c = true → c = '-' := by
    intro c hc h
    refine (hword c hc).resolve_left fun halpha => ?_
    rw [isSeparator_of_isAlphanumeric halpha] at h
    exact Bool.noConfusion h
  rw [ofTitle, Unicode.lowercase_of_settled hsettled, hkept,
    collapse_of_single hseparator htidy.single Bool.noConfusion, trimHyphens_of_tidy htidy, shorten,
    if_pos hlength]

/-- A slug has at most 80 characters, all of them letters, digits or hyphens between words, and is its own
slug. -/
theorem ofTitle_normalForm (title : Text) :
    (ofTitle title).length ≤ 80 ∧
    (∀ c ∈ ofTitle title, (Unicode.isAlphanumeric c = true ∨ c = '-') ∧ isBlank c = false ∧
      c ∉ ['_', '.', '/', '\\']) ∧
    ((ofTitle title).head? ≠ some '-' ∧ (ofTitle title).getLast? ≠ some '-' ∧
      ¬ ['-', '-'] <:+: ofTitle title) ∧
    ofTitle (ofTitle title) = ofTitle title := by
  obtain ⟨htidy, hlength⟩ := tidy_ofTitle title
  have hword : ∀ c ∈ ofTitle title, Unicode.isAlphanumeric c = true ∨ c = '-' :=
    fun c hc => isAlphanumeric_of_mem_ofTitle hc
  refine ⟨hlength, fun c hc => ⟨hword c hc, ?_, ?_⟩, ⟨htidy.head, htidy.last, htidy.single⟩,
    ofTitle_of_tidy htidy hlength (fun c hc => settled_of_mem_ofTitle hc) hword⟩
  · rcases hword c hc with h | rfl
    · exact isBlank_of_isAlphanumeric h
    · decide
  · intro hother
    have hnone : (['_', '.', '/', '\\'].all fun d => !(Unicode.isAlphanumeric d || d = '-')) = true := by
      decide
    have hneither := List.all_eq_true.1 hnone c hother
    simp only [Bool.not_eq_true', Bool.or_eq_false_iff, decide_eq_false_iff_not] at hneither
    rcases hword c hc with h | h
    · rw [hneither.1] at h
      exact Bool.noConfusion h
    · exact hneither.2 h

end PageExport.Slug
