import Mathlib.Data.List.Basic
import PageExport.Slug

/-!
Slugs that no page was given before. The candidates for a slug differ from each other, so the first
one that is free is found; it is the slug with at most a number behind it, and has no slash.
-/
namespace PageExport.Slug

theorem ofNat_injective {m n : Nat} (h : Text.ofNat m = Text.ofNat n) : m = n := by
  have hvalue := congrArg (Nat.ofDigitChars 10 · 0) h
  simpa [Text.ofNat] using hvalue

theorem numbered_one (slug : Text) : numbered slug 1 = slug := rfl

theorem numbered_of_one_lt {n : Nat} (h : 1 < n) (slug : Text) :
    numbered slug n = slug ++ '-' :: Text.ofNat n := by
  rw [numbered, if_neg (Nat.not_le.2 h)]

theorem numbered_append (t u : Text) (n : Nat) : numbered (t ++ u) n = t ++ numbered u n := by
  unfold numbered
  split
  · rfl
  · exact List.append_assoc ..

theorem numbered_injective {slug : Text} {m n : Nat} (hm : 1 ≤ m) (hn : 1 ≤ n)
    (h : numbered slug m = numbered slug n) : m = n := by
  rcases Nat.eq_or_lt_of_le hm with rfl | hm <;> rcases Nat.eq_or_lt_of_le hn with rfl | hn
  · rfl
  · simp [numbered_one, numbered_of_one_lt hn] at h
  · simp [numbered_one, numbered_of_one_lt hm] at h
  · rw [numbered_of_one_lt hm, numbered_of_one_lt hn, List.append_cancel_left_eq] at h
    exact ofNat_injective (List.cons.inj h).2

/-- The search ends at the first candidate that is free: those before it are taken. -/
theorem exists_firstFree_eq (slug : Text) {n : Nat} (hn : 1 ≤ n) (taken : List Text) :
    ∃ m ≥ n, firstFree slug n taken = numbered slug m ∧ numbered slug m ∉ taken ∧
      ∀ k, n ≤ k → k < m → numbered slug k ∈ taken := by
  fun_induction firstFree with
  | case1 n taken h ih =>
    obtain ⟨m, hm, heq, hfree, hbefore⟩ := ih (Nat.le_succ_of_le hn)
    -- the candidate that is erased is none of those still to come
    have hne : numbered slug m ≠ numbered slug n := fun hsame =>
      Nat.ne_of_gt hm (numbered_injective (Nat.le_trans hn (Nat.le_of_succ_le hm)) hn hsame)
    refine ⟨m, Nat.le_of_succ_le hm, heq, mt (List.mem_erase_of_ne hne).2 hfree, fun k hk hkm => ?_⟩
    rcases Nat.eq_or_lt_of_le hk with rfl | hk
    · exact h
    · exact List.mem_of_mem_erase (hbefore k hk hkm)
  | case2 n taken h => exact ⟨n, Nat.le_refl n, rfl, h, fun k hk hkn => absurd hk (Nat.not_le.2 hkn)⟩

theorem exists_unique_first (taken : List Text) (slug : Text) :
    ∃ n ≥ 1, unique taken slug = numbered slug n ∧ numbered slug n ∉ taken ∧
      ∀ k, 1 ≤ k → k < n → numbered slug k ∈ taken :=
  exists_firstFree_eq slug (Nat.le_refl 1) taken

/-- No slug is given twice. -/
theorem unique_not_mem (taken : List Text) (slug : Text) : unique taken slug ∉ taken := by
  obtain ⟨n, -, heq, hfree, -⟩ := exists_unique_first taken slug
  rwa [heq]

/-- A slug is kept, or a hyphen and a number are put behind it. -/
theorem exists_unique_eq (taken : List Text) (slug : Text) :
    ∃ n, unique taken slug = numbered slug n := by
  obtain ⟨n, -, h, -⟩ := exists_unique_first taken slug
  exact ⟨n, h⟩

theorem mem_collapse {c : Char} {inRun : Bool} {t : Text} (h : c ∈ collapse inRun t) :
    c = '-' ∨ c ∈ t ∧ isSeparator c = false := by
  induction t generalizing inRun with
  | nil => cases h
  | cons d t ih =>
    have hlater {inRun : Bool} (h : c ∈ collapse inRun t) :
        c = '-' ∨ c ∈ d :: t ∧ isSeparator c = false :=
      (ih h).imp_right fun ⟨hmem, hc⟩ => ⟨List.mem_cons_of_mem d hmem, hc⟩
    rw [collapse] at h
    by_cases hd : isSeparator d
    · rw [if_pos hd] at h
      cases inRun with
      | true => exact hlater h
      | false => exact (List.mem_cons.1 h).elim .inl hlater
    · rw [if_neg hd] at h
      rcases List.mem_cons.1 h with rfl | h
      · exact .inr ⟨List.mem_cons_self, by simpa using hd⟩
      · exact hlater h

theorem trimHyphens_subset (t : Text) : trimHyphens t ⊆ t := by
  intro c hc
  rw [trimHyphens, List.mem_reverse] at hc
  exact (List.dropWhile_sublist _).subset (List.mem_reverse.1 ((List.dropWhile_sublist _).subset hc))

theorem beforeLastHyphen_subset (t : Text) : beforeLastHyphen t ⊆ t := by
  intro c hc
  rw [beforeLastHyphen, List.mem_reverse] at hc
  exact List.mem_reverse.1 ((List.dropWhile_sublist _).subset (List.mem_of_mem_drop hc))

theorem shorten_subset (t : Text) : shorten t ⊆ t := by
  intro c hc
  unfold shorten at hc
  simp only at hc
  split at hc
  · exact hc
  · split at hc
    · exact List.mem_of_mem_take (beforeLastHyphen_subset _ hc)
    · exact List.mem_of_mem_take hc

theorem isAlphanumeric_of_mem_ofTitle {c : Char} {title : Text} (h : c ∈ ofTitle title) :
    Unicode.isAlphanumeric c = true ∨ c = '-' := by
  obtain rfl | ⟨hmem, hc⟩ := mem_collapse (trimHyphens_subset _ (shorten_subset _ h))
  · exact .inr rfl
  · have hkept := (List.mem_filter.1 hmem).2
    rw [isKept, hc, Bool.or_false] at hkept
    exact .inl hkept

theorem slash_not_mem_ofTitle (title : Text) : '/' ∉ ofTitle title := by
  intro h
  rcases isAlphanumeric_of_mem_ofTitle h with h | h
  · exact absurd h (by decide)
  · exact absurd h (by decide)

theorem slash_not_mem_ofNat (n : Nat) : '/' ∉ Text.ofNat n := by
  intro h
  have hdigit := Nat.isDigit_of_mem_toDigits (by decide) (by decide) h
  exact absurd hdigit (by decide)

theorem slash_mem_numbered_iff {slug : Text} {n : Nat} : '/' ∈ numbered slug n ↔ '/' ∈ slug := by
  unfold numbered
  split
  · rfl
  · simp [slash_not_mem_ofNat n]

end PageExport.Slug
