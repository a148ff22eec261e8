import PageExport.Proofs.Markdown.FencedCode

/-!
Code spans and their reader. The fence of a span is longer than any run of backticks in its value, and
a space keeps a backtick at an edge of the value apart from it, so that the span always ends where it
was meant to. The reader takes one space off both ends, which is the padding or, where there is none,
a part of the value.
-/
namespace PageExport.Markdown

/-- The text up to the first run of exactly `size` backticks, and what is behind the run. Right before
the text stand `run` backticks. -/
def closeSpan (size run : Nat) : Text → Option (Text × Text)
  | [] => if run = size then some ([], []) else none
  | c :: t =>
    if c = '`' then closeSpan size (run + 1) t
    else if run = size then some ([], c :: t)
    else (closeSpan size 0 t).map fun p => (List.replicate run '`' ++ c :: p.1, p.2)

/-- Takes a space off each end, if there is one at both ends and not all are spaces. -/
def unpad (t : Text) : Text :=
  if t.head? = some ' ' && t.getLast? = some ' ' && t.any (· ≠ ' ') then t.tail.dropLast else t

/-- The value of the code span at the start of a text, and what is behind the span. A line break in the
span is read as a space. -/
def readCodeSpan (t : Text) : Option (Text × Text) :=
  let size := (t.takeWhile (· = '`')).length
  if size = 0 then none
  else (closeSpan size 0 (t.dropWhile (· = '`'))).map fun p =>
    (unpad (Text.replaceChar '\n' [' '] p.1), p.2)

theorem unpad_of_tick {t : Text} (h : '`' ∈ t) : unpad (' ' :: t ++ [' ']) = t := by
  have hany : (' ' :: t ++ [' ']).any (· ≠ ' ') = true :=
    List.any_eq_true.2 ⟨'`', by simp [h], by decide⟩
  have hlast : (' ' :: t ++ [' ']).getLast? = some ' ' := List.getLast?_concat
  have hhead : (' ' :: t ++ [' ']).head? = some ' ' := rfl
  simp only [unpad, hhead, hlast, hany, decide_true, Bool.and_self, ↓reduceIte]
  rw [List.cons_append, List.tail_cons, List.dropLast_concat]

theorem unpad_subset (t : Text) : unpad t ⊆ t := by
  unfold unpad
  split
  · exact fun c hc => List.mem_of_mem_tail (List.dropLast_subset _ hc)
  · exact fun c hc => hc

/-- A space at both ends is lost, unless there is nothing else. -/
theorem unpad_eq_self_iff {t : Text} :
    unpad t = t ↔ ¬(t.head? = some ' ' ∧ t.getLast? = some ' ' ∧ ∃ c ∈ t, c ≠ ' ') := by
  have htest : (t.head? = some ' ' && t.getLast? = some ' ' && t.any (· ≠ ' ')) = true ↔
      t.head? = some ' ' ∧ t.getLast? = some ' ' ∧ ∃ c ∈ t, c ≠ ' ' := by
    simp [and_assoc]
  unfold unpad
  split
  · next h =>
    have hne : t ≠ [] := by
      rintro rfl
      simp at h
    have hshorter : t.tail.dropLast ≠ t := by
      intro heq
      have hlength := congrArg List.length heq
      have hpos := List.length_pos_of_ne_nil hne
      simp only [List.length_dropLast, List.length_tail] at hlength
      omega
    exact iff_of_false hshorter (not_not_intro (htest.1 h))
  · next h => exact iff_of_true rfl fun hedges => h (htest.2 hedges)

theorem closeSpan_replicate (size run n : Nat) :
    closeSpan size run (List.replicate n '`') = if run + n = size then some ([], []) else none := by
  induction n generalizing run with
  | zero => rfl
  | succ n ih =>
    rw [List.replicate_succ, closeSpan, if_pos rfl, ih]
    congr 2
    omega

/-- Behind a text with shorter runs only, and none at its end, the span is closed. -/
theorem closeSpan_append {size run : Nat} {t : Text} (hlast : t.getLast? ≠ some '`')
    (hrun : longestRunFrom '`' run t < size) (hnil : t = [] → run = 0) :
    closeSpan size run (t ++ List.replicate size '`') = some (List.replicate run '`' ++ t, []) := by
  induction t generalizing run with
  | nil =>
    obtain rfl := hnil rfl
    simp [closeSpan_replicate]
  | cons c t ih =>
    rw [List.cons_append, closeSpan]
    unfold longestRunFrom at hrun
    by_cases hc : c = '`'
    · subst hc
      have hne : t ≠ [] := by
        rintro rfl
        exact hlast rfl
      rw [List.getLast?_cons_of_ne_nil hne] at hlast
      rw [if_pos rfl] at hrun ⊢
      rw [ih hlast hrun fun h => absurd h hne, List.replicate_succ', List.append_assoc]
      rfl
    · rw [if_neg hc] at hrun ⊢
      have hrest : longestRunFrom '`' 0 t < size := by omega
      have hopen : run ≠ size := by omega
      have hlast' : t.getLast? ≠ some '`' := by
        intro h
        rw [List.getLast?_cons, h] at hlast
        exact hlast rfl
      rw [if_neg hopen, ih hlast' hrest fun _ => rfl]
      rfl

/-- A value between the fences of its span. -/
def spanContent (t : Text) : Text :=
  if t.head? = some '`' || t.getLast? = some '`' then ' ' :: t ++ [' '] else t

theorem codeSpan_eq (t : Text) :
    codeSpan t = fence 1 t ++ (spanContent t ++ List.replicate (fence 1 t).length '`') := by
  rw [← fence_eq_replicate]
  unfold codeSpan spanContent
  simp only
  split <;> simp

theorem longestRunFrom_append_singleton {c d : Char} (hd : d ≠ c) (run : Nat) (t : Text) :
    longestRunFrom c run (t ++ [d]) = longestRunFrom c run t := by
  induction t generalizing run with
  | nil => simp [longestRunFrom, hd]
  | cons e t ih => simp [longestRunFrom, ih]

theorem longestRun_spanContent (t : Text) : longestRun '`' (spanContent t) = longestRun '`' t := by
  unfold spanContent
  split
  · rw [longestRun, List.cons_append, longestRunFrom, if_neg (by decide), Nat.zero_max,
      longestRunFrom_append_singleton (by decide), longestRun]
  · rfl

/-- No backtick stands at an edge of what is between the fences. -/
theorem edges_spanContent (t : Text) :
    (spanContent t).head? ≠ some '`' ∧ (spanContent t).getLast? ≠ some '`' := by
  unfold spanContent
  split
  · refine ⟨by simp, ?_⟩
    rw [List.getLast?_concat]
    decide
  · next h => simpa using h

theorem spanContent_ne_nil {t : Text} (h : t ≠ []) : spanContent t ≠ [] := by
  unfold spanContent
  split
  · simp
  · exact h

/-- The whole of a span is read, unless its value is empty. -/
theorem readCodeSpan_codeSpan {t : Text} (h : t ≠ []) : readCodeSpan (codeSpan t) =
    some (unpad (Text.replaceChar '\n' [' '] (spanContent t)), []) := by
  obtain ⟨hhead, hlast⟩ := edges_spanContent t
  obtain ⟨c, u, hu⟩ := List.exists_cons_of_ne_nil (spanContent_ne_nil h)
  have hsize : 1 ≤ (fence 1 t).length ∧ longestRun '`' (spanContent t) < (fence 1 t).length := by
    rw [length_fence, longestRun_spanContent]
    omega
  have hopening : ∀ c ∈ fence 1 t, decide (c = '`') = true := by
    rw [fence_eq_replicate]
    simp
  have hstart : ∀ c ∈ (spanContent t ++ List.replicate (fence 1 t).length '`').head?,
      decide (c = '`') = false := by
    rw [hu] at hhead ⊢
    simpa using hhead
  obtain ⟨htake, hdrop⟩ := takeWhile_append_run hopening hstart
  have hclose := closeSpan_append hlast hsize.2 fun _ => rfl
  rw [codeSpan_eq, readCodeSpan]
  simp only [htake, hdrop, if_neg (Nat.one_le_iff_ne_zero.1 hsize.1), hclose]
  rfl

theorem readCodeSpan_codeSpan_nil : readCodeSpan (codeSpan []) = none := by decide

theorem not_mem_spaced (t : Text) : '\n' ∉ Text.replaceChar '\n' [' '] t := by
  intro h
  obtain ⟨c, -, hc⟩ := List.mem_flatMap.1 h
  split at hc
  · simp at hc
  · next hne => exact hne (List.mem_singleton.1 hc).symm

/-- Code is read back just if it is not empty, has no line break, and is not something else than spaces
between two spaces. -/
theorem readCodeSpan_render_iff (o : Options) (before after : Option Char) (value : String) :
    readCodeSpan ((Inline.code value).render o before after) = some (value.toList, []) ↔
      value.toList ≠ [] ∧ '\n' ∉ value.toList ∧
        ¬(value.toList.head? = some ' ' ∧ value.toList.getLast? = some ' ' ∧
          ∃ c ∈ value.toList, c ≠ ' ') := by
  rw [Inline.render]
  generalize value.toList = t
  by_cases hne : t = []
  · subst hne
    simp [readCodeSpan_codeSpan_nil]
  rw [readCodeSpan_codeSpan hne]
  by_cases hbreak : '\n' ∈ t
  · -- the reader finds no line break where the value has one
    have hdiffers : unpad (Text.replaceChar '\n' [' '] (spanContent t)) ≠ t := by
      intro heq
      exact not_mem_spaced _ (unpad_subset _ (heq ▸ hbreak))
    simp [hdiffers, hbreak]
  · have hcontent : '\n' ∉ spanContent t := by
      unfold spanContent
      split <;> simp [hbreak]
    rw [Text.replaceChar_of_not_mem hcontent, Option.some_inj, Prod.mk.injEq]
    simp only [hne, hbreak, not_false_eq_true, and_true, true_and, ne_eq]
    by_cases hedge : t.head? = some '`' ∨ t.getLast? = some '`'
    · have hpadded : spanContent t = ' ' :: t ++ [' '] := by simp [spanContent, hedge]
      have htick : '`' ∈ t :=
        hedge.elim List.mem_of_mem_head? List.mem_of_mem_getLast?
      rw [hpadded, unpad_of_tick htick]
      rcases hedge with h | h <;> simp [h]
    · have hbare : spanContent t = t := by simp [spanContent, hedge]
      rw [hbare, unpad_eq_self_iff]

/-- A space at both ends of a value is taken for the padding of its span. -/
theorem readCodeSpan_spaced_letter :
    readCodeSpan ((Inline.code " a ").render {} none none) = some ("a".toList, []) := by
  decide +kernel

end PageExport.Markdown
