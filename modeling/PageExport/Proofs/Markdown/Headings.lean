import PageExport.Proofs.Markdown.FencedCode
import PageExport.Proofs.Markdown.GuardedLines
import PageExport.Proofs.Markdown.NestedLists
import PageExport.Proofs.Markdown.TableCells

/-!
Headings and their reader. A heading is one line, and a reader takes blanks off the ends of its text, and
marks off the end of it that stand behind a blank. The spaces at the ends of each line of the text are
spelled out before the lines are joined, and a mark at the start of a line is escaped; tabs, line breaks at
the ends and marks at the end of the text are left as they are.
-/
namespace PageExport.Markdown

/-- Takes off marks at the end of a text and the blanks before them, if there are any or if the text has
nothing else. -/
def dropClosing (t : Text) : Text :=
  let front := t.rdropWhile (· = '#')
  match front.getLast? with
  | none => []
  | some c => if isSpaceOrTab c then front.rdropWhile isSpaceOrTab else t

/-- Reads a text that is a heading in one line, as its depth and its content. -/
def readHeading (t : Text) : Option (Nat × Text) :=
  if firstLine t = t ∧ isHeading t = true then
    some ((t.takeWhile (· = '#')).length, dropClosing (trimBlanks (t.dropWhile (· = '#'))))
  else none

/-- The lines of a paragraph put behind each other. -/
def headingContent (t : Text) : Text := Text.replaceChar '\n' [' '] (guardLines t)

/-- There are marks at the end, with a blank before them. -/
def EndsInMarks (t : Text) : Prop :=
  ∃ u b k, isSpaceOrTab b = true ∧ t = u ++ b :: List.replicate (k + 1) '#'

/-- The line would be a heading without text. -/
def IsLoneMark (line : Text) : Prop := ∃ k ≤ 3, ∃ n, line = spaces k ++ List.replicate (n + 1) '#'

/-- Nothing is lost at the ends of a text that is put on a heading: no tab and no line break, which becomes a
space, and no marks with a blank before them but those of a line that is escaped for having nothing else. -/
structure KeepsEnds (t : Text) : Prop where
  head : t.head? ≠ some '\n' ∧ t.head? ≠ some '\t'
  last : t.getLast? ≠ some '\n' ∧ t.getLast? ≠ some '\t'
  marks : ∀ line ∈ t.lines.getLast?, EndsInMarks line → IsLoneMark line

theorem EndsInMarks.getLast? {t : Text} (h : EndsInMarks t) : t.getLast? = some '#' := by
  obtain ⟨u, b, k, -, rfl⟩ := h
  rw [List.getLast?_append, List.replicate_succ', ← List.cons_append, List.getLast?_concat]
  rfl

theorem endsInMarks_cons (c : Char) (t : Text) : EndsInMarks (c :: t) ↔
    (isSpaceOrTab c = true ∧ ∃ k, t = List.replicate (k + 1) '#') ∨ EndsInMarks t := by
  constructor
  · rintro ⟨u, b, k, hb, h⟩
    cases u with
    | nil =>
      obtain ⟨rfl, rfl⟩ := List.cons.inj h
      exact .inl ⟨hb, k, rfl⟩
    | cons d u =>
      obtain ⟨rfl, rfl⟩ := List.cons.inj h
      exact .inr ⟨u, b, k, hb, rfl⟩
  · rintro (⟨hc, k, rfl⟩ | ⟨u, b, k, hb, rfl⟩)
    · exact ⟨[], c, k, hc, rfl⟩
    · exact ⟨c :: u, b, k, hb, rfl⟩

theorem endsInMarks_cons_of_not_blank {c : Char} (hc : isSpaceOrTab c = false) (t : Text) :
    EndsInMarks (c :: t) ↔ EndsInMarks t := by
  rw [endsInMarks_cons, hc]
  simp

/-- What stands before another character than a mark has no part in it. -/
theorem endsInMarks_append {u : Text} (hu : ∃ c ∈ u, c ≠ '#') (t : Text) :
    EndsInMarks (t ++ u) ↔ EndsInMarks u := by
  induction t with
  | nil => rfl
  | cons c t ih =>
    rw [List.cons_append, endsInMarks_cons, ih]
    refine or_iff_right ?_
    rintro ⟨-, k, hk⟩
    obtain ⟨d, hd, hne⟩ := hu
    have hmem : d ∈ List.replicate (k + 1) '#' := hk ▸ List.mem_append_right t hd
    exact hne (List.eq_of_mem_replicate hmem)

theorem not_endsInMarks_replicate (n : Nat) : ¬EndsInMarks (List.replicate n '#') := by
  induction n with
  | zero =>
    rintro ⟨u, b, k, -, h⟩
    simp at h
  | succ n ih => rwa [List.replicate_succ, endsInMarks_cons_of_not_blank rfl]

theorem trimBlanks_eq_self_iff (t : Text) : trimBlanks t = t ↔
    (∀ c ∈ t.head?, isSpaceOrTab c = false) ∧ ∀ c ∈ t.getLast?, isSpaceOrTab c = false := by
  have hleft : t.dropWhile isSpaceOrTab = t ↔ ∀ c ∈ t.head?, isSpaceOrTab c = false := by
    rw [List.dropWhile_eq_self_iff]
    cases t <;> simp
  have hright : t.rdropWhile isSpaceOrTab = t ↔ ∀ c ∈ t.getLast?, isSpaceOrTab c = false := by
    rw [List.rdropWhile_eq_self_iff]
    cases t using List.reverseRecOn <;> simp
  rw [← hleft, ← hright]
  constructor
  · intro h
    have hfront := List.rdropWhile_prefix isSpaceOrTab (t.dropWhile isSpaceOrTab)
    have hdrop : t.dropWhile isSpaceOrTab = t := by
      refine (List.dropWhile_suffix isSpaceOrTab).eq_of_length_le ?_
      calc t.length = (trimBlanks t).length := by rw [h]
        _ ≤ (t.dropWhile isSpaceOrTab).length := hfront.length_le
    rw [trimBlanks, hdrop] at h
    exact ⟨hdrop, h⟩
  · rintro ⟨hdrop, hrdrop⟩
    rw [trimBlanks, hdrop, hrdrop]

theorem exists_closing_run (t : Text) : ∃ front n, t.rdropWhile (· = '#') = front ∧
    front.getLast? ≠ some '#' ∧ t = front ++ List.replicate n '#' := by
  induction t using List.reverseRecOn with
  | nil => exact ⟨[], 0, rfl, by simp, rfl⟩
  | append_singleton t c ih =>
    by_cases hc : c = '#'
    · obtain ⟨front, n, hfront, hlast, ht⟩ := ih
      refine ⟨front, n + 1, ?_, hlast, ?_⟩
      · rw [List.rdropWhile_concat_pos _ _ _ (by simpa using hc), hfront]
      · rw [ht, hc, List.replicate_succ', List.append_assoc]
    · refine ⟨t ++ [c], 0, ?_, by simpa using hc, (List.append_nil _).symm⟩
      exact List.rdropWhile_concat_neg _ _ _ (by simpa using hc)

theorem dropClosing_eq_self_iff {t : Text} (hlast : ∀ c ∈ t.getLast?, isSpaceOrTab c = false) :
    dropClosing t = t ↔ ¬EndsInMarks t ∧ ∀ n, t ≠ List.replicate (n + 1) '#' := by
  obtain ⟨front, n, hfront, hlastFront, ht⟩ := exists_closing_run t
  unfold dropClosing
  rw [hfront]
  subst ht
  cases front using List.reverseRecOn with
  | nil =>
    rw [List.nil_append]
    cases n with
    | zero => simpa using not_endsInMarks_replicate 0
    | succ n => exact iff_of_false (by simp) fun h => h.2 n rfl
  | append_singleton u c =>
    simp only [List.getLast?_concat]
    split
    · next hblank =>
      have hlength : ((u ++ [c]).rdropWhile isSpaceOrTab).length ≤ u.length := by
        rw [List.rdropWhile_concat_pos _ _ _ hblank]
        exact (List.rdropWhile_prefix _ u).length_le
      refine iff_of_false (fun h => ?_) fun h => ?_
      · rw [h] at hlength
        simp only [List.length_append, List.length_singleton] at hlength
        omega
      · cases n with
        | zero => simp [hblank] at hlast
        | succ n => exact h.1 ⟨u, c, n, hblank, by simp⟩
    · next hblank =>
      have hc : c ≠ '#' := by simpa using hlastFront
      refine iff_of_true rfl ⟨?_, fun n h => ?_⟩
      · rw [List.append_assoc, List.singleton_append, endsInMarks_append ⟨c, by simp, hc⟩,
          endsInMarks_cons_of_not_blank (by simpa using hblank)]
        exact not_endsInMarks_replicate n
      · have hmem : c ∈ List.replicate (n + 1) '#' := by
          rw [← h]
          simp
        exact hc (List.eq_of_mem_replicate hmem)

/-- Two texts that neither differ in a tab at their ends nor in having a carriage return. -/
structure SameEnds (t u : Text) : Prop where
  nil : u = [] ↔ t = []
  head : u.head? = some '\t' ↔ t.head? = some '\t'
  last : u.getLast? = some '\t' ↔ t.getLast? = some '\t'
  mem : '\r' ∈ u ↔ '\r' ∈ t

theorem SameEnds.trans {t u v : Text} (h : SameEnds t u) (h' : SameEnds u v) : SameEnds t v :=
  ⟨h'.nil.trans h.nil, h'.head.trans h.head, h'.last.trans h.last, h'.mem.trans h.mem⟩

theorem SameEnds.refl (t : Text) : SameEnds t t := ⟨.rfl, .rfl, .rfl, .rfl⟩

theorem Escaped.sameEnds {line e : Text} (h : Escaped line e) : SameEnds line e := by
  cases h with
  | none => exact .refl line
  | @mark kind k t u c hk hmark hc =>
    have hc' : c ≠ '\t' := by
      rintro rfl
      exact absurd hc (by decide)
    refine ⟨by simp, ?_, ?_, by simp⟩
    · cases spaces k ++ t <;> simp [hc']
    · simp [List.getLast?_append, List.getLast?_cons_cons]

theorem StartSpelled.sameEnds {e s : Text} (h : StartSpelled e s) : SameEnds e s := by
  cases h with
  | space t =>
    refine ⟨by simp [encodedSpace], by simp [encodedSpace], ?_, by simp [encodedSpace]⟩
    cases t using List.reverseRecOn with
    | nil => decide
    | append_singleton t c =>
      rw [← List.append_assoc, ← List.cons_append, List.getLast?_concat, List.getLast?_concat]
  | other => exact .refl e

theorem EndSpelled.sameEnds {s w : Text} (h : EndSpelled s w) : SameEnds s w := by
  cases h with
  | space t =>
    refine ⟨by simp [encodedSpace], ?_, by simp [encodedSpace], by simp [encodedSpace]⟩
    cases t <;> simp [encodedSpace]
  | other => exact .refl s

theorem sameEnds_guardLine (line : Text) : SameEnds line (guardLine line) := by
  obtain ⟨e, s, he, hs, hw⟩ := (guarded_guardLine line).spelled
  exact (he.sameEnds.trans hs.sameEnds).trans hw.sameEnds

theorem IsLoneMark.opens {line : Text} (h : IsLoneMark line) : Opens line := by
  obtain ⟨k, hk, n, rfl⟩ := h
  refine ⟨.block, k, hk, [], '#' :: List.replicate n '#', ?_, .block (.inl rfl)⟩
  rw [List.append_nil, List.replicate_succ]

theorem Escaped.not_opens {line e : Text} (h : Escaped line e) : ¬Opens e := by
  cases h with
  | none hopens => exact hopens
  | mark hk hmark _ => exact hmark.not_opens hk

/-- Only a backslash before the first of the marks keeps these from being at the end behind a blank. -/
theorem Escaped.endsInMarks_iff {line e : Text} (h : Escaped line e) :
    EndsInMarks e ↔ EndsInMarks line ∧ ¬IsLoneMark line := by
  cases h with
  | none hopens =>
    exact (and_iff_left (mt IsLoneMark.opens hopens)).symm
  | @mark kind k t u c hk hmark hc =>
    rw [endsInMarks_append ⟨'\\', by simp, by decide⟩, endsInMarks_cons_of_not_blank rfl]
    by_cases hmarks : ∃ d ∈ c :: u, d ≠ '#'
    · have hlone : ¬IsLoneMark (spaces k ++ t ++ c :: u) := by
        rintro ⟨m, hm, n, hline⟩
        have hsplit := splitIndent_spaces hk hmark.head?_ne
        have hhead : (List.replicate (n + 1) '#').head? ≠ some ' ' := by simp [List.replicate_succ]
        rw [← List.append_assoc, hline, splitIndent_spaces hm hhead] at hsplit
        obtain ⟨d, hd, hne⟩ := hmarks
        have hmem : d ∈ List.replicate (n + 1) '#' := by
          rw [(Prod.mk.inj (Option.some.inj hsplit)).2]
          exact List.mem_append_right t hd
        exact hne (List.eq_of_mem_replicate hmem)
      rw [endsInMarks_append hmarks, and_iff_left hlone]
    · -- the line is a mark alone, since only a heading is opened by marks
      have hu : c :: u = List.replicate (u.length + 1) '#' :=
        List.eq_replicate_of_mem fun d hd => by_contra fun hne => hmarks ⟨d, hd, hne⟩
      obtain rfl : c = '#' := (List.cons.inj hu).1
      have ht : t = [] := by
        apply hmark.eq_nil
        rintro rfl
        cases hmark with
        | ordinal _ _ hdelimiter => exact absurd hdelimiter.1 (by decide)
      rw [hu, ht, List.append_nil]
      exact iff_of_false (not_endsInMarks_replicate _) fun h => h.2 ⟨k, hk, u.length, rfl⟩

theorem endsInMarks_guardLine (line : Text) :
    EndsInMarks (guardLine line) ↔ EndsInMarks line ∧ ¬IsLoneMark line := by
  obtain ⟨e, s, he, hs, hw⟩ := (guarded_guardLine line).spelled
  rw [← he.endsInMarks_iff]
  have hstart : EndsInMarks s ↔ EndsInMarks e := by
    cases hs with
    | other => rfl
    | space t =>
      have hlone : ¬∃ k, t = List.replicate (k + 1) '#' := by
        rintro ⟨k, rfl⟩
        exact he.not_opens (IsLoneMark.opens ⟨1, by omega, k, rfl⟩)
      have hspelled : encodedSpace ++ t = ['&', '#', 'x', '2', '0'] ++ ';' :: t := rfl
      rw [hspelled, endsInMarks_append ⟨';', by simp, by decide⟩, endsInMarks_cons_of_not_blank rfl,
        endsInMarks_cons, or_iff_right fun h => hlone h.2]
  have hend : EndsInMarks (guardLine line) ↔ EndsInMarks s := by
    generalize guardLine line = w at hw
    cases hw with
    | other => rfl
    | space t =>
      refine iff_of_false (fun h => ?_) fun h => ?_
      · have hlast := h.getLast?
        simp [encodedSpace] at hlast
      · have hlast := h.getLast?
        simp at hlast
  rw [hend, hstart]

/-- A text is a line, or a line and a text on the next one. -/
@[elab_as_elim]
theorem lineInduction {motive : Text → Prop} (line : ∀ t, '\n' ∉ t → motive t)
    (next : ∀ t u, '\n' ∉ t → motive u → motive (t ++ '\n' :: u)) (t : Text) : motive t := by
  induction hlines : t.lines generalizing t with
  | nil => exact absurd hlines (lines_ne_nil t)
  | cons first rest ih =>
    have hfirst : '\n' ∉ first := Text.not_mem_of_mem_split (hlines ▸ List.mem_cons_self)
    rw [← Text.unlines_lines t, hlines]
    cases rest with
    | nil => exact line first hfirst
    | cons second rest =>
      have hmotive := ih (Text.unlines (second :: rest)) (Text.lines_unlines (by simp) fun l hl =>
        Text.not_mem_of_mem_split (hlines ▸ List.mem_cons_of_mem first hl))
      have hunlines : Text.unlines ([first] ++ second :: rest) =
          first ++ '\n' :: Text.unlines (second :: rest) := unlines_append (by simp) (by simp)
      rw [← List.singleton_append, hunlines]
      exact next first _ hfirst hmotive

theorem headingContent_line {t : Text} (ht : '\n' ∉ t) : headingContent t = guardLine t := by
  have hline : guardLines t = guardLine t := by
    rw [guardLines, Text.lines, Text.split_of_not_mem ht]
    rfl
  rw [headingContent, hline, Text.replaceChar_of_not_mem (not_mem_guardLine ht)]

theorem headingContent_next (t u : Text) :
    headingContent (t ++ '\n' :: u) = headingContent t ++ ' ' :: headingContent u := by
  have hlines : guardLines (t ++ '\n' :: u) = guardLines t ++ '\n' :: guardLines u := by
    rw [guardLines, Text.lines, Text.split_append_cons, List.map_append]
    exact unlines_append (by simp [Text.split_ne_nil]) (by simp [Text.split_ne_nil])
  rw [headingContent, hlines, Text.replaceChar_append]
  rfl

theorem headingContent_eq_nil_iff (t : Text) : headingContent t = [] ↔ t = [] := by
  induction t using lineInduction with
  | line t ht => rw [headingContent_line ht, (sameEnds_guardLine t).nil]
  | next t u ht ih => simp [headingContent_next]

theorem mem_headingContent_iff (t : Text) : '\r' ∈ headingContent t ↔ '\r' ∈ t := by
  induction t using lineInduction with
  | line t ht => rw [headingContent_line ht, (sameEnds_guardLine t).mem]
  | next t u ht ih =>
    rw [headingContent_next, headingContent_line ht]
    simp [(sameEnds_guardLine t).mem, ih]

theorem not_mem_headingContent (t : Text) : '\n' ∉ headingContent t := by
  induction t using lineInduction with
  | line t ht =>
    rw [headingContent_line ht]
    exact not_mem_guardLine ht
  | next t u ht ih =>
    rw [headingContent_next, headingContent_line ht]
    simp [not_mem_guardLine ht, ih]

/-- The marks of a heading in a heading are escaped. -/
theorem headingContent_ne_replicate (t : Text) (n : Nat) :
    headingContent t ≠ List.replicate (n + 1) '#' := by
  induction t using lineInduction with
  | line t ht =>
    rw [headingContent_line ht]
    exact fun h => (guarded_guardLine t).not_opens (IsLoneMark.opens ⟨0, by omega, n, h⟩)
  | next t u ht ih =>
    intro h
    have hspace : ' ' ∈ List.replicate (n + 1) '#' := by
      rw [← h, headingContent_next]
      simp
    exact absurd (List.eq_of_mem_replicate hspace) (by decide)

theorem forall_not_isSpaceOrTab_iff (c : Option Char) :
    (∀ d ∈ c, isSpaceOrTab d = false) ↔ c ≠ some ' ' ∧ c ≠ some '\t' := by
  cases c <;> simp [isSpaceOrTab]

theorem head?_headingContent_iff (t : Text) :
    (∀ c ∈ (headingContent t).head?, isSpaceOrTab c = false) ↔
      t.head? ≠ some '\n' ∧ t.head? ≠ some '\t' := by
  rw [forall_not_isSpaceOrTab_iff]
  cases t using lineInduction with
  | line t ht =>
    have hbreak : t.head? ≠ some '\n' := fun h => ht (List.mem_of_mem_head? h)
    have htab := (sameEnds_guardLine t).head
    rw [headingContent_line ht, Ne.eq_def _ (some '\t'), htab]
    simp [hbreak, (guarded_guardLine t).head?_ne]
  | next t u ht =>
    have hbreak : t.head? ≠ some '\n' := fun h => ht (List.mem_of_mem_head? h)
    have htab := (sameEnds_guardLine t).head
    rw [headingContent_next, headingContent_line ht]
    by_cases hnil : t = []
    · rw [(sameEnds_guardLine t).nil.2 hnil, hnil]
      simp
    · have hguard := mt (sameEnds_guardLine t).nil.1 hnil
      rw [List.head?_append_of_ne_nil _ hguard, List.head?_append_of_ne_nil _ hnil,
        Ne.eq_def _ (some '\t'), htab]
      simp [hbreak, (guarded_guardLine t).head?_ne]

theorem getLast?_headingContent_iff (t : Text) :
    (∀ c ∈ (headingContent t).getLast?, isSpaceOrTab c = false) ↔
      t.getLast? ≠ some '\n' ∧ t.getLast? ≠ some '\t' := by
  rw [forall_not_isSpaceOrTab_iff]
  induction t using lineInduction with
  | line t ht =>
    have hbreak : t.getLast? ≠ some '\n' := fun h => ht (List.mem_of_getLast? h)
    have htab := (sameEnds_guardLine t).last
    rw [headingContent_line ht, Ne.eq_def _ (some '\t'), htab]
    simp [hbreak, (guarded_guardLine t).getLast?_ne]
  | next t u ht ih =>
    rw [headingContent_next]
    by_cases hnil : u = []
    · rw [(headingContent_eq_nil_iff u).2 hnil, hnil]
      simp
    · have hcontent := mt (headingContent_eq_nil_iff u).1 hnil
      rw [List.append_cons, List.getLast?_append_of_ne_nil _ hcontent, List.append_cons t,
        List.getLast?_append_of_ne_nil _ hnil]
      exact ih

/-- Only the last line can have marks at the end with a blank before them. -/
theorem endsInMarks_headingContent_iff (t : Text) : EndsInMarks (headingContent t) ↔
    ∃ line ∈ t.lines.getLast?, EndsInMarks line ∧ ¬IsLoneMark line := by
  induction t using lineInduction with
  | line t ht =>
    have hlines : t.lines = [t] := Text.split_of_not_mem ht
    rw [headingContent_line ht, endsInMarks_guardLine, hlines]
    simp
  | next t u ht ih =>
    have hlines : (t ++ '\n' :: u).lines.getLast? = u.lines.getLast? := by
      rw [Text.lines, Text.split_append_cons]
      exact List.getLast?_append_of_ne_nil _ (Text.split_ne_nil '\n' u)
    rw [headingContent_next, endsInMarks_append ⟨' ', by simp, by decide⟩, endsInMarks_cons, hlines, ← ih]
    refine or_iff_right ?_
    rintro ⟨-, k, hk⟩
    exact headingContent_ne_replicate u k hk

theorem prefix_dropClosing (t : Text) : dropClosing t <+: t := by
  unfold dropClosing
  simp only
  split
  · exact List.nil_prefix
  · split
    · exact (List.rdropWhile_prefix _ _).trans (List.rdropWhile_prefix _ _)
    · exact List.prefix_rfl

theorem dropClosing_trimBlanks_headingContent_iff (t : Text) :
    dropClosing (trimBlanks (headingContent t)) = headingContent t ↔ KeepsEnds t := by
  have htrim : dropClosing (trimBlanks (headingContent t)) = headingContent t ↔
      trimBlanks (headingContent t) = headingContent t ∧
        dropClosing (headingContent t) = headingContent t := by
    constructor
    · intro h
      have hlength := (prefix_dropClosing (trimBlanks (headingContent t))).length_le
      have hall : trimBlanks (headingContent t) = headingContent t := by
        apply (trimBlanks_sublist _).eq_of_length_le
        rwa [h] at hlength
      rw [hall] at h
      exact ⟨hall, h⟩
    · rintro ⟨hall, h⟩
      rw [hall, h]
  rw [htrim, trimBlanks_eq_self_iff]
  constructor
  · rintro ⟨⟨hhead, hlast⟩, hclosing⟩
    have hmarks := (dropClosing_eq_self_iff hlast).1 hclosing
    rw [endsInMarks_headingContent_iff] at hmarks
    exact {
      head := (head?_headingContent_iff t).1 hhead
      last := (getLast?_headingContent_iff t).1 hlast
      marks := fun line hline hends => by_contra fun hlone => hmarks.1 ⟨line, hline, hends, hlone⟩ }
  · intro h
    have hhead := (head?_headingContent_iff t).2 h.head
    have hlast := (getLast?_headingContent_iff t).2 h.last
    refine ⟨⟨hhead, hlast⟩, (dropClosing_eq_self_iff hlast).2 ⟨?_, headingContent_ne_replicate t⟩⟩
    rw [endsInMarks_headingContent_iff]
    rintro ⟨line, hline, hends, hlone⟩
    exact hlone (h.marks line hline hends)

theorem firstLine_eq_self_iff (t : Text) : firstLine t = t ↔ '\n' ∉ t ∧ '\r' ∉ t := by
  rw [firstLine, List.takeWhile_eq_self_iff]
  constructor
  · intro h
    exact ⟨fun hn => by simpa using h _ hn, fun hr => by simpa using h _ hr⟩
  · rintro ⟨hn, hr⟩ c hc
    have hne : c ≠ '\n' ∧ c ≠ '\r' := ⟨fun h => hn (h ▸ hc), fun h => hr (h ▸ hc)⟩
    simpa using hne

theorem readHeading_headingText_iff (depth : Nat) {content t : Text} (hbreak : '\n' ∉ content) :
    readHeading (headingText depth content) = some (depth, t) ↔
      (1 ≤ depth ∧ depth ≤ 6) ∧ '\r' ∉ content ∧ dropClosing (trimBlanks content) = t := by
  obtain ⟨rest, hrest, htrim, hend, hmem⟩ : ∃ rest,
      headingText depth content = List.replicate depth '#' ++ rest ∧ trimBlanks rest = trimBlanks content ∧
        (rest = [] ∨ rest.head? = some ' ') ∧ ∀ c, c ≠ ' ' → (c ∈ rest ↔ c ∈ content) := by
    cases content with
    | nil => exact ⟨[], rfl, rfl, .inl rfl, by simp⟩
    | cons c content => exact ⟨' ' :: c :: content, rfl, rfl, .inr rfl, by simp +contextual⟩
  have hnext : ∀ c ∈ rest.head?, decide (c = '#') = false := by
    rcases hend with rfl | hspace
    · simp
    · simp [hspace]
  obtain ⟨htake, hdrop⟩ := takeWhile_append_run (t := List.replicate depth '#') (by simp) hnext
  have hmark : isMarkEnd rest = true := by
    rcases hend with rfl | hspace
    · rfl
    · obtain ⟨t, rfl⟩ := List.head?_eq_some_iff.1 hspace
      rfl
  have hline : firstLine (headingText depth content) = headingText depth content ↔ '\r' ∉ content := by
    rw [firstLine_eq_self_iff, hrest, List.mem_append, List.mem_append, hmem _ (by decide),
      hmem _ (by decide)]
    simp [hbreak, List.mem_replicate]
  have hheading : isHeading (headingText depth content) = true ↔ 1 ≤ depth ∧ depth ≤ 6 := by
    rw [isHeading, hrest, htake, hdrop, hmark, List.length_replicate]
    simp
  rw [readHeading, Option.ite_none_right_eq_some, hline, hheading, hrest, htake, hdrop, htrim,
    List.length_replicate, Option.some_inj, Prod.mk.injEq, eq_self, true_and, and_assoc, and_left_comm]

/-- A heading is one line. A reader gets back its depth and its content just if the depth is one to six, the
content has no carriage return, and nothing is lost at its ends. -/
theorem readHeading_render_iff (o : Options) (alternate : Bool) (depth : Nat) (content : List Inline) :
    '\n' ∉ (Flow.heading depth content).render o alternate ∧
    (readHeading ((Flow.heading depth content).render o alternate) =
        some (depth, headingContent (phrasing o none none content)) ↔
      (1 ≤ depth ∧ depth ≤ 6) ∧ '\r' ∉ phrasing o none none content ∧
        KeepsEnds (phrasing o none none content)) := by
  have hrender : (Flow.heading depth content).render o alternate =
      headingText depth (headingContent (phrasing o none none content)) := by
    rw [Flow.render, headingContent]
  rw [hrender]
  generalize phrasing o none none content = t
  have hbreak := not_mem_headingContent t
  constructor
  · unfold headingText
    split <;> simp [List.mem_replicate, hbreak]
  · rw [readHeading_headingText_iff depth hbreak, mem_headingContent_iff,
      dropClosing_trimBlanks_headingContent_iff]

/-- A mark at the end of a heading is read as part of the heading around its text. -/
theorem readHeading_mark_at_end :
    (Flow.heading 1 [.text "a #"]).render {} false = "# a #".toList ∧
    headingContent (phrasing {} none none [.text "a #"]) = "a #".toList ∧
    readHeading "# a #".toList = some (1, "a".toList) := by
  refine ⟨?_, ?_, ?_⟩ <;> decide +kernel

end PageExport.Markdown
