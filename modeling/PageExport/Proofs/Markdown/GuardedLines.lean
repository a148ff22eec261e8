import Mathlib.Data.List.Forall2
import PageExport.Proofs.Markdown.BlockStarts

/-!
The lines of a paragraph, one by one. A line that would open another block gets one backslash before
its mark, then the spaces at its edges are spelled out, and nothing in what is written opens a block in
the same way again: the escapes neither undo nor repeat each other.
-/
namespace PageExport.Markdown

inductive Opener where
  | block | ordinal | underline
  deriving DecidableEq, Repr

/-- The line ends, or a space comes next. -/
def EndsWord (t : Text) : Prop := t = [] ∨ t.head? = some ' '

/-- The first part, which is empty but before the delimiter of a number, stands before a mark. -/
inductive MarkAt : Opener → Text → Text → Prop where
  /-- A heading mark, a quote mark or a bullet. -/
  | block {c : Char} {rest : Text} (hc : c = '#' ∨ c = '>' ∨ (c = '-' ∨ c = '+') ∧ EndsWord rest) :
    MarkAt .block [] (c :: rest)
  /-- A delimiter behind one to nine digits. -/
  | ordinal {digits : Text} {c : Char} {rest : Text} (hsize : 1 ≤ digits.length ∧ digits.length ≤ 9)
    (hdigits : ∀ d ∈ digits, Unicode.isDecimalDigit d = true)
    (hc : (c = '.' ∨ c = ')') ∧ EndsWord rest) : MarkAt .ordinal digits (c :: rest)
  /-- A run of equals signs, or of at least two dashes, with only blanks behind it. -/
  | underline {n : Nat} {c : Char} {blanks : Text} (hrun : c = '=' ∧ 1 ≤ n ∨ c = '-' ∧ 2 ≤ n)
    (hblanks : ∀ d ∈ blanks, d = ' ' ∨ d = '\t') :
    MarkAt .underline [] (List.replicate n c ++ blanks)

def spaces (k : Nat) : Text := List.replicate k ' '

/-- A mark of the kind stands in the line behind at most three spaces. -/
def OpensAs (kind : Opener) (line : Text) : Prop :=
  ∃ k ≤ 3, ∃ t u, line = spaces k ++ t ++ u ∧ MarkAt kind t u

def Opens (line : Text) : Prop := ∃ kind, OpensAs kind line

/-- The characters that can have a backslash put before them. -/
def openingMarks : List Char := ['#', '>', '-', '+', '=', '.', ')']

/-- A line that opens a block gets a backslash before its mark, any other line stays as it is. -/
inductive Escaped : Text → Text → Prop where
  | mark {kind : Opener} {k : Nat} {t u : Text} {c : Char} (hk : k ≤ 3)
    (hmark : MarkAt kind t (c :: u)) (hc : c ∈ openingMarks) :
    Escaped (spaces k ++ t ++ c :: u) (spaces k ++ t ++ '\\' :: c :: u)
  | none {line : Text} (hopens : ¬Opens line) : Escaped line line

/-- One space at the start, if there is one, is spelled out. -/
inductive StartSpelled : Text → Text → Prop where
  | space (t : Text) : StartSpelled (' ' :: t) (encodedSpace ++ t)
  | other {t : Text} (h : t.head? ≠ some ' ') : StartSpelled t t

/-- One space at the end, if there is one, is spelled out. -/
inductive EndSpelled : Text → Text → Prop where
  | space (t : Text) : EndSpelled (t ++ [' ']) (t ++ encodedSpace)
  | other {t : Text} (h : t.getLast? ≠ some ' ') : EndSpelled t t

/-- How a line of a text and the line written for it go together. -/
structure Guarded (line written : Text) : Prop where
  spelled : ∃ escaped started, Escaped line escaped ∧ StartSpelled escaped started ∧
    EndSpelled started written
  head?_ne : written.head? ≠ some ' '
  getLast?_ne : written.getLast? ≠ some ' '
  not_opens : ¬Opens written

theorem atWordEnd_iff (t : Text) : atWordEnd t = true ↔ EndsWord t := by
  cases t <;> simp [atWordEnd, EndsWord]

theorem opensBlock_iff (u : Text) : opensBlock u = true ↔ MarkAt .block [] u := by
  constructor
  · intro h
    cases u with
    | nil => cases h
    | cons c rest => exact .block (by simpa [opensBlock, atWordEnd_iff, or_assoc] using h)
  · rintro ⟨hc⟩
    simpa [opensBlock, atWordEnd_iff, or_assoc] using hc

theorem splitOrdinal_eq_some_iff {t digits u : Text} :
    splitOrdinal t = some (digits, u) ↔ t = digits ++ u ∧ MarkAt .ordinal digits u := by
  constructor
  · intro h
    obtain ⟨ht, -, hdigits⟩ := splitOrdinal_eq_some h
    unfold splitOrdinal at h
    simp only at h
    split at h
    · split at h
      · next htest =>
        cases h
        simp only [Bool.and_eq_true, Bool.or_eq_true, decide_eq_true_eq, atWordEnd_iff] at htest
        obtain ⟨⟨hsize, hc⟩, hrest⟩ := htest
        exact ⟨ht, .ordinal hsize hdigits ⟨hc, hrest⟩⟩
      · cases h
    · cases h
  · rintro ⟨rfl, h⟩
    cases h with
    | @ordinal _ c rest hsize hdigits hc =>
      have hdigit : Unicode.isDecimalDigit c = false := by
        rcases hc.1 with rfl | rfl <;> decide +kernel
      obtain ⟨htake, hdrop⟩ := takeWhile_append_run hdigits (u := c :: rest) (by simpa using hdigit)
      simp [splitOrdinal, htake, hdrop, hsize, hc.1, (atWordEnd_iff rest).2 hc.2]

theorem isUnderline_iff (u : Text) : isUnderline u = true ↔ MarkAt .underline [] u := by
  constructor
  · intro h
    cases u with
    | nil => cases h
    | cons c rest =>
      simp only [isUnderline, Bool.and_eq_true, Bool.or_eq_true, decide_eq_true_eq,
        List.all_eq_true] at h
      obtain ⟨hrun, hblanks⟩ := h
      have hpos : 1 ≤ ((c :: rest).takeWhile (· = c)).length := by simp
      rw [← List.takeWhile_append_dropWhile (p := (· = c)) (l := c :: rest), takeWhile_eq_replicate]
      exact .underline (hrun.imp_left fun h => ⟨h, hpos⟩) hblanks
  · intro h
    cases h with
    | @underline n c blanks hrun hblanks =>
      obtain ⟨m, rfl⟩ : ∃ m, n = m + 1 := ⟨n - 1, by omega⟩
      have hhead : ∀ d ∈ blanks.head?, decide (d = c) = false := by
        intro d hd
        apply decide_eq_false
        rintro rfl
        have hblank := hblanks d (List.mem_of_mem_head? hd)
        rcases hrun with ⟨rfl, -⟩ | ⟨rfl, -⟩ <;> simp at hblank
      obtain ⟨htake, hdrop⟩ := takeWhile_append_run (p := (· = c)) (t := List.replicate (m + 1) c)
        (by simp) hhead
      rw [List.replicate_succ, List.cons_append] at htake hdrop ⊢
      simp only [isUnderline, htake, hdrop, Bool.and_eq_true, Bool.or_eq_true, decide_eq_true_eq,
        List.all_eq_true, List.length_cons, List.length_replicate]
      exact ⟨hrun.imp And.left id, hblanks⟩

/-- What stands before the mark of a kind, and the rest. -/
def Opener.split? : Opener → Text → Option (Text × Text)
  | .block, w => if opensBlock w then some ([], w) else none
  | .ordinal, w => splitOrdinal w
  | .underline, w => if isUnderline w then some ([], w) else none

namespace MarkAt
variable {kind : Opener} {t u : Text}

theorem eq_nil (h : MarkAt kind t u) (hkind : kind ≠ .ordinal) : t = [] := by
  cases h with
  | block | underline => rfl
  | ordinal => exact absurd rfl hkind

theorem exists_cons (h : MarkAt kind t u) : ∃ c v, u = c :: v ∧ c ∈ openingMarks := by
  cases h with
  | @block c rest hc => exact ⟨c, rest, rfl, by rcases hc with rfl | rfl | ⟨rfl | rfl, -⟩ <;> decide⟩
  | @ordinal _ c rest _ _ hc => exact ⟨c, rest, rfl, by rcases hc.1 with rfl | rfl <;> decide⟩
  | @underline n c blanks hrun _ =>
    obtain ⟨m, rfl⟩ : ∃ m, n = m + 1 := ⟨n - 1, by omega⟩
    exact ⟨c, _, rfl, by rcases hrun with ⟨rfl, -⟩ | ⟨rfl, -⟩ <;> decide⟩

theorem head?_ne (h : MarkAt kind t u) : (t ++ u).head? ≠ some ' ' := by
  obtain ⟨c, v, rfl, hc⟩ := h.exists_cons
  cases t with
  | nil =>
    rintro hhead
    obtain rfl := Option.some.inj hhead
    exact absurd hc (by decide)
  | cons d t =>
    rintro hhead
    obtain rfl := Option.some.inj hhead
    cases h with
    | ordinal _ hdigits _ => exact absurd (hdigits ' ' (by simp)) (by decide +kernel)

end MarkAt

theorem split?_eq_some_iff {kind : Opener} {w t u : Text} :
    kind.split? w = some (t, u) ↔ w = t ++ u ∧ MarkAt kind t u := by
  have hwhole {test : Text → Bool} (hkind : kind ≠ .ordinal)
      (htest : ∀ v, test v = true ↔ MarkAt kind [] v) :
      (if test w then some (([] : Text), w) else none) = some (t, u) ↔ w = t ++ u ∧ MarkAt kind t u := by
    rw [Option.ite_none_right_eq_some, htest, Option.some.injEq, Prod.mk.injEq]
    constructor
    · rintro ⟨h, rfl, rfl⟩
      exact ⟨rfl, h⟩
    · rintro ⟨rfl, h⟩
      obtain rfl := h.eq_nil hkind
      exact ⟨h, rfl, rfl⟩
  cases kind with
  | block => exact hwhole (by decide) opensBlock_iff
  | ordinal => exact splitOrdinal_eq_some_iff
  | underline => exact hwhole (by decide) isUnderline_iff

theorem isEscaped_iff (w : Text) :
    isEscaped w = true ↔ ∃ kind t u, w = t ++ u ∧ MarkAt kind t u := by
  have hsome : isEscaped w = true ↔ ∃ kind : Opener, (kind.split? w).isSome = true := by
    constructor
    · intro h
      simp only [isEscaped, Bool.or_eq_true] at h
      rcases h with (hb | ho) | hu
      · exact ⟨.block, by simp [Opener.split?, hb]⟩
      · exact ⟨.ordinal, ho⟩
      · exact ⟨.underline, by simp [Opener.split?, hu]⟩
    · rintro ⟨kind, h⟩
      cases kind <;> simp_all [isEscaped, Opener.split?]
  simp only [hsome, Option.isSome_iff_exists, Prod.exists, split?_eq_some_iff]

theorem splitIndent_spaces {k : Nat} (hk : k ≤ 3) {w : Text} (hw : w.head? ≠ some ' ') :
    splitIndent (spaces k ++ w) = some (spaces k, w) := by
  have hhead : ∀ d ∈ w.head?, decide (d = ' ') = false := by
    intro d hd
    apply decide_eq_false
    rintro rfl
    exact hw hd
  obtain ⟨htake, hdrop⟩ := takeWhile_append_run (t := spaces k) (by simp [spaces]) hhead
  have hlength : (spaces k).length ≤ 3 := by rwa [spaces, List.length_replicate]
  simp only [splitIndent, htake, hdrop, hlength, ↓reduceIte]

theorem exists_of_splitIndent {line indent w : Text} (h : splitIndent line = some (indent, w)) :
    ∃ k ≤ 3, indent = spaces k ∧ line = spaces k ++ w := by
  have hline := (splitIndent_eq_some h).1
  unfold splitIndent at h
  simp only at h
  split at h
  · next hk =>
    cases h
    refine ⟨_, hk, takeWhile_eq_replicate ' ' line, ?_⟩
    rw [spaces, ← takeWhile_eq_replicate, ← hline]
  · cases h

theorem not_opens_spaces {k : Nat} (hk : k ≤ 3) {w : Text} (hw : w.head? ≠ some ' ')
    (he : isEscaped w = false) : ¬Opens (spaces k ++ w) := by
  rintro ⟨kind, m, hm, t, u, hline, hmark⟩
  have hsplit := splitIndent_spaces hm hmark.head?_ne
  rw [← List.append_assoc, ← hline, splitIndent_spaces hk hw, Option.some.injEq, Prod.mk.injEq] at hsplit
  rw [(isEscaped_iff w).2 ⟨kind, t, u, hsplit.2, hmark⟩] at he
  cases he

/-- Behind a backslash or a reference nothing opens a block, not even after digits. -/
theorem not_isEscaped_append {t : Text} (ht : ∀ d ∈ t, Unicode.isDecimalDigit d = true) {c : Char}
    (hc : c = '\\' ∨ c = '&') (r : Text) :
    isEscaped (t ++ c :: r) = false ∧ (t ++ c :: r).head? ≠ some ' ' := by
  have hdigit : Unicode.isDecimalDigit c = false := by rcases hc with rfl | rfl <;> decide +kernel
  have hordinal : splitOrdinal (t ++ c :: r) = none := by
    obtain ⟨htake, hdrop⟩ := takeWhile_append_run ht (u := c :: r) (by simpa using hdigit)
    rcases hc with rfl | rfl <;> simp [splitOrdinal, htake, hdrop]
  have hstart {d : Char} (hd : d ∉ blockMarks) (rest : Text) :
      opensBlock (d :: rest) = false ∧ isUnderline (d :: rest) = false ∧ d ≠ ' ' := by
    simp only [blockMarks, List.mem_cons, List.not_mem_nil, or_false, not_or] at hd
    refine ⟨?_, isUnderline_cons (by simp [hd]) rest, hd.1⟩
    simp [opensBlock, hd]
  have hline : opensBlock (t ++ c :: r) = false ∧ isUnderline (t ++ c :: r) = false ∧
      (t ++ c :: r).head? ≠ some ' ' := by
    cases t with
    | nil =>
      obtain ⟨hb, hu, hs⟩ := hstart (d := c) (by rcases hc with rfl | rfl <;> decide) r
      exact ⟨hb, hu, by simpa using hs⟩
    | cons d t =>
      obtain ⟨hb, hu, hs⟩ := hstart (not_mem_blockMarks (ht d (by simp))) (t ++ c :: r)
      exact ⟨hb, hu, by simpa using hs⟩
  exact ⟨by simp [isEscaped, hline, hordinal], hline.2.2⟩

theorem MarkAt.digits {kind : Opener} {t u : Text} (h : MarkAt kind t u) :
    ∀ d ∈ t, Unicode.isDecimalDigit d = true := by
  cases h with
  | block | underline => simp
  | ordinal _ hdigits _ => exact hdigits

/-- A line with a backslash before its mark opens nothing any more. -/
theorem MarkAt.not_opens {kind : Opener} {k : Nat} {t u : Text} (hk : k ≤ 3) (h : MarkAt kind t u) :
    ¬Opens (spaces k ++ t ++ '\\' :: u) := by
  obtain ⟨he, hhead⟩ := not_isEscaped_append h.digits (.inl rfl) u
  rw [List.append_assoc]
  exact not_opens_spaces hk hhead he

/-- What the escape for one kind of mark does to a line. -/
def Opener.escape (kind : Opener) (line : Text) : Text :=
  match splitIndent line with
  | some (indent, w) =>
    match kind.split? w with
    | some (t, u) => indent ++ t ++ '\\' :: u
    | none => line
  | none => line

theorem escapeBlockStart_eq (line : Text) : escapeBlockStart line = Opener.block.escape line := by
  unfold escapeBlockStart Opener.escape Opener.split?
  cases splitIndent line with
  | none => rfl
  | some p => cases hb : opensBlock p.2 <;> simp [hb]

theorem escapeOrdinal_eq (line : Text) : escapeOrdinal line = Opener.ordinal.escape line := rfl

theorem escapeUnderline_eq (line : Text) : escapeUnderline line = Opener.underline.escape line := by
  unfold escapeUnderline Opener.escape Opener.split?
  cases splitIndent line with
  | none => rfl
  | some p => cases hu : isUnderline p.2 <;> simp [hu]

theorem Opener.escape_of_mark {kind : Opener} {k : Nat} {t u : Text} (hk : k ≤ 3)
    (h : MarkAt kind t u) : kind.escape (spaces k ++ t ++ u) = spaces k ++ t ++ '\\' :: u := by
  have hsplit := splitIndent_spaces hk h.head?_ne
  rw [List.append_assoc, Opener.escape, hsplit]
  simp only [split?_eq_some_iff.2 ⟨rfl, h⟩]

theorem Opener.escape_of_not_opens {kind : Opener} {line : Text} (h : ¬OpensAs kind line) :
    kind.escape line = line := by
  unfold Opener.escape
  split
  · next indent w hsplit =>
    obtain ⟨k, hk, rfl, rfl⟩ := exists_of_splitIndent hsplit
    split
    · next t u hfound =>
      obtain ⟨rfl, hmark⟩ := split?_eq_some_iff.1 hfound
      exact absurd ⟨k, hk, t, u, (List.append_assoc ..).symm, hmark⟩ h
    · rfl
  · rfl

theorem escaped_line (line : Text) :
    Escaped line (escapeUnderline (escapeOrdinal (escapeBlockStart line))) := by
  rw [escapeBlockStart_eq, escapeOrdinal_eq, escapeUnderline_eq]
  have hmark {kind : Opener} {k : Nat} {t u : Text} (hk : k ≤ 3) (h : MarkAt kind t u) :
      Escaped (spaces k ++ t ++ u) (spaces k ++ t ++ '\\' :: u) := by
    obtain ⟨c, v, rfl, hc⟩ := h.exists_cons
    exact .mark hk h hc
  -- no escape finds anything behind the backslash of an earlier one
  have hkeep {kind : Opener} {l : Text} (h : ¬Opens l) : kind.escape l = l :=
    Opener.escape_of_not_opens fun hkind => h ⟨kind, hkind⟩
  by_cases hb : OpensAs .block line
  · obtain ⟨k, hk, t, u, rfl, h⟩ := hb
    rw [Opener.escape_of_mark hk h, hkeep (h.not_opens hk), hkeep (h.not_opens hk)]
    exact hmark hk h
  rw [Opener.escape_of_not_opens hb]
  by_cases ho : OpensAs .ordinal line
  · obtain ⟨k, hk, t, u, rfl, h⟩ := ho
    rw [Opener.escape_of_mark hk h, hkeep (h.not_opens hk)]
    exact hmark hk h
  rw [Opener.escape_of_not_opens ho]
  by_cases hu : OpensAs .underline line
  · obtain ⟨k, hk, t, u, rfl, h⟩ := hu
    rw [Opener.escape_of_mark hk h]
    exact hmark hk h
  rw [Opener.escape_of_not_opens hu]
  refine .none ?_
  rintro ⟨_ | _ | _, h⟩
  · exact hb h
  · exact ho h
  · exact hu h

theorem startSpelled_encodeFirst (t : Text) : StartSpelled t (encodeFirst t) := by
  cases t with
  | nil => exact .other (by simp)
  | cons c t =>
    by_cases hc : c = ' '
    · subst hc
      exact .space t
    · rw [encodeFirst_cons hc]
      exact .other (by simpa using hc)

theorem endSpelled_encodeLast (t : Text) : EndSpelled t (encodeLast t) := by
  unfold encodeLast
  split
  · next h =>
    obtain ⟨u, rfl⟩ := List.getLast?_eq_some_iff.1 h
    rw [List.dropLast_concat]
    exact .space u
  · next h => exact .other h

theorem getLast?_encodeLast (t : Text) : (encodeLast t).getLast? ≠ some ' ' := by
  have h := endSpelled_encodeLast t
  generalize encodeLast t = u at h
  cases h with
  | space t => simp [encodedSpace]
  | other h => exact h

theorem EndsWord.of_encoded {w : Text} (h : EndsWord (w ++ encodedSpace)) : EndsWord (w ++ [' ']) := by
  cases w with
  | nil => exact .inr rfl
  | cons d w => simpa [EndsWord] using h

/-- A mark before a spelled-out space is one before the space itself. -/
theorem MarkAt.of_encoded {kind : Opener} {t u w : Text} (h : MarkAt kind t u)
    (hw : t ++ u = w ++ encodedSpace) : ∃ v, w ++ [' '] = t ++ v ∧ MarkAt kind t v := by
  cases h with
  | @block c rest hc =>
    cases w with
    | nil =>
      obtain rfl : c = '&' := (List.cons.inj hw).1
      rcases hc with h | h | ⟨h | h, -⟩ <;> exact absurd h (by decide)
    | cons d w =>
      obtain ⟨rfl, rfl⟩ := List.cons.inj hw
      exact ⟨_, rfl, .block (hc.imp_right (Or.imp_right (And.imp_right EndsWord.of_encoded)))⟩
  | @ordinal _ c rest hsize hdigits hc =>
    rcases List.append_eq_append_iff.1 hw with ⟨a, rfl, ha⟩ | ⟨a, rfl, ha⟩
    · cases a with
      | nil =>
        obtain rfl : c = '&' := (List.cons.inj ha).1
        rcases hc.1 with h | h <;> exact absurd h (by decide)
      | cons d a =>
        obtain ⟨rfl, rfl⟩ := List.cons.inj ha
        exact ⟨_, List.append_assoc .., .ordinal hsize hdigits (hc.imp_right EndsWord.of_encoded)⟩
    · cases a with
      | nil =>
        obtain rfl : '&' = c := (List.cons.inj ha).1
        rcases hc.1 with h | h <;> exact absurd h (by decide)
      | cons d a =>
        obtain rfl : '&' = d := (List.cons.inj ha).1
        exact absurd (hdigits '&' (by simp)) (by decide +kernel)
  | @underline n c blanks hrun hblanks =>
    have hmem : ';' ∈ [] ++ (List.replicate n c ++ blanks) := by
      rw [hw]
      simp [encodedSpace]
    simp only [List.nil_append, List.mem_append, List.mem_replicate] at hmem
    rcases hmem with ⟨-, rfl⟩ | hmem
    · rcases hrun with ⟨h, -⟩ | ⟨h, -⟩ <;> exact absurd h (by decide)
    · rcases hblanks _ hmem with h | h <;> exact absurd h (by decide)

theorem isEscaped_encodeLast {line : Text} (hs : line.head? ≠ some ' ') (he : isEscaped line = false) :
    isEscaped (encodeLast line) = false ∧ (encodeLast line).head? ≠ some ' ' := by
  cases line with
  | nil => exact ⟨rfl, by simp [encodeLast]⟩
  | cons c rest =>
    have hc : c ≠ ' ' := by simpa using hs
    obtain ⟨t, rfl, hencoded⟩ | ⟨-, -, hencoded⟩ := encodeLast_cons hc rest
    · rw [hencoded]
      refine ⟨?_, hs⟩
      by_contra hescaped
      obtain ⟨kind, p, u, hp, hmark⟩ := (isEscaped_iff _).1 (Bool.of_not_eq_false hescaped)
      obtain ⟨v, hv, hmark⟩ := hmark.of_encoded hp.symm
      have htrue : isEscaped (c :: (t ++ [' '])) = true := (isEscaped_iff _).2 ⟨kind, p, v, hv, hmark⟩
      rw [htrue] at he
      cases he
    · rw [hencoded]
      exact ⟨he, hs⟩

theorem guarded_guardLine (line : Text) : Guarded line (guardLine line) := by
  have hopens : (guardLine line).head? ≠ some ' ' ∧ ¬Opens (guardLine line) := by
    have hfinish {w : Text} (h : isEscaped w = false ∧ w.head? ≠ some ' ') :
        w.head? ≠ some ' ' ∧ ¬Opens w := ⟨h.2, not_opens_spaces (k := 0) (by omega) h.2 h.1⟩
    by_cases hs : line.head? = some ' '
    · obtain ⟨rest, rfl⟩ := List.head?_eq_some_iff.1 hs
      obtain ⟨r, hr⟩ := guardLine_space rest
      rw [hr]
      exact hfinish (not_isEscaped_append (t := []) (by simp) (.inr rfl) r)
    · cases he : isEscaped line with
      | true =>
        obtain ⟨t, r, hr, ht⟩ := guardLine_of_escaped hs he
        rw [hr]
        exact hfinish (not_isEscaped_append ht (.inl rfl) r)
      | false =>
        rw [guardLine_of_not_escaped hs he]
        exact hfinish (isEscaped_encodeLast hs he)
  exact {
    spelled := ⟨_, _, escaped_line line, startSpelled_encodeFirst _, endSpelled_encodeLast _⟩
    head?_ne := hopens.1
    getLast?_ne := getLast?_encodeLast _
    not_opens := hopens.2 }

/-- A paragraph has the lines of its content, each of them guarded. -/
theorem guarded_lines (o : Options) (content : List Inline) :
    List.Forall₂ Guarded (phrasing o none none content).lines
      (guardLines (phrasing o none none content)).lines := by
  rw [lines_guardLines, List.forall₂_map_right_iff, List.forall₂_same]
  exact fun line _ => guarded_guardLine line

example : guardLines ['1', '.', '\n', ' ', '=', ' '] =
    ['1', '\\', '.', '\n'] ++ encodedSpace ++ ['\\', '='] ++ encodedSpace := by decide +kernel

end PageExport.Markdown
