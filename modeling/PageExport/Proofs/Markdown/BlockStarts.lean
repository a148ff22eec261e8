import Mathlib.Data.List.TakeWhile
import PageExport.Markdown.LineStart
import PageExport.Markdown.Phrasing

/-!
Which lines a Markdown reader does not take as part of a paragraph, and which of them a writer lets
through when it guards the lines of a paragraph.
-/
namespace PageExport.Markdown

def isSpaceOrTab (c : Char) : Bool := c = ' ' || c = '\t'

def isMarkEnd : Text → Bool
  | [] => true
  | c :: _ => isSpaceOrTab c

def isHeading (t : Text) : Bool :=
  let depth := (t.takeWhile (· = '#')).length
  1 ≤ depth && depth ≤ 6 && isMarkEnd (t.dropWhile (· = '#'))

def isBullet : Text → Bool
  | [] => false
  | c :: rest => (c = '-' || c = '+' || c = '*') && isMarkEnd rest

def isDelimiter : Text → Bool
  | [] => false
  | c :: rest => (c = '.' || c = ')') && isMarkEnd rest

/-- One to nine ASCII digits with a delimiter behind them. -/
def isOrdinal (t : Text) : Bool :=
  let size := (t.takeWhile Char.isDigit).length
  1 ≤ size && size ≤ 9 && isDelimiter (t.dropWhile Char.isDigit)

/-- Three or more of one mark and nothing else but spaces and tabs. -/
def isRule : Text → Bool
  | [] => false
  | c :: rest => (c = '-' || c = '_' || c = '*') && rest.all (fun d => d = c || isSpaceOrTab d)
      && 2 ≤ rest.count c

def isSetext : Text → Bool
  | [] => false
  | c :: rest => (c = '=' || c = '-') && (rest.dropWhile (· = c)).all isSpaceOrTab

/-- A fence of backticks has none behind it in its line; a fence of tildes may have. -/
def isFence (t : Text) : Bool :=
  (3 ≤ (t.takeWhile (· = '`')).length && !(t.dropWhile (· = '`')).contains '`')
    || 3 ≤ (t.takeWhile (· = '~')).length

/-- Behind at most three spaces the line goes on with something of a kind. -/
def indented (kind : Text → Bool) (line : Text) : Bool :=
  match splitIndent line with
  | some (_, rest) => kind rest
  | none => false

def isBlockMark (t : Text) : Bool :=
  isHeading t || t.head? = some '>' || isBullet t || isOrdinal t || isRule t || isFence t

/-- A line that ends the paragraph before it. -/
def endsParagraph (line : Text) : Bool := line.all isSpaceOrTab || indented isBlockMark line

def isIndentedCode (line : Text) : Bool :=
  line.head? = some '\t' || [' ', ' ', ' ', ' '].isPrefixOf line

/-- A text whose lines are read as one paragraph. -/
def isOneParagraph (t : Text) : Bool :=
  match t.lines with
  | [] => false
  | first :: rest => !endsParagraph first && !isIndentedCode first &&
      rest.all fun line => !endsParagraph line && !indented isSetext line

/-- A line that gets a backslash if it starts without a space. -/
def isEscaped (line : Text) : Bool :=
  opensBlock line || (splitOrdinal line).isSome || isUnderline line

/-- A line that ends its paragraph although it is guarded. No backslash is due before it: it is blank or
a rule, and then has no space at its end to encode; or a bullet that is a star or has a tab behind it;
or a number with a tab behind its delimiter; or a fence. -/
def leaks (line : Text) : Bool :=
  line.head? ≠ some ' ' && !isEscaped line &&
    ((line.all isSpaceOrTab || isRule line) && line.getLast? ≠ some ' '
      || isBullet line && line ≠ ['*', ' '] || isOrdinal line || isFence line)

section
variable {p : Char → Bool} {c : Char} (hc : p c = false)
include hc

theorem takeWhile_append_cons (t u : Text) : (t ++ c :: u).takeWhile p = t.takeWhile p := by
  induction t with
  | nil => simp [hc]
  | cons d t ih =>
    rw [List.cons_append, List.takeWhile_cons, List.takeWhile_cons, ih]

theorem dropWhile_append_cons (t u : Text) :
    (t ++ c :: u).dropWhile p = t.dropWhile p ++ c :: u := by
  induction t with
  | nil => simp [hc]
  | cons d t ih =>
    rw [List.cons_append, List.dropWhile_cons, List.dropWhile_cons, ih]
    split <;> rfl

end

/-- A test ends where it fails first. -/
theorem takeWhile_append_run {p : Char → Bool} {t u : Text} (ht : ∀ c ∈ t, p c = true)
    (hu : ∀ c ∈ u.head?, p c = false) :
    (t ++ u).takeWhile p = t ∧ (t ++ u).dropWhile p = u := by
  have hrest : u.takeWhile p = [] ∧ u.dropWhile p = u := by
    cases u with
    | nil => exact ⟨rfl, rfl⟩
    | cons c u =>
      have hc : p c = false := hu c rfl
      simp [hc]
  rw [List.takeWhile_append_of_pos ht, List.dropWhile_append_of_pos ht, hrest.1, hrest.2,
    List.append_nil]
  exact ⟨rfl, rfl⟩

theorem takeWhile_eq_replicate (c : Char) (t : Text) :
    t.takeWhile (· = c) = List.replicate (t.takeWhile (· = c)).length c :=
  List.eq_replicate_of_mem fun _ hd => by simpa using List.mem_takeWhile_imp hd

theorem splitIndent_cons {c : Char} (hc : c ≠ ' ') (rest : Text) :
    splitIndent (c :: rest) = some ([], c :: rest) := by
  simp [splitIndent, hc]

theorem indented_cons {c : Char} (hc : c ≠ ' ') (kind : Text → Bool) (rest : Text) :
    indented kind (c :: rest) = kind (c :: rest) := by
  simp [indented, splitIndent_cons hc]

/-- The characters that open a block or indent it, numbers apart. -/
def blockMarks : List Char := [' ', '\t', '#', '>', '-', '+', '*', '_', '=', '`', '~']

/-- A line with a harmless start ends no paragraph unless as a number. -/
theorem harmless_cons {c : Char} (hc : c ∉ blockMarks) (rest : Text) :
    endsParagraph (c :: rest) = isOrdinal (c :: rest) ∧ indented isSetext (c :: rest) = false ∧
      isIndentedCode (c :: rest) = false := by
  simp only [blockMarks, List.mem_cons, List.not_mem_nil, or_false, not_or] at hc
  obtain ⟨hspace, htab, hhash, hquote, hdash, hplus, hstar, hunder, hequals, htick, htilde⟩ := hc
  refine ⟨?_, ?_, ?_⟩
  · simp [endsParagraph, indented_cons, isBlockMark, isSpaceOrTab, isHeading, isBullet, isRule,
      isFence, *]
  · simp [indented_cons, isSetext, *]
  · simp [isIndentedCode, List.isPrefixOf, htab, Ne.symm hspace]

theorem not_mem_blockMarks {d : Char} (hd : Unicode.isDecimalDigit d = true) : d ∉ blockMarks := by
  have hmarks : (blockMarks.all fun m => !Unicode.isDecimalDigit m) = true := by decide +kernel
  intro hm
  have hmark := List.all_eq_true.1 hmarks d hm
  rw [hd] at hmark
  cases hmark

/-- A line that starts with a reference or a backslash, digits apart, ends no paragraph. -/
theorem harmless_append {t : Text} (ht : ∀ d ∈ t, Unicode.isDecimalDigit d = true) {c : Char}
    (hc : c = '\\' ∨ c = '&') (r : Text) :
    endsParagraph (t ++ c :: r) = false ∧ indented isSetext (t ++ c :: r) = false ∧
      isIndentedCode (t ++ c :: r) = false := by
  have hdelimiter : isDelimiter (t.dropWhile Char.isDigit ++ c :: r) = false := by
    cases hrest : t.dropWhile Char.isDigit with
    | nil => rcases hc with rfl | rfl <;> rfl
    | cons d rest =>
      have hd := ht d (List.dropWhile_subset _ (hrest ▸ List.mem_cons_self))
      have hdot : d ≠ '.' := by
        rintro rfl
        exact absurd hd (by decide +kernel)
      have hparen : d ≠ ')' := by
        rintro rfl
        exact absurd hd (by decide +kernel)
      simp [isDelimiter, hdot, hparen]
  have hordinal : isOrdinal (t ++ c :: r) = false := by
    have hdigit : c.isDigit = false := by rcases hc with rfl | rfl <;> rfl
    simp only [isOrdinal, dropWhile_append_cons hdigit, hdelimiter, Bool.and_false]
  have hharmless : endsParagraph (t ++ c :: r) = isOrdinal (t ++ c :: r) ∧
      indented isSetext (t ++ c :: r) = false ∧ isIndentedCode (t ++ c :: r) = false := by
    cases t with
    | nil =>
      have hmem : c ∉ blockMarks := by rcases hc with rfl | rfl <;> decide
      exact harmless_cons hmem r
    | cons d t => exact harmless_cons (not_mem_blockMarks (ht d (by simp))) (t ++ c :: r)
  rwa [hordinal] at hharmless

theorem encodeLast_append_cons {c : Char} (hc : c ≠ ' ') (t r : Text) :
    ∃ r', encodeLast (t ++ c :: r) = t ++ c :: r' := by
  unfold encodeLast
  split
  · next h =>
    have hr : r ≠ [] := by
      rintro rfl
      simp [hc] at h
    refine ⟨r.dropLast ++ encodedSpace, ?_⟩
    rw [List.dropLast_append_of_ne_nil (List.cons_ne_nil c r), List.dropLast_cons_of_ne_nil hr,
      List.append_assoc]
    rfl
  · exact ⟨r, rfl⟩

theorem splitIndent_eq_some {line indent rest : Text} (h : splitIndent line = some (indent, rest)) :
    line = indent ++ rest ∧ (line.head? = some ' ' → indent.head? = some ' ') := by
  unfold splitIndent at h
  simp only at h
  split at h
  · cases h
    refine ⟨by rw [List.takeWhile_append_dropWhile], fun hs => ?_⟩
    obtain ⟨tail, rfl⟩ := List.head?_eq_some_iff.1 hs
    rfl
  · cases h

theorem splitOrdinal_eq_some {t digits rest : Text} (h : splitOrdinal t = some (digits, rest)) :
    t = digits ++ rest ∧ digits ≠ [] ∧ ∀ d ∈ digits, Unicode.isDecimalDigit d = true := by
  unfold splitOrdinal at h
  simp only at h
  split at h
  · next c u hrest =>
    split at h
    · next hc =>
      cases h
      refine ⟨?_, ?_, fun d hd => List.mem_takeWhile_imp hd⟩
      · rw [← hrest, List.takeWhile_append_dropWhile]
      · rintro hnil
        simp [hnil] at hc
    · cases h
  · cases h

/-- At most a backslash is put into a line, and not before a space at its start. -/
def Inserts (line line' : Text) : Prop :=
  line' = line ∨ ∃ t r, line = t ++ r ∧ line' = t ++ '\\' :: r ∧
    (line.head? = some ' ' → t.head? = some ' ')

theorem inserts_escapeBlockStart (line : Text) : Inserts line (escapeBlockStart line) := by
  unfold escapeBlockStart
  split
  · next indent rest h =>
    obtain ⟨hline, hhead⟩ := splitIndent_eq_some h
    split
    · exact .inr ⟨indent, rest, hline, rfl, hhead⟩
    · exact .inl rfl
  · exact .inl rfl

theorem inserts_escapeOrdinal (line : Text) : Inserts line (escapeOrdinal line) := by
  unfold escapeOrdinal
  split
  · next indent rest h =>
    obtain ⟨hline, hhead⟩ := splitIndent_eq_some h
    split
    · next digits rest ho =>
      obtain ⟨hrest, -⟩ := splitOrdinal_eq_some ho
      refine .inr ⟨indent ++ digits, rest, by rw [hline, hrest, List.append_assoc], rfl, fun hs => ?_⟩
      obtain ⟨tail, htail⟩ := List.head?_eq_some_iff.1 (hhead hs)
      rw [htail]
      rfl
    · exact .inl rfl
  · exact .inl rfl

theorem inserts_escapeUnderline (line : Text) : Inserts line (escapeUnderline line) := by
  unfold escapeUnderline
  split
  · next indent rest h =>
    obtain ⟨hline, hhead⟩ := splitIndent_eq_some h
    split
    · exact .inr ⟨indent, rest, hline, rfl, hhead⟩
    · exact .inl rfl
  · exact .inl rfl

namespace Inserts

variable {line line' : Text}

theorem head? (h : Inserts line line') (hs : line.head? = some ' ') : line'.head? = some ' ' := by
  rcases h with rfl | ⟨t, r, -, rfl, hhead⟩
  · exact hs
  · obtain ⟨tail, rfl⟩ := List.head?_eq_some_iff.1 (hhead hs)
    rfl

theorem not_mem (h : Inserts line line') (hn : '\n' ∉ line) : '\n' ∉ line' := by
  rcases h with rfl | ⟨t, r, rfl, rfl, -⟩
  · exact hn
  · simpa using hn

end Inserts

theorem guardLine_space (rest : Text) : ∃ r, guardLine (' ' :: rest) = '&' :: r := by
  have h₁ := (inserts_escapeBlockStart (' ' :: rest)).head? rfl
  have h₂ := (inserts_escapeOrdinal _).head? h₁
  obtain ⟨r, hr⟩ := List.head?_eq_some_iff.1 ((inserts_escapeUnderline _).head? h₂)
  unfold guardLine
  rw [hr]
  exact encodeLast_append_cons (c := '&') (by decide) [] _

theorem encodeFirst_cons {c : Char} (hc : c ≠ ' ') (rest : Text) :
    encodeFirst (c :: rest) = c :: rest := by
  unfold encodeFirst
  split
  · next h => exact absurd (List.cons.inj h).1 hc
  · rfl

theorem splitOrdinal_cons {c : Char} (hc : Unicode.isDecimalDigit c = false) (rest : Text) :
    splitOrdinal (c :: rest) = none := by
  cases h : splitOrdinal (c :: rest) with
  | none => rfl
  | some pair =>
    obtain ⟨digits, u⟩ := pair
    obtain ⟨hline, hne, hdigits⟩ := splitOrdinal_eq_some h
    obtain ⟨d, ds, rfl⟩ := List.exists_cons_of_ne_nil hne
    cases hline
    simp [hc] at hdigits

theorem isUnderline_cons {c : Char} (hc : c ≠ '=' ∧ c ≠ '-') (rest : Text) :
    isUnderline (c :: rest) = false := by
  simp [isUnderline, hc]

/-- What the escapes do to a line that starts without a space. -/
theorem escapeBlockStart_cons {c : Char} (hc : c ≠ ' ') (rest : Text) :
    escapeBlockStart (c :: rest) =
      if opensBlock (c :: rest) then '\\' :: c :: rest else c :: rest := by
  simp [escapeBlockStart, splitIndent_cons hc]

theorem escapeOrdinal_cons {c : Char} (hc : c ≠ ' ') (rest : Text) :
    escapeOrdinal (c :: rest) = match splitOrdinal (c :: rest) with
      | some (digits, r) => digits ++ '\\' :: r
      | none => c :: rest := by
  cases h : splitOrdinal (c :: rest) <;> simp [escapeOrdinal, splitIndent_cons hc, h]

theorem escapeUnderline_cons {c : Char} (hc : c ≠ ' ') (rest : Text) :
    escapeUnderline (c :: rest) =
      if isUnderline (c :: rest) then '\\' :: c :: rest else c :: rest := by
  simp [escapeUnderline, splitIndent_cons hc]

/-- A line that starts without a space is escaped at its start, or behind the digits there. -/
theorem guardLine_eq {line : Text} (hs : line.head? ≠ some ' ') : guardLine line =
    encodeLast (if opensBlock line then '\\' :: line else
      match splitOrdinal line with
      | some (digits, rest) => digits ++ '\\' :: rest
      | none => if isUnderline line then '\\' :: line else line) := by
  unfold guardLine
  congr 1
  cases line with
  | nil => rfl
  | cons c rest =>
    have hc : c ≠ ' ' := by simpa using hs
    have hback (r : Text) : escapeUnderline (escapeOrdinal ('\\' :: r)) = '\\' :: r := by
      rw [escapeOrdinal_cons (by decide), splitOrdinal_cons (by decide +kernel)]
      simp only
      rw [escapeUnderline_cons (by decide), isUnderline_cons (by decide)]
      rfl
    rw [escapeBlockStart_cons hc]
    split
    · rw [hback, encodeFirst_cons (by decide)]
    · rw [escapeOrdinal_cons hc]
      split
      · next digits r ho =>
        obtain ⟨-, hne, hdigits⟩ := splitOrdinal_eq_some ho
        obtain ⟨d, ds, rfl⟩ := List.exists_cons_of_ne_nil hne
        have hd := not_mem_blockMarks (hdigits d (by simp))
        simp only [blockMarks, List.mem_cons, List.not_mem_nil, or_false, not_or] at hd
        rw [List.cons_append, escapeUnderline_cons hd.1, isUnderline_cons (by simp [hd])]
        exact encodeFirst_cons hd.1 _
      · rw [escapeUnderline_cons hc]
        split
        · exact encodeFirst_cons (by decide) _
        · exact encodeFirst_cons hc _

theorem guardLine_of_escaped {line : Text} (hs : line.head? ≠ some ' ') (he : isEscaped line = true) :
    ∃ t r, guardLine line = t ++ '\\' :: r ∧ ∀ d ∈ t, Unicode.isDecimalDigit d = true := by
  rw [guardLine_eq hs]
  have start (r : Text) : ∃ t r', encodeLast ('\\' :: r) = t ++ '\\' :: r' ∧
      ∀ d ∈ t, Unicode.isDecimalDigit d = true := by
    obtain ⟨r', hr⟩ := encodeLast_append_cons (c := '\\') (by decide) [] r
    exact ⟨[], r', hr, by simp⟩
  split
  · exact start line
  · next hb =>
    split
    · next digits rest ho =>
      obtain ⟨r', hr⟩ := encodeLast_append_cons (c := '\\') (by decide) digits rest
      exact ⟨digits, r', hr, (splitOrdinal_eq_some ho).2.2⟩
    · next ho =>
      have hu : isUnderline line = true := by simpa [isEscaped, hb, ho] using he
      rw [if_pos hu]
      exact start line

theorem guardLine_of_not_escaped {line : Text} (hs : line.head? ≠ some ' ')
    (he : isEscaped line = false) : guardLine line = encodeLast line := by
  simp only [isEscaped, Bool.or_eq_false_iff, Option.isSome_eq_false_iff, Option.isNone_iff_eq_none]
    at he
  obtain ⟨⟨hb, ho⟩, hu⟩ := he
  simp [guardLine_eq hs, hb, ho, hu]

theorem endsParagraph_cons {c : Char} (hs : c ≠ ' ') (hh : c ≠ '#') (hq : c ≠ '>') (rest : Text) :
    endsParagraph (c :: rest) = ((c :: rest).all isSpaceOrTab || isBullet (c :: rest) ||
      isOrdinal (c :: rest) || isRule (c :: rest) || isFence (c :: rest)) := by
  have hheading : isHeading (c :: rest) = false := by simp [isHeading, hh]
  simp [endsParagraph, indented_cons hs, isBlockMark, hheading, hq, Bool.or_assoc]

/-- What a line without an escape does not start with. -/
theorem of_not_escaped {c : Char} {rest : Text} (he : isEscaped (c :: rest) = false) :
    c ≠ '#' ∧ c ≠ '>' ∧ (c = '-' ∨ c = '+' → atWordEnd rest = false) ∧
      splitOrdinal (c :: rest) = none ∧ isUnderline (c :: rest) = false := by
  simp only [isEscaped, opensBlock, Bool.or_eq_false_iff, Option.isSome_eq_false_iff,
    Option.isNone_iff_eq_none, decide_eq_false_iff_not] at he
  obtain ⟨⟨⟨⟨hh, hq⟩, hb⟩, ho⟩, hu⟩ := he
  refine ⟨hh, hq, ?_, ho, hu⟩
  rintro (rfl | rfl) <;> simpa using hb

/-- An underline that is not escaped is a bullet. -/
theorem isBullet_of_isSetext {c : Char} {rest : Text} (he : isEscaped (c :: rest) = false)
    (h : isSetext (c :: rest) = true) : isBullet (c :: rest) = true := by
  obtain ⟨-, -, hword, -, hunder⟩ := of_not_escaped he
  simp only [isSetext, Bool.and_eq_true, Bool.or_eq_true, decide_eq_true_eq] at h
  obtain ⟨hc, hall⟩ := h
  have hunder' : ¬ (c = '=' ∨ c = '-' ∧ 2 ≤ ((c :: rest).takeWhile (· = c)).length) := by
    intro hrun
    have hblank : (((c :: rest).dropWhile (· = c)).all fun d => d = ' ' || d = '\t') = true := by
      simpa [isSpaceOrTab] using hall
    have htrue : isUnderline (c :: rest) = true := by
      simp only [isUnderline, Bool.and_eq_true, Bool.or_eq_true, decide_eq_true_eq]
      exact ⟨hrun, hblank⟩
    rw [hunder] at htrue
    cases htrue
  obtain rfl : c = '-' := hc.resolve_left fun h => hunder' (.inl h)
  cases rest with
  | nil => simp [atWordEnd] at hword
  | cons d rest =>
    have hd : d ≠ '-' := by
      rintro rfl
      exact hunder' (.inr ⟨rfl, by simp⟩)
    have hspace : d ≠ ' ' := by simpa [atWordEnd] using hword
    have htab : isSpaceOrTab d = true := by
      simp only [List.dropWhile_cons, hd, decide_false] at hall
      simpa using (List.all_eq_true.1 hall d (by simp))
    simp [isBullet, isMarkEnd, htab]

theorem isDecimalDigit_of_isDigit {c : Char} (h : c.isDigit = true) :
    Unicode.isDecimalDigit c = true := by
  have hc : (0x30 ≤ c.toNat && c.toNat ≤ 0x30 + 9) = true := by
    simp only [Char.isDigit, Bool.and_eq_true, decide_eq_true_eq, ge_iff_le, UInt32.le_iff_toNat_le]
      at h
    simpa using h
  rw [Unicode.isDecimalDigit, Unicode.digitValue?, Option.isSome_map, List.find?_isSome]
  exact ⟨0x30, by decide, hc⟩

/-- A number with a delimiter before a space gets its backslash. -/
theorem splitOrdinal_isSome {t : Text} {c : Char} (hc : c = '.' ∨ c = ')')
    (hsize : 1 ≤ (t.takeWhile Char.isDigit).length ∧ (t.takeWhile Char.isDigit).length ≤ 9)
    (hrest : t.dropWhile Char.isDigit = [c]) : (splitOrdinal (t ++ [' '])).isSome = true := by
  have ht : t ++ [' '] = t.takeWhile Char.isDigit ++ c :: [' '] := by
    calc t ++ [' '] = t.takeWhile Char.isDigit ++ t.dropWhile Char.isDigit ++ [' '] := by
          rw [List.takeWhile_append_dropWhile]
      _ = t.takeWhile Char.isDigit ++ c :: [' '] := by
          rw [hrest, List.append_assoc]
          rfl
  have hall : ∀ d ∈ t.takeWhile Char.isDigit, Unicode.isDecimalDigit d = true := fun d hd =>
    isDecimalDigit_of_isDigit (List.mem_takeWhile_imp hd)
  have hdigit : Unicode.isDecimalDigit c = false := by rcases hc with rfl | rfl <;> decide +kernel
  have hdrop : (t ++ [' ']).dropWhile Unicode.isDecimalDigit = c :: [' '] := by
    rw [ht, dropWhile_append_cons hdigit, List.dropWhile_eq_nil_iff.2 hall]
    rfl
  have htake : (t ++ [' ']).takeWhile Unicode.isDecimalDigit = t.takeWhile Char.isDigit := by
    rw [ht, takeWhile_append_cons hdigit, List.takeWhile_eq_self_iff.2 hall]
  simp [splitOrdinal, hdrop, htake, hsize, hc, atWordEnd]

/-- A line with a space at its end is `t ++ [' ']`, and it is `t ++ encodedSpace` once it is guarded. -/
theorem encodeLast_cons {c : Char} (hc : c ≠ ' ') (rest : Text) :
    (∃ t, rest = t ++ [' '] ∧ encodeLast (c :: rest) = c :: t ++ encodedSpace) ∨
      (c :: rest).getLast? ≠ some ' ' ∧ c :: rest ≠ ['*', ' '] ∧
        encodeLast (c :: rest) = c :: rest := by
  by_cases hlast : (c :: rest).getLast? = some ' '
  · have hencoded : encodeLast (c :: rest) = (c :: rest).dropLast ++ encodedSpace := if_pos hlast
    obtain ⟨t, ht⟩ := List.getLast?_eq_some_iff.1 hlast
    rw [hencoded, ht, List.dropLast_concat]
    cases t with
    | nil => exact absurd (List.cons.inj ht).1 hc
    | cons d t =>
      obtain ⟨rfl, hrest⟩ := List.cons.inj ht
      exact .inl ⟨t, hrest, rfl⟩
  · refine .inr ⟨hlast, ?_, if_neg hlast⟩
    intro h
    rw [h] at hlast
    exact hlast rfl

theorem isFence_encoded (t : Text) : isFence (t ++ encodedSpace) = isFence (t ++ [' ']) := by
  have htake {m : Char} (h : m ≠ ' ' ∧ m ≠ '&') :
      (t ++ encodedSpace).takeWhile (· = m) = (t ++ [' ']).takeWhile (· = m) := by
    rw [encodedSpace, takeWhile_append_cons (by simp [h.2.symm]),
      takeWhile_append_cons (by simp [h.1.symm])]
  have hdrop : ((t ++ encodedSpace).dropWhile (· = '`')).contains '`' =
      ((t ++ [' ']).dropWhile (· = '`')).contains '`' := by
    rw [encodedSpace, dropWhile_append_cons (by decide), dropWhile_append_cons (by decide)]
    simp
  simp only [isFence, htake (m := '`') (by decide), htake (m := '~') (by decide), hdrop]

theorem isRule_encoded (t : Text) : isRule (t ++ encodedSpace) = false := by
  cases t with
  | nil => rfl
  | cons c t =>
    rw [← Bool.not_eq_true]
    intro h
    simp only [isRule, List.cons_append, Bool.and_eq_true, Bool.or_eq_true, decide_eq_true_eq] at h
    obtain ⟨⟨hc, hall⟩, -⟩ := h
    have hreference := List.all_eq_true.1 hall '&' (by simp [encodedSpace])
    rcases hc with (rfl | rfl) | rfl <;> simp [isSpaceOrTab] at hreference

theorem isSetext_encoded (t : Text) : isSetext (t ++ encodedSpace) = false := by
  cases t with
  | nil => rfl
  | cons c t =>
    rw [← Bool.not_eq_true]
    intro h
    simp only [isSetext, List.cons_append, Bool.and_eq_true, Bool.or_eq_true, decide_eq_true_eq] at h
    obtain ⟨hc, hall⟩ := h
    have hreference : decide ('&' = c) = false := by rcases hc with rfl | rfl <;> rfl
    rw [encodedSpace, dropWhile_append_cons hreference] at hall
    simp [isSpaceOrTab] at hall

theorem isOrdinal_encoded {t : Text} (h : splitOrdinal (t ++ [' ']) = none) :
    isOrdinal (t ++ encodedSpace) = isOrdinal (t ++ [' ']) := by
  have htake : (t ++ encodedSpace).takeWhile Char.isDigit = t.takeWhile Char.isDigit :=
    takeWhile_append_cons (by decide) t _
  have htake' : (t ++ [' ']).takeWhile Char.isDigit = t.takeWhile Char.isDigit :=
    takeWhile_append_cons (by decide) t _
  have hdrop : (t ++ encodedSpace).dropWhile Char.isDigit = t.dropWhile Char.isDigit ++ encodedSpace :=
    dropWhile_append_cons (by decide) t _
  have hdrop' : (t ++ [' ']).dropWhile Char.isDigit = t.dropWhile Char.isDigit ++ [' '] :=
    dropWhile_append_cons (by decide) t _
  unfold isOrdinal
  rw [htake, htake', hdrop, hdrop']
  match hrest : t.dropWhile Char.isDigit with
  | [] => rfl
  | [c] =>
    by_cases hc : (c = '.' ∨ c = ')') ∧ 1 ≤ (t.takeWhile Char.isDigit).length ∧
        (t.takeWhile Char.isDigit).length ≤ 9
    · have hsome := splitOrdinal_isSome hc.1 hc.2 hrest
      rw [h] at hsome
      cases hsome
    · simp only [isDelimiter, isMarkEnd, encodedSpace, isSpaceOrTab, List.cons_append,
        List.nil_append]
      simp only [Char.reduceEq, decide_false, decide_true, Bool.or_false, Bool.and_false,
        Bool.and_true]
      simp only [Bool.false_eq, Bool.and_eq_false_imp, Bool.and_eq_true, decide_eq_true_eq,
        Bool.or_eq_false_iff, decide_eq_false_iff_not]
      exact fun hsize => not_or.1 fun h => hc ⟨h, hsize⟩
  | c :: d :: rest => rfl

theorem isBullet_encoded {c : Char} {t : Text} (h : c = '-' ∨ c = '+' → atWordEnd (t ++ [' ']) = false) :
    isBullet (c :: t ++ encodedSpace) =
      (isBullet (c :: t ++ [' ']) && c :: t ++ [' '] ≠ ['*', ' ']) := by
  cases t with
  | nil =>
    have hplus : ¬ (c = '-' ∨ c = '+') := fun hc => by simpa [atWordEnd] using h hc
    simp [isBullet, isMarkEnd, encodedSpace, isSpaceOrTab, not_or.1 hplus]
  | cons d t => simp [isBullet, isMarkEnd]

theorem endsParagraph_encoded {c : Char} {t : Text} (hc : c ≠ ' ')
    (he : isEscaped (c :: t ++ [' ']) = false) :
    endsParagraph (c :: t ++ encodedSpace) = leaks (c :: t ++ [' ']) := by
  obtain ⟨hh, hq, hword, hordinal, -⟩ := of_not_escaped he
  have hblank : (c :: (t ++ encodedSpace)).all isSpaceOrTab = false := by
    simp [encodedSpace, isSpaceOrTab]
  have hhead : ((c :: (t ++ [' '])).head? ≠ some ' ') = True := by simp [hc]
  have hlast : ((c :: (t ++ [' '])).getLast? ≠ some ' ') = False := by
    simp [List.getLast?_cons, List.getLast?_append]
  -- only a bullet or a number could end at the space, and but for a lone star these are escaped
  have hbullet := isBullet_encoded hword
  have hnumber := isOrdinal_encoded (t := c :: t) hordinal
  have hfence := isFence_encoded (c :: t)
  have hrule := isRule_encoded (c :: t)
  simp only [List.cons_append] at he hbullet hnumber hfence hrule ⊢
  rw [endsParagraph_cons hc hh hq, hblank, hbullet, hnumber, hfence, hrule]
  simp only [leaks, he, hhead, hlast, decide_true, decide_false, Bool.not_false, Bool.true_and,
    Bool.false_or, Bool.or_false, Bool.and_false]

theorem endsParagraph_encodeLast {line : Text} (hs : line.head? ≠ some ' ')
    (he : isEscaped line = false) : endsParagraph (encodeLast line) = leaks line := by
  cases line with
  | nil => rfl
  | cons c rest =>
    obtain ⟨hh, hq, -⟩ := of_not_escaped he
    have hc : c ≠ ' ' := by simpa using hs
    obtain ⟨t, rfl, hencoded⟩ | ⟨hlast, hstar, hencoded⟩ := encodeLast_cons hc rest
    · rw [hencoded]
      exact endsParagraph_encoded hc he
    · rw [hencoded, endsParagraph_cons hc hh hq, leaks, he, decide_eq_true hs, decide_eq_true hlast,
        decide_eq_true hstar]
      simp only [Bool.not_false, Bool.true_and, Bool.and_true]
      cases (c :: rest).all isSpaceOrTab <;> cases isRule (c :: rest) <;> simp

/-- A line with a space at its start or with an escape is harmless. -/
theorem guardLine_harmless {line : Text} (h : line.head? = some ' ' ∨ isEscaped line = true) :
    endsParagraph (guardLine line) = false ∧ indented isSetext (guardLine line) = false ∧
      isIndentedCode (guardLine line) = false := by
  by_cases hs : line.head? = some ' '
  · obtain ⟨rest, rfl⟩ := List.head?_eq_some_iff.1 hs
    obtain ⟨r, hr⟩ := guardLine_space rest
    rw [hr]
    exact harmless_append (t := []) (by simp) (.inr rfl) r
  · obtain ⟨t, r, hr, ht⟩ := guardLine_of_escaped hs (h.resolve_left hs)
    rw [hr]
    exact harmless_append ht (.inl rfl) r

theorem endsParagraph_guardLine (line : Text) : endsParagraph (guardLine line) = leaks line := by
  by_cases h : line.head? = some ' ' ∨ isEscaped line = true
  · have hleaks : leaks line = false := by rcases h with h | h <;> simp [leaks, h]
    rw [hleaks]
    exact (guardLine_harmless h).1
  · obtain ⟨hs, he⟩ := not_or.1 h
    have he : isEscaped line = false := by simpa using he
    rw [guardLine_of_not_escaped hs he, endsParagraph_encodeLast hs he]

theorem leaks_of_isSetext {line : Text} (h : indented isSetext (guardLine line) = true) :
    leaks line = true := by
  by_cases hharmless : line.head? = some ' ' ∨ isEscaped line = true
  · rw [(guardLine_harmless hharmless).2.1] at h
    cases h
  · obtain ⟨hs, he⟩ := not_or.1 hharmless
    have he : isEscaped line = false := by simpa using he
    rw [guardLine_of_not_escaped hs he] at h
    cases line with
    | nil => cases h
    | cons c rest =>
      have hc : c ≠ ' ' := by simpa using hs
      obtain ⟨t, rfl, hencoded⟩ | ⟨-, hstar, hencoded⟩ := encodeLast_cons hc rest
      · have hfalse : isSetext (c :: (t ++ encodedSpace)) = false := isSetext_encoded (c :: t)
        rw [hencoded, List.cons_append, indented_cons hc, hfalse] at h
        cases h
      · rw [hencoded, indented_cons hc] at h
        have hbullet := isBullet_of_isSetext he h
        simp [leaks, hc, he, hbullet, hstar]

theorem isIndentedCode_guardLine (line : Text) :
    isIndentedCode (guardLine line) = true ↔ line.head? = some '\t' := by
  by_cases h : line.head? = some ' ' ∨ isEscaped line = true
  · rw [(guardLine_harmless h).2.2]
    have htab : line.head? ≠ some '\t' := by
      intro ht
      obtain ⟨rest, rfl⟩ := List.head?_eq_some_iff.1 ht
      have he : isEscaped ('\t' :: rest) = false := by
        simp [isEscaped, opensBlock, splitOrdinal_cons (c := '\t') (by decide +kernel),
          isUnderline_cons]
      rw [he] at h
      simp at h
    simp [htab]
  · obtain ⟨hs, he⟩ := not_or.1 h
    rw [guardLine_of_not_escaped hs (by simpa using he)]
    cases line with
    | nil => simp [encodeLast, isIndentedCode]
    | cons c rest =>
      have hc : c ≠ ' ' := by simpa using hs
      obtain ⟨r, hr⟩ := encodeLast_append_cons hc [] rest
      rw [List.nil_append, List.nil_append] at hr
      rw [hr]
      simp [isIndentedCode, List.isPrefixOf, hc.symm]

theorem not_mem_guardLine {line : Text} (h : '\n' ∉ line) : '\n' ∉ guardLine line := by
  have h₁ := (inserts_escapeBlockStart line).not_mem h
  have h₂ := (inserts_escapeOrdinal _).not_mem h₁
  have h₃ := (inserts_escapeUnderline _).not_mem h₂
  have hfirst {t : Text} (ht : '\n' ∉ t) : '\n' ∉ encodeFirst t := by
    unfold encodeFirst
    split
    · simpa [encodedSpace] using ht
    · exact ht
  have hlast {t : Text} (ht : '\n' ∉ t) : '\n' ∉ encodeLast t := by
    unfold encodeLast
    split
    · rw [List.mem_append, not_or]
      exact ⟨fun hm => ht (List.dropLast_subset _ hm), by decide⟩
    · exact ht
  exact hlast (hfirst h₃)

theorem lines_guardLines (t : Text) : (guardLines t).lines = t.lines.map guardLine := by
  refine Text.lines_unlines (by simp [Text.lines, Text.split_ne_nil]) ?_
  rw [List.forall_mem_map]
  exact fun line hline => not_mem_guardLine (Text.not_mem_of_mem_split hline)

theorem head?_lines {t first : Text} {rest : List Text} (h : t.lines = first :: rest) {c : Char}
    (hc : c ≠ '\n') : first.head? = some c ↔ t.head? = some c := by
  cases t with
  | nil =>
    cases h
    rfl
  | cons d t =>
    obtain ⟨l, ls, hl⟩ := List.exists_cons_of_ne_nil (Text.split_ne_nil '\n' t)
    rw [Text.lines, Text.split, hl] at h
    by_cases hd : d = '\n'
    · rw [if_pos hd] at h
      cases h
      simp [hd, hc.symm]
    · rw [if_neg hd] at h
      cases h
      rfl

/-- The text of a paragraph is read as one paragraph just if none of its lines leaks and it does not
start with a tab. -/
theorem isOneParagraph_guardLines (o : Options) (content : List Inline) :
    isOneParagraph (guardLines (phrasing o none none content)) = true ↔
      (∀ line ∈ (phrasing o none none content).lines, leaks line = false) ∧
        (phrasing o none none content).head? ≠ some '\t' := by
  generalize phrasing o none none content = t
  obtain ⟨first, rest, hsplit⟩ := List.exists_cons_of_ne_nil (Text.split_ne_nil '\n' t)
  have hlines : t.lines = first :: rest := hsplit
  have hcode : isIndentedCode (guardLine first) = false ↔ t.head? ≠ some '\t' := by
    rw [← Bool.not_eq_true, isIndentedCode_guardLine, head?_lines hlines (by decide)]
  unfold isOneParagraph
  rw [lines_guardLines, hlines, List.map_cons]
  simp only [Bool.and_eq_true, Bool.not_eq_true', List.all_eq_true, List.forall_mem_map,
    endsParagraph_guardLine, List.forall_mem_cons, hcode]
  constructor
  · rintro ⟨⟨hfirst, htab⟩, hrest⟩
    exact ⟨⟨hfirst, fun line hline => (hrest line hline).1⟩, htab⟩
  · rintro ⟨⟨hfirst, hrest⟩, htab⟩
    refine ⟨⟨hfirst, htab⟩, fun line hline => ⟨hrest line hline, ?_⟩⟩
    rw [← Bool.not_eq_true]
    intro hsetext
    have hleaks := leaks_of_isSetext hsetext
    rw [hrest line hline] at hleaks
    cases hleaks

/-- A rule with a gap in it is not seen by the escapes. -/
theorem guardLines_gapped_rule :
    guardLines (phrasing {} none none [.text "-- -"]) = "-- -".toList ∧
    isOneParagraph (guardLines (phrasing {} none none [.text "-- -"])) = false := by
  constructor <;> decide +kernel

end PageExport.Markdown
