import PageExport.Proofs.Markdown.Flanking
import PageExport.Proofs.Markdown.GuardedLines
import PageExport.Proofs.Markdown.PlainRuns
import PageExport.Proofs.Markdown.TableCells

/-!
What a paragraph says. A reader takes backslashes off and turns references into spaces, which undoes
what a paragraph does to its text. The ampersand of a text has no backslash, so that a reference in the
text itself is turned into a space as well.
-/
namespace PageExport.Markdown

/-- A backslash before ASCII punctuation stands for that character, a reference for a space. -/
def decode : Text → Text
  | '\\' :: c :: t => if isAsciiPunctuation c then c :: decode t else '\\' :: decode (c :: t)
  | '&' :: '#' :: 'x' :: '2' :: '0' :: ';' :: t => ' ' :: decode t
  | c :: t => c :: decode t
  | [] => []

/-- A text with its references turned into spaces. -/
def readReferences : Text → Text
  | '&' :: '#' :: 'x' :: '2' :: '0' :: ';' :: t => ' ' :: readReferences t
  | c :: t => c :: readReferences t
  | [] => []

theorem decode_slash {c : Char} (hc : isAsciiPunctuation c = true) (t : Text) :
    decode ('\\' :: c :: t) = c :: decode t := by
  rw [decode, if_pos hc]

theorem decode_reference (t : Text) : decode (encodedSpace ++ t) = ' ' :: decode t := by
  rw [encodedSpace, List.cons_append, List.cons_append, List.cons_append, List.cons_append,
    List.cons_append, List.cons_append, List.nil_append, decode]

theorem decode_cons {c : Char} {t : Text} (hc : c ≠ '\\') (h : ¬encodedSpace <+: c :: t) :
    decode (c :: t) = c :: decode t := by
  rw [decode]
  · rintro d u rfl
    exact absurd rfl hc
  · rintro u rfl rfl
    exact absurd ⟨u, rfl⟩ h

theorem decode_cons_of_plain {c : Char} (hc : c ≠ '\\' ∧ c ≠ '&') (t : Text) :
    decode (c :: t) = c :: decode t := by
  apply decode_cons hc.1
  rintro ⟨u, hu⟩
  exact hc.2 (List.cons.inj hu).1.symm

theorem decode_append_of_plain {t : Text} (h : ∀ c ∈ t, c ≠ '\\' ∧ c ≠ '&') (u : Text) :
    decode (t ++ u) = t ++ decode u := by
  induction t with
  | nil => rfl
  | cons c t ih =>
    obtain ⟨hc, ht⟩ := List.forall_mem_cons.1 h
    rw [List.cons_append, decode_cons_of_plain hc, ih ht, List.cons_append]

/-- Just the texts without a reference say themselves. -/
theorem readReferences_eq_self_iff (t : Text) :
    readReferences t = t ↔ ¬encodedSpace <:+: t := by
  induction t using readReferences.induct with
  | case1 t ih =>
    have hinfix : encodedSpace <:+: '&' :: '#' :: 'x' :: '2' :: '0' :: ';' :: t := ⟨[], t, rfl⟩
    simp [readReferences, hinfix]
  | case2 c t h ih =>
    have hprefix : ¬encodedSpace <+: c :: t := by
      rintro ⟨u, hu⟩
      obtain ⟨rfl, rfl⟩ := List.cons.inj hu
      exact h u rfl rfl
    rw [readReferences, List.cons_inj_right, ih, List.infix_cons_iff, not_or]
    · exact (and_iff_right hprefix).symm
    · exact h
  | case3 => simp [readReferences, encodedSpace]

theorem not_reference_append {c : Char} {t u : Text} (h : ¬encodedSpace <+: c :: t)
    (hu : ∀ d ∈ u.head?, d ∉ encodedSpace.tail) : ¬encodedSpace <+: c :: (t ++ u) := by
  intro hprefix
  rcases List.prefix_or_prefix_of_prefix hprefix (List.prefix_append (c :: t) u) with hin | ⟨w, hw⟩
  · exact h hin
  · rw [← hw, ← List.cons_append, List.prefix_append_right_inj] at hprefix
    cases w with
    | nil => exact h ⟨[], by rw [← hw, List.append_nil, List.append_nil]⟩
    | cons d w =>
      obtain ⟨v, rfl⟩ := hprefix
      have hmem : d ∈ encodedSpace.tail := by
        rw [← hw]
        simp
      exact hu d rfl hmem

/-- Each backslash stands before a character that it makes literal. -/
inductive Paired : Text → Prop where
  | nil : Paired []
  | slash {c : Char} {t : Text} (hc : isAsciiPunctuation c = true) (h : Paired t) :
    Paired ('\\' :: c :: t)
  | other {c : Char} {t : Text} (hc : c ≠ '\\') (h : Paired t) : Paired (c :: t)

namespace Paired
variable {t u : Text}

theorem of_cons {c : Char} (hc : c ≠ '\\') (h : Paired (c :: t)) : Paired t := by
  cases h with
  | slash => exact absurd rfl hc
  | other _ h => exact h

theorem append_iff (ht : '\\' ∉ t) : Paired (t ++ u) ↔ Paired u := by
  induction t with
  | nil => rfl
  | cons c t ih =>
    obtain ⟨hc, ht⟩ := not_or.1 (mt List.mem_cons.2 ht)
    rw [List.cons_append, ← ih ht]
    exact ⟨of_cons (Ne.symm hc), other (Ne.symm hc)⟩

theorem of_not_mem (h : '\\' ∉ t) : Paired t := by
  simpa using (append_iff (u := []) h).2 nil

theorem append (h : Paired t) (hu : Paired u) : Paired (t ++ u) := by
  induction h with
  | nil => exact hu
  | slash hc _ ih => exact slash hc ih
  | other hc _ ih => exact other hc ih

/-- A space needs no backslash before it. -/
theorem of_append_space (h : Paired (t ++ [' '])) : Paired t := by
  generalize hw : t ++ [' '] = w at h
  induction h generalizing t with
  | nil => simp at hw
  | slash hc h ih =>
    match t with
    | [] => simp at hw
    | [_] =>
      simp only [List.cons_append, List.nil_append, List.cons.injEq] at hw
      obtain ⟨rfl, rfl, -⟩ := hw
      exact absurd hc (by decide)
    | _ :: _ :: t =>
      simp only [List.cons_append, List.cons.injEq] at hw
      obtain ⟨rfl, rfl, hw⟩ := hw
      exact slash hc (ih hw)
  | other hc h ih =>
    cases t with
    | nil => exact nil
    | cons d t =>
      simp only [List.cons_append, List.cons.injEq] at hw
      obtain ⟨rfl, hw⟩ := hw
      exact other hc (ih hw)

/-- The two parts are read one after the other if no reference goes on from the first one to the
second. -/
theorem decode_append (h : Paired t) (hu : ∀ c ∈ u.head?, c ∉ encodedSpace.tail) :
    decode (t ++ u) = decode t ++ decode u := by
  induction t using decode.induct with
  | case1 c t hc ih =>
    cases h with
    | slash _ h => rw [List.cons_append, List.cons_append, decode_slash hc, decode_slash hc, ih h]; rfl
    | other hslash _ => exact absurd rfl hslash
  | case2 c t hc ih =>
    cases h with
    | slash hc' _ => exact absurd hc' hc
    | other hslash _ => exact absurd rfl hslash
  | case3 t ih =>
    have ht : Paired t := (append_iff (t := encodedSpace) (by decide)).1 h
    have hsplit : encodedSpace ++ t ++ u = encodedSpace ++ (t ++ u) := List.append_assoc ..
    show decode (encodedSpace ++ t ++ u) = decode (encodedSpace ++ t) ++ decode u
    rw [hsplit, decode_reference, decode_reference, ih ht]
    rfl
  | case4 c t hslash hreference ih =>
    cases h with
    | slash => exact (hslash _ _ rfl rfl).elim
    | other hc h =>
      have hprefix : ¬encodedSpace <+: c :: t := by
        rintro ⟨v, hv⟩
        obtain ⟨rfl, rfl⟩ := List.cons.inj hv
        exact hreference v rfl rfl
      rw [List.cons_append, decode_cons hc (not_reference_append hprefix hu), decode_cons hc hprefix,
        ih h, List.cons_append]
  | case5 => rfl

end Paired

section
variable {line written : Text}

theorem openingMarks_plain {c : Char} (h : c ∈ openingMarks) :
    isSpecial c = false ∧ c ≠ '&' ∧ isAsciiPunctuation c = true := by
  have hall : openingMarks.all (fun d => !isSpecial d && d ≠ '&' && isAsciiPunctuation d) = true := by
    decide
  simpa [and_assoc] using List.all_eq_true.1 hall c h

/-- Before a mark stand only characters that say themselves. -/
theorem MarkAt.plain {kind : Opener} {t u : Text} (h : MarkAt kind t u) (k : Nat) :
    ∀ c ∈ spaces k ++ t, isSpecial c = false ∧ c ≠ '&' := by
  intro c hc
  rcases List.mem_append.1 hc with hspace | hdigit
  · obtain rfl := List.eq_of_mem_replicate hspace
    decide
  · have hc := h.digits c hdigit
    constructor
    · by_contra hspecial
      simp only [isSpecial, Bool.not_eq_false, Bool.or_eq_true, decide_eq_true_eq] at hspecial
      rcases hspecial with ((((rfl | rfl) | rfl) | rfl) | rfl) | rfl <;>
        exact absurd hc (by decide +kernel)
    · rintro rfl
      exact absurd hc (by decide +kernel)

theorem Escaped.paired_decode (h : Escaped line written) (hp : Paired line) :
    Paired written ∧ decode written = decode line := by
  cases h with
  | none => exact ⟨hp, rfl⟩
  | @mark kind k t u c hk hmark hc =>
    have hplain : ∀ c ∈ spaces k ++ t, c ≠ '\\' ∧ c ≠ '&' := fun c hc =>
      (hmark.plain k c hc).imp_left fun h => ne_slash_of_not_special (Bool.eq_false_iff.1 h)
    have hslash : '\\' ∉ spaces k ++ t := fun h => (hplain _ h).1 rfl
    obtain ⟨hspecial, hamp, hpunct⟩ := openingMarks_plain hc
    have hne := ne_slash_of_not_special (Bool.eq_false_iff.1 hspecial)
    have hrest : Paired (c :: u) := (Paired.append_iff hslash).1 hp
    constructor
    · exact (Paired.append_iff hslash).2 (.slash hpunct (hrest.of_cons hne))
    · rw [decode_append_of_plain hplain, decode_append_of_plain hplain, decode_slash hpunct,
        decode_cons_of_plain ⟨hne, hamp⟩]

theorem StartSpelled.paired_decode (h : StartSpelled line written) (hp : Paired line) :
    Paired written ∧ decode written = decode line := by
  cases h with
  | other => exact ⟨hp, rfl⟩
  | space t =>
    constructor
    · exact (Paired.append_iff (by decide)).2 (hp.of_cons (by decide))
    · rw [decode_reference, decode_cons_of_plain (by decide)]

theorem EndSpelled.paired_decode (h : EndSpelled line written) (hp : Paired line) :
    Paired written ∧ decode written = decode line := by
  cases h with
  | other => exact ⟨hp, rfl⟩
  | space t =>
    have ht := hp.of_append_space
    constructor
    · exact ht.append (.of_not_mem (by decide))
    · rw [ht.decode_append (by simp [encodedSpace]), ht.decode_append (by simp [encodedSpace])]
      rfl

/-- Guarding a line does not change what it says. -/
theorem Guarded.paired_decode (h : Guarded line written) (hp : Paired line) :
    Paired written ∧ decode written = decode line := by
  obtain ⟨escaped, started, hescaped, hstarted, hwritten⟩ := h.spelled
  have he := hescaped.paired_decode hp
  have hs := hstarted.paired_decode he.1
  have hw := hwritten.paired_decode hs.1
  exact ⟨hw.1, by rw [hw.2, hs.2, he.2]⟩

end

theorem decode_unlines {ls : List Text} (h : ∀ l ∈ ls, Paired l) :
    decode (Text.unlines ls) = Text.unlines (ls.map decode) := by
  induction ls with
  | nil => rfl
  | cons l ls ih =>
    obtain ⟨hl, hls⟩ := List.forall_mem_cons.1 h
    cases ls with
    | nil => rfl
    | cons m ms =>
      have hrest := ih hls
      simp only [Text.unlines, Text.join_cons_cons, List.map_cons, List.append_assoc,
        List.singleton_append] at hrest ⊢
      rw [hl.decode_append (by simp [encodedSpace]), decode_cons_of_plain (by decide), hrest]

/-- Guarding the lines of a text does not change what it says. -/
theorem decode_guardLines {t : Text} (h : ∀ l ∈ t.lines, Paired l) :
    decode (guardLines t) = decode t := by
  have hguarded : ∀ l ∈ t.lines.map guardLine, Paired l := by
    intro l hl
    obtain ⟨line, hline, rfl⟩ := List.mem_map.1 hl
    exact ((guarded_guardLine line).paired_decode (h line hline)).1
  have hsame : (t.lines.map guardLine).map decode = t.lines.map decode := by
    rw [List.map_map]
    apply List.map_congr_left
    intro line hline
    exact ((guarded_guardLine line).paired_decode (h line hline)).2
  rw [guardLines, decode_unlines hguarded, hsame, ← decode_unlines h, Text.unlines_lines]

theorem isAsciiPunctuation_of_isSpecial {c : Char} (h : isSpecial c = true) :
    isAsciiPunctuation c = true := by
  simp only [isSpecial, Bool.or_eq_true, decide_eq_true_eq] at h
  rcases h with ((((rfl | rfl) | rfl) | rfl) | rfl) | rfl <;> decide

theorem paired_escape (t : Text) : Paired (escape t) := by
  induction t with
  | nil => exact .nil
  | cons c t ih =>
    rw [escape_cons]
    split
    · next hc => exact .slash (isAsciiPunctuation_of_isSpecial hc) ih
    · next hc => exact .other (ne_slash_of_not_special hc) ih

theorem lines_escape (t : Text) : (escape t).lines = t.lines.map escape := by
  induction t with
  | nil => rfl
  | cons c t ih =>
    obtain ⟨l, ls, hl⟩ := List.exists_cons_of_ne_nil (Text.split_ne_nil '\n' t)
    rw [Text.lines, Text.lines, hl, List.map_cons] at ih
    by_cases hbreak : c = '\n'
    · subst hbreak
      rw [escape_cons, if_neg (by decide), List.singleton_append, Text.lines, Text.lines,
        Text.split_cons_self, Text.split_cons_self, ih, hl]
      rfl
    · by_cases hc : isSpecial c = true
      · simp [escape_cons, hc, Text.lines, Text.split, hbreak, hl, ih]
      · simp [escape_cons, hc, Text.lines, Text.split, hbreak, hl, ih]

theorem escape_encodedSpace : escape encodedSpace = encodedSpace := by decide

/-- A text is read as it stands but for the references in it. -/
theorem decode_escape (t : Text) : decode (escape t) = readReferences t := by
  induction t using readReferences.induct with
  | case1 t ih =>
    show decode (escape (encodedSpace ++ t)) = ' ' :: readReferences t
    rw [escape_append, escape_encodedSpace, decode_reference, ih]
  | case2 c t h ih =>
    rw [readReferences, ← ih, escape_cons]
    · split
      · next hc => exact decode_slash (isAsciiPunctuation_of_isSpecial hc) _
      · next hc =>
        apply decode_cons (ne_slash_of_not_special hc)
        rintro ⟨v, hv⟩
        obtain ⟨hc, hv⟩ := List.cons.inj hv
        -- the rest of the reference is not special, so that it already stands in the text
        have hread : t = '#' :: 'x' :: '2' :: '0' :: ';' :: unescape v := by
          rw [← unescape_escape t]
          exact (congrArg unescape hv).symm.trans (by simp [unescape])
        exact h _ hc.symm hread
    · exact h
  | case3 => rfl

theorem decode_paragraph (t : Text) : decode (guardLines (escape t)) = readReferences t := by
  rw [decode_guardLines, decode_escape]
  intro l hl
  rw [lines_escape] at hl
  obtain ⟨line, -, rfl⟩ := List.mem_map.1 hl
  exact paired_escape line

/-- A line with the spaces at its edges spelled out. -/
def spellEdges (line : Text) : Text := encodeLast (encodeFirst line)

/-- The lines are the same but for how the spaces at their edges are spelled, and if one of them opens a
block the other one does. -/
structure WrittenAlike (l m : Text) : Prop where
  edges : spellEdges l = spellEdges m
  opens : Opens l ↔ Opens m

/-- Spaces at the start of a line with the first one spelled out. -/
def spelledIndent : Nat → Text
  | 0 => []
  | k + 1 => encodedSpace ++ spaces k

theorem append_inj_of_run {p : Char → Bool} {t t' u u' : Text} (ht : ∀ c ∈ t, p c = true)
    (ht' : ∀ c ∈ t', p c = true) (hu : ∀ c ∈ u.head?, p c = false) (hu' : ∀ c ∈ u'.head?, p c = false)
    (h : t ++ u = t' ++ u') : t = t' ∧ u = u' := by
  obtain ⟨htake, hdrop⟩ := takeWhile_append_run ht hu
  obtain ⟨htake', hdrop'⟩ := takeWhile_append_run ht' hu'
  rw [h] at htake hdrop
  exact ⟨htake.symm.trans htake', hdrop.symm.trans hdrop'⟩

theorem encodeLast_append {u : Text} (hu : u ≠ []) (t : Text) :
    encodeLast (t ++ u) = t ++ encodeLast u := by
  have hlast : (t ++ u).getLast? = u.getLast? := by
    rw [List.getLast?_append, List.getLast?_eq_some_getLast hu]
    rfl
  unfold encodeLast
  rw [hlast]
  split
  · rw [List.dropLast_append_of_ne_nil hu, List.append_assoc]
  · rfl

/-- What can stand right behind the indentation and the digits before a mark. -/
def StartsMark (c : Char) : Prop := c = '\\' ∨ c ∈ openingMarks

theorem StartsMark.ne {c : Char} (h : StartsMark c) :
    c ≠ ' ' ∧ c ≠ '&' ∧ Unicode.isDecimalDigit c = false := by
  have hall : ('\\' :: openingMarks).all (fun d =>
      d ≠ ' ' && d ≠ '&' && !Unicode.isDecimalDigit d) = true := by decide +kernel
  simpa [and_assoc] using List.all_eq_true.1 hall c (List.mem_cons.2 h)

theorem StartsMark.head?_ne {c d : Char} (hc : StartsMark c) {t : Text}
    (ht : ∀ e ∈ t, Unicode.isDecimalDigit e = true) (u : Text) (hd : d = ' ' ∨ d = '&') :
    (t ++ c :: u).head? ≠ some d := by
  intro hhead
  cases t with
  | nil =>
    obtain rfl := Option.some.inj hhead
    exact hd.elim hc.ne.1 hc.ne.2.1
  | cons e t =>
    obtain rfl := Option.some.inj hhead
    have he := ht e (by simp)
    rcases hd with rfl | rfl <;> exact absurd he (by decide +kernel)

/-- What stands before a mark is seen in the line. -/
theorem spelledIndent_inj {k k' : Nat} {t t' u u' : Text} {c c' : Char}
    (ht : ∀ d ∈ t, Unicode.isDecimalDigit d = true) (ht' : ∀ d ∈ t', Unicode.isDecimalDigit d = true)
    (hc : StartsMark c) (hc' : StartsMark c')
    (h : spelledIndent k ++ t ++ c :: u = spelledIndent k' ++ t' ++ c' :: u') :
    k = k' ∧ t = t' ∧ c :: u = c' :: u' := by
  have hdigits (h : t ++ c :: u = t' ++ c' :: u') : t = t' ∧ c :: u = c' :: u' :=
    append_inj_of_run ht ht' (by simpa using hc.ne.2.2) (by simpa using hc'.ne.2.2) h
  simp only [List.append_assoc] at h
  cases k with
  | zero =>
    cases k' with
    | zero => exact ⟨rfl, hdigits h⟩
    | succ k' =>
      refine absurd ?_ (hc.head?_ne ht u (.inr rfl))
      rw [show t ++ c :: u = _ from h]
      rfl
  | succ k =>
    cases k' with
    | zero =>
      refine absurd ?_ (hc'.head?_ne ht' u' (.inr rfl))
      rw [show t' ++ c' :: u' = _ from h.symm]
      rfl
    | succ k' =>
      have hspaces : spaces k ++ (t ++ c :: u) = spaces k' ++ (t' ++ c' :: u') := by
        simpa [spelledIndent] using h
      have hrun (n : Nat) : ∀ d ∈ spaces n, decide (d = ' ') = true := by simp [spaces]
      have hstop {v : Text} (hv : v.head? ≠ some ' ') : ∀ d ∈ v.head?, decide (d = ' ') = false := by
        intro d hd
        apply decide_eq_false
        rintro rfl
        exact hv hd
      obtain ⟨hk, hrest⟩ := append_inj_of_run (hrun k) (hrun k') (hstop (hc.head?_ne ht u (.inl rfl)))
        (hstop (hc'.head?_ne ht' u' (.inl rfl))) hspaces
      have hlength := congrArg List.length hk
      simp only [spaces, List.length_replicate] at hlength
      exact ⟨congrArg _ hlength, hdigits hrest⟩

theorem guardLine_of_not_opens {line : Text} (h : ¬Opens line) : guardLine line = spellEdges line := by
  have hkeep (kind : Opener) : kind.escape line = line :=
    Opener.escape_of_not_opens fun hkind => h ⟨kind, hkind⟩
  rw [guardLine, escapeBlockStart_eq, escapeOrdinal_eq, escapeUnderline_eq, hkeep, hkeep, hkeep,
    spellEdges]

/-- A line that opens a block has its mark behind spaces and digits, and gets the backslash there. -/
theorem guardLine_of_opens {line : Text} (h : Opens line) :
    ∃ k t c u, (∀ d ∈ t, Unicode.isDecimalDigit d = true) ∧ c ∈ openingMarks ∧
      spellEdges line = spelledIndent k ++ t ++ c :: u ∧
      guardLine line = spelledIndent k ++ t ++ '\\' :: c :: u := by
  have hescaped := escaped_line line
  rw [guardLine]
  generalize escapeUnderline (escapeOrdinal (escapeBlockStart line)) = escaped at hescaped
  cases hescaped with
  | none hopens => exact absurd h hopens
  | @mark kind k t u c hk hmark hc =>
    have hstart {d : Char} (hd : StartsMark d) (v : Text) :
        encodeFirst (spaces k ++ t ++ d :: v) = spelledIndent k ++ t ++ d :: v := by
      cases k with
      | zero =>
        have hhead := hd.head?_ne hmark.digits v (.inl rfl)
        rw [spaces, spelledIndent, List.replicate_zero, List.nil_append]
        cases hline : t ++ d :: v with
        | nil => rfl
        | cons e w =>
          rw [hline] at hhead
          exact encodeFirst_cons (fun he => hhead (congrArg some he)) w
      | succ k =>
        rw [spaces, List.replicate_succ, spelledIndent, List.append_assoc, List.append_assoc,
          List.append_assoc]
        rfl
    obtain ⟨u', hu'⟩ : ∃ u', encodeLast (c :: u) = c :: u' :=
      encodeLast_append_cons (StartsMark.ne (.inr hc)).1 [] u
    refine ⟨k, t, c, u', hmark.digits, hc, ?_, ?_⟩
    · rw [spellEdges, hstart (.inr hc), encodeLast_append (by simp), hu']
    · rw [hstart (.inl rfl), List.append_cons, encodeLast_append (by simp), hu', ← List.append_cons]

theorem escape_encodeFirst (line : Text) : encodeFirst (escape line) = escape (encodeFirst line) := by
  cases line with
  | nil => rfl
  | cons c line =>
    by_cases hc : c = ' '
    · subst hc
      show encodedSpace ++ escape line = escape (encodedSpace ++ line)
      rw [escape_append, escape_encodedSpace]
    · rw [encodeFirst_cons hc, escape_cons]
      split
      · exact encodeFirst_cons (by decide) _
      · exact encodeFirst_cons hc _

theorem escape_encodeLast (line : Text) : encodeLast (escape line) = escape (encodeLast line) := by
  rcases List.eq_nil_or_concat line with rfl | ⟨t, c, rfl⟩
  · rfl
  · rw [List.concat_eq_append, escape_append]
    by_cases hc : c = ' '
    · subst hc
      rw [encodeLast_append (by decide), encodeLast_append (by decide), escape_append]
      exact congrArg (escape t ++ ·) escape_encodedSpace.symm
    · have hlast : (escape t ++ escape [c]).getLast? = some c := by
        rw [escape_cons]
        split <;> simp [escape]
      have hline : (t ++ [c]).getLast? ≠ some ' ' := by simpa using hc
      rw [encodeLast, encodeLast, if_neg hline, if_neg (by simpa [hlast] using hc), escape_append]

theorem spellEdges_escape (line : Text) : spellEdges (escape line) = escape (spellEdges line) := by
  rw [spellEdges, escape_encodeFirst, escape_encodeLast, spellEdges]

theorem endsWord_escape (t : Text) : EndsWord (escape t) ↔ EndsWord t := by
  cases t with
  | nil => rfl
  | cons c t =>
    rw [escape_cons]
    split
    · next hc =>
      have hspace : c ≠ ' ' := by
        rintro rfl
        exact absurd hc (by decide)
      simp [EndsWord, hspace]
    · simp [EndsWord]

/-- An escaped text that starts with a character that is no backslash starts with it also without the
escapes. -/
theorem exists_of_escape_eq_cons {t u : Text} {c : Char} (hc : c ≠ '\\') (h : escape t = c :: u) :
    ∃ v, t = c :: v ∧ u = escape v := by
  cases t with
  | nil => simp [escape] at h
  | cons d t =>
    rw [escape_cons] at h
    split at h
    · exact absurd (List.cons.inj h).1.symm hc
    · obtain ⟨rfl, rfl⟩ := List.cons.inj h
      exact ⟨t, rfl, rfl⟩

theorem escape_of_not_mem {t : Text} (h : '\\' ∉ escape t) : escape t = t := by
  induction t with
  | nil => rfl
  | cons c t ih =>
    rw [escape_cons] at h ⊢
    split at h
    · simp at h
    · next hc =>
      rw [if_neg hc, ih fun hmem => h (List.mem_append_right _ hmem)]
      rfl

theorem MarkAt.not_special {t u : Text} (h : MarkAt .underline t u) :
    ∀ c ∈ u, isSpecial c = false := by
  cases h with
  | underline hrun hblanks =>
    intro d hd
    rcases List.mem_append.1 hd with hd | hd
    · obtain rfl := List.eq_of_mem_replicate hd
      rcases hrun with ⟨rfl, -⟩ | ⟨rfl, -⟩ <;> decide
    · rcases hblanks d hd with rfl | rfl <;> decide

theorem markAt_cons_escape {kind : Opener} (hkind : kind ≠ .underline) {t u : Text} {c : Char} :
    MarkAt kind t (c :: escape u) ↔ MarkAt kind t (c :: u) := by
  cases kind with
  | underline => exact absurd rfl hkind
  | block =>
    constructor
    · rintro ⟨hc⟩
      exact .block (by rwa [endsWord_escape] at hc)
    · rintro ⟨hc⟩
      exact .block (by rwa [endsWord_escape])
  | ordinal =>
    constructor
    · intro h
      cases h with
      | ordinal hsize hdigits hc => exact .ordinal hsize hdigits (by rwa [endsWord_escape] at hc)
    · intro h
      cases h with
      | ordinal hsize hdigits hc => exact .ordinal hsize hdigits (by rwa [endsWord_escape])

/-- The escapes of a text neither make a mark nor hide one. -/
theorem markAt_escape {kind : Opener} {t u : Text} : MarkAt kind t (escape u) ↔ MarkAt kind t u := by
  by_cases hkind : kind = .underline
  · -- an underline has no special characters, and so no backslashes that hide any
    subst hkind
    constructor
    · intro h
      have hslash : '\\' ∉ escape u := fun hmem => absurd (h.not_special _ hmem) (by decide)
      rwa [escape_of_not_mem hslash] at h
    · intro h
      rwa [escape_of_not_special h.not_special]
  · constructor
    · intro h
      obtain ⟨c, v, hv, hc⟩ := h.exists_cons
      have hslash := ne_slash_of_not_special (Bool.eq_false_iff.1 (openingMarks_plain hc).1)
      obtain ⟨w, rfl, rfl⟩ := exists_of_escape_eq_cons hslash hv
      rw [hv] at h
      exact (markAt_cons_escape hkind).1 h
    · intro h
      obtain ⟨c, v, rfl, hc⟩ := h.exists_cons
      rw [escape_cons, (openingMarks_plain hc).1]
      exact (markAt_cons_escape hkind).2 h

theorem opens_escape {line : Text} : Opens (escape line) ↔ Opens line := by
  have hfront {kind : Opener} {t u : Text} (k : Nat) (h : MarkAt kind t u) :
      escape (spaces k ++ t) = spaces k ++ t :=
    escape_of_not_special fun c hc => (h.plain k c hc).1
  constructor
  · rintro ⟨kind, k, hk, t, u, hline, hmark⟩
    have hread : line = spaces k ++ t ++ unescape u := by
      rw [← unescape_escape line, hline]
      conv_lhs => rw [← hfront k hmark, unescape_escape_append]
    have hrest : escape (unescape u) = u := by
      rw [hread, escape_append, hfront k hmark] at hline
      exact List.append_cancel_left hline
    rw [← hrest] at hmark
    exact ⟨kind, k, hk, t, unescape u, hread, markAt_escape.1 hmark⟩
  · rintro ⟨kind, k, hk, t, u, rfl, hmark⟩
    refine ⟨kind, k, hk, t, escape u, ?_, markAt_escape.2 hmark⟩
    rw [escape_append, hfront k hmark]

/-- In an escaped text a backslash that is not escaped itself stands before a special character. -/
theorem append_slash_ne_escape {t : Text} (ht : '\\' ∉ t) {c : Char} (hc : isSpecial c = false)
    (u v : Text) : t ++ '\\' :: c :: u ≠ escape v := by
  induction t generalizing v with
  | nil =>
    intro h
    cases v with
    | nil => simp [escape] at h
    | cons d v =>
      rw [escape_cons] at h
      split at h
      · next hd =>
        obtain rfl := (List.cons.inj (List.cons.inj h).2).1
        rw [hd] at hc
        cases hc
      · next hd => exact ne_slash_of_not_special hd (List.cons.inj h).1.symm
  | cons e t ih =>
    intro h
    obtain ⟨he, ht⟩ := not_or.1 (mt List.mem_cons.2 ht)
    cases v with
    | nil => simp [escape] at h
    | cons d v =>
      rw [escape_cons] at h
      split at h
      · exact he (List.cons.inj h).1.symm
      · exact ih ht v (List.cons.inj h).2

theorem guardLine_escape_eq_iff (l m : Text) :
    guardLine (escape l) = guardLine (escape m) ↔ WrittenAlike l m := by
  have hedges : spellEdges (escape l) = spellEdges (escape m) ↔ spellEdges l = spellEdges m := by
    rw [spellEdges_escape, spellEdges_escape, escape_inj]
  have hopens {l : Text} (hl : Opens l) := guardLine_of_opens (opens_escape.2 hl)
  have hnone {l : Text} (hl : ¬Opens l) := guardLine_of_not_opens (mt opens_escape.1 hl)
  have hmixed {l m : Text} (hl : Opens l) (hm : ¬Opens m) :
      guardLine (escape l) ≠ guardLine (escape m) := by
    obtain ⟨k, t, c, u, ht, hc, -, hl⟩ := hopens hl
    have hslash : '\\' ∉ spelledIndent k ++ t := by
      intro hmem
      rcases List.mem_append.1 hmem with hmem | hmem
      · cases k with
        | zero => cases hmem
        | succ k => simp [spelledIndent, encodedSpace, spaces] at hmem
      · exact absurd (ht _ hmem) (by decide +kernel)
    rw [hl, hnone hm, spellEdges_escape]
    exact append_slash_ne_escape hslash (openingMarks_plain hc).1 u _
  by_cases hl : Opens l
  · by_cases hm : Opens m
    · obtain ⟨k, t, c, u, ht, hc, hspelled, hwritten⟩ := hopens hl
      obtain ⟨k', t', c', u', ht', hc', hspelled', hwritten'⟩ := hopens hm
      rw [hwritten, hwritten']
      constructor
      · intro h
        obtain ⟨rfl, rfl, hrest⟩ := spelledIndent_inj ht ht' (.inl rfl) (.inl rfl) h
        refine ⟨hedges.1 ?_, iff_of_true hl hm⟩
        rw [hspelled, hspelled', (List.cons.inj hrest).2]
      · intro h
        have hsame := hedges.2 h.edges
        rw [hspelled, hspelled'] at hsame
        obtain ⟨rfl, rfl, hrest⟩ := spelledIndent_inj ht ht' (.inr hc) (.inr hc') hsame
        rw [hrest]
    · exact iff_of_false (hmixed hl hm) fun h => hm (h.opens.1 hl)
  · by_cases hm : Opens m
    · exact iff_of_false (Ne.symm (hmixed hm hl)) fun h => hl (h.opens.2 hm)
    · rw [hnone hl, hnone hm, hedges]
      exact ⟨fun h => ⟨h, iff_of_false hl hm⟩, WrittenAlike.edges⟩

theorem guardLines_eq_iff (t u : Text) :
    guardLines t = guardLines u ↔ t.lines.map guardLine = u.lines.map guardLine := by
  rw [← lines_guardLines, ← lines_guardLines]
  constructor
  · exact congrArg Text.lines
  · intro h
    rw [← Text.unlines_lines (guardLines t), h, Text.unlines_lines]

theorem phrasing_text (o : Options) (s : String) :
    phrasing o none none [.text s] = escape s.toList := by
  rw [phrasing_cons]
  simp [Inline.isDelimited, Inline.render, phrasing, renderAmong]

/-- A paragraph says its text but for the references in the text, which it says as spaces; it says the
text itself just if there are none. Two texts have the same paragraph just if their lines are written
alike. -/
theorem decode_text (o : Options) (s : String) :
    decode (guardLines (phrasing o none none [.text s])) = readReferences s.toList ∧
    (decode (guardLines (phrasing o none none [.text s])) = s.toList ↔
      ¬encodedSpace <:+: s.toList) ∧
    ∀ s' : String, guardLines (phrasing o none none [.text s]) =
        guardLines (phrasing o none none [.text s']) ↔
      List.Forall₂ WrittenAlike (Text.lines s.toList) (Text.lines s'.toList) := by
  have hdecode := decode_paragraph s.toList
  rw [phrasing_text]
  refine ⟨hdecode, ?_, ?_⟩
  · rw [hdecode]
    exact readReferences_eq_self_iff s.toList
  · intro s'
    rw [phrasing_text, guardLines_eq_iff, lines_escape, lines_escape, ← List.forall₂_eq_eq_eq]
    simp only [List.forall₂_map_left_iff, List.forall₂_map_right_iff, guardLine_escape_eq_iff]

/-- A reference in a text is read as a space, and at the start of a line it is not told from one. -/
theorem decode_text_reference :
    decode (guardLines (phrasing {} none none [.text "a&#x20;b"])) = "a b".toList ∧
    guardLines (phrasing {} none none [.text "&#x20;a"]) =
      guardLines (phrasing {} none none [.text " a"]) := by
  decide +kernel

end PageExport.Markdown
