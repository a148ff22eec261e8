import Mathlib.Data.List.Chain
import PageExport.Proofs.Markdown.Flanking
import PageExport.Proofs.Markdown.Underscores

/-!
The first and the last glyph of content in styles. If there are blanks at an edge, they stand outside
the marks there; else the mark of the outermost style is at the edge. In between, the closing mark of
one style is never right before the opening mark of another one.
-/
namespace PageExport.Markdown

/-- The glyphs are not a closing mark right before an opening mark of the same character. -/
def Glyph.Unfused (x y : Glyph) : Prop :=
  ¬(x.closes = true ∧ y.opens = true ∧ y.char = x.char)

instance : DecidableRel Glyph.Unfused := fun _ _ => inferInstanceAs (Decidable (¬_))

/-- No closing mark stands right before an opening mark of the same character. -/
def MarksApart (g : List Glyph) : Prop := g.IsChain Glyph.Unfused

instance (g : List Glyph) : Decidable (MarksApart g) :=
  inferInstanceAs (Decidable (g.IsChain Glyph.Unfused))

/-- What the mark consists of that opens at the start, if one does. -/
def opening? (g : List Glyph) : Option Char := (g.head?.filter Glyph.opens).map Glyph.char

/-- What the mark consists of that closes at the end, if one does. -/
def closing? (g : List Glyph) : Option Char := (g.getLast?.filter Glyph.closes).map Glyph.char

section
variable {g h : List Glyph}

theorem opening?_append (hg : g ≠ []) : opening? (g ++ h) = opening? g := by
  obtain ⟨x, g, rfl⟩ := List.exists_cons_of_ne_nil hg
  rfl

theorem head?_of_opening? {c : Char} (hg : opening? g = some c) : (chars g).head? = some c := by
  obtain ⟨x, hx, rfl⟩ := Option.map_eq_some_iff.1 hg
  rw [chars, List.head?_map, (Option.filter_eq_some_iff.1 hx).1]
  rfl

theorem getLast?_of_closing? {c : Char} (hg : closing? g = some c) : (chars g).getLast? = some c := by
  obtain ⟨x, hx, rfl⟩ := Option.map_eq_some_iff.1 hg
  rw [chars, List.getLast?_map, (Option.filter_eq_some_iff.1 hx).1]
  rfl

theorem closing?_append (hh : h ≠ []) : closing? (g ++ h) = closing? h := by
  rw [closing?, List.getLast?_append_of_ne_nil _ hh]
  rfl

theorem opening?_eq_none (hg : ∀ x ∈ g, x.opens = false) : opening? g = none := by
  cases g with
  | nil => rfl
  | cons x g => simp [opening?, hg x]

theorem closing?_eq_none (hg : ∀ x ∈ g, x.closes = false) : closing? g = none := by
  rcases List.eq_nil_or_concat g with rfl | ⟨g, x, rfl⟩
  · rfl
  · simp [closing?, hg x]

namespace MarksApart

theorem append_iff : MarksApart (g ++ h) ↔
    MarksApart g ∧ MarksApart h ∧ ∀ c, closing? g = some c → opening? h ≠ some c := by
  have hjunction : (∀ x ∈ g.getLast?, ∀ y ∈ h.head?, x.Unfused y) ↔
      ∀ c, closing? g = some c → opening? h ≠ some c := by
    unfold opening? closing?
    cases g.getLast? with
    | none => simp
    | some x =>
      cases h.head? with
      | none => simp
      | some y => cases hc : x.closes <;> cases ho : y.opens <;> simp [Glyph.Unfused, hc, ho]
  rw [MarksApart, List.isChain_append, hjunction]
  rfl

theorem of_not_closes (hg : ∀ x ∈ g, x.closes = false) : MarksApart g := by
  refine List.isChain_iff_forall_rel_of_append_cons_cons.2 fun x y u v hxy => ?_
  rintro ⟨hc, -⟩
  rw [hg x (by simp [hxy])] at hc
  cases hc

theorem of_not_opens (hg : ∀ x ∈ g, x.opens = false) : MarksApart g := by
  refine List.isChain_iff_forall_rel_of_append_cons_cons.2 fun x y u v hxy => ?_
  rintro ⟨-, ho, -⟩
  rw [hg y (by simp [hxy])] at ho
  cases ho

theorem append_of_not_closes (hg : ∀ x ∈ g, x.closes = false) (hh : MarksApart h) :
    MarksApart (g ++ h) :=
  append_iff.2 ⟨.of_not_closes hg, hh, by simp [closing?_eq_none hg]⟩

theorem append_of_not_opens (hg : MarksApart g) (hh : ∀ y ∈ h, y.opens = false) :
    MarksApart (g ++ h) :=
  append_iff.2 ⟨hg, .of_not_opens hh, by simp [opening?_eq_none hh]⟩

end MarksApart
end

/-- There is a character, and it is no blank. -/
def isSolid (c : Option Char) : Bool := c.any fun c => !isBlank c

/-- A letter or a number is right beside the text, with no blank between them. -/
def wordBeside (before after : Option Char) (t : Text) : Bool :=
  isSolid t.head? && isWord before || isSolid t.getLast? && isWord after

theorem isAlphanumeric_of_isBlank {c : Char} (h : isBlank c = true) :
    Unicode.isAlphanumeric c = false := by
  have hall : (blankRanges.flatMap fun r => List.range' r.1 (r.2 - r.1 + 1)).all
      (fun n => !Unicode.isAlphanumeric (Char.ofNat n)) = true := by decide +kernel
  obtain ⟨r, hr, hc⟩ := List.any_eq_true.1 h
  simp only [Bool.and_eq_true, decide_eq_true_eq] at hc
  have hmem : c.toNat ∈ blankRanges.flatMap fun r => List.range' r.1 (r.2 - r.1 + 1) :=
    List.mem_flatMap.2 ⟨r, hr, List.mem_range'_1.2 (by omega)⟩
  simpa using List.all_eq_true.1 hall _ hmem

theorem isWord_leading {t : Text} (hne : t ≠ []) (before : Option Char) :
    isWord (t.leading.getLast?.or before) = (isSolid t.head? && isWord before) := by
  obtain ⟨c, t, rfl⟩ := List.exists_cons_of_ne_nil hne
  cases hc : isBlank c with
  | false => simp [Text.leading, isSolid, hc]
  | true =>
    have hlead : Text.leading (c :: t) = c :: t.takeWhile isBlank := List.takeWhile_cons_of_pos hc
    obtain ⟨d, hd⟩ : ∃ d, (Text.leading (c :: t)).getLast? = some d :=
      ⟨_, by rw [hlead, List.getLast?_cons]⟩
    have hblank : isBlank d = true := List.mem_takeWhile_imp (List.mem_of_getLast? hd)
    simp [hd, isWord, isAlphanumeric_of_isBlank hblank, isSolid, hc]

theorem isWord_trailing {t : Text} (hne : t ≠ []) (after : Option Char) :
    isWord (t.trailing.head?.or after) = (isSolid t.getLast? && isWord after) := by
  have h := isWord_leading (t := t.reverse) (by simpa using hne) after
  rwa [List.head?_reverse, Text.leading, ← List.head?_reverse] at h

/-- The content in a style. -/
def Style.wrap : Style → List Inline → Inline
  | .strong => .strong
  | .emphasis => .emphasis
  | .delete => .delete

def Style.mark (o : Options) : Style → Text
  | .strong => ['*', '*']
  | .emphasis => [o.emphasis.char]
  | .delete => ['~', '~']

/-- What the marks of a style consist of, given whether a word is beside them. -/
def Style.markChar (o : Options) (word : Bool) : Style → Char
  | .strong => '*'
  | .emphasis => if word then '*' else o.emphasis.char
  | .delete => '~'

section
variable (o : Options)

theorem Style.markChar_cases (s : Style) (word : Bool) :
    s.markChar o word = '*' ∨ s.markChar o word = '_' ∨ s.markChar o word = '~' := by
  cases s with
  | strong => exact .inl rfl
  | delete => exact .inr (.inr rfl)
  | emphasis => cases word <;> cases h : o.emphasis <;> simp [markChar, h, EmphasisMark.char]

theorem isSolid_markChar (s : Style) (word : Bool) : isSolid (some (s.markChar o word)) = true := by
  rcases s.markChar_cases o word with h | h | h <;> rw [h] <;> decide

theorem isWord_markChar (s : Style) (word : Bool) : isWord (some (s.markChar o word)) = false := by
  rcases s.markChar_cases o word with h | h | h <;> rw [h] <;> decide +kernel

theorem settleMark_mark (s : Style) (beside : List Char) :
    ∃ n, settleMark (s.mark o) beside =
      List.replicate (n + 1) (s.markChar o (beside.any Unicode.isAlphanumeric)) := by
  cases s with
  | strong | delete => exact ⟨1, by simp [settleMark, Style.mark, Style.markChar]⟩
  | emphasis =>
    refine ⟨0, ?_⟩
    cases hb : beside.any Unicode.isAlphanumeric <;> cases h : o.emphasis <;>
      simp [settleMark, Style.mark, Style.markChar, EmphasisMark.char, hb, h]

theorem glyphs_wrap (s : Style) (before after : Option Char) (ns : List Inline) :
    (s.wrap ns).glyphs o before after =
      delimitGlyphs s (s.mark o) before after (glyphsAmong o before after ns) := by
  cases s <;> exact Inline.glyphs.eq_def ..

theorem glyphsAmong_singleton (before after : Option Char) (n : Inline) :
    glyphsAmong o before after [n] = n.glyphs o before after := by
  rw [glyphsAmong_cons]
  exact List.append_nil _

theorem not_marks_plain (t : Text) : ∀ x ∈ plain t, x.opens = false ∧ x.closes = false := by
  intro x hx
  obtain ⟨c, -, rfl⟩ := List.mem_map.1 hx
  exact ⟨rfl, rfl⟩

theorem not_marks_escapeGlyphs (t : Text) :
    ∀ x ∈ escapeGlyphs t, x.opens = false ∧ x.closes = false := by
  intro x hx
  rcases use_escapeGlyphs t x hx with h | h <;> simp [Glyph.opens, Glyph.closes, h]

namespace Glyph

theorem isBlank_eq (x : Glyph) : x.isBlank = !isSolid (some x.char) := by simp [isBlank, isSolid]

theorem strip_ne_nil {g : List Glyph} {x : Glyph} (hx : x ∈ g) (hsolid : isSolid (some x.char) = true) :
    strip g ≠ [] := by
  intro hstrip
  have hall := List.rdropWhile_eq_nil_iff.1 hstrip
  have hblank : x.isBlank = true := by
    rw [← List.takeWhile_append_dropWhile (p := isBlank) (l := g), List.mem_append] at hx
    exact hx.elim (fun h => List.mem_takeWhile_imp h) (hall x)
  rw [isBlank_eq, hsolid] at hblank
  cases hblank

end Glyph

section
variable (s : Style) (before after : Option Char) {g : List Glyph}

theorem delimitGlyphs_of_strip_ne_nil (h : Glyph.strip g ≠ []) :
    ∃ n, delimitGlyphs s (s.mark o) before after g =
      let mark := List.replicate (n + 1) (s.markChar o (wordBeside before after (chars g)))
      Glyph.leading g ++ inUse (.opening s) mark ++ Glyph.strip g ++ inUse (.closing s) mark ++
        Glyph.trailing g := by
  have hne : chars g ≠ [] := by
    rintro hnil
    obtain rfl : g = [] := List.map_eq_nil_iff.1 hnil
    exact h rfl
  have hany (c : Option Char) : c.toList.any Unicode.isAlphanumeric = isWord c := by
    cases c <;> simp [isWord]
  obtain ⟨n, hn⟩ := settleMark_mark o s (((chars (Glyph.leading g)).getLast?.or before).toList ++
    ((chars (Glyph.trailing g)).head?.or after).toList)
  rw [List.any_append, hany, hany, Glyph.chars_leading, Glyph.chars_trailing, isWord_leading hne,
    isWord_trailing hne, ← wordBeside] at hn
  refine ⟨n, ?_⟩
  simp only [delimitGlyphs, List.isEmpty_iff, h, ↓reduceIte, Glyph.chars_leading,
    Glyph.chars_trailing, hn]

theorem delimitGlyphs_eq_nil_iff : delimitGlyphs s (s.mark o) before after g = [] ↔ g = [] := by
  by_cases hstrip : Glyph.strip g = []
  · simp [delimitGlyphs, hstrip]
  · obtain ⟨n, hn⟩ := delimitGlyphs_of_strip_ne_nil o s before after hstrip
    have hne : g ≠ [] := by
      rintro rfl
      exact hstrip rfl
    simp [hn, hne, hstrip]

theorem head?_delimitGlyphs (h : isSolid (chars g).head? = true) :
    (delimitGlyphs s (s.mark o) before after g).head? =
      some ⟨s.markChar o (wordBeside before after (chars g)), .opening s⟩ := by
  cases g with
  | nil => cases h
  | cons x g =>
    obtain ⟨n, hn⟩ := delimitGlyphs_of_strip_ne_nil o s before after
      (Glyph.strip_ne_nil List.mem_cons_self h)
    have hlead : Glyph.leading (x :: g) = [] :=
      List.takeWhile_cons_of_neg (by rw [Glyph.isBlank_eq]; simpa using h)
    rw [hn, hlead]
    rfl

theorem head?_delimitGlyphs_of_not_solid (h : isSolid (chars g).head? = false) :
    (delimitGlyphs s (s.mark o) before after g).head? = g.head? := by
  by_cases hstrip : Glyph.strip g = []
  · simp [delimitGlyphs, hstrip]
  · obtain ⟨n, hn⟩ := delimitGlyphs_of_strip_ne_nil o s before after hstrip
    cases g with
    | nil => exact absurd rfl hstrip
    | cons x g =>
      have hlead : Glyph.leading (x :: g) = x :: g.takeWhile Glyph.isBlank :=
        List.takeWhile_cons_of_pos (by rw [Glyph.isBlank_eq]; simpa using h)
      rw [hn, hlead]
      rfl

theorem getLast?_delimitGlyphs (h : isSolid (chars g).getLast? = true) :
    (delimitGlyphs s (s.mark o) before after g).getLast? =
      some ⟨s.markChar o (wordBeside before after (chars g)), .closing s⟩ := by
  rcases List.eq_nil_or_concat g with rfl | ⟨g, x, rfl⟩
  · cases h
  · rw [List.concat_eq_append] at h ⊢
    have hx : isSolid (some x.char) = true := by simpa using h
    obtain ⟨n, hn⟩ := delimitGlyphs_of_strip_ne_nil o s before after
      (Glyph.strip_ne_nil (g := g ++ [x]) (by simp) hx)
    have htrail : Glyph.trailing (g ++ [x]) = [] :=
      List.rtakeWhile_concat_neg _ _ _ (by rw [Glyph.isBlank_eq, hx]; decide)
    have hmark : (inUse (.closing s) (List.replicate (n + 1)
        (s.markChar o (wordBeside before after (chars (g ++ [x])))))).getLast? =
          some ⟨s.markChar o (wordBeside before after (chars (g ++ [x]))), .closing s⟩ := by
      simp [inUse, List.getLast?_replicate]
    rw [hn, htrail]
    simp only [List.append_nil, List.getLast?_append, hmark, Option.some_or]

theorem getLast?_delimitGlyphs_of_not_solid (h : isSolid (chars g).getLast? = false) :
    (delimitGlyphs s (s.mark o) before after g).getLast? = g.getLast? := by
  by_cases hstrip : Glyph.strip g = []
  · simp [delimitGlyphs, hstrip]
  · obtain ⟨n, hn⟩ := delimitGlyphs_of_strip_ne_nil o s before after hstrip
    rcases List.eq_nil_or_concat g with rfl | ⟨g, x, rfl⟩
    · exact absurd rfl hstrip
    · rw [List.concat_eq_append] at h hn ⊢
      have hx : isSolid (some x.char) = false := by simpa using h
      have htrail : Glyph.trailing (g ++ [x]) = Glyph.trailing g ++ [x] :=
        List.rtakeWhile_concat_pos _ _ _ (by rw [Glyph.isBlank_eq, hx]; rfl)
      rw [hn, htrail]
      simp [List.getLast?_append]

theorem marksApart_delimitGlyphs (hg : MarksApart g)
    (hblank : ∀ x ∈ g, x.isBlank = true → x.opens = false ∧ x.closes = false) :
    MarksApart (delimitGlyphs s (s.mark o) before after g) := by
  by_cases hstrip : Glyph.strip g = []
  · simpa [delimitGlyphs, hstrip] using hg
  · obtain ⟨n, hn⟩ := delimitGlyphs_of_strip_ne_nil o s before after hstrip
    have hparts := Glyph.leading_strip_trailing hstrip
    have hleading : ∀ x ∈ Glyph.leading g, x.closes = false := fun x hx =>
      (hblank x (List.takeWhile_subset _ hx) (List.mem_takeWhile_imp hx)).2
    have htrailing : ∀ x ∈ Glyph.trailing g, x.opens = false := fun x hx =>
      (hblank x ((List.rtakeWhile_suffix _ _).subset hx) (List.mem_rtakeWhile_imp hx)).1
    have hcore : MarksApart (Glyph.strip g) := by
      rw [← hparts] at hg
      exact (MarksApart.append_iff.1 (MarksApart.append_iff.1 hg).1).2.1
    have hopening (t : Text) : ∀ x ∈ inUse (.opening s) t, x.closes = false := by
      simp [inUse, Glyph.closes]
    have hclosing (t : Text) : ∀ x ∈ inUse (.closing s) t, x.opens = false := by
      simp [inUse, Glyph.opens]
    rw [hn]
    simp only
    refine .append_of_not_opens (.append_of_not_opens (.append_of_not_closes ?_ hcore) (hclosing _))
      htrailing
    intro x hx
    exact (List.mem_append.1 hx).elim (hleading x) (hopening _ x)

end

theorem not_marks_of_blank (before after : Option Char) (n : Inline) :
    ∀ x ∈ n.glyphs o before after, x.isBlank = true → x.opens = false ∧ x.closes = false := by
  intro x hx hblank
  have hwoven := woven_glyphs o before after n
  refine ⟨hwoven.not_opens_of_blank x hx hblank, ?_⟩
  rw [← Glyph.opens_flip]
  exact hwoven.mirrored.not_opens_of_blank x.flip (mem_mirror.2 ⟨x, hx, rfl⟩) hblank

/-- The content in styles, the first of them outermost. -/
def Inline.inStyles (ls : List Style) (n : Inline) : Inline := ls.foldr (fun s n => s.wrap [n]) n

theorem Inline.inStyles_append (ls ms : List Style) (n : Inline) :
    n.inStyles (ls ++ ms) = (n.inStyles ms).inStyles ls := List.foldr_append

theorem glyphs_inStyles_cons (s : Style) (ls : List Style) (before after : Option Char) (n : Inline) :
    (n.inStyles (s :: ls)).glyphs o before after =
      delimitGlyphs s (s.mark o) before after ((n.inStyles ls).glyphs o before after) := by
  rw [Inline.inStyles, List.foldr_cons, glyphs_wrap, glyphsAmong_singleton, Inline.inStyles]

section
variable (ls : List Style) (before after : Option Char) (n : Inline)

theorem marksApart_inStyles (h : MarksApart (n.glyphs o before after)) :
    MarksApart ((n.inStyles ls).glyphs o before after) := by
  induction ls with
  | nil => exact h
  | cons s ls ih =>
    rw [glyphs_inStyles_cons]
    exact marksApart_delimitGlyphs o s before after ih (not_marks_of_blank o before after _)

theorem isSolid_head?_inStyles : isSolid (chars ((n.inStyles ls).glyphs o before after)).head? =
    isSolid (chars (n.glyphs o before after)).head? := by
  induction ls with
  | nil => rfl
  | cons s ls ih =>
    rw [glyphs_inStyles_cons, ← ih, chars, List.head?_map]
    cases h : isSolid (chars ((n.inStyles ls).glyphs o before after)).head? with
    | true =>
      rw [head?_delimitGlyphs o s before after h]
      exact isSolid_markChar o s _
    | false => rw [head?_delimitGlyphs_of_not_solid o s before after h, ← List.head?_map, ← chars, h]

theorem isSolid_getLast?_inStyles : isSolid (chars ((n.inStyles ls).glyphs o before after)).getLast? =
    isSolid (chars (n.glyphs o before after)).getLast? := by
  induction ls with
  | nil => rfl
  | cons s ls ih =>
    rw [glyphs_inStyles_cons, ← ih, chars, List.getLast?_map]
    cases h : isSolid (chars ((n.inStyles ls).glyphs o before after)).getLast? with
    | true =>
      rw [getLast?_delimitGlyphs o s before after h]
      exact isSolid_markChar o s _
    | false =>
      rw [getLast?_delimitGlyphs_of_not_solid o s before after h, ← List.getLast?_map, ← chars, h]

theorem wordBeside_inStyles :
    wordBeside before after (chars ((n.inStyles ls).glyphs o before after)) =
      wordBeside before after (chars (n.glyphs o before after)) := by
  rw [wordBeside, isSolid_head?_inStyles, isSolid_getLast?_inStyles, wordBeside]

theorem opening?_inStyles (h : ∀ x ∈ n.glyphs o before after, x.opens = false) :
    opening? ((n.inStyles ls).glyphs o before after) =
      if isSolid (chars (n.glyphs o before after)).head? then
        ls.head?.map (Style.markChar o (wordBeside before after (chars (n.glyphs o before after))))
      else none := by
  induction ls with
  | nil => simpa [Inline.inStyles] using opening?_eq_none h
  | cons s ls ih =>
    rw [glyphs_inStyles_cons]
    split
    · next hsolid =>
      rw [← isSolid_head?_inStyles o ls] at hsolid
      rw [opening?, head?_delimitGlyphs o s before after hsolid, wordBeside_inStyles]
      rfl
    · next hsolid =>
      rw [if_neg hsolid, opening?] at ih
      rw [← isSolid_head?_inStyles o ls] at hsolid
      rw [opening?, head?_delimitGlyphs_of_not_solid o s before after (by simpa using hsolid), ih]

theorem closing?_inStyles (h : ∀ x ∈ n.glyphs o before after, x.closes = false) :
    closing? ((n.inStyles ls).glyphs o before after) =
      if isSolid (chars (n.glyphs o before after)).getLast? then
        ls.head?.map (Style.markChar o (wordBeside before after (chars (n.glyphs o before after))))
      else none := by
  induction ls with
  | nil => simpa [Inline.inStyles] using closing?_eq_none h
  | cons s ls ih =>
    rw [glyphs_inStyles_cons]
    split
    · next hsolid =>
      rw [← isSolid_getLast?_inStyles o ls] at hsolid
      rw [closing?, getLast?_delimitGlyphs o s before after hsolid, wordBeside_inStyles]
      rfl
    · next hsolid =>
      rw [if_neg hsolid, closing?] at ih
      rw [← isSolid_getLast?_inStyles o ls] at hsolid
      rw [closing?, getLast?_delimitGlyphs_of_not_solid o s before after (by simpa using hsolid), ih]

theorem glyphs_inStyles_eq_nil_iff :
    (n.inStyles ls).glyphs o before after = [] ↔ n.glyphs o before after = [] := by
  induction ls with
  | nil => rfl
  | cons s ls ih => rw [glyphs_inStyles_cons, delimitGlyphs_eq_nil_iff, ih]

end

end

end PageExport.Markdown
