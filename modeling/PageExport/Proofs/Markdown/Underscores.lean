import PageExport.Proofs.Markdown.Glyphs
import PageExport.Proofs.Markdown.MaskedMarks

/-!
Underscores that delimit emphasis never touch a word from outside. The mark is chosen by the
characters that stand beside the content when each sibling is written alone; in the end others may
stand there, but only marks in the place of marks.
-/
namespace PageExport.Markdown

def isWord (c : Option Char) : Bool := c.any Unicode.isAlphanumeric

/-- The character before what follows the glyphs. -/
def charBefore (before : Option Char) (g : List Glyph) : Option Char := (chars g).getLast?.or before

/-- The character after what precedes the glyphs. -/
def charAfter (after : Option Char) (g : List Glyph) : Option Char := (chars g).head?.or after

@[simp] theorem charBefore_nil (before : Option Char) : charBefore before [] = before := rfl

@[simp] theorem charBefore_append (before : Option Char) (g h : List Glyph) :
    charBefore before (g ++ h) = charBefore (charBefore before g) h := by
  simp [charBefore, List.getLast?_append, Option.or_assoc]

@[simp] theorem charAfter_append (after : Option Char) (g h : List Glyph) :
    charAfter after (g ++ h) = charAfter (charAfter after h) g := by
  simp [charAfter, List.head?_append, Option.or_assoc]

/-- An underscore that delimits emphasis has no letter or number on its outer side. -/
def Glyph.Apart (before after : Option Char) (x : Glyph) : Prop :=
  x.char = '_' →
    (x.use = .opening .emphasis → isWord before = false) ∧
      (x.use = .closing .emphasis → isWord after = false)

/-- Every glyph is apart from words, where it stands between the characters `before` and `after`. -/
def UnderscoresApart (before after : Option Char) (g : List Glyph) : Prop :=
  ∀ u x v, g = u ++ x :: v → x.Apart (charBefore before u) (charAfter after v)

theorem Glyph.Apart.weaken {b a b' a' : Option Char} {x : Glyph} (h : x.Apart b a)
    (hb : isWord b' = true → isWord b = true) (ha : isWord a' = true → isWord a = true) :
    x.Apart b' a' := fun hx =>
  ⟨fun ho => Bool.eq_false_iff.2 (mt hb (Bool.eq_false_iff.1 ((h hx).1 ho))),
    fun hc => Bool.eq_false_iff.2 (mt ha (Bool.eq_false_iff.1 ((h hx).2 hc)))⟩

section
variable {b a b' a' : Option Char} {g h : List Glyph}

theorem isWord_charBefore_mono (hb : isWord b' = true → isWord b = true) :
    isWord (charBefore b' g) = true → isWord (charBefore b g) = true := by
  unfold charBefore
  cases (chars g).getLast? with
  | none => exact hb
  | some c => exact id

theorem isWord_charAfter_mono (ha : isWord a' = true → isWord a = true) :
    isWord (charAfter a' g) = true → isWord (charAfter a g) = true := by
  unfold charAfter
  cases (chars g).head? with
  | none => exact ha
  | some c => exact id

namespace UnderscoresApart

/-- Words beside the glyphs only make it harder. -/
theorem weaken (hg : UnderscoresApart b a g) (hb : isWord b' = true → isWord b = true)
    (ha : isWord a' = true → isWord a = true) : UnderscoresApart b' a' g := fun u x v huv =>
  (hg u x v huv).weaken (isWord_charBefore_mono hb) (isWord_charAfter_mono ha)

/-- A side where no word stands demands nothing. -/
theorem beside (hg : UnderscoresApart b a g) (hb : isWord b' = false) (ha : isWord a' = false) :
    UnderscoresApart b' a' g :=
  hg.weaken (fun h => absurd h (by simp [hb])) fun h => absurd h (by simp [ha])

theorem nil : UnderscoresApart b a [] := fun u x v h => by simp at h

theorem append_iff : UnderscoresApart b a (g ++ h) ↔
    UnderscoresApart b (charAfter a h) g ∧ UnderscoresApart (charBefore b g) a h := by
  constructor
  · intro hgh
    refine ⟨fun u x v hg => ?_, fun u x v hh => ?_⟩
    · have := hgh u x (v ++ h) (by simp [hg])
      rwa [charAfter_append] at this
    · have := hgh (g ++ u) x v (by simp [hh])
      rwa [charBefore_append] at this
  · rintro ⟨hg, hh⟩ u x v huv
    rcases List.append_eq_append_iff.1 huv with ⟨w, rfl, rfl⟩ | ⟨w, rfl, hw⟩
    · rw [charBefore_append]
      exact hh w x v rfl
    · cases w with
      | nil =>
        have := hh [] x v hw.symm
        rwa [charBefore_nil, List.append_nil] at this
      | cons y w =>
        rw [List.cons_append, List.cons.injEq] at hw
        obtain ⟨rfl, rfl⟩ := hw
        rw [charAfter_append]
        exact hg u x w rfl

theorem append (hg : UnderscoresApart b (charAfter a h) g)
    (hh : UnderscoresApart (charBefore b g) a h) : UnderscoresApart b a (g ++ h) :=
  append_iff.2 ⟨hg, hh⟩

theorem singleton_iff {x : Glyph} : UnderscoresApart b a [x] ↔ x.Apart b a := by
  constructor
  · exact fun h => h [] x [] rfl
  · intro h u y v huv
    have hlen := congrArg List.length huv
    simp only [List.length_append, List.length_cons, List.length_nil] at hlen
    obtain rfl := List.eq_nil_of_length_eq_zero (by omega : u.length = 0)
    obtain ⟨rfl, rfl⟩ := List.cons.inj huv
    exact h

theorem cons_iff {x : Glyph} : UnderscoresApart b a (x :: g) ↔
    x.Apart b (charAfter a g) ∧ UnderscoresApart (some x.char) a g := by
  rw [← List.singleton_append, append_iff, singleton_iff]
  rfl

theorem of_within (hg : UnderscoresApart none none g) (hh : h <:+: g) :
    UnderscoresApart none none h := by
  obtain ⟨u, v, rfl⟩ := hh
  exact (append_iff.1 (append_iff.1 hg).1).2.beside rfl rfl

theorem of_forall (hg : ∀ x ∈ g, ∀ b a, x.Apart b a) : UnderscoresApart b a g := by
  rintro u x v rfl
  exact hg x (by simp) _ _

theorem plain (t : Text) : UnderscoresApart b a (plain t) := by
  refine of_forall fun x hx _ _ _ => ?_
  obtain ⟨c, -, rfl⟩ := List.mem_map.1 hx
  exact ⟨nofun, nofun⟩

/-- Plain characters may come between, if no word is at their edges. -/
theorem glue (hg : UnderscoresApart none none g) (hh : UnderscoresApart none none h) {t : Text}
    (hne : t ≠ []) (hhead : isWord t.head? = false) (hlast : isWord t.getLast? = false) :
    UnderscoresApart none none (g ++ Markdown.plain t ++ h) := by
  obtain ⟨c, t, rfl⟩ := List.exists_cons_of_ne_nil hne
  refine append (append (hg.beside rfl ?_) (plain _)) (hh.beside ?_ rfl)
  · simpa [charAfter] using hhead
  · rw [charBefore_append, charBefore, chars_inUse, List.getLast?_cons]
    rwa [List.getLast?_cons] at hlast

theorem glue_char (hg : UnderscoresApart none none g) (hh : UnderscoresApart none none h) {c : Char}
    (hc : isWord (some c) = false) : UnderscoresApart none none (g ++ ⟨c, .plain⟩ :: h) := by
  have := hg.glue hh (t := [c]) (List.cons_ne_nil c []) hc hc
  rwa [List.append_assoc] at this

end UnderscoresApart
end

section
variable {b a : Option Char} {mark : Text}

theorem isWord_charAfter_delimiter (hm : mark ∈ delimiters) (use : Use) :
    isWord (charAfter a (inUse use mark)) = false := by
  rcases delimiters_cases hm with rfl | rfl | rfl | rfl <;> rfl

theorem isWord_charBefore_delimiter (hm : mark ∈ delimiters) (use : Use) :
    isWord (charBefore b (inUse use mark)) = false := by
  rcases delimiters_cases hm with rfl | rfl | rfl | rfl <;> rfl

/-- An underscore is settled on only where no word is beside the content. -/
theorem not_isWord_of_settleMark {x y : Option Char}
    (h : settleMark mark (x.toList ++ y.toList) = ['_']) : isWord x = false ∧ isWord y = false := by
  have hany (c : Option Char) : c.toList.any Unicode.isAlphanumeric = isWord c := by
    cases c <;> simp [isWord]
  unfold settleMark at h
  rw [List.any_append, hany, hany] at h
  split at h
  · cases h
  · next hnot =>
    subst h
    simpa using hnot

theorem apart_marks {use : Use} (hm : mark ∈ delimiters)
    (h : mark = ['_'] → Glyph.Apart b a ⟨'_', use⟩) : UnderscoresApart b a (inUse use mark) := by
  rcases delimiters_cases hm with rfl | rfl | rfl | rfl
  · exact .of_forall fun x hx b a hc => by simp_all [inUse]
  · exact UnderscoresApart.singleton_iff.2 (h rfl)
  · exact .of_forall fun x hx b a hc => by simp_all [inUse]
  · exact .of_forall fun x hx b a hc => by simp_all [inUse]

theorem apart_escapeGlyphs (t : Text) : UnderscoresApart b a (escapeGlyphs t) := by
  refine .of_forall fun x hx _ _ _ => ?_
  rcases use_escapeGlyphs t x hx with h | h <;> simp [h]

theorem apart_delimitGlyphs {inner : List Glyph} (style : Style) (hm : mark ∈ delimiters)
    (h : UnderscoresApart b a inner) : UnderscoresApart b a (delimitGlyphs style mark b a inner) := by
  simp only [delimitGlyphs]
  split
  · exact h
  · next hcore =>
    generalize hs : settleMark mark _ = m
    have hm' : m ∈ delimiters := hs ▸ settleMark_mem hm _
    have hbeside (hu : m = ['_']) := not_isWord_of_settleMark (hs.trans hu)
    have hne : Glyph.strip inner ≠ [] := by simpa using hcore
    rw [← Glyph.leading_strip_trailing hne] at h
    obtain ⟨hinner, htrailing⟩ := UnderscoresApart.append_iff.1 h
    obtain ⟨hleading, hstrip⟩ := UnderscoresApart.append_iff.1 hinner
    have hafter {a : Option Char} (use : Use) := isWord_charAfter_delimiter (a := a) hm' use
    have hbefore {b : Option Char} (use : Use) := isWord_charBefore_delimiter (b := b) hm' use
    refine .append (.append (.append (.append ?_ ?_) ?_) ?_) ?_
    · exact hleading.weaken id fun hw => absurd hw (by simp [hafter])
    · exact apart_marks hm' fun hu _ => ⟨fun _ => (hbeside hu).1, nofun⟩
    · exact hstrip.beside (by simp [hbefore]) (by simp [hafter])
    · exact apart_marks hm' fun hu _ => ⟨nofun, fun _ => (hbeside hu).2⟩
    · exact htrailing.weaken (fun hw => absurd hw (by simp [hbefore])) id

end

theorem isWord_blurChar (c : Option Char) : isWord (c.map blurChar) = isWord c := by
  cases c with
  | none => rfl
  | some c => exact blind (p := Unicode.isAlphanumeric) (by decide +kernel) c

theorem isWord_or_congr {b c : Option Char} (h : b.map blurChar = c.map blurChar) (d : Option Char) :
    isWord (b.or d) = isWord (c.or d) := by
  have hword : isWord b = isWord c := by rw [← isWord_blurChar b, h, isWord_blurChar]
  cases b with
  | none =>
    obtain rfl : c = none := Option.map_eq_none_iff.1 h.symm
    rfl
  | some b =>
    obtain ⟨c, rfl, -⟩ := Option.map_eq_some_iff.1 h.symm
    exact hword

theorem isWord_head?_congr {t u : Text} (h : blur t = blur u) (after : Option Char) :
    isWord (t.head?.or after) = isWord (u.head?.or after) := by
  apply isWord_or_congr
  rw [← List.head?_map, ← List.head?_map]
  exact congrArg List.head? h

theorem isWord_getLast?_congr {t u : Text} (h : blur t = blur u) (before : Option Char) :
    isWord (t.getLast?.or before) = isWord (u.getLast?.or before) := by
  apply isWord_or_congr
  rw [← List.getLast?_map, ← List.getLast?_map]
  exact congrArg List.getLast? h

section
variable (o : Options)

theorem blur_flatten_renderEach (before after : Option Char) (ns : List Inline) :
    blur (renderEach o ns).flatten = blur (phrasing o before after ns) := by
  induction ns generalizing before with
  | nil => rfl
  | cons n ns ih =>
    simp only [phrasing, renderEach, renderAmong, List.flatten_cons, blur_append]
    congr 1
    · split
      · exact blur_render o o _ _ _ _ n
      · rfl
    · exact ih _

theorem blur_phrasing_cons (before after : Option Char) (n : Inline) (ns : List Inline) :
    blur (phrasing o none none (n :: ns)) =
      blur (n.render o before after) ++ blur (phrasing o none none ns) := by
  rw [← blur_flatten_renderEach o none none (n :: ns), renderEach, List.flatten_cons, blur_append,
    blur_flatten_renderEach o none none ns, blur_render o o none none before after]

/-- Siblings end up with a word in front exactly if they have one when each is written alone. -/
theorem isWord_following (before after : Option Char) (ns : List Inline) :
    isWord (charAfter after (glyphsAmong o before after ns)) =
      isWord ((renderEach o ns).flatten.head?.or after) := by
  rw [charAfter, chars_glyphsAmong]
  exact isWord_head?_congr (blur_flatten_renderEach o before after ns).symm after

mutual

theorem apart_glyphs (before after : Option Char) (n : Inline) :
    UnderscoresApart before after (n.glyphs o before after) := by
  cases n with
  | text value => exact apart_escapeGlyphs _
  | code value => exact .plain _
  | strong content =>
    exact apart_delimitGlyphs .strong (by decide) (apart_glyphsAmong before after content)
  | emphasis content =>
    exact apart_delimitGlyphs .emphasis (emphasisMark_mem _) (apart_glyphsAmong before after content)
  | delete content =>
    exact apart_delimitGlyphs .delete (by decide) (apart_glyphsAmong before after content)
  | link url title content =>
    exact .append (.append (.plain _) (apart_glyphsAmong (some '[') (some ']') content)) (.plain _)
  | image url title alt =>
    exact .append (.append (.plain _) (apart_escapeGlyphs _)) (.plain _)

theorem apart_glyphsAmong (before after : Option Char) (ns : List Inline) :
    UnderscoresApart before after (glyphsAmong o before after ns) := by
  cases ns with
  | nil => exact .nil
  | cons n ns =>
    rw [glyphsAmong_cons]
    refine .append ?_ (apart_glyphsAmong _ after ns)
    exact (apart_glyphs _ _ n).weaken id fun hw => (isWord_following o _ after ns) ▸ hw

end

end

namespace Glyph

theorem lines_within (g : List Glyph) : (∀ l ∈ (lines g).head?, l <+: g) ∧ ∀ l ∈ lines g, l <:+: g := by
  induction g with
  | nil => simp [lines]
  | cons x g ih =>
    have hcons {l : List Glyph} (h : l ∈ lines g) : l <:+: x :: g :=
      (ih.2 l h).trans (List.suffix_cons x g).isInfix
    rw [lines]
    split
    · refine ⟨by simp, fun l hl => ?_⟩
      rcases List.mem_cons.1 hl with rfl | hl
      · exact (List.nil_prefix).isInfix
      · exact hcons hl
    · cases hls : lines g with
      | nil =>
        have hx : [x] <+: x :: g := List.prefix_append [x] g
        simp [hx, hx.isInfix]
      | cons l ls =>
        have hfirst : x :: l <+: x :: g := List.cons_prefix_cons.2 ⟨rfl, ih.1 l (by simp [hls])⟩
        refine ⟨by simpa using hfirst, fun m hm => ?_⟩
        rcases List.mem_cons.1 hm with rfl | hm
        · exact hfirst.isInfix
        · exact hcons (hls ▸ List.mem_cons_of_mem l hm)

end Glyph

section
variable {g : List Glyph} (h : UnderscoresApart none none g)
include h

theorem apart_escapeAt (find : Text → Option Nat) :
    UnderscoresApart none none (Glyph.escapeAt find g) := by
  unfold Glyph.escapeAt insertAt
  split
  · next i _ =>
    have htake := h.of_within (List.take_prefix i g).isInfix
    have hdrop := h.of_within (List.drop_suffix i g).isInfix
    exact htake.glue_char hdrop (by decide +kernel)
  · exact h

theorem apart_encodeFirst : UnderscoresApart none none (Glyph.encodeFirst g) := by
  cases g with
  | nil => exact h
  | cons x g =>
    rw [Glyph.encodeFirst]
    split
    · have hg := h.of_within (List.suffix_cons x g).isInfix
      exact UnderscoresApart.nil.glue hg (t := encodedSpace) (by decide) (by decide +kernel)
        (by decide +kernel)
    · exact h

theorem apart_encodeLast : UnderscoresApart none none (Glyph.encodeLast g) := by
  unfold Glyph.encodeLast
  split
  · have hg := h.of_within (List.dropLast_prefix g).isInfix
    have := hg.glue .nil (t := encodedSpace) (by decide) (by decide +kernel) (by decide +kernel)
    rwa [List.append_nil] at this
  · exact h

theorem apart_guardLine : UnderscoresApart none none (Glyph.guardLine g) :=
  apart_encodeLast (apart_encodeFirst (apart_escapeAt (apart_escapeAt (apart_escapeAt h _) _) _))

end

theorem apart_unlines {ls : List (List Glyph)} (h : ∀ l ∈ ls, UnderscoresApart none none l) :
    UnderscoresApart none none (Glyph.unlines ls) := by
  fun_induction Glyph.unlines ls with
  | case1 => exact .nil
  | case2 l => exact h l (by simp)
  | case3 l ls hne ih =>
    obtain ⟨hl, hls⟩ := List.forall_mem_cons.1 h
    exact hl.glue_char (ih hls) (by decide +kernel)

theorem apart_guardLines {g : List Glyph} (h : UnderscoresApart none none g) :
    UnderscoresApart none none (Glyph.guardLines g) := by
  refine apart_unlines fun l hl => ?_
  obtain ⟨m, hm, rfl⟩ := List.mem_map.1 hl
  exact apart_guardLine (h.of_within ((Glyph.lines_within g).2 m hm))

theorem isWord_inCell {g : List Glyph} (h : isWord (charAfter none (g.flatMap Glyph.inCell)) = true) :
    isWord (charAfter none g) = true := by
  cases g with
  | nil => exact h
  | cons x g =>
    have hslash : isWord (some '\\') = false := by decide +kernel
    have hspace : isWord (some ' ') = false := by decide +kernel
    rw [List.flatMap_cons, Glyph.inCell] at h
    split at h
    · cases hslash.symm.trans h
    · split at h
      · cases hspace.symm.trans h
      · exact h

theorem apart_inCell {b : Option Char} {g : List Glyph} (h : UnderscoresApart b none g) :
    UnderscoresApart b none (g.flatMap Glyph.inCell) := by
  induction g generalizing b with
  | nil => exact h
  | cons x g ih =>
    obtain ⟨hx, hg⟩ := UnderscoresApart.cons_iff.1 h
    rw [List.flatMap_cons, Glyph.inCell]
    split
    · next hbar =>
      have hslash : Glyph.slash.Apart b (some x.char) := nofun
      have hx' : x.Apart (some '\\') (charAfter none (g.flatMap Glyph.inCell)) :=
        fun hc => absurd (hbar.symm.trans hc) (by decide)
      exact UnderscoresApart.cons_iff.2 ⟨hslash, UnderscoresApart.cons_iff.2 ⟨hx', ih hg⟩⟩
    · split
      · have hspace : isWord (some ' ') = false := by decide +kernel
        have hg' : UnderscoresApart (some ' ') none g :=
          hg.weaken (fun hw => absurd hw (by simp [hspace])) id
        exact UnderscoresApart.cons_iff.2 ⟨nofun, ih hg'⟩
      · exact UnderscoresApart.cons_iff.2 ⟨hx.weaken id isWord_inCell, ih hg⟩

theorem apart_cell {g : List Glyph} (h : UnderscoresApart none none g) :
    UnderscoresApart none none (Glyph.cell g) := by
  refine (apart_inCell h).of_within ?_
  exact (List.rdropWhile_prefix _ _).isInfix.trans (List.dropWhile_suffix _).isInfix

/-- Emphasis is not delimited with underscores beside a word: neither where its text stands alone
between two characters, nor in a paragraph, nor in a cell of a table. -/
theorem underscores_apart (before after : Option Char) (o : Options) (content : List Inline) :
    (chars (glyphsAmong o before after content) = phrasing o before after content ∧
      UnderscoresApart before after (glyphsAmong o before after content)) ∧
    (chars (Glyph.guardLines (glyphsAmong o none none content)) =
        guardLines (phrasing o none none content) ∧
      UnderscoresApart none none (Glyph.guardLines (glyphsAmong o none none content))) ∧
    (chars (Glyph.cell (glyphsAmong o none none content)) = cellText (phrasing o none none content) ∧
      UnderscoresApart none none (Glyph.cell (glyphsAmong o none none content))) := by
  have hline := apart_glyphsAmong o none none content
  refine ⟨⟨?_, ?_⟩, ⟨?_, ?_⟩, ?_, ?_⟩
  · exact chars_glyphsAmong o before after content
  · exact apart_glyphsAmong o before after content
  · rw [Glyph.chars_guardLines, chars_glyphsAmong]
  · exact apart_guardLines hline
  · rw [Glyph.chars_cell, chars_glyphsAmong]
  · exact apart_cell hline

example : glyphsAmong {} none (some 'z') [.emphasis [.text "a "], .text "b", .emphasis [.text "c"]] =
    [⟨'_', .opening .emphasis⟩, ⟨'a', .plain⟩, ⟨'_', .closing .emphasis⟩, ⟨' ', .plain⟩, ⟨'b', .plain⟩,
      ⟨'*', .opening .emphasis⟩, ⟨'c', .plain⟩, ⟨'*', .closing .emphasis⟩] := by
  decide +kernel

end PageExport.Markdown
