import PageExport.Delta
import PageExport.Proofs.Markdown.Glyphs

/-!
Where delimiters can open and close. Blanks at the edges of styled content stand outside its
delimiters, so there is no white space on the inner side of a run of them, unless tildes of the text
lengthen it. Punctuation on the inner side is not looked at, and beside a word such a run neither
opens nor closes.
-/
namespace PageExport.Markdown

/-- Tab, line feed, form feed, carriage return and the space separators. -/
def spacingRanges : List (Nat × Nat) := [
  (0x9, 0xA), (0xC, 0xD), (0x20, 0x20), (0xA0, 0xA0), (0x1680, 0x1680), (0x2000, 0x200A),
  (0x202F, 0x202F), (0x205F, 0x205F), (0x3000, 0x3000)]

/-- White space, or the edge of a line. -/
def isSpacing (c : Option Char) : Bool :=
  c.all fun c => spacingRanges.any fun r => r.1 ≤ c.toNat && c.toNat ≤ r.2

theorem isBlank_of_isSpacing {c : Char} (h : isSpacing (some c) = true) : isBlank c = true := by
  simp only [isSpacing, spacingRanges, Option.all_some, List.any_cons, List.any_nil,
    Bool.or_eq_true, Bool.and_eq_true, decide_eq_true_eq, Bool.false_eq_true, or_false] at h
  simp only [isBlank, blankRanges, List.any_cons, List.any_nil, Bool.or_eq_true,
    Bool.and_eq_true, decide_eq_true_eq, Bool.false_eq_true, or_false]
  omega

/-- A run between two characters can open; `punct` tells punctuation from other characters. -/
def leftFlanking (punct : Char → Bool) (before after : Option Char) : Bool :=
  !isSpacing after && (!after.any punct || isSpacing before || before.any punct)

/-- A run between two characters can close. -/
def rightFlanking (punct : Char → Bool) (before after : Option Char) : Bool :=
  leftFlanking punct after before

namespace Glyph

/-- The glyph belongs to a run of the character `c`. -/
def joins (c : Char) (x : Glyph) : Bool := x.char = c && x.use ≠ .escaped

def opens (x : Glyph) : Bool :=
  match x.use with
  | .opening _ => true
  | _ => false

def closes (x : Glyph) : Bool :=
  match x.use with
  | .closing _ => true
  | _ => false

/-- The glyph is of a text, and lengthens no run of stars or underscores. -/
def Sealed (x : Glyph) : Prop :=
  x.use = .escaped ∨ x.use = .plain ∧ x.char ≠ '*' ∧ x.char ≠ '_'

theorem joins_iff {c : Char} {x : Glyph} : x.joins c = true ↔ x.char = c ∧ x.use ≠ .escaped := by
  simp [joins]

end Glyph

/-- The character before a run of `c` that goes on after the glyphs. -/
def beforeRun (c : Char) (u : List Glyph) : Option Char :=
  (chars (u.rdropWhile (Glyph.joins c))).getLast?

/-- The character after a run of `c` that comes from before the glyphs. -/
def afterRun (c : Char) (v : List Glyph) : Option Char :=
  (chars (v.dropWhile (Glyph.joins c))).head?

/-- After a run of `c` at the start stands something that is not blank, if no tildes of the text are
in the run. -/
def Touches (c : Char) : List Glyph → Prop
  | [] => False
  | y :: v => if y.joins c then (c = '~' ∧ y.use = .plain) ∨ Touches c v else y.isBlank = false

namespace Touches
variable {c : Char} {v w : List Glyph}

theorem append (h : Touches c v) : Touches c (v ++ w) := by
  induction v with
  | nil => exact h.elim
  | cons y v ih =>
    rw [List.cons_append, Touches]
    rw [Touches] at h
    split
    · next hy =>
      rw [if_pos hy] at h
      exact h.imp_right ih
    · next hy => rwa [if_neg hy] at h

theorem not_of_blank (hw : ∀ x ∈ w, x.isBlank = true) : ¬Touches c w := by
  intro h
  induction w with
  | nil => exact h
  | cons y w ih =>
    obtain ⟨hy, hw⟩ := List.forall_mem_cons.1 hw
    rw [Touches] at h
    split at h
    · next hj =>
      rcases h with ⟨rfl, -⟩ | h
      · rw [Glyph.isBlank, (Glyph.joins_iff.1 hj).1] at hy
        exact absurd hy (by decide)
      · exact ih hw h
    · rw [hy] at h
      cases h

/-- The content is not in blanks at the end. -/
theorem of_append_blank (hw : ∀ x ∈ w, x.isBlank = true) (h : Touches c (v ++ w)) : Touches c v := by
  induction v with
  | nil => exact absurd h (not_of_blank hw)
  | cons y v ih =>
    rw [List.cons_append, Touches] at h
    rw [Touches]
    split
    · next hy =>
      rw [if_pos hy] at h
      exact h.imp_right ih
    · next hy => rwa [if_neg hy] at h

theorem isSpacing_afterRun (h : Touches c v) :
    (c = '~' ∧ ∃ y ∈ v.takeWhile (Glyph.joins c), y.use = .plain) ∨
      isSpacing (afterRun c v) = false := by
  induction v with
  | nil => exact h.elim
  | cons y v ih =>
    rw [Touches] at h
    split at h
    · next hy =>
      rw [List.takeWhile_cons_of_pos hy, afterRun, List.dropWhile_cons_of_pos hy, ← afterRun]
      rcases h with ⟨hc, huse⟩ | h
      · exact .inl ⟨hc, y, List.mem_cons_self, huse⟩
      · rcases ih h with ⟨hc, z, hz, huse⟩ | hspace
        · exact .inl ⟨hc, z, List.mem_cons_of_mem y hz, huse⟩
        · exact .inr hspace
    · next hy =>
      right
      rw [afterRun, List.dropWhile_cons_of_neg hy, chars_cons, List.head?_cons, ← Bool.not_eq_true]
      intro hspace
      rw [Glyph.isBlank, isBlank_of_isSpacing hspace] at h
      cases h

end Touches

/-- After each opening delimiter its run touches content. -/
def OpeningsTouch : List Glyph → Prop
  | [] => True
  | x :: v => (x.opens = true → Touches x.char v) ∧ OpeningsTouch v

namespace OpeningsTouch
variable {g h w : List Glyph}

theorem of_not_opens (hg : ∀ x ∈ g, x.opens = false) : OpeningsTouch g := by
  induction g with
  | nil => trivial
  | cons x g ih =>
    obtain ⟨hx, hg⟩ := List.forall_mem_cons.1 hg
    exact ⟨fun ho => absurd ho (by simp [hx]), ih hg⟩

theorem append (hg : OpeningsTouch g) (hh : OpeningsTouch h) : OpeningsTouch (g ++ h) := by
  induction g with
  | nil => exact hh
  | cons x g ih => exact ⟨fun ho => (hg.1 ho).append, ih hg.2⟩

theorem of_append (hgh : OpeningsTouch (g ++ h)) : OpeningsTouch h := by
  induction g with
  | nil => exact hgh
  | cons x g ih => exact ih hgh.2

theorem of_append_blank (hw : ∀ x ∈ w, x.isBlank = true) (hg : OpeningsTouch (g ++ w)) :
    OpeningsTouch g := by
  induction g with
  | nil => trivial
  | cons x g ih => exact ⟨fun ho => (hg.1 ho).of_append_blank hw, ih hg.2⟩

theorem touches {u v : List Glyph} {x : Glyph} (h : OpeningsTouch (u ++ x :: v))
    (hx : x.opens = true) : Touches x.char v := h.of_append.1 hx

end OpeningsTouch

/-- Glyphs that come from texts, which are sealed at their edges, by writing delimiters around what is
not blank. -/
inductive Woven : List Glyph → Prop where
  | text {g : List Glyph} (huse : ∀ x ∈ g, x.use = .plain ∨ x.use = .escaped)
    (hfirst : ∀ x ∈ (g.dropWhile Glyph.isBlank).head?, x.Sealed)
    (hlast : ∀ x ∈ (g.rdropWhile Glyph.isBlank).getLast?, x.Sealed) : Woven g
  | append {g h : List Glyph} (hg : Woven g) (hh : Woven h) : Woven (g ++ h)
  | wrap {lead core trail : List Glyph} {mark : Text} (style : Style) (hmark : mark ∈ delimiters)
    (hlead : ∀ x ∈ lead, x.isBlank = true) (htrail : ∀ x ∈ trail, x.isBlank = true)
    (hne : core ≠ []) (hfirst : ∀ x ∈ core.head?, x.isBlank = false)
    (hlast : ∀ x ∈ core.getLast?, x.isBlank = false) (hinner : Woven (lead ++ core ++ trail)) :
    Woven (lead ++ inUse (.opening style) mark ++ core ++ inUse (.closing style) mark ++ trail)

def Use.flip : Use → Use
  | .opening style => .closing style
  | .closing style => .opening style
  | use => use

namespace Glyph

def flip (x : Glyph) : Glyph := ⟨x.char, x.use.flip⟩

@[simp] theorem opens_flip (x : Glyph) : x.flip.opens = x.closes := by
  obtain ⟨c, use⟩ := x
  cases use <;> rfl

@[simp] theorem isBlank_flip (x : Glyph) : x.flip.isBlank = x.isBlank := rfl

@[simp] theorem joins_flip (c : Char) (x : Glyph) : x.flip.joins c = x.joins c := by
  obtain ⟨d, use⟩ := x
  cases use <;> rfl

theorem flip_use_eq_plain (x : Glyph) : x.flip.use = .plain ↔ x.use = .plain := by
  obtain ⟨c, use⟩ := x
  cases use <;> simp [flip, Use.flip]

end Glyph

/-- The glyphs read from their end, where what closes opens. -/
def mirror (g : List Glyph) : List Glyph := (g.map Glyph.flip).reverse

@[simp] theorem mem_mirror {g : List Glyph} {x : Glyph} : x ∈ mirror g ↔ ∃ y ∈ g, y.flip = x := by
  simp [mirror]

@[simp] theorem mirror_append (g h : List Glyph) : mirror (g ++ h) = mirror h ++ mirror g := by
  simp [mirror]

theorem mirror_cons (x : Glyph) (g : List Glyph) : mirror (x :: g) = mirror g ++ [x.flip] := by
  simp [mirror]

theorem mirror_inUse (use : Use) (t : Text) : mirror (inUse use t) = inUse use.flip t.reverse := by
  rw [mirror, inUse, inUse, List.map_map, ← List.map_reverse]
  rfl

theorem head?_mirror (g : List Glyph) : (mirror g).head? = g.getLast?.map Glyph.flip := by
  rw [mirror, List.head?_reverse, List.getLast?_map]

theorem getLast?_mirror (g : List Glyph) : (mirror g).getLast? = g.head?.map Glyph.flip := by
  rw [mirror, List.getLast?_reverse, List.head?_map]

section
variable {p : Glyph → Bool} (hp : ∀ x, p x.flip = p x)
include hp

theorem dropWhile_mirror (g : List Glyph) : (mirror g).dropWhile p = mirror (g.rdropWhile p) := by
  rw [mirror, mirror, ← List.map_reverse, List.dropWhile_map, funext hp (f := p ∘ Glyph.flip),
    ← List.map_reverse, List.rdropWhile, List.reverse_reverse]

theorem takeWhile_mirror (g : List Glyph) : (mirror g).takeWhile p = mirror (g.rtakeWhile p) := by
  rw [mirror, mirror, ← List.map_reverse, List.takeWhile_map, funext hp (f := p ∘ Glyph.flip),
    ← List.map_reverse, List.rtakeWhile, List.reverse_reverse]

theorem rdropWhile_mirror (g : List Glyph) : (mirror g).rdropWhile p = mirror (g.dropWhile p) := by
  rw [mirror, mirror, List.rdropWhile_reverse, List.dropWhile_map, funext hp (f := p ∘ Glyph.flip)]

end

theorem chars_mirror (g : List Glyph) : chars (mirror g) = (chars g).reverse := by
  rw [chars, mirror, List.map_reverse, List.map_map]
  rfl

theorem afterRun_mirror (c : Char) (u : List Glyph) : afterRun c (mirror u) = beforeRun c u := by
  rw [afterRun, dropWhile_mirror (Glyph.joins_flip c), chars_mirror, List.head?_reverse, beforeRun]

theorem beforeRun_mirror (c : Char) (v : List Glyph) : beforeRun c (mirror v) = afterRun c v := by
  rw [beforeRun, rdropWhile_mirror (Glyph.joins_flip c), chars_mirror, List.getLast?_reverse, afterRun]

theorem Glyph.flip_of_text {x : Glyph} (h : x.use = .plain ∨ x.use = .escaped) : x.flip = x := by
  obtain ⟨c, use⟩ := x
  rcases h with rfl | rfl <;> rfl

theorem Glyph.Sealed.flip_eq {x : Glyph} (h : x.Sealed) : x.flip = x :=
  Glyph.flip_of_text (h.symm.imp_left And.left)

theorem reverse_delimiter {mark : Text} (h : mark ∈ delimiters) : mark.reverse = mark := by
  rcases delimiters_cases h with rfl | rfl | rfl | rfl <;> rfl

theorem mem_delimiter {mark : Text} (h : mark ∈ delimiters) {c : Char} (hc : c ∈ mark) :
    c = '*' ∨ c = '_' ∨ c = '~' := by
  rcases delimiters_cases h with rfl | rfl | rfl | rfl <;> simp at hc <;> simp [hc]

namespace Woven
variable {g : List Glyph}

theorem mirrored (h : Woven g) : Woven (mirror g) := by
  induction h with
  | @text g huse hfirst hlast =>
    refine .text (fun x hx => ?_) (fun x hx => ?_) (fun x hx => ?_)
    · obtain ⟨y, hy, rfl⟩ := mem_mirror.1 hx
      rw [Glyph.flip_of_text (huse y hy)]
      exact huse y hy
    · rw [dropWhile_mirror Glyph.isBlank_flip, head?_mirror] at hx
      obtain ⟨y, hy, rfl⟩ := Option.map_eq_some_iff.1 hx
      rw [(hlast y hy).flip_eq]
      exact hlast y hy
    · rw [rdropWhile_mirror Glyph.isBlank_flip, getLast?_mirror] at hx
      obtain ⟨y, hy, rfl⟩ := Option.map_eq_some_iff.1 hx
      rw [(hfirst y hy).flip_eq]
      exact hfirst y hy
  | append _ _ hg hh => exact mirror_append _ _ ▸ hh.append hg
  | @wrap lead core trail mark style hmark hlead htrail hne hfirst hlast _ ih =>
    have hblank {w : List Glyph} (hw : ∀ x ∈ w, x.isBlank = true) :
        ∀ x ∈ mirror w, x.isBlank = true := by
      rintro x hx
      obtain ⟨y, hy, rfl⟩ := mem_mirror.1 hx
      exact hw y hy
    simp only [mirror_append, mirror_inUse, reverse_delimiter hmark, Use.flip, ← List.append_assoc]
      at ih ⊢
    refine .wrap style hmark (hblank htrail) (hblank hlead) ?_ (fun x hx => ?_) (fun x hx => ?_) ih
    · simpa [mirror] using hne
    · rw [head?_mirror] at hx
      obtain ⟨y, hy, rfl⟩ := Option.map_eq_some_iff.1 hx
      exact hlast y hy
    · rw [getLast?_mirror] at hx
      obtain ⟨y, hy, rfl⟩ := Option.map_eq_some_iff.1 hx
      exact hfirst y hy

theorem not_opens_of_blank (h : Woven g) : ∀ x ∈ g, x.isBlank = true → x.opens = false := by
  induction h with
  | text huse =>
    intro x hx _
    rcases huse x hx with h | h <;> simp [Glyph.opens, h]
  | append _ _ hg hh =>
    intro x hx
    exact (List.mem_append.1 hx).elim (hg x) (hh x)
  | @wrap lead core trail mark style hmark _ _ _ _ _ _ ih =>
    intro x hx hblank
    have hmark {use : Use} (hx : x ∈ inUse use mark) : x.isBlank = false := by
      obtain ⟨c, hc, rfl⟩ := List.mem_map.1 hx
      change PageExport.isBlank c = false
      rcases mem_delimiter hmark hc with rfl | rfl | rfl <;> decide
    simp only [List.mem_append] at hx ih
    rcases hx with (((hx | hx) | hx) | hx) | hx
    · exact ih x (.inl (.inl hx)) hblank
    · rw [hmark hx] at hblank
      cases hblank
    · exact ih x (.inl (.inr hx)) hblank
    · rw [hmark hx] at hblank
      cases hblank
    · exact ih x (.inr hx) hblank

/-- The first glyph that is no blank opens, or no delimiter before it runs into it. -/
theorem first (h : Woven g) :
    ∀ x ∈ (g.dropWhile Glyph.isBlank).head?, x.opens = true ∨ x.Sealed := by
  induction h with
  | text _ hfirst _ => exact fun x hx => .inr (hfirst x hx)
  | append _ _ hg hh =>
    rw [List.dropWhile_append]
    split
    · exact hh
    · next hne =>
      obtain ⟨y, v, hy⟩ := List.exists_cons_of_ne_nil (mt List.isEmpty_iff.2 hne)
      rw [hy] at hg ⊢
      exact hg
  | @wrap lead core trail mark style hmark hlead _ _ _ _ _ _ =>
    intro x hx
    left
    rw [List.append_assoc, List.append_assoc, List.append_assoc,
      List.dropWhile_append_of_pos hlead] at hx
    rcases delimiters_cases hmark with rfl | rfl | rfl | rfl <;> exact (Option.some.inj hx) ▸ rfl

/-- Content without blanks at its edges is touched by the delimiters before it. -/
theorem touches_core {lead core trail : List Glyph} {mark : Text} (hmark : mark ∈ delimiters)
    (hlead : ∀ x ∈ lead, x.isBlank = true) (hne : core ≠ [])
    (hnotBlank : ∀ x ∈ core.head?, x.isBlank = false) (hinner : Woven (lead ++ core ++ trail))
    (hcore : OpeningsTouch core) {c : Char} (hc : c ∈ mark) : Touches c core := by
  obtain ⟨y, v, rfl⟩ := List.exists_cons_of_ne_nil hne
  have hy : y.isBlank = false := hnotBlank y rfl
  have hfirst := hinner.first
  rw [List.append_assoc, List.dropWhile_append_of_pos hlead, List.cons_append,
    List.dropWhile_cons_of_neg (by simp [hy])] at hfirst
  rw [Touches]
  split
  · next hjoins =>
    obtain ⟨hchar, huse⟩ := Glyph.joins_iff.1 hjoins
    rcases hfirst y rfl with hopens | hescaped | ⟨hplain, hstar, hunderscore⟩
    · exact .inr (hchar ▸ hcore.1 hopens)
    · exact absurd hescaped huse
    · rw [hchar] at hstar hunderscore
      exact .inl ⟨((mem_delimiter hmark hc).resolve_left hstar).resolve_left hunderscore, hplain⟩
  · exact hy

theorem openingsTouch (h : Woven g) : OpeningsTouch g := by
  induction h with
  | text huse =>
    refine .of_not_opens fun x hx => ?_
    rcases huse x hx with h | h <;> simp [Glyph.opens, h]
  | append _ _ hg hh => exact hg.append hh
  | @wrap lead core trail mark style hmark hlead htrail hne hfirst _ hinner ih =>
    have hcore : OpeningsTouch core := OpeningsTouch.of_append (ih.of_append_blank htrail)
    have htouches {c : Char} (hc : c ∈ mark) : Touches c core :=
      touches_core hmark hlead hne hfirst hinner hcore hc
    have hopening : OpeningsTouch (inUse (.opening style) mark ++ core) := by
      rcases delimiters_cases hmark with rfl | rfl | rfl | rfl
      · exact ⟨fun _ => htouches (by simp), hcore⟩
      · exact ⟨fun _ => htouches (by simp), hcore⟩
      · exact ⟨fun _ => .inr (htouches (by simp)), fun _ => htouches (by simp), hcore⟩
      · exact ⟨fun _ => .inr (htouches (by simp)), fun _ => htouches (by simp), hcore⟩
    have hedge {w : List Glyph} (hw : ∀ x ∈ w, x.isBlank = true) (hin : w ⊆ lead ++ core ++ trail) :
        OpeningsTouch w :=
      .of_not_opens fun x hx => hinner.not_opens_of_blank x (hin hx) (hw x hx)
    have hclosing : OpeningsTouch (inUse (.closing style) mark) := by
      refine .of_not_opens fun x hx => ?_
      obtain ⟨c, -, rfl⟩ := List.mem_map.1 hx
      rfl
    have hleads := hedge hlead fun x hx => by simp [hx]
    have htrails := hedge htrail fun x hx => by simp [hx]
    rw [List.append_assoc lead]
    exact ((hleads.append hopening).append hclosing).append htrails

end Woven

/-- A character at the edge of a text that keeps runs of delimiters from going on in it. -/
def isSeal (c : Char) : Bool := !isBlank c && c ≠ '*' && c ≠ '_'

theorem woven_plain {t : Text} (hfirst : ∀ c ∈ t.head?, isSeal c = true)
    (hlast : ∀ c ∈ t.getLast?, isSeal c = true) : Woven (plain t) := by
  have hseal {c : Char} (h : isSeal c = true) : isBlank c = false ∧ c ≠ '*' ∧ c ≠ '_' := by
    simpa [isSeal, and_assoc] using h
  refine .text (fun x hx => ?_) (fun x hx => ?_) (fun x hx => ?_)
  · obtain ⟨c, -, rfl⟩ := List.mem_map.1 hx
    exact .inl rfl
  · cases t with
    | nil => cases hx
    | cons c t =>
      obtain ⟨hblank, hc⟩ := hseal (hfirst c rfl)
      have hx : x ∈ ((⟨c, .plain⟩ :: plain t).dropWhile Glyph.isBlank).head? := hx
      rw [List.dropWhile_cons_of_neg (by simp [Glyph.isBlank, hblank])] at hx
      obtain rfl := Option.some.inj hx
      exact .inr ⟨rfl, hc⟩
  · rcases List.eq_nil_or_concat t with rfl | ⟨t, c, rfl⟩
    · cases hx
    · obtain ⟨hblank, hc⟩ := hseal (hlast c (by simp))
      rw [plain, inUse, List.concat_eq_append, List.map_append, List.map_singleton,
        List.rdropWhile_concat_neg _ _ _ (by simp [Glyph.isBlank, hblank])] at hx
      obtain rfl : ⟨c, .plain⟩ = x := by simpa using hx
      exact .inr ⟨rfl, hc⟩

theorem woven_escapeGlyphs (t : Text) : Woven (escapeGlyphs t) := by
  have hsealed : ∀ x ∈ escapeGlyphs t, x.Sealed := by
    intro x hx
    obtain ⟨c, -, hx⟩ := List.mem_flatMap.1 hx
    split at hx
    · simp only [List.mem_cons, List.not_mem_nil, or_false] at hx
      rcases hx with rfl | rfl
      · exact .inr ⟨rfl, by decide, by decide⟩
      · exact .inl rfl
    · next hc =>
      obtain rfl := List.mem_singleton.1 hx
      simp only [isSpecial, Bool.or_eq_true, decide_eq_true_eq, not_or] at hc
      exact .inr ⟨rfl, by tauto, by tauto⟩
  refine .text (fun x hx => ?_) (fun x hx => ?_) (fun x hx => ?_)
  · exact (hsealed x hx).symm.imp_left And.left
  · exact hsealed x (List.dropWhile_subset _ (List.mem_of_mem_head? hx))
  · exact hsealed x ((List.rdropWhile_prefix _ _).subset (List.mem_of_mem_getLast? hx))

theorem woven_codeSpan (t : Text) : Woven (plain (codeSpan t)) := by
  refine woven_plain (fun c hc => ?_) (fun c hc => ?_)
  · obtain rfl : '`' = c := by
      simpa [codeSpan, fence, List.head?_append, List.head?_replicate] using hc
    decide
  · obtain rfl : '`' = c := by
      simpa [codeSpan, fence, List.getLast?_append, List.getLast?_replicate] using hc
    decide

theorem woven_linkEnd (destination title : Text) :
    Woven (plain ([']', '('] ++ destination ++ title ++ [')'])) := by
  refine woven_plain (fun c hc => ?_) (fun c hc => ?_)
  · obtain rfl : ']' = c := by simpa using hc
    decide
  · rw [List.getLast?_append] at hc
    obtain rfl := Option.some.inj hc
    decide

theorem Glyph.head?_strip (g : List Glyph) : ∀ x ∈ (Glyph.strip g).head?, x.isBlank = false := by
  intro x hx
  obtain ⟨s, hs⟩ := List.head?_eq_some_iff.1 hx
  obtain ⟨w, hw⟩ : Glyph.strip g <+: g.dropWhile Glyph.isBlank := List.rdropWhile_prefix _ _
  have hfirst := List.head?_dropWhile_not Glyph.isBlank g
  rwa [← hw, hs] at hfirst

theorem Glyph.getLast?_strip (g : List Glyph) :
    ∀ x ∈ (Glyph.strip g).getLast?, x.isBlank = false := by
  intro x hx
  obtain ⟨hne, rfl⟩ := List.mem_getLast?_eq_getLast hx
  exact Bool.eq_false_iff.2 (List.rdropWhile_last_not _ _ hne)

theorem woven_delimitGlyphs {inner : List Glyph} (style : Style) {mark : Text}
    (hmark : mark ∈ delimiters) (before after : Option Char) (h : Woven inner) :
    Woven (delimitGlyphs style mark before after inner) := by
  simp only [delimitGlyphs]
  split
  · exact h
  · next hcore =>
    have hne : Glyph.strip inner ≠ [] := by simpa using hcore
    rw [← Glyph.leading_strip_trailing hne] at h
    refine .wrap style (settleMark_mem hmark _) ?_ ?_ hne ?_ ?_ h
    · exact fun x hx => List.mem_takeWhile_imp hx
    · exact fun x hx => List.mem_rtakeWhile_imp hx
    · exact Glyph.head?_strip inner
    · exact Glyph.getLast?_strip inner

section
variable (o : Options)

mutual

theorem woven_glyphs (before after : Option Char) (n : Inline) : Woven (n.glyphs o before after) := by
  cases n with
  | text value => exact woven_escapeGlyphs _
  | code value => exact woven_codeSpan _
  | strong content =>
    exact woven_delimitGlyphs .strong (by decide) before after (woven_glyphsAmong before after content)
  | emphasis content =>
    exact woven_delimitGlyphs .emphasis (emphasisMark_mem _) before after
      (woven_glyphsAmong before after content)
  | delete content =>
    exact woven_delimitGlyphs .delete (by decide) before after (woven_glyphsAmong before after content)
  | link url title content =>
    refine .append (.append ?_ (woven_glyphsAmong (some '[') (some ']') content)) ?_
    · exact woven_plain (fun c hc => Option.some.inj hc ▸ rfl) fun c hc => Option.some.inj hc ▸ rfl
    · exact woven_linkEnd _ _
  | image url title alt =>
    refine .append (.append ?_ (woven_escapeGlyphs _)) ?_
    · exact woven_plain (fun c hc => Option.some.inj hc ▸ rfl) fun c hc => Option.some.inj hc ▸ rfl
    · exact woven_linkEnd _ _

theorem woven_glyphsAmong (before after : Option Char) (ns : List Inline) :
    Woven (glyphsAmong o before after ns) := by
  cases ns with
  | nil => exact woven_plain (t := []) nofun nofun
  | cons n ns =>
    rw [glyphsAmong_cons]
    exact .append (woven_glyphs _ _ n) (woven_glyphsAmong _ after ns)

end

end

/-- What a run with a delimiter `x` needs, given the characters on its outer and its inner side and
the glyphs of the run on the inner side of `x`: no punctuation inside beside a word outside, and no
white space inside if tildes of the text are in the run. -/
def Fits (punct : Char → Bool) (x : Glyph) (outer inner : Option Char) (run : List Glyph) : Prop :=
  (inner.any punct = true → isSpacing outer = true ∨ outer.any punct = true) ∧
    (x.char = '~' → (∃ y ∈ run, y.use = .plain) → isSpacing inner = false)

theorem leftFlanking_iff (punct : Char → Bool) {g u v : List Glyph} {x : Glyph}
    (hg : OpeningsTouch g) (h : g = u ++ x :: v) (hx : x.opens = true) :
    leftFlanking punct (beforeRun x.char u) (afterRun x.char v) = true ↔
      Fits punct x (beforeRun x.char u) (afterRun x.char v) (v.takeWhile (Glyph.joins x.char)) := by
  subst h
  have hspace := (hg.touches hx).isSpacing_afterRun
  generalize beforeRun x.char u = outer, afterRun x.char v = inner at hspace ⊢
  simp only [leftFlanking, Fits, Bool.and_eq_true, Bool.not_eq_true', Bool.or_eq_true, or_assoc]
  constructor
  · rintro ⟨hinner, hpunct⟩
    exact ⟨fun hp => hpunct.resolve_left (by simp [hp]), fun _ _ => hinner⟩
  · rintro ⟨hpunct, htilde⟩
    refine ⟨hspace.elim (fun h => htilde h.1 h.2) id, ?_⟩
    cases hp : inner.any punct with
    | false => exact .inl rfl
    | true => exact .inr (hpunct hp)

theorem fits_mirror {punct : Char → Bool} {x : Glyph} {outer inner : Option Char} {run : List Glyph} :
    Fits punct x.flip outer inner (mirror run) ↔ Fits punct x outer inner run := by
  have hplain : (∃ y ∈ mirror run, y.use = .plain) ↔ ∃ y ∈ run, y.use = .plain := by
    simp [Glyph.flip_use_eq_plain]
  rw [Fits, Fits, hplain]
  rfl

/-- A run of delimiters is left-flanking where one of them opens, and right-flanking where one of them
closes, exactly if it fits. -/
theorem flanking_iff (punct : Char → Bool) (o : Options) (content : List Inline) {u v : List Glyph}
    {x : Glyph} (h : glyphsAmong o none none content = u ++ x :: v) :
    phrasing o none none content = chars u ++ x.char :: chars v ∧
    (x.opens = true →
      (leftFlanking punct (beforeRun x.char u) (afterRun x.char v) = true ↔
        Fits punct x (beforeRun x.char u) (afterRun x.char v)
          (v.takeWhile (Glyph.joins x.char)))) ∧
    (x.closes = true →
      (rightFlanking punct (beforeRun x.char u) (afterRun x.char v) = true ↔
        Fits punct x (afterRun x.char v) (beforeRun x.char u)
          (u.rtakeWhile (Glyph.joins x.char)))) := by
  have hwoven := woven_glyphsAmong o none none content
  refine ⟨?_, ?_, ?_⟩
  · rw [← chars_glyphsAmong, h, chars_append, chars_cons]
  · exact leftFlanking_iff punct hwoven.openingsTouch h
  · intro hx
    have hmirror : mirror (glyphsAmong o none none content) = mirror v ++ x.flip :: mirror u := by
      rw [h, mirror_append, mirror_cons, List.append_assoc, List.singleton_append]
    have hiff := leftFlanking_iff punct hwoven.mirrored.openingsTouch hmirror (by simpa using hx)
    rw [takeWhile_mirror (Glyph.joins_flip _), fits_mirror, beforeRun_mirror, afterRun_mirror] at hiff
    exact hiff

def isAsciiPunctuation (c : Char) : Bool :=
  [(0x21, 0x2F), (0x3A, 0x40), (0x5B, 0x60), (0x7B, 0x7E)].any fun r => r.1 ≤ c.toNat && c.toNat ≤ r.2

theorem flanking_iff_space :
    glyphsAmong {} none none (Delta.content 0 [⟨"a ", {}⟩, ⟨"(b)", { bold := some true }⟩]) =
      plain ['a', ' '] ++ ⟨'*', .opening .strong⟩ ::
        (inUse (.opening .strong) ['*'] ++ plain ['(', 'b', ')'] ++ inUse (.closing .strong) ['*', '*']) ∧
    leftFlanking isAsciiPunctuation (beforeRun '*' (plain ['a', ' '])) (afterRun '*'
      (inUse (.opening .strong) ['*'] ++ plain ['(', 'b', ')'] ++
        inUse (.closing .strong) ['*', '*'])) = true := by
  refine ⟨rfl, ?_⟩
  have h := flanking_iff isAsciiPunctuation {}
    (Delta.content 0 [⟨"a ", {}⟩, ⟨"(b)", { bold := some true }⟩]) (u := plain ['a', ' '])
    (x := ⟨'*', .opening .strong⟩) rfl
  exact (h.2.1 rfl).2 ⟨fun _ => .inl rfl, fun hc => absurd hc (by decide)⟩

/-- Bold text in brackets right after a letter is not delimited. -/
theorem not_leftFlanking_bracket :
    phrasing {} none none (Delta.content 0 [⟨"a", {}⟩, ⟨"(b)", { bold := some true }⟩]) =
      ['a', '*', '*', '(', 'b', ')', '*', '*'] ∧
    glyphsAmong {} none none (Delta.content 0 [⟨"a", {}⟩, ⟨"(b)", { bold := some true }⟩]) =
      plain ['a'] ++ ⟨'*', .opening .strong⟩ ::
        (inUse (.opening .strong) ['*'] ++ plain ['(', 'b', ')'] ++ inUse (.closing .strong) ['*', '*']) ∧
    leftFlanking isAsciiPunctuation (beforeRun '*' (plain ['a'])) (afterRun '*'
      (inUse (.opening .strong) ['*'] ++ plain ['(', 'b', ')'] ++
        inUse (.closing .strong) ['*', '*'])) = false :=
  ⟨rfl, rfl, rfl⟩

end PageExport.Markdown
