import PageExport.Proofs.Markdown.Underscores

/-!
What the characters beside content decide. Siblings are written alone and once more between their
neighbours, at every level of nesting. The two texts have the same length and differ at most where a
mark of emphasis stands.
-/
namespace PageExport.Markdown

namespace Glyph

/-- The glyph is a mark of emphasis, which the characters beside the content choose. -/
def isSettled (x : Glyph) : Bool := x.use = .opening .emphasis || x.use = .closing .emphasis

/-- The glyph without the choice of its mark. -/
def neutral (x : Glyph) : Glyph := if x.isSettled then ⟨blurChar x.char, x.use⟩ else x

@[simp] theorem use_neutral (x : Glyph) : x.neutral.use = x.use := by
  unfold neutral
  split <;> rfl

@[simp] theorem isSettled_neutral (x : Glyph) : x.neutral.isSettled = x.isSettled := by
  simp [isSettled]

theorem isBlank_neutral (x : Glyph) : x.neutral.isBlank = x.isBlank := by
  unfold neutral
  split
  · exact isBlank_blurChar x.char
  · rfl

theorem eq_of_neutral_eq {x y : Glyph} (h : x.neutral = y.neutral) (hx : x.isSettled = false) :
    x = y := by
  have hy : y.isSettled = false := by rw [← isSettled_neutral, ← h, isSettled_neutral, hx]
  simpa [neutral, hx, hy] using h

theorem leading_neutral (g : List Glyph) : leading (g.map neutral) = (leading g).map neutral := by
  rw [leading, List.takeWhile_map, funext isBlank_neutral (f := isBlank ∘ neutral), leading]

theorem trailing_neutral (g : List Glyph) : trailing (g.map neutral) = (trailing g).map neutral := by
  rw [trailing, List.rtakeWhile, ← List.map_reverse, List.takeWhile_map,
    funext isBlank_neutral (f := isBlank ∘ neutral), ← List.map_reverse, trailing, List.rtakeWhile]

theorem strip_neutral (g : List Glyph) : strip (g.map neutral) = (strip g).map neutral := by
  rw [strip, List.dropWhile_map, funext isBlank_neutral (f := isBlank ∘ neutral), List.rdropWhile,
    ← List.map_reverse, List.dropWhile_map, funext isBlank_neutral (f := isBlank ∘ neutral),
    ← List.map_reverse, strip, List.rdropWhile]

/-- Where two texts of the same glyphs differ, a mark has been chosen. -/
theorem isSettled_of_ne {g h : List Glyph} (hgh : g.map neutral = h.map neutral) {i : Nat}
    (hne : (chars g)[i]? ≠ (chars h)[i]?) : ∃ x, g[i]? = some x ∧ x.isSettled = true := by
  have hneutral : g[i]?.map neutral = h[i]?.map neutral := by
    rw [← List.getElem?_map, hgh, List.getElem?_map]
  rw [chars, chars, List.getElem?_map, List.getElem?_map] at hne
  cases hx : g[i]? with
  | none =>
    rw [hx, Option.map_none, eq_comm, Option.map_eq_none_iff] at hneutral
    rw [hx, hneutral] at hne
    exact absurd rfl hne
  | some x =>
    rw [hx, Option.map_some, eq_comm, Option.map_eq_some_iff] at hneutral
    obtain ⟨y, hy, hyx⟩ := hneutral
    refine ⟨x, rfl, ?_⟩
    by_contra hsettled
    obtain rfl := eq_of_neutral_eq hyx.symm (Bool.eq_false_iff.2 hsettled)
    rw [hx, hy] at hne
    exact hne rfl

end Glyph

/-- Settling chooses among marks of emphasis only. -/
theorem neutral_settleMark {style : Style} {mark : Text} (h : style = .emphasis ∨ mark ≠ ['_'])
    {use : Use} (huse : use = .opening style ∨ use = .closing style) (beside : List Char) :
    (inUse use (settleMark mark beside)).map Glyph.neutral = (inUse use mark).map Glyph.neutral := by
  rcases h with rfl | hmark
  · have hneutral (t : Text) : (inUse use t).map Glyph.neutral = inUse use (blur t) := by
      rw [inUse, inUse, blur, List.map_map, List.map_map]
      refine List.map_congr_left fun c _ => ?_
      rcases huse with rfl | rfl <;> rfl
    rw [hneutral, hneutral, blur_settleMark]
  · simp [settleMark, hmark]

theorem neutral_delimitGlyphs {style : Style} {mark : Text} (h : style = .emphasis ∨ mark ≠ ['_'])
    (before after : Option Char) (inner : List Glyph) :
    (delimitGlyphs style mark before after inner).map Glyph.neutral =
      let inner := inner.map Glyph.neutral
      if (Glyph.strip inner).isEmpty then inner
      else Glyph.leading inner ++ (inUse (.opening style) mark).map Glyph.neutral ++
        Glyph.strip inner ++ (inUse (.closing style) mark).map Glyph.neutral ++
        Glyph.trailing inner := by
  simp only [delimitGlyphs, Glyph.leading_neutral, Glyph.strip_neutral, Glyph.trailing_neutral,
    List.isEmpty_map]
  split
  · rfl
  · simp only [List.map_append, neutral_settleMark h (.inl rfl), neutral_settleMark h (.inr rfl)]

theorem neutral_delimitGlyphs_congr {style : Style} {mark : Text}
    (h : style = .emphasis ∨ mark ≠ ['_']) {inner inner' : List Glyph}
    (hinner : inner.map Glyph.neutral = inner'.map Glyph.neutral)
    (before after before' after' : Option Char) :
    (delimitGlyphs style mark before after inner).map Glyph.neutral =
      (delimitGlyphs style mark before' after' inner').map Glyph.neutral := by
  rw [neutral_delimitGlyphs h, neutral_delimitGlyphs h, hinner]

section
variable (o : Options)

mutual

theorem neutral_glyphs (before after before' after' : Option Char) (n : Inline) :
    (n.glyphs o before after).map Glyph.neutral = (n.glyphs o before' after').map Glyph.neutral := by
  cases n with
  | text | code | image => simp only [Inline.glyphs]
  | strong content =>
    exact neutral_delimitGlyphs_congr (.inr (by decide)) (neutral_glyphsAmong _ _ _ _ content) _ _ _ _
  | emphasis content =>
    exact neutral_delimitGlyphs_congr (.inl rfl) (neutral_glyphsAmong _ _ _ _ content) _ _ _ _
  | delete content =>
    exact neutral_delimitGlyphs_congr (.inr (by decide)) (neutral_glyphsAmong _ _ _ _ content) _ _ _ _
  | link url title content => simp only [Inline.glyphs]

/-- Siblings between any two characters are glyph by glyph the same, but for marks of emphasis. -/
theorem neutral_glyphsAmong (before after before' after' : Option Char) (ns : List Inline) :
    (glyphsAmong o before after ns).map Glyph.neutral =
      (glyphsAmong o before' after' ns).map Glyph.neutral := by
  cases ns with
  | nil => rfl
  | cons n ns =>
    rw [glyphsAmong_cons, glyphsAmong_cons]
    simp only [List.map_append]
    congr 1
    · exact neutral_glyphs _ _ _ _ n
    · exact neutral_glyphsAmong _ _ _ _ ns

end

theorem blur_flatMap_render (before after : Option Char) (content : List Inline) :
    blur (phrasing o before after content) = blur (content.flatMap (Inline.render o none none)) := by
  rw [← blur_flatten_renderEach, renderEach_eq_map, List.flatMap_def]

end

theorem length_blur (t : Text) : (blur t).length = t.length := List.length_map ..

/-- The characters beside content change neither its length nor a character of it that is no mark of
emphasis, and a mark only into the other one; nor does it matter that siblings are not written alone. -/
theorem phrasing_beside (o : Options) (content : List Inline)
    (before after before' after' : Option Char) :
    (phrasing o before after content).length = (phrasing o before' after' content).length ∧
    blur (phrasing o before after content) = blur (phrasing o before' after' content) ∧
    blur (phrasing o before after content) = blur (content.flatMap (Inline.render o none none)) ∧
    ∀ i : Nat, (phrasing o before after content)[i]? ≠ (phrasing o before' after' content)[i]? →
      ∃ x : Glyph, (glyphsAmong o before after content)[i]? = some x ∧
        (phrasing o before after content)[i]? = some x.char ∧ x.isSettled = true := by
  have hblur : blur (phrasing o before after content) = blur (phrasing o before' after' content) :=
    blur_renderAmong o o before after before' after' content
  refine ⟨?_, hblur, blur_flatMap_render o before after content, ?_⟩
  · rw [← length_blur, hblur, length_blur]
  · intro i hne
    rw [← chars_glyphsAmong, ← chars_glyphsAmong] at hne
    obtain ⟨x, hx, hsettled⟩ := Glyph.isSettled_of_ne (neutral_glyphsAmong o _ _ _ _ content) hne
    refine ⟨x, hx, ?_, hsettled⟩
    rw [← chars_glyphsAmong, chars, List.getElem?_map, hx, Option.map_some]

example : phrasing {} none none [.emphasis [.text "b"]] = ['_', 'b', '_'] ∧
    phrasing {} (some 'a') none [.emphasis [.text "b"]] = ['*', 'b', '*'] := ⟨rfl, rfl⟩

end PageExport.Markdown
