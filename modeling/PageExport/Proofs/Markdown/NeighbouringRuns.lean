import PageExport.Proofs.Markdown.StyledEdges

/-!
Styled runs side by side. Nothing is put between the closing mark of a run and the opening mark of the
next one, and marks are chosen without a look at them: marks of one character fuse to a longer run of
delimiters.
-/
namespace PageExport

open Markdown

namespace Delta

/-- The run is shown with a link, or as the target of its link. -/
def isLinked (d : Delta) : Bool :=
  match d.styles.link with
  | some url => !(url.isEmpty || d.insert = url)
  | none => false

/-- What is in the styles of a run. -/
def bare (d : Delta) : Inline :=
  if d.styles.code = some true then .code d.insert
  else if d.styles.underline = some true then .text ("<u>" ++ d.insert ++ "</u>")
  else .text d.insert

/-- What is written for a run between its marks. -/
def shown (d : Delta) : Text :=
  if d.styles.code = some true then codeSpan d.insert.toList
  else if d.styles.underline = some true then escape ("<u>" ++ d.insert ++ "</u>").toList
  else escape d.insert.toList

/-- The styles of a run that are shown by marks, the outermost of them first. -/
def layers (d : Delta) : List Style :=
  (if d.styles.strike = some true then [.delete] else []) ++
    (if d.styles.bold = some true then [.strong] else []) ++
    if d.styles.italic = some true then [.emphasis] else []

/-- The style whose marks stand at the two ends of a run, if they do. -/
def outer? (d : Delta) : Option Style := if d.isLinked then none else d.layers.head?

/-- Nothing is written for the run. -/
def isSilent (d : Delta) : Bool := !d.isLinked && d.shown.isEmpty

/-- The closing mark of a run is of the same character as the opening mark of a run right after it,
where the first of them stands behind the character `before` and the second one before `after`. -/
def meets (o : Options) (before after : Option Char) (d e : Delta) : Bool :=
  isSolid d.shown.getLast? && isSolid e.shown.head? &&
    match d.outer?, e.outer? with
    | some s, some t =>
      s.markChar o (wordBeside before none d.shown) = t.markChar o (wordBeside none after e.shown)
    | _, _ => false

theorem inStyles_if (style : Option Bool) (s : Style) (n : Inline) :
    n.inStyles (if style = some true then [s] else []) = wrapIf style s.wrap n := by
  unfold wrapIf
  split <;> rfl

theorem styled_eq (d : Delta) : d.styled = d.bare.inStyles d.layers := by
  rw [layers, Inline.inStyles_append, Inline.inStyles_append, inStyles_if, inStyles_if, inStyles_if]
  rfl

theorem toInline_of_not_linked {d : Delta} (h : d.isLinked = false) : d.toInline = d.styled := by
  unfold isLinked at h
  unfold toInline
  cases hurl : d.styles.link with
  | none => rfl
  | some url =>
    simp only [hurl, Bool.not_eq_false'] at h
    exact if_pos h

theorem toInline_of_linked {d : Delta} (h : d.isLinked = true) :
    ∃ url, url ≠ "" ∧ (d.toInline = .text url ∨ d.toInline = .link url none [d.styled]) := by
  unfold isLinked at h
  unfold toInline
  cases hurl : d.styles.link with
  | none => simp [hurl] at h
  | some url =>
    simp only [hurl, Bool.not_eq_true'] at h
    refine ⟨url, ?_, ?_⟩
    · rintro rfl
      cases h
    · simp only [h, Bool.false_eq_true, ↓reduceIte]
      split
      · exact .inl rfl
      · exact .inr rfl

section
variable (o : Options) (before after : Option Char) (d : Delta)

theorem chars_bare : chars (d.bare.glyphs o before after) = d.shown := by
  unfold bare shown
  split
  · exact chars_inUse ..
  · split <;> exact chars_escapeGlyphs _

theorem not_marks_bare :
    ∀ x ∈ d.bare.glyphs o before after, x.opens = false ∧ x.closes = false := by
  unfold bare
  split
  · exact not_marks_plain _
  · split <;> exact not_marks_escapeGlyphs _

theorem marksApart_styled : MarksApart (d.styled.glyphs o before after) := by
  rw [styled_eq]
  apply marksApart_inStyles
  exact .of_not_closes fun x hx => (not_marks_bare o before after d x hx).2

theorem glyphs_of_linked (h : d.isLinked = true) :
    d.toInline.glyphs o before after ≠ [] ∧ opening? (d.toInline.glyphs o before after) = none ∧
      closing? (d.toInline.glyphs o before after) = none ∧
      MarksApart (d.toInline.glyphs o before after) := by
  obtain ⟨url, hne, htext | hlink⟩ := toInline_of_linked h
  · have hmarks := not_marks_escapeGlyphs url.toList
    have hnil : escapeGlyphs url.toList ≠ [] := by
      rw [Ne, escapeGlyphs_eq_nil_iff]
      simpa using hne
    rw [htext, Inline.glyphs]
    exact ⟨hnil, opening?_eq_none fun x hx => (hmarks x hx).1,
      closing?_eq_none fun x hx => (hmarks x hx).2, .of_not_closes fun x hx => (hmarks x hx).2⟩
  · rw [hlink, Inline.glyphs, glyphsAmong_singleton]
    refine ⟨by simp [inUse], rfl, ?_, ?_⟩
    · rw [closing?_append (by simp [inUse])]
      exact closing?_eq_none fun x hx => (not_marks_plain _ x hx).2
    · apply MarksApart.append_of_not_opens _ fun x hx => (not_marks_plain _ x hx).1
      exact .append_of_not_closes (fun x hx => (not_marks_plain _ x hx).2)
        (marksApart_styled o (some '[') (some ']') d)

theorem glyphs_of_not_linked (h : d.isLinked = false) :
    d.toInline.glyphs o before after = (d.bare.inStyles d.layers).glyphs o before after := by
  rw [toInline_of_not_linked h, styled_eq]

theorem glyphs_eq_nil_iff : d.toInline.glyphs o before after = [] ↔ d.isSilent = true := by
  cases h : d.isLinked with
  | true => simp [isSilent, h, (glyphs_of_linked o before after d h).1]
  | false =>
    rw [glyphs_of_not_linked o before after d h, glyphs_inStyles_eq_nil_iff, isSilent, h,
      ← chars_bare o before after]
    simp [chars]

theorem opening?_glyphs : opening? (d.toInline.glyphs o before after) =
    if isSolid d.shown.head? then
      d.outer?.map (Style.markChar o (wordBeside before after d.shown)) else none := by
  cases h : d.isLinked with
  | true => simp [outer?, h, (glyphs_of_linked o before after d h).2.1]
  | false =>
    rw [glyphs_of_not_linked o before after d h, opening?_inStyles, chars_bare, outer?, h]
    · rfl
    · exact fun x hx => (not_marks_bare o before after d x hx).1

theorem closing?_glyphs : closing? (d.toInline.glyphs o before after) =
    if isSolid d.shown.getLast? then
      d.outer?.map (Style.markChar o (wordBeside before after d.shown)) else none := by
  cases h : d.isLinked with
  | true => simp [outer?, h, (glyphs_of_linked o before after d h).2.2.1]
  | false =>
    rw [glyphs_of_not_linked o before after d h, closing?_inStyles, chars_bare, outer?, h]
    · rfl
    · exact fun x hx => (not_marks_bare o before after d x hx).2

theorem marksApart_glyphs : MarksApart (d.toInline.glyphs o before after) := by
  cases h : d.isLinked with
  | true => exact (glyphs_of_linked o before after d h).2.2.2
  | false =>
    rw [toInline_of_not_linked h]
    exact marksApart_styled o before after d

end

section
variable (o : Options)

theorem meets_congr {b a b' a' : Option Char} (hb : isWord b = isWord b') (ha : isWord a = isWord a')
    (d e : Delta) : d.meets o b a e = d.meets o b' a' e := by
  have hd : wordBeside b none d.shown = wordBeside b' none d.shown := by
    rw [wordBeside, wordBeside, hb]
  have he : wordBeside none a e.shown = wordBeside none a' e.shown := by
    rw [wordBeside, wordBeside, ha]
  unfold meets
  rw [hd, he]

theorem meets_of_silent (b a : Option Char) (d : Delta) {e : Delta} (h : e.isSilent = true) :
    d.meets o b a e = false := by
  have hshown : e.shown = [] := by
    simp only [isSilent, Bool.and_eq_true, List.isEmpty_iff] at h
    exact h.2
  simp [meets, hshown, isSolid]

/-- Runs that nothing is written for leave no trace. -/
theorem glyphsAmong_silent {gap : List Delta} (hgap : ∀ s ∈ gap, s.isSilent = true)
    (before after : Option Char) (ns : List Inline) :
    glyphsAmong o before after (gap.map toInline ++ ns) = glyphsAmong o before after ns := by
  induction gap with
  | nil => rfl
  | cons s gap ih =>
    have hs (after : Option Char) : s.toInline.glyphs o before after = [] :=
      (glyphs_eq_nil_iff o before after s).2 (hgap s List.mem_cons_self)
    rw [List.map_cons, List.cons_append, glyphsAmong_cons]
    simp only [hs]
    exact ih fun s hs => hgap s (List.mem_cons_of_mem _ hs)

theorem opening?_glyphsAmong {gap : List Delta} {e : Delta} (hgap : ∀ s ∈ gap, s.isSilent = true)
    (he : e.isSilent = false) (post : List Delta) (before after : Option Char) :
    opening? (glyphsAmong o before after ((gap ++ e :: post).map toInline)) =
      opening? (e.toInline.glyphs o before
        ((renderEach o (post.map toInline)).flatten.head?.or after)) := by
  rw [List.map_append, glyphsAmong_silent o hgap, List.map_cons, glyphsAmong_cons]
  apply opening?_append
  rw [Ne, glyphs_eq_nil_iff, he]
  exact Bool.false_ne_true

/-- What is written for the run behind `before` closes with the character that the next glyphs open
with, exactly if it meets the next run that something is written for. -/
theorem meets_iff {gap : List Delta} {e : Delta} (hgap : ∀ s ∈ gap, s.isSilent = true)
    (he : e.isSilent = false) (d : Delta) (post : List Delta) (before after : Option Char) :
    let rest := (gap ++ e :: post).map toInline
    let g := d.toInline.glyphs o before ((renderEach o rest).flatten.head?.or after)
    d.meets o before ((phrasing o none none (post.map toInline)).head?.or after) e = true ↔
      ∃ c, closing? g = some c ∧
        opening? (glyphsAmong o ((chars g).getLast?.or before) after rest) = some c := by
  intro rest g
  have hopening : opening? (glyphsAmong o ((chars g).getLast?.or before) after rest) = _ :=
    opening?_glyphsAmong o hgap he post _ after
  have hclosing : closing? g = _ := closing?_glyphs o before _ d
  rw [opening?_glyphs] at hopening
  cases hdsolid : isSolid d.shown.getLast? with
  | false => simp [meets, hdsolid, hclosing]
  | true =>
    cases hesolid : isSolid e.shown.head? with
    | false => simp [meets, hesolid, hopening]
    | true =>
      cases hs : d.outer? with
      | none => simp [meets, hs, hclosing]
      | some s =>
        cases ht : e.outer? with
        | none => simp [meets, ht, hopening]
        | some t =>
          rw [hdsolid, if_pos rfl, hs, Option.map_some] at hclosing
          rw [hesolid, if_pos rfl, ht, Option.map_some] at hopening
          -- Each of the two runs stands beside a mark of the other one, and marks are no words.
          have hbefore : isWord ((chars g).getLast?.or before) = false := by
            rw [getLast?_of_closing? hclosing]
            exact isWord_markChar o s _
          have hafter : isWord ((renderEach o rest).flatten.head?.or after) = false := by
            rw [← isWord_following o ((chars g).getLast?.or before), charAfter,
              head?_of_opening? hopening]
            exact isWord_markChar o t _
          have hpost : isWord ((renderEach o (post.map toInline)).flatten.head?.or after) =
              isWord ((phrasing o none none (post.map toInline)).head?.or after) :=
            isWord_head?_congr (blur_flatten_renderEach o none none _) after
          rw [hclosing, hopening, wordBeside, wordBeside, hbefore, hafter, hpost]
          simp [meets, hdsolid, hesolid, hs, ht, wordBeside, isWord, eq_comm]

theorem isWord_phrasing_cons (d : Delta) (pre : List Delta) (before after : Option Char) :
    isWord ((phrasing o none none ((d :: pre).map toInline)).getLast?.or before) =
      isWord ((phrasing o none none (pre.map toInline)).getLast?.or
        ((chars (d.toInline.glyphs o before after)).getLast?.or before)) := by
  have hblur : blur (phrasing o none none ((d :: pre).map toInline)) =
      blur (chars (d.toInline.glyphs o before after) ++ phrasing o none none (pre.map toInline)) := by
    rw [List.map_cons, blur_phrasing_cons o before after, blur_append, chars_glyphs]
  rw [isWord_getLast?_congr hblur, List.getLast?_append, Option.or_assoc]

/-- Marks of runs are apart exactly if no run meets the next one that something is written for. -/
theorem marksApart_map_iff (before after : Option Char) (ds : List Delta) :
    MarksApart (glyphsAmong o before after (ds.map toInline)) ↔
      ∀ pre d gap e post, ds = pre ++ d :: (gap ++ e :: post) → (∀ s ∈ gap, s.isSilent = true) →
        d.meets o ((phrasing o none none (pre.map toInline)).getLast?.or before)
          ((phrasing o none none (post.map toInline)).head?.or after) e = false := by
  induction ds generalizing before with
  | nil => simp [glyphsAmong, MarksApart]
  | cons d ds ih =>
    rw [List.map_cons, glyphsAmong_cons, MarksApart.append_iff, ih]
    constructor
    · rintro ⟨-, hrest, hjunction⟩ pre d' gap e post hds hgap
      rcases List.cons_eq_append_iff.1 hds with ⟨rfl, hfirst⟩ | ⟨pre, rfl, rfl⟩
      · obtain ⟨rfl, rfl⟩ := List.cons.inj hfirst
        cases he : e.isSilent with
        | true => exact meets_of_silent o _ _ _ he
        | false =>
          apply Bool.eq_false_iff.2
          intro hmeets
          obtain ⟨c, hclosing, hopening⟩ := (meets_iff o hgap he d' post before after).1 hmeets
          exact hjunction c hclosing hopening
      · rw [meets_congr o (isWord_phrasing_cons o d pre before _) rfl]
        exact hrest pre d' gap e post rfl hgap
    · intro h
      refine ⟨marksApart_glyphs o before _ d, ?_, ?_⟩
      · rintro pre d' gap e post rfl hgap
        rw [← meets_congr o (isWord_phrasing_cons o d pre before _) rfl]
        exact h (d :: pre) d' gap e post rfl hgap
      · intro c hclosing hopening
        cases hnext : ds.find? fun e => !e.isSilent with
        | none =>
          have hsilent : ∀ s ∈ ds, s.isSilent = true := by simpa using hnext
          rw [← List.append_nil (ds.map toInline), glyphsAmong_silent o hsilent] at hopening
          cases hopening
        | some e =>
          obtain ⟨he, gap, post, rfl, hgap⟩ := List.find?_eq_some_iff_append.1 hnext
          have hmeets := (meets_iff o (by simpa using hgap) (by simpa using he) d post before after).2
            ⟨c, hclosing, hopening⟩
          have hnot := h [] d gap e post rfl (by simpa using hgap)
          rw [List.map_nil] at hnot
          exact absurd (hmeets.symm.trans hnot) (by decide)

end

/-- Closing marks of runs are kept apart from opening marks of the same character, except where a run
meets the next one that something is written for. -/
theorem marksApart_iff (o : Options) (ds : List Delta) :
    chars (glyphsAmong o none none (content 0 ds)) = phrasing o none none (content 0 ds) ∧
    (MarksApart (glyphsAmong o none none (content 0 ds)) ↔
      ∀ pre d gap e post, ds = pre ++ d :: (gap ++ e :: post) → (∀ s ∈ gap, s.isSilent = true) →
        d.meets o (phrasing o none none (content 0 pre)).getLast?
          (phrasing o none none (content 0 post)).head? e = false) := by
  refine ⟨chars_glyphsAmong o none none _, ?_⟩
  have hcontent (ds : List Delta) : content 0 ds = ds.map toInline := rfl
  simpa only [hcontent, Option.or_none] using marksApart_map_iff o none none ds

/-- The marks of italic text and of italic code right behind it fuse. -/
theorem not_marksApart_italic :
    phrasing {} none none (content 0 [⟨"a", { italic := some true }⟩,
      ⟨"b", { italic := some true, code := some true }⟩]) =
        ['_', 'a', '_', '_', '`', 'b', '`', '_'] ∧
    ¬MarksApart (glyphsAmong {} none none (content 0 [⟨"a", { italic := some true }⟩,
      ⟨"b", { italic := some true, code := some true }⟩])) :=
  ⟨rfl, by decide +kernel⟩

end Delta
end PageExport
