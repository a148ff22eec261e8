import PageExport.Proofs.Markdown.Glyphs
import PageExport.Proofs.Markdown.PlainRuns
import PageExport.Proofs.Markdown.TableCells

/-!
Texts that are written like other content. In what is written for a text every special character has a
backslash before it; what is written for a mark, a link, an image or code has one without. Only the
tildes of struck content are not special, so that a text can look struck without being so.
-/
namespace PageExport

namespace Text

theorem leading_strip_trailing {t : Text} (h : t.strip ≠ []) :
    t.leading ++ t.strip ++ t.trailing = t := by
  have hstrip : Markdown.chars (Markdown.Glyph.strip (Markdown.plain t)) = t.strip := by
    rw [Markdown.Glyph.chars_strip, Markdown.chars_inUse]
  have hne : Markdown.Glyph.strip (Markdown.plain t) ≠ [] := by
    intro hnil
    rw [← hstrip, hnil] at h
    exact h rfl
  have hparts := congrArg Markdown.chars (Markdown.Glyph.leading_strip_trailing hne)
  simpa only [Markdown.chars_append, Markdown.Glyph.chars_leading, Markdown.Glyph.chars_strip,
    Markdown.Glyph.chars_trailing, Markdown.chars_inUse] using hparts

theorem stripLeft_append_cons {c : Char} (hc : isBlank c = false) (t u : Text) :
    stripLeft (t ++ c :: u) = stripLeft t ++ c :: u := by
  rw [stripLeft, List.dropWhile_append, List.dropWhile_cons_of_neg (by simp [hc])]
  split
  · next h => rw [stripLeft, List.isEmpty_iff.1 h, List.nil_append]
  · rfl

theorem strip_append_cons {c : Char} (hc : isBlank c = false) (t u : Text) :
    strip (t ++ c :: u) = stripLeft t ++ c :: stripRight u := by
  have hreverse : (stripLeft t ++ c :: u).reverse = u.reverse ++ c :: (stripLeft t).reverse := by simp
  rw [strip, stripLeft_append_cons hc, stripRight, hreverse, ← stripLeft, stripLeft_append_cons hc]
  simp [stripRight, stripLeft]

end Text

namespace Markdown

theorem isBlank_of_isSpecial {c : Char} (h : isSpecial c = true) : isBlank c = false := by
  simp only [isSpecial, Bool.or_eq_true, decide_eq_true_eq] at h
  rcases h with ((((rfl | rfl) | rfl) | rfl) | rfl) | rfl <;> decide

theorem escape_of_blank {t : Text} (h : ∀ c ∈ t, isBlank c = true) : escape t = t := by
  apply escape_of_not_special
  intro c hc
  by_contra hspecial
  have hblank := isBlank_of_isSpecial (Bool.of_not_eq_false hspecial)
  rw [h c hc] at hblank
  cases hblank

theorem escape_leading (t : Text) : escape t.leading = t.leading :=
  escape_of_blank fun _ hc => List.mem_takeWhile_imp hc

theorem escape_trailing (t : Text) : escape t.trailing = t.trailing :=
  escape_of_blank fun _ hc => List.mem_takeWhile_imp (List.mem_reverse.1 hc)

theorem stripLeft_escape (t : Text) : Text.stripLeft (escape t) = escape (Text.stripLeft t) := by
  induction t with
  | nil => rfl
  | cons c t ih =>
    rw [escape_cons]
    split
    · next hc =>
      have hblank := isBlank_of_isSpecial hc
      rw [Text.stripLeft, Text.stripLeft, List.dropWhile_cons_of_neg (by simp [hblank]), escape_cons,
        if_pos hc]
      rfl
    · next hc =>
      by_cases hblank : isBlank c = true
      · simpa [Text.stripLeft, hblank] using ih
      · simp [Text.stripLeft, hblank, escape_cons, hc]

theorem strip_escape (t : Text) : Text.strip (escape t) = escape (Text.strip t) := by
  apply Text.strip_flatMap
  intro c
  split
  · next hc =>
    refine .inr ⟨isBlank_of_isSpecial hc, by simp, ?_⟩
    simp only [List.mem_cons, List.not_mem_nil, or_false]
    rintro d (rfl | rfl)
    · decide
    · exact isBlank_of_isSpecial hc
  · exact .inl rfl

theorem escape_eq_nil_iff {t : Text} : escape t = [] ↔ t = [] := by
  cases t with
  | nil => simp [escape]
  | cons c t =>
    rw [escape_cons]
    split <;> simp

theorem leading_escape (t : Text) : Text.leading (escape t) = Text.leading t := by
  have hsplit : Text.leading (escape t) ++ Text.stripLeft (escape t) =
      Text.leading t ++ Text.stripLeft (escape t) := by
    rw [Text.leading_append_stripLeft, stripLeft_escape]
    conv_lhs => rw [← Text.leading_append_stripLeft t, escape_append, escape_leading]
  exact List.append_cancel_right hsplit

theorem trailing_escape {t : Text} (h : t.strip ≠ []) :
    Text.trailing (escape t) = Text.trailing t := by
  have hescape : Text.strip (escape t) ≠ [] := by
    rw [strip_escape]
    exact fun hnil => h (escape_eq_nil_iff.1 hnil)
  have hsplit : Text.leading t ++ escape t.strip ++ Text.trailing (escape t) =
      Text.leading t ++ escape t.strip ++ Text.trailing t := by
    have hparts := Text.leading_strip_trailing hescape
    rw [leading_escape, strip_escape] at hparts
    rw [hparts]
    conv_lhs => rw [← Text.leading_strip_trailing h, escape_append, escape_append, escape_leading,
      escape_trailing]
  exact List.append_cancel_left hsplit

theorem settleMark_tildes (beside : List Char) : settleMark ['~', '~'] beside = ['~', '~'] := by
  simp [settleMark]

/-- Struck texts are written like the texts with the tildes in them. -/
theorem delimit_tildes_escape (before after : Option Char) (t : Text) :
    delimit ['~', '~'] before after (escape t) = escape (delimit ['~', '~'] none none t) := by
  have hempty : (escape t.strip).isEmpty = t.strip.isEmpty := by
    rw [Bool.eq_iff_iff, List.isEmpty_iff, List.isEmpty_iff, escape_eq_nil_iff]
  unfold delimit
  simp only [strip_escape, hempty, settleMark_tildes]
  split
  · rfl
  · next h =>
    have hne : t.strip ≠ [] := by simpa using h
    simp only [escape_append, escape_leading, escape_trailing, leading_escape, trailing_escape hne]
    rfl

/-- A special character, not a backslash, stands behind an escaped text and so has no backslash. -/
def Bare (t : Text) : Prop :=
  ∃ u c v, t = escape u ++ c :: v ∧ isSpecial c = true ∧ c ≠ '\\'

namespace Bare
variable {t u : Text}

theorem ne_escape (h : Bare t) : t ≠ escape u := by
  obtain ⟨v, c, w, rfl, hc, hslash⟩ := h
  intro heq
  -- a reader finds the escaped text and the mark at the start of `u`, where the mark has a backslash
  have hread : v ++ c :: unescape w = u := by
    rw [← unescape_escape u, ← heq, unescape_escape_append, unescape_cons hslash]
  rw [← hread, escape_append, escape_cons, if_pos hc] at heq
  exact hslash (List.cons.inj (List.append_cancel_left heq)).1

theorem ne_nil (h : Bare t) : t ≠ [] := h.ne_escape (u := [])

theorem append_right (h : Bare t) (u : Text) : Bare (t ++ u) := by
  obtain ⟨v, c, w, rfl, hc⟩ := h
  exact ⟨v, c, w ++ u, by simp, hc⟩

theorem escape_append_left (h : Bare t) (u : Text) : Bare (escape u ++ t) := by
  obtain ⟨v, c, w, rfl, hc⟩ := h
  exact ⟨u ++ v, c, w, by rw [escape_append, List.append_assoc], hc⟩

theorem strip (h : Bare t) : Bare t.strip := by
  obtain ⟨v, c, w, rfl, hc, hslash⟩ := h
  refine ⟨v.stripLeft, c, Text.stripRight w, ?_, hc, hslash⟩
  rw [Text.strip_append_cons (isBlank_of_isSpecial hc), stripLeft_escape]

end Bare

mutual

/-- The text that is written as the content is, if there is one. -/
def Inline.lookalike? : Inline → Option Text
  | .text value => some value.toList
  | .strong content | .emphasis content => (lookalikes? content).filter fun t => t.strip.isEmpty
  | .delete content => (lookalikes? content).map (delimit ['~', '~'] none none)
  | .code _ | .link _ _ _ | .image _ _ _ => none

def lookalikes? : List Inline → Option Text
  | [] => some []
  | n :: ns => do
    let t ← n.lookalike?
    let u ← lookalikes? ns
    some (t ++ u)

end

/-- A text, or struck content, which has tildes only. -/
def Inline.isTextual : Inline → Bool
  | .text _ | .delete _ => true
  | _ => false

/-- What is written is the text escaped, or no text at all is written like this. -/
def LooksLike (written : Text) : Option Text → Prop
  | some t => written = escape t
  | none => Bare written

namespace LooksLike
variable {written : Text} {p : Option Text}

theorem append {written' : Text} {q : Option Text} (h : LooksLike written p) (h' : LooksLike written' q) :
    LooksLike (written ++ written') (do let t ← p; let u ← q; some (t ++ u)) := by
  cases p with
  | none => exact Bare.append_right h written'
  | some t =>
    obtain rfl := h
    cases q with
    | none => exact Bare.escape_append_left h' t
    | some u =>
      obtain rfl := h'
      exact (escape_append t u).symm

theorem eq_escape_iff (h : LooksLike written p) (t : Text) : escape t = written ↔ p = some t := by
  cases p with
  | none => exact iff_of_false (Ne.symm (Bare.ne_escape h)) (by simp)
  | some u =>
    obtain rfl := h
    rw [escape_inj, Option.some_inj, eq_comm]

/-- Stars and underscores are bare, and they are there unless all is blank. -/
theorem delimit_special (h : LooksLike written p) {mark : Text} (before after : Option Char)
    (hmark : ∀ beside, ∃ c u, settleMark mark beside = c :: u ∧ isSpecial c = true ∧ c ≠ '\\') :
    LooksLike (delimit mark before after written) (p.filter fun t => t.strip.isEmpty) := by
  have hbare (hne : written.strip ≠ []) : Bare (delimit mark before after written) := by
    unfold delimit
    simp only [List.isEmpty_iff, hne, ↓reduceIte, List.append_assoc]
    rw [← escape_leading]
    refine Bare.escape_append_left ?_ _
    obtain ⟨c, u, hsettled, hc⟩ := hmark _
    rw [hsettled]
    exact ⟨[], c, _, rfl, hc⟩
  have hblank (hnil : written.strip = []) : delimit mark before after written = written := by
    simp [delimit, hnil]
  by_cases hnil : written.strip = []
  · rw [hblank hnil]
    cases p with
    | none => exact h
    | some t =>
      obtain rfl := h
      rw [strip_escape, escape_eq_nil_iff] at hnil
      simp [LooksLike, Option.filter, hnil]
  · have hnone : p.filter (fun t => t.strip.isEmpty) = none := by
      cases p with
      | none => rfl
      | some t =>
        obtain rfl := h
        rw [strip_escape, escape_eq_nil_iff] at hnil
        simp [Option.filter, hnil]
    rw [hnone]
    exact hbare hnil

theorem delimit_tildes (h : LooksLike written p) (before after : Option Char) :
    LooksLike (delimit ['~', '~'] before after written) (p.map (delimit ['~', '~'] none none)) := by
  cases p with
  | some t =>
    obtain rfl := h
    exact delimit_tildes_escape before after t
  | none =>
    have hcore : Bare written.strip := Bare.strip h
    have htildes : escape ['~', '~'] = ['~', '~'] := by decide
    show Bare (delimit ['~', '~'] before after written)
    unfold delimit
    simp only [List.isEmpty_iff, hcore.ne_nil, ↓reduceIte, settleMark_tildes, List.append_assoc]
    rw [← escape_leading, ← htildes]
    exact ((hcore.append_right _).escape_append_left _).escape_append_left _

end LooksLike

section
variable (o : Options)

theorem settleMark_special {mark : Text} (h : mark = ['*', '*'] ∨ mark = ['*'] ∨ mark = ['_'])
    (beside : List Char) :
    ∃ c u, settleMark mark beside = c :: u ∧ isSpecial c = true ∧ c ≠ '\\' := by
  unfold settleMark
  split
  · exact ⟨'*', [], rfl, by decide, by decide⟩
  · rcases h with rfl | rfl | rfl
    · exact ⟨'*', ['*'], rfl, by decide, by decide⟩
    · exact ⟨'*', [], rfl, by decide, by decide⟩
    · exact ⟨'_', [], rfl, by decide, by decide⟩

theorem bare_cons {c : Char} (hc : isSpecial c = true) (hslash : c ≠ '\\') (t : Text) : Bare (c :: t) :=
  ⟨[], c, t, rfl, hc, hslash⟩

theorem bare_codeSpan (t : Text) : Bare (codeSpan t) := by
  have hfence : fence 1 t = '`' :: List.replicate (longestRun '`' t) '`' := by
    rw [fence, Nat.max_eq_right (Nat.le_add_left 1 _), List.replicate_succ]
  rw [codeSpan, hfence]
  exact bare_cons (by decide) (by decide) _

mutual

theorem looksLike_render (before after : Option Char) (n : Inline) :
    LooksLike (n.render o before after) n.lookalike? := by
  cases n with
  | text value =>
    rw [Inline.render]
    rfl
  | code value =>
    rw [Inline.render]
    exact bare_codeSpan value.toList
  | strong content =>
    have hcontent := looksLike_phrasing before after content
    exact hcontent.delimit_special before after (settleMark_special (.inl rfl))
  | emphasis content =>
    have hcontent := looksLike_phrasing before after content
    have hmark : [o.emphasis.char] = ['*'] ∨ [o.emphasis.char] = ['_'] := by
      cases o.emphasis
      · exact .inr rfl
      · exact .inl rfl
    exact hcontent.delimit_special before after (settleMark_special (.inr hmark))
  | delete content =>
    have hcontent := looksLike_phrasing before after content
    exact hcontent.delimit_tildes before after
  | link url title content =>
    rw [Inline.render]
    exact bare_cons (by decide) (by decide) _
  | image url title alt =>
    rw [Inline.render]
    exact ⟨['!'], '[', _, rfl, by decide, by decide⟩

theorem looksLike_phrasing (before after : Option Char) (ns : List Inline) :
    LooksLike (phrasing o before after ns) (lookalikes? ns) := by
  cases ns with
  | nil => exact (rfl : ([] : Text) = escape [])
  | cons n ns =>
    have hfirst : LooksLike (if n.isDelimited then
          n.render o before ((renderEach o ns).flatten.head?.or after) else n.render o none none)
        n.lookalike? := by
      split
      · exact looksLike_render before _ n
      · exact looksLike_render none none n
    rw [phrasing_cons]
    exact hfirst.append (looksLike_phrasing _ after ns)

end

/-- Content with marks, code, links or images of its own looks like no text, unless all of it is blank. -/
theorem lookalike?_eq_none {before after : Option Char} {n : Inline} (hkind : n.isTextual = false)
    (hshown : (n.render o before after).strip ≠ []) : n.lookalike? = none := by
  have hwritten := looksLike_render o before after n
  have hblank {p : Option Text}
      (h : LooksLike (n.render o before after) (p.filter fun t => t.strip.isEmpty)) :
      p.filter (fun t => t.strip.isEmpty) = none := by
    cases hp : p.filter fun t => t.strip.isEmpty with
    | none => rfl
    | some t =>
      have hnil : t.strip = [] := List.isEmpty_iff.1 (Option.filter_eq_some_iff.1 hp).2
      rw [hp] at h
      refine absurd ?_ hshown
      rw [show n.render o before after = escape t from h, strip_escape, hnil]
      rfl
  cases n with
  | text | delete => cases hkind
  | code | link | image => rfl
  | strong content => exact hblank hwritten
  | emphasis content => exact hblank hwritten

/-- A text is written as other content just if it is the text that the content looks like. Content that
shows something, be it marks, code, a link or an image, looks like no text, unless it is struck. -/
theorem render_text_eq_iff_lookalike (before after : Option Char) (t : String) (n : Inline) :
    ((Inline.text t).render o before after = n.render o before after ↔
      n.lookalike? = some t.toList) ∧
    (n.isTextual = false → (n.render o before after).strip ≠ [] →
      (Inline.text t).render o before after ≠ n.render o before after) := by
  have hiff := (looksLike_render o before after n).eq_escape_iff t.toList
  constructor
  · exact hiff
  · intro hkind hshown heq
    have hlook := hiff.1 heq
    rw [lookalike?_eq_none o hkind hshown] at hlook
    cases hlook

end

/-- Two tildes on each side of a letter are written like the struck letter. -/
theorem render_tildes_eq_struck :
    (Inline.text "~~a~~").render {} none none = (Inline.delete [.text "a"]).render {} none none := by
  decide +kernel

end Markdown
end PageExport
