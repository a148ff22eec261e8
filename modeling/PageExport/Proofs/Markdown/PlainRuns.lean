import PageExport.Delta
import PageExport.Markdown.Flow

/-!
Runs without styles. Where a plain text is cut into runs leaves no trace: neither in what is written
for the text, nor in the marks of the content beside it.
-/
namespace PageExport

namespace Markdown
variable (o : Options) (before after : Option Char)

theorem renderEach_append (ns ms : List Inline) :
    renderEach o (ns ++ ms) = renderEach o ns ++ renderEach o ms := by
  simp only [renderEach_eq_map, List.map_append]

theorem phrasing_cons (n : Inline) (ns : List Inline) :
    phrasing o before after (n :: ns) =
      let following := ((renderEach o ns).flatten.head?).or after
      let t := if n.isDelimited then n.render o before following else n.render o none none
      t ++ phrasing o (t.getLast?.or before) after ns := rfl

/-- The first part goes before what the second one starts with when each of its nodes is alone, the
second part behind what the first one ends with. -/
theorem phrasing_append_eq (ns ms : List Inline) :
    phrasing o before after (ns ++ ms) =
      let front := phrasing o before ((renderEach o ms).flatten.head?.or after) ns
      front ++ phrasing o (front.getLast?.or before) after ms := by
  induction ns generalizing before with
  | nil => rfl
  | cons n ns ih =>
    have hhead : (renderEach o (ns ++ ms)).flatten.head?.or after =
        (renderEach o ns).flatten.head?.or ((renderEach o ms).flatten.head?.or after) := by
      rw [renderEach_append, List.flatten_append, List.head?_append, Option.or_assoc]
    rw [List.cons_append, phrasing_cons, phrasing_cons, hhead]
    simp only [ih, List.append_assoc, List.getLast?_append, Option.or_assoc]

theorem escape_cons (c : Char) (t : Text) :
    escape (c :: t) = (if isSpecial c then ['\\', c] else [c]) ++ escape t := List.flatMap_cons

theorem ne_slash_of_not_special {c : Char} (h : ¬isSpecial c = true) : c ≠ '\\' := by
  rintro rfl
  exact h (by decide)

theorem escape_append (t u : Text) : escape (t ++ u) = escape t ++ escape u := List.flatMap_append

theorem escape_of_not_special {t : Text} (h : ∀ c ∈ t, isSpecial c = false) : escape t = t := by
  induction t with
  | nil => rfl
  | cons c t ih =>
    obtain ⟨hc, ht⟩ := List.forall_mem_cons.1 h
    rw [escape_cons, hc, ih ht]
    rfl

/-- A text and the two texts that it is cut into are written alike, and their siblings see no
difference. -/
theorem phrasing_cut (pre post : List Inline) (u v : String) :
    phrasing o before after (pre ++ .text (u ++ v) :: post) =
      phrasing o before after (pre ++ .text u :: .text v :: post) := by
  have hescape : escape (u ++ v).toList = escape u.toList ++ escape v.toList := by
    rw [String.toList_append, escape_append]
  have halone : (renderEach o (.text (u ++ v) :: post)).flatten =
      (renderEach o (.text u :: .text v :: post)).flatten := by
    simp only [renderEach, Inline.render, hescape, List.flatten_cons, List.append_assoc]
  have hcut (before : Option Char) : phrasing o before after (.text (u ++ v) :: post) =
      phrasing o before after (.text u :: .text v :: post) := by
    simp only [phrasing_cons, Inline.isDelimited, Inline.render, hescape, List.append_assoc,
      List.getLast?_append, Option.or_assoc, Bool.false_eq_true, ↓reduceIte]
  simp only [phrasing_append_eq, halone, hcut]

end Markdown

open Markdown

/-- No style is set, and there is no link. -/
def Styles.isPlain (s : Styles) : Bool :=
  s.bold ≠ some true && s.italic ≠ some true && s.strike ≠ some true && s.underline ≠ some true &&
    s.code ≠ some true && s.link.all String.isEmpty

namespace Delta

theorem toInline_of_isPlain {s : Styles} (h : s.isPlain = true) (t : String) :
    toInline ⟨t, s⟩ = .text t := by
  simp only [Styles.isPlain, Bool.and_eq_true, decide_eq_true_eq] at h
  obtain ⟨⟨⟨⟨⟨hbold, hitalic⟩, hstrike⟩, hunderline⟩, hcode⟩, hlink⟩ := h
  have hstyled : styled ⟨t, s⟩ = .text t := by
    simp [styled, wrapIf, hbold, hitalic, hstrike, hunderline, hcode]
  unfold toInline
  cases hurl : s.link with
  | none => exact hstyled
  | some url =>
    rw [hurl, Option.all_some] at hlink
    simpa [hlink] using hstyled

theorem content_append (depth : Nat) (ds es : List Delta) :
    content depth (ds ++ es) = content depth ds ++ es.map toInline := by
  simp [content]

/-- A plain run may be cut in two anywhere, also at its ends: the text of the line and of the paragraph
stays the same. -/
theorem phrasing_content_cut (o : Options) (before after : Option Char) (depth : Nat)
    (pre post : List Delta) (u v : String) {s s₁ s₂ : Styles} (hs : s.isPlain = true)
    (h₁ : s₁.isPlain = true) (h₂ : s₂.isPlain = true) :
    phrasing o before after (content depth (pre ++ ⟨u ++ v, s⟩ :: post)) =
      phrasing o before after (content depth (pre ++ ⟨u, s₁⟩ :: ⟨v, s₂⟩ :: post)) ∧
    guardLines (phrasing o none none (content depth (pre ++ ⟨u ++ v, s⟩ :: post))) =
      guardLines (phrasing o none none (content depth (pre ++ ⟨u, s₁⟩ :: ⟨v, s₂⟩ :: post))) := by
  have hcut (before after : Option Char) :
      phrasing o before after (content depth (pre ++ ⟨u ++ v, s⟩ :: post)) =
        phrasing o before after (content depth (pre ++ ⟨u, s₁⟩ :: ⟨v, s₂⟩ :: post)) := by
    simp only [content_append, List.map_cons, toInline_of_isPlain hs, toInline_of_isPlain h₁,
      toInline_of_isPlain h₂]
    exact phrasing_cut o before after _ _ u v
  exact ⟨hcut before after, congrArg guardLines (hcut none none)⟩

/-- A cut inside the number that a line starts with, behind an empty run and before an italic one. -/
theorem phrasing_content_cut_ordinal :
    Styles.isPlain {} = true ∧ Styles.isPlain { bold := some false, link := some "" } = true ∧
    phrasing {} (some 'x') none (content 0 ([⟨"", { italic := some true }⟩] ++ ⟨"1" ++ ". ", {}⟩ ::
        [⟨"a", { italic := some true }⟩])) =
      phrasing {} (some 'x') none (content 0 ([⟨"", { italic := some true }⟩] ++ ⟨"1", {}⟩ ::
        ⟨". ", { bold := some false, link := some "" }⟩ :: [⟨"a", { italic := some true }⟩])) ∧
    guardLines (phrasing {} none none (content 0 ([⟨"", { italic := some true }⟩] ++
        ⟨"1" ++ ". ", {}⟩ :: [⟨"a", { italic := some true }⟩]))) =
      guardLines (phrasing {} none none (content 0 ([⟨"", { italic := some true }⟩] ++ ⟨"1", {}⟩ ::
        ⟨". ", { bold := some false, link := some "" }⟩ :: [⟨"a", { italic := some true }⟩]))) :=
  ⟨by decide, by decide, phrasing_content_cut {} (some 'x') none 0 [⟨"", { italic := some true }⟩]
    [⟨"a", { italic := some true }⟩] "1" ". " (by decide) (by decide) (by decide)⟩

end Delta
end PageExport
