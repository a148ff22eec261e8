import PageExport.Proofs.Markdown.Lookalikes
import PageExport.Proofs.Snapshot.Trim

/-!
What would be seen of the blocks that trimming drops. A paragraph counts as blank by the text of its runs,
but runs are written with their styles: blank code and blank underlined text are seen, and so is the target
of a link without text.
-/
namespace PageExport

/-- The text is white space, or empty. -/
def Text.AllBlank (t : Text) : Prop := ∀ c ∈ t, isBlank c = true

instance : DecidablePred Text.AllBlank := fun t => t.decidableBAll _

namespace Text

@[simp] theorem allBlank_nil : AllBlank [] := by simp [AllBlank]

theorem allBlank_append {t u : Text} : AllBlank (t ++ u) ↔ AllBlank t ∧ AllBlank u :=
  List.forall_mem_append

theorem not_allBlank_of_mem {t : Text} {c : Char} (h : c ∈ t) (hc : isBlank c = false) :
    ¬ AllBlank t := fun hall => by simp [hall c h] at hc

theorem strip_eq_nil_iff {t : Text} : t.strip = [] ↔ AllBlank t := by
  unfold strip stripRight stripLeft
  rw [List.reverse_eq_nil_iff, List.dropWhile_eq_nil_iff]
  constructor
  · intro h c hc
    rw [← List.takeWhile_append_dropWhile (p := isBlank) (l := t), List.mem_append] at hc
    exact hc.elim List.mem_takeWhile_imp fun hc => h c (List.mem_reverse.2 hc)
  · exact fun h c hc => h c ((List.dropWhile_sublist _).subset (List.mem_reverse.1 hc))

end Text

namespace Markdown

open Text (AllBlank)

mutual

/-- The content is blank text, styled or not. -/
def Inline.isInvisible : Inline → Bool
  | .text value => decide (AllBlank value.toList)
  | .strong content | .emphasis content | .delete content => areInvisible content
  | .code _ | .link _ _ _ | .image _ _ _ => false

def areInvisible : List Inline → Bool
  | [] => true
  | n :: ns => n.isInvisible && areInvisible ns

end

theorem areInvisible_iff {ns : List Inline} :
    areInvisible ns = true ↔ ∀ n ∈ ns, n.isInvisible = true := by
  induction ns with
  | nil => simp [areInvisible]
  | cons n ns ih => simp [areInvisible, ih]

variable {o : Options}

theorem allBlank_escape {t : Text} : AllBlank (escape t) ↔ AllBlank t := by
  constructor
  · intro h c hc
    by_cases hspecial : isSpecial c = true
    · exact h c (List.mem_flatMap.2 ⟨c, hc, by simp [hspecial]⟩)
    · exact h c (List.mem_flatMap.2 ⟨c, hc, by simp [hspecial]⟩)
  · intro h
    rwa [escape_of_blank h]

theorem not_allBlank_delimiter {mark : Text} (h : mark ∈ delimiters) : ¬ AllBlank mark := by
  rcases delimiters_cases h with rfl | rfl | rfl | rfl <;> decide

/-- Delimiters are written around what is seen only. -/
theorem allBlank_delimit {mark : Text} (h : mark ∈ delimiters) (before after : Option Char)
    (inner : Text) : AllBlank (delimit mark before after inner) ↔ AllBlank inner := by
  unfold delimit
  simp only
  split
  · rfl
  · next hcore =>
    refine iff_of_false (fun hall => ?_) fun hall => hcore (by simp [Text.strip_eq_nil_iff.2 hall])
    rw [Text.allBlank_append, Text.allBlank_append, Text.allBlank_append,
      Text.allBlank_append] at hall
    exact not_allBlank_delimiter (settleMark_mem h _) hall.1.1.1.2

theorem not_allBlank_codeSpan (t : Text) : ¬ AllBlank (codeSpan t) := by
  have hfence : '`' ∈ fence 1 t := by
    refine List.mem_replicate.2 ⟨?_, rfl⟩
    have := Nat.le_max_left 1 (longestRun '`' t + 1)
    omega
  exact Text.not_allBlank_of_mem (c := '`') (by simp [codeSpan, hfence]) (by decide)

theorem renderAmong_renderEach_cons (before after : Option Char) (n : Inline) (ns : List Inline) :
    ∃ a a' b', renderAmong o before after (n :: ns) (renderEach o (n :: ns)) =
      n.render o a a' ++ renderAmong o b' after ns (renderEach o ns) := by
  rw [renderEach, renderAmong]
  split
  · exact ⟨_, _, _, rfl⟩
  · exact ⟨_, _, _, rfl⟩

mutual

/-- Content is written as white space exactly if nothing of it is seen, wherever it stands. -/
theorem allBlank_render (before after : Option Char) : (n : Inline) →
    (AllBlank (n.render o before after) ↔ n.isInvisible = true)
  | .text value => by
    simp only [Inline.render, Inline.isInvisible, allBlank_escape, decide_eq_true_eq]
  | .code value => by
    simp only [Inline.render, Inline.isInvisible, not_allBlank_codeSpan, Bool.false_eq_true]
  | .strong content => by
    rw [Inline.render, allBlank_delimit (by decide), Inline.isInvisible]
    exact allBlank_renderAmong _ _ content
  | .emphasis content => by
    rw [Inline.render, allBlank_delimit (emphasisMark_mem o.emphasis), Inline.isInvisible]
    exact allBlank_renderAmong _ _ content
  | .delete content => by
    rw [Inline.render, allBlank_delimit (by decide), Inline.isInvisible]
    exact allBlank_renderAmong _ _ content
  | .link url title content => by
    rw [Inline.isInvisible]
    exact iff_of_false (Text.not_allBlank_of_mem (c := '[') (by simp [Inline.render]) (by decide))
      Bool.false_ne_true
  | .image url title alt => by
    rw [Inline.isInvisible]
    exact iff_of_false (Text.not_allBlank_of_mem (c := '!') (by simp [Inline.render]) (by decide))
      Bool.false_ne_true

theorem allBlank_renderAmong (before after : Option Char) : (ns : List Inline) →
    (AllBlank (renderAmong o before after ns (renderEach o ns)) ↔ areInvisible ns = true)
  | [] => by simp [renderAmong, areInvisible]
  | n :: ns => by
    obtain ⟨a, a', b', hcons⟩ := renderAmong_renderEach_cons (o := o) before after n ns
    rw [hcons, Text.allBlank_append, allBlank_render a a' n, allBlank_renderAmong b' after ns,
      areInvisible, Bool.and_eq_true]

end

end Markdown

open Markdown (Inline Options phrasing)
open Text (AllBlank)

namespace Delta

/-- The target that a run shows, around its text or in its place. -/
def target? (d : Delta) : Option String :=
  d.styles.link.filter fun url => !(url.isEmpty || d.insert = url)

/-- The run is not seen if its text is blank. -/
def staysBlank (d : Delta) : Bool :=
  match d.target? with
  | some url => d.insert.isEmpty && decide (AllBlank url.toList)
  | none => d.styles.code ≠ some true && d.styles.underline ≠ some true

variable {d : Delta}

theorem isInvisible_wrapIf {wrap : List Inline → Inline} (style : Option Bool) (n : Inline)
    (h : ∀ content, (wrap content).isInvisible = Markdown.areInvisible content) :
    (wrapIf style wrap n).isInvisible = n.isInvisible := by
  unfold wrapIf
  split
  · simp [h, Markdown.areInvisible]
  · rfl

theorem isInvisible_styled (h : AllBlank d.insert.toList) :
    d.styled.isInvisible = (d.styles.code ≠ some true && d.styles.underline ≠ some true) := by
  have hvisible : ¬ AllBlank ('<' :: 'u' :: '>' :: (d.insert.toList ++ ['<', '/', 'u', '>'])) :=
    Text.not_allBlank_of_mem List.mem_cons_self (by decide)
  unfold styled
  simp only
  rw [isInvisible_wrapIf _ _ fun _ => Inline.isInvisible.eq_def _,
    isInvisible_wrapIf _ _ fun _ => Inline.isInvisible.eq_def _,
    isInvisible_wrapIf _ _ fun _ => Inline.isInvisible.eq_def _]
  by_cases hcode : d.styles.code = some true
  · simp [hcode, Inline.isInvisible]
  · by_cases hunderline : d.styles.underline = some true
    · simp [hcode, hunderline, Inline.isInvisible, hvisible]
    · simp [hcode, hunderline, Inline.isInvisible, h]

/-- A blank run is not seen exactly if it stays blank in its styles. -/
theorem isInvisible_toInline (h : AllBlank d.insert.toList) :
    d.toInline.isInvisible = d.staysBlank := by
  unfold toInline staysBlank target?
  cases hlink : d.styles.link with
  | none => exact isInvisible_styled h
  | some url =>
    by_cases hshown : (url.isEmpty || d.insert = url) = true
    · simp only [hshown, Option.filter, Bool.not_true, ↓reduceIte]
      exact isInvisible_styled h
    · simp only [hshown, Option.filter, Bool.not_false, ↓reduceIte]
      by_cases hempty : d.insert.isEmpty = true
      · simp [hempty, Inline.isInvisible]
      · simp [hempty, Inline.isInvisible]

theorem allBlank_insert {ds : List Delta} (h : AllBlank (plainText "" ds).toList) (hd : d ∈ ds) :
    AllBlank d.insert.toList := by
  intro c hc
  refine h c ?_
  rw [plainText, String.toList_ofList]
  exact Text.mem_join (List.mem_map_of_mem hd) hc

end Delta

namespace Block

/-- The runs of the text of a block. -/
def runs (b : Block) : List Delta := (Delta.readText (b.prop "text")).value

variable {t b : Block} {path : List Nat}

theorem allBlank_of_blank (h : b.blank = true) : AllBlank (Delta.plainText "" b.runs).toList := by
  have hmay := mayBeBlank_of_blank h
  unfold blank isBlank at h
  rw [if_pos hmay, Logged.value_bind, Logged.value_pure, List.isEmpty_iff] at h
  exact Text.strip_eq_nil_iff.1 h

theorem blank_of_missing (hb : t.at? path = some b) (h : newPosition? path t = none) :
    b.blank = true := by
  have hlead := (newPosition?_eq_none_iff hb).1 h
  obtain ⟨above, i, rfl⟩ := List.eq_nil_or_concat path |>.resolve_left hlead.ne_nil
  rw [List.concat_eq_append] at hb hlead
  exact hlead.siblings above i i b rfl (Nat.le_refl i) hb

/-- The text of a block that is dropped would have been white space, wherever it stands, exactly if its
runs stay blank in their styles: none is code or underlined, unless in place of its text a target is shown,
and the targets that are shown are blank and stand for runs without text. -/
theorem allBlank_phrasing_iff (hb : t.at? path = some b) (hmissing : newPosition? path t = none)
    (o : Options) (before after : Option Char) :
    AllBlank (phrasing o before after (Delta.content 0 b.runs)) ↔
      ∀ d ∈ b.runs, d.staysBlank = true := by
  have hruns := allBlank_of_blank (blank_of_missing hb hmissing)
  have hcontent : Delta.content 0 b.runs = b.runs.map Delta.toInline := by simp [Delta.content]
  rw [phrasing, Markdown.allBlank_renderAmong, Markdown.areInvisible_iff, hcontent,
    List.forall_mem_map]
  refine forall₂_congr fun d hd => ?_
  rw [Delta.isInvisible_toInline (Delta.allBlank_insert hruns hd)]

/-- A paragraph of one run. -/
def oneRun (insert : String) (attributes : Members) : Block :=
  ⟨"a", "affine:paragraph", [("text", .object [("delta", .array
    [.object [("insert", .string insert), ("attributes", .object attributes)]])])], []⟩

/-- Bold blanks are not seen. -/
theorem allBlank_phrasing_bold :
    let b := oneRun " " [("bold", .bool true)]
    let t : Block := ⟨"page", "affine:page", [], [b]⟩
    t.at? [0] = some b ∧ newPosition? [0] t = none ∧ (∀ d ∈ b.runs, d.staysBlank = true) ∧
      AllBlank (phrasing {} none none (Delta.content 0 b.runs)) := by
  intro b t
  have hb : t.at? [0] = some b := rfl
  have hmissing : newPosition? [0] t = none := by decide
  have hruns : ∀ d ∈ b.runs, d.staysBlank = true := by decide
  exact ⟨hb, hmissing, hruns, (allBlank_phrasing_iff hb hmissing {} none none).2 hruns⟩

/-- A link without text shows its target, but the paragraph that it makes up is dropped. -/
theorem not_allBlank_phrasing_target :
    let b := oneRun "" [("link", .string "u")]
    let t : Block := ⟨"page", "affine:page", [], [b]⟩
    t.at? [0] = some b ∧ newPosition? [0] t = none ∧ t.trimmed.children.length = 0 ∧
      phrasing {} none none (Delta.content 0 b.runs) = ['u'] ∧
      ¬ AllBlank (phrasing {} none none (Delta.content 0 b.runs)) :=
  ⟨rfl, by decide, by decide +kernel, by decide +kernel, by decide +kernel⟩

end Block
end PageExport
