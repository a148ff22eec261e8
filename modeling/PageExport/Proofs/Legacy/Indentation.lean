import Mathlib.Data.List.Flatten
import PageExport.Proofs.Legacy.Images

/-!
The indentation of the legacy profile. Each block gets two spaces for every block around it below the
nearest page or container. They are also written for blocks that have no text of their own, in front
of what comes next.
-/
namespace PageExport.Legacy

open Markdown (Options)

/-- A block and the blocks around it, the innermost one first. -/
structure Nested where
  around : List Block
  block : Block

mutual

/-- The blocks of a tree in pre-order, each with the blocks around it. -/
def nested (around : List Block) : Block → List Nested
  | ⟨id, tag, props, children⟩ =>
    ⟨around, ⟨id, tag, props, children⟩⟩ ::
      nestedAmong (⟨id, tag, props, children⟩ :: around) children

def nestedAmong (around : List Block) : List Block → List Nested
  | [] => []
  | b :: bs => nested around b ++ nestedAmong around bs

end

mutual

theorem block_nested (around : List Block) (b : Block) :
    (nested around b).map Nested.block = b.subtree := by
  cases b with
  | mk id tag props children =>
    rw [nested, List.map_cons, block_nestedAmong, Block.subtree]

theorem block_nestedAmong (around : List Block) (bs : List Block) :
    (nestedAmong around bs).map Nested.block = Block.subtrees bs := by
  cases bs with
  | nil => rfl
  | cons b bs =>
    rw [nestedAmong, List.map_append, block_nested, block_nestedAmong, Block.subtrees]

end

/-- Pages and containers start the indentation anew. -/
def resets (b : Block) : Bool := b.flavour = .page || b.flavour.isContainer

/-- The number of the innermost blocks up to the nearest page or container. -/
def depth (around : List Block) : Nat := (around.takeWhile fun b => !resets b).length

def indentation (around : List Block) : Text := List.replicate (2 * depth around) ' '

theorem childPad_indentation (b : Block) (around : List Block) :
    childPad b (indentation around) = indentation (b :: around) := by
  unfold childPad indentation depth
  rw [List.takeWhile_cons]
  change (if resets b = true then _ else _) = _
  cases resets b with
  | true => rfl
  | false =>
    simp only [Bool.false_eq_true, ↓reduceIte, Bool.not_false, List.length_cons, Nat.mul_succ]
    exact List.replicate_append_replicate (n := _) (m := 2)

/-- The text of a block without its children. -/
def content (o : Options) (template : Text) (b : Block) : Text :=
  match (ownText o template b).run.value with
  | .ok (some own) => own
  | _ => []

/-- The text of a block behind its indentation. -/
def Nested.text (o : Options) (template : Text) (p : Nested) : Text :=
  indentation p.around ++ content o template p.block

/-- Blocks without a text of their own: pages, containers, blocks of other flavours, and embeds that are
no images. -/
def isSilent (b : Block) : Bool :=
  match b.flavour with
  | .page | .note | .surface | .frame | .database | .unknown => true
  | .embed => (image? b).isNone
  | .paragraph | .list | .code | .divider | .image => false

/-- The image that stands for the block, if there is one, can be linked to by the template. -/
def Links (template : Text) (b : Block) : Prop :=
  ∀ image, image? b = some image →
    ∃ url, Template.fill argumentName image.sourceId.toList template = .ok url

theorem links_defaultTemplate (b : Block) : Links defaultTemplate.toList b :=
  fun _ _ => ⟨_, fill_defaultTemplate _⟩

variable {o : Options} {template : Text} {b : Block}

theorem imageText_ne_nil (url : Text) (image : ImageProps) : imageText url image ≠ [] := by
  unfold imageText
  split <;> simp

theorem exists_value_withProps_ne_nil {α : Type} {read : Members → Logged (Reading α)}
    {render : α → Text} (hread : (b.props? read).isSome) (hrender : ∀ p, render p ≠ []) :
    ∃ own, (withProps read b fun p => .ok (render p)).run.value = .ok (some own) ∧
      (own = [] ↔ false = true) := by
  obtain ⟨p, hp⟩ := Option.isSome_iff_exists.1 hread
  refine ⟨render p, ?_, by simp [hrender p]⟩
  rw [value_withProps, hp]
  rfl

/-- A block whose props can be read has a text, which is empty just if the block is silent. -/
theorem exists_ownText (o : Options) (hread : isReadable b = true) (hlinks : Links template b) :
    ∃ own, (ownText o template b).run.value = .ok (some own) ∧ (own = [] ↔ isSilent b = true) := by
  cases himage : image? b with
  | some image =>
    obtain ⟨url, hurl⟩ := hlinks image himage
    refine ⟨imageText url image, by rw [value_ownText_of_image himage, hurl]; rfl, ?_⟩
    have hsilent : isSilent b = false := by
      obtain ⟨p, -, -, hb | ⟨hb, -⟩⟩ := image?_eq_some_iff.1 himage <;> simp [isSilent, hb, himage]
    simp [imageText_ne_nil, hsilent]
  | none =>
    have hembed {p : EmbedProps} (hp : b.props? EmbedProps.read = some p) :
        ¬ (b.flavour = .image ∨ b.flavour = .embed ∧ p.type = "image") := by
      intro h
      simp [image?_eq_some_iff.2 ⟨p, hp, rfl, h⟩] at himage
    unfold isReadable at hread
    unfold ownText isSilent
    cases hb : b.flavour with
    | paragraph | list | code =>
      simp only [hb] at hread
      apply exists_value_withProps_ne_nil hread
      simp [inlineLine, codeText]
    | image =>
      simp only [hb] at hread
      obtain ⟨p, hp⟩ := Option.isSome_iff_exists.1 hread
      exact absurd (.inl hb) (hembed hp)
    | embed =>
      simp only [hb] at hread
      obtain ⟨p, hp⟩ := Option.isSome_iff_exists.1 hread
      have htype : p.type ≠ "image" := fun htype => hembed hp (.inr ⟨hb, htype⟩)
      refine ⟨[], ?_, by simp [himage]⟩
      simp only [embedText]
      rw [value_withProps, hp]
      simp only [hb, htype]
      rfl
    | divider => exact ⟨_, rfl, by simp⟩
    | page | note | surface | frame | database | unknown => exact ⟨[], rfl, by simp⟩

theorem content_eq_nil_iff (o : Options) (hread : isReadable b = true) (hlinks : Links template b) :
    content o template b = [] ↔ isSilent b = true := by
  obtain ⟨own, hown, hsilent⟩ := exists_ownText o hread hlinks
  rw [content, hown]
  exact hsilent

section
variable (o : Options) (template : Text)

mutual

/-- The text of a block tree has all its blocks in pre-order, each behind its indentation. -/
theorem value_blockText (around : List Block) (b : Block)
    (h : ∀ c ∈ b.subtree, isReadable c = true ∧ Links template c) :
    (blockText o template (indentation around) b).run.value =
      .ok ((nested around b).flatMap (Nested.text o template)) := by
  cases b with
  | mk id tag props children =>
    rw [Block.subtree, List.forall_mem_cons] at h
    obtain ⟨⟨hread, hlinks⟩, hbelow⟩ := h
    obtain ⟨own, hown, -⟩ := exists_ownText o hread hlinks
    have hrest := value_siblingsText (⟨id, tag, props, children⟩ :: around) children hbelow
    have hcontent : content o template ⟨id, tag, props, children⟩ = own := by rw [content, hown]
    rw [value_blockText_eq, hown]
    show (siblingsText o template (childPad _ (indentation around)) children).run.value.map _ = _
    rw [childPad_indentation, hrest, nested, List.flatMap_cons, Nested.text, hcontent]
    rfl

theorem value_siblingsText (around : List Block) (bs : List Block)
    (h : ∀ c ∈ Block.subtrees bs, isReadable c = true ∧ Links template c) :
    (siblingsText o template (indentation around) bs).run.value =
      .ok ((nestedAmong around bs).flatMap (Nested.text o template)) := by
  cases bs with
  | nil => rfl
  | cons b bs =>
    rw [Block.subtrees, List.forall_mem_append] at h
    rw [value_siblingsText_cons, value_blockText around b h.1, nestedAmong, List.flatMap_append]
    show (siblingsText o template (indentation around) bs).run.value.map _ = _
    rw [value_siblingsText around bs h.2]
    rfl

end

end
/-- Leaving out what writes nothing of its own leaves the text just if it writes nothing at all. -/
theorem flatMap_filter_eq_iff {α : Type} (f : α → Text) (q : α → Bool) (as : List α) :
    as.flatMap f = (as.filter q).flatMap f ↔ ∀ a ∈ as, q a = false → f a = [] := by
  induction as with
  | nil => simp
  | cons a as ih =>
    rw [List.flatMap_cons, List.forall_mem_cons]
    cases hq : q a with
    | true =>
      rw [List.filter_cons_of_pos hq, List.flatMap_cons, List.append_cancel_left_eq, ih]
      simp
    | false =>
      rw [List.filter_cons_of_neg (by simp [hq]), ← ih]
      have hlength : ((as.filter q).flatMap f).length ≤ (as.flatMap f).length :=
        (List.filter_sublist.flatMap f).length_le
      constructor
      · intro h
        have hsum := congrArg List.length h
        rw [List.length_append] at hsum
        have hnil : f a = [] := List.eq_nil_of_length_eq_zero (by omega)
        exact ⟨fun _ => hnil, by rwa [hnil] at h⟩
      · rintro ⟨hnil, h⟩
        rw [hnil rfl, h]
        rfl

/-- The text of a block tree whose props can all be read and whose images can all be linked to has each
block's text behind two spaces for every block around it below the nearest page or container. The
indentations of silent blocks come on top of that, unless each of these is the root of the tree or stands
directly in a page or container. -/
theorem value_blockText_eq_indented_iff (o : Options) (template : Text) (b : Block)
    (h : ∀ c ∈ b.subtree, isReadable c = true ∧ Links template c) :
    (blockText o template [] b).run.value =
      .ok ((nested [] b).flatMap fun p => indentation p.around ++ content o template p.block) ∧
    ((blockText o template [] b).run.value =
        .ok (((nested [] b).filter fun p => content o template p.block ≠ []).flatMap fun p =>
          indentation p.around ++ content o template p.block) ↔
      ∀ p ∈ nested [] b, isSilent p.block = true → depth p.around = 0) := by
  have htext := value_blockText o template [] b h
  refine ⟨htext, ?_⟩
  change (blockText o template (indentation []) b).run.value = _ ↔ _
  rw [htext, Except.ok.injEq]
  change _ = ((nested [] b).filter _).flatMap (Nested.text o template) ↔ _
  rw [flatMap_filter_eq_iff]
  refine forall₂_congr fun p hp => ?_
  have hblock : p.block ∈ b.subtree := by
    rw [← block_nested []]
    exact List.mem_map_of_mem hp
  obtain ⟨hread, hlinks⟩ := h _ hblock
  have hnil := content_eq_nil_iff o hread hlinks
  rw [← hnil]
  simp only [ne_eq, decide_not, Bool.not_eq_false', decide_eq_true_eq]
  refine imp_congr_right fun hcontent => ?_
  rw [Nested.text, hcontent, List.append_nil, indentation, List.replicate_eq_nil_iff]
  omega

/-- A note with a paragraph, an item below that, an image below that, and a block of another flavour. -/
def nestedNote : Block :=
  ⟨"n", "affine:note", [], [⟨"p", "affine:paragraph", [("text", .string "a")],
    [⟨"l", "affine:list", [("text", .string "b"), ("type", .string "bulleted")],
      [⟨"i", "affine:image", [("sourceId", .string "x")], []⟩]⟩]⟩, ⟨"u", "bookmark", [], []⟩]⟩

theorem value_blockText_nestedNote :
    (∀ c ∈ nestedNote.subtree, isReadable c = true ∧ Links defaultTemplate.toList c) ∧
    (∀ p ∈ nested [] nestedNote, isSilent p.block = true → depth p.around = 0) ∧
    (blockText {} defaultTemplate.toList [] nestedNote).run.value =
      .ok "a\n  * b\n    \n![x](assets/x)\n\n".toList ∧
    (blockText {} defaultTemplate.toList [] nestedNote).run.value =
      .ok (((nested [] nestedNote).filter fun p => content {} defaultTemplate.toList p.block ≠ []).flatMap
        fun p => indentation p.around ++ content {} defaultTemplate.toList p.block) := by
  have hread : ∀ c ∈ nestedNote.subtree, isReadable c = true := by decide +kernel
  have hall : ∀ c ∈ nestedNote.subtree, isReadable c = true ∧ Links defaultTemplate.toList c :=
    fun c hc => ⟨hread c hc, links_defaultTemplate c⟩
  have hsilent : ∀ p ∈ nested [] nestedNote, isSilent p.block = true → depth p.around = 0 := by
    decide +kernel
  exact ⟨hall, hsilent, by rfl, (value_blockText_eq_indented_iff {} defaultTemplate.toList _ hall).2.2 hsilent⟩

/-- A note in a paragraph is itself indented, in front of a text that is not. -/
theorem value_blockText_noteInParagraph :
    let b : Block := ⟨"p", "affine:paragraph", [("text", .string "a")],
      [⟨"n", "affine:note", [], [⟨"q", "affine:paragraph", [("text", .string "b")], []⟩]⟩]⟩
    (∀ c ∈ b.subtree, isReadable c = true ∧ Links defaultTemplate.toList c) ∧
    (blockText {} defaultTemplate.toList [] b).run.value = .ok "a\n  b\n".toList ∧
    (((nested [] b).filter fun p => content {} defaultTemplate.toList p.block ≠ []).flatMap
      fun p => indentation p.around ++ content {} defaultTemplate.toList p.block) = "a\nb\n".toList := by
  intro b
  have hread : ∀ c ∈ b.subtree, isReadable c = true := by decide +kernel
  exact ⟨fun c hc => ⟨hread c hc, links_defaultTemplate c⟩, by rfl, by rfl⟩

end PageExport.Legacy
