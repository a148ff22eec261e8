import Mathlib.Data.List.ReduceOption
import PageExport.Legacy
import PageExport.Proofs.Reading.Faults
import PageExport.Proofs.Snapshot.Subtree
import PageExport.Proofs.Walk.Steps

/-!
The images of a page in the legacy profile: those in its text and those that it reports. The text
leaves out each block with unreadable props and all below it; the report looks at every block of the
tree, but at none of its other props.
-/
namespace PageExport.Legacy

open Markdown (Options)
open Reading (seq_eq_ok_iff map_eq_ok_iff field_eq_ok_iff string_eq_ok_iff)

/-- The props that the legacy profile reads of a block can be read. -/
def isReadable (b : Block) : Bool :=
  match b.flavour with
  | .paragraph => (b.props? ParagraphProps.read).isSome
  | .list => (b.props? ListProps.read).isSome
  | .code => (b.props? CodeProps.read).isSome
  | .image | .embed => (b.props? EmbedProps.read).isSome
  | _ => true

/-- A block and the indentation of its text; `none` if the text leaves it out. -/
structure Placement where
  pad? : Option Text
  block : Block
  readable : pad?.isSome → isReadable block = true

/-- The place of a block where the indentation is `pad`. -/
def Placement.of (pad : Option Text) (b : Block) : Placement where
  pad? := if isReadable b then pad else none
  block := b
  readable := by
    split
    · next h => exact fun _ => h
    · exact fun h => nomatch h

mutual

/-- The blocks of a tree in pre-order with their places in the text. -/
def placements (pad : Option Text) : Block → List Placement
  | ⟨id, tag, props, children⟩ =>
    let p := Placement.of pad ⟨id, tag, props, children⟩
    p :: placementsAmong (p.pad?.map (childPad p.block)) children

def placementsAmong (pad : Option Text) : List Block → List Placement
  | [] => []
  | b :: bs => placements pad b ++ placementsAmong pad bs

end

namespace Placement

/-- What a block adds to the text. -/
def share (o : Options) (template : Text) (p : Placement) : Except TemplateFault Text :=
  match p.pad? with
  | some pad => (ownText o template p.block).run.value.map fun own => pad ++ own.getD []
  | none => .ok []

end Placement

mutual

theorem block_placements (pad : Option Text) (b : Block) :
    (placements pad b).map Placement.block = b.subtree := by
  cases b with
  | mk id tag props children =>
    rw [placements, List.map_cons, block_placementsAmong, Block.subtree]
    rfl

theorem block_placementsAmong (pad : Option Text) (bs : List Block) :
    (placementsAmong pad bs).map Placement.block = Block.subtrees bs := by
  cases bs with
  | nil => rfl
  | cons b bs =>
    rw [placementsAmong, List.map_append, block_placements, block_placementsAmong, Block.subtrees]

end

theorem value_run_bind {α β : Type} (x : Render α) (f : α → Render β) :
    (x >>= f).run.value = x.run.value >>= fun a => (f a).run.value := by
  rw [ExceptT.run_bind, Logged.value_bind]
  cases x.run.value <;> rfl

theorem value_withProps {α : Type} (read : Members → Logged (Reading α)) (b : Block)
    (render : α → Except TemplateFault Text) : (withProps read b render).run.value =
      match b.props? read with
      | some p => (render p).map some
      | none => .ok none := by
  unfold withProps Block.props?
  rw [value_run_bind]
  change (Except.ok (b.readAs read).value >>= _) = _
  cases (b.readAs read).value with
  | ok p =>
    change ((_ : Render (Option Text)).run.value) = (render p).map some
    rw [value_run_bind]
    change (render p >>= _) = _
    cases render p <;> rfl
  | error m => rfl

theorem exists_value_withProps {α : Type} (read : Members → Logged (Reading α)) (b : Block)
    (render : α → Except TemplateFault Text) : ∃ x, (withProps read b render).run.value =
      if (b.props? read).isSome then Except.map some x else .ok none := by
  rw [value_withProps]
  cases b.props? read with
  | some p => exact ⟨render p, rfl⟩
  | none => exact ⟨.ok [], rfl⟩

/-- A block has a text of its own, even if it is empty, just if its props can be read. -/
theorem exists_value_ownText (o : Options) (template : Text) (b : Block) :
    ∃ x, (ownText o template b).run.value =
      if isReadable b then Except.map some x else .ok none := by
  unfold ownText isReadable
  cases b.flavour with
  | paragraph | list | code | image | embed => exact exists_value_withProps ..
  | divider => exact ⟨.ok _, rfl⟩
  | page | note | surface | frame | database | unknown => exact ⟨.ok [], rfl⟩

theorem value_blockText_eq (o : Options) (template pad : Text) (b : Block) :
    (blockText o template pad b).run.value = (ownText o template b).run.value >>= fun own? =>
      match own? with
      | some own => (siblingsText o template (childPad b pad) b.children).run.value.map (pad ++ own ++ ·)
      | none => .ok [] := by
  cases b with
  | mk id tag props children =>
    rw [blockText, value_run_bind]
    congr 1
    funext own?
    cases own? with
    | none => rfl
    | some own => 
      rw [value_run_bind]
      cases (siblingsText o template (childPad ⟨id, tag, props, children⟩ pad) children).run.value <;> rfl

theorem value_siblingsText_cons (o : Options) (template pad : Text) (b : Block) (bs : List Block) :
    (siblingsText o template pad (b :: bs)).run.value = (blockText o template pad b).run.value >>= fun t =>
      (siblingsText o template pad bs).run.value.map (t ++ ·) := by
  rw [siblingsText, value_run_bind]
  congr 1
  funext t
  rw [value_run_bind]
  cases (siblingsText o template pad bs).run.value <;> rfl

/-- The shares of places one after another. -/
def sharesText (o : Options) (template : Text) (ps : List Placement) : Except TemplateFault Text :=
  (ps.mapM (Placement.share o template)).map List.flatten

theorem sharesText_cons (o : Options) (template : Text) (p : Placement) (ps : List Placement) :
    sharesText o template (p :: ps) = p.share o template >>= fun t =>
      (sharesText o template ps).map (t ++ ·) := by
  unfold sharesText
  rw [List.mapM_cons]
  cases p.share o template with
  | error e => rfl
  | ok t => cases ps.mapM (Placement.share o template) <;> rfl

theorem sharesText_append (o : Options) (template : Text) (ps qs : List Placement) :
    sharesText o template (ps ++ qs) = sharesText o template ps >>= fun t =>
      (sharesText o template qs).map (t ++ ·) := by
  induction ps with
  | nil =>
    rw [List.nil_append]
    change _ = (sharesText o template qs).map ([] ++ ·)
    cases sharesText o template qs <;> rfl
  | cons p ps ih =>
    rw [List.cons_append, sharesText_cons, sharesText_cons, ih]
    cases p.share o template with
    | error e => rfl
    | ok t =>
      cases sharesText o template ps with
      | error e => rfl
      | ok u =>
        cases sharesText o template qs with
        | error e => rfl
        | ok v => exact congrArg Except.ok (List.append_assoc t u v).symm

section
variable (o : Options) (template : Text)

mutual

/-- The text of a block tree is made of the shares of its blocks. -/
theorem sharesText_placements (pad : Option Text) (b : Block) :
    sharesText o template (placements pad b) =
      pad.elim (.ok []) fun pad => (blockText o template pad b).run.value := by
  cases b with
  | mk id tag props children =>
    obtain ⟨x, hx⟩ := exists_value_ownText o template ⟨id, tag, props, children⟩
    rw [placements, sharesText_cons, sharesText_placementsAmong]
    cases pad with
    | none =>
      simp only [Placement.of, ite_self]
      rfl
    | some pad =>
      rw [Option.elim_some, value_blockText_eq]
      split at hx
      · next hb =>
        simp only [Placement.share, Placement.of, if_pos hb, hx, Option.map_some, Option.elim_some]
        cases x <;> rfl
      · next hb =>
        simp only [Placement.share, Placement.of, if_neg hb, hx]
        rfl

theorem sharesText_placementsAmong (pad : Option Text) (bs : List Block) :
    sharesText o template (placementsAmong pad bs) =
      pad.elim (.ok []) fun pad => (siblingsText o template pad bs).run.value := by
  cases bs with
  | nil => cases pad <;> rfl
  | cons b bs =>
    rw [placementsAmong, sharesText_append, sharesText_placements, sharesText_placementsAmong]
    cases pad with
    | none => rfl
    | some pad => exact (value_siblingsText_cons ..).symm

end

end

/-- An empty layout leaves a text as it is. -/
theorem layOut_nil (t : Text) : Template.layOut [] (.text t) = .ok t := by
  have hread : Template.Layout.read [] = some {} := by decide
  simp [Template.layOut, hread, Template.Layout.apply, Template.Side.before]

/-- By the default template an image links to its reference in the directory of assets. -/
theorem fill_defaultTemplate (ref : Text) :
    Template.fill argumentName ref defaultTemplate.toList = .ok ("assets/".toList ++ ref) := by
  have hpieces : Template.pieces defaultTemplate.toList =
      "assets/".toList.map .char ++ [.field ⟨argumentName, none, []⟩] := by decide
  have hfield (expand : Text → Except TemplateFault Text) :
      Template.Field.fill expand argumentName ref ⟨argumentName, none, []⟩ = .ok ref := layOut_nil ref
  rw [Template.fill, Template.fillTo, hpieces]
  simp [Template.fillPieces, hfield, bind, Except.bind, pure, Except.pure]

theorem props?_eq_some_iff {α : Type} {b : Block} {read : Members → Logged (Reading α)} {p : α} :
    b.props? read = some p ↔ (read b.props).value = .ok p := by
  rw [Block.props?, Block.readAs, Logged.value_bind]
  cases (read b.props).value with
  | ok q => simp [Except.toOption]
  | faulty fs => simp [Except.toOption]

theorem field_string_eq_ok {ms : Members} {key d s : String}
    (h : Reading.field ms key d .string = .ok s) :
    ms.lookup key = some (.string s) ∨ ms.lookup key = none ∧ s = d := by
  obtain habsent | ⟨v, hv, hs⟩ := field_eq_ok_iff.1 h
  · exact .inr habsent
  · exact .inl (hv.trans (congrArg some (string_eq_ok_iff.1 hs)))

/-- What a readable image or embed says about its reference and its type. -/
theorem of_props?_embed {b : Block} {p : EmbedProps} (h : b.props? EmbedProps.read = some p) :
    (∀ v, b.props.lookup "sourceId" = some v → v = .string p.image.sourceId) ∧
      ((b.prop "type" = .string p.type) ∨ b.prop "type" = .null ∧ p.type = "") := by
  rw [props?_eq_some_iff] at h
  change EmbedProps.mk <$> ImageProps.readMembers b.props <*> .field b.props "type" "" .string =
    .ok p at h
  obtain ⟨g, type, hg, htype, rfl⟩ := seq_eq_ok_iff.1 h
  obtain ⟨image, himage, rfl⟩ := map_eq_ok_iff.1 hg
  unfold ImageProps.readMembers at himage
  obtain ⟨g₁, caption, hg₁, -, rfl⟩ := seq_eq_ok_iff.1 himage
  obtain ⟨g₂, height, hg₂, -, rfl⟩ := seq_eq_ok_iff.1 hg₁
  obtain ⟨g₃, width, hg₃, -, rfl⟩ := seq_eq_ok_iff.1 hg₂
  obtain ⟨ref, href, rfl⟩ := map_eq_ok_iff.1 hg₃
  refine ⟨fun v hv => ?_, ?_⟩
  · have hsome : (b.props.lookup "sourceId").isSome := hv ▸ rfl
    rw [Reading.field₂, if_pos hsome] at href
    rcases field_string_eq_ok href with hs | ⟨hs, -⟩ <;> simp_all
  · rcases field_string_eq_ok htype with hs | ⟨hs, hd⟩
    · exact .inl (by simp [Block.prop, hs])
    · exact .inr ⟨by simp [Block.prop, hs], hd⟩

/-- The image that stands for a block. -/
def image? (b : Block) : Option ImageProps :=
  match b.flavour with
  | .image => (b.props? EmbedProps.read).map EmbedProps.image
  | .embed => ((b.props? EmbedProps.read).filter fun p => p.type = "image").map EmbedProps.image
  | _ => none

theorem image?_eq_some_iff {b : Block} {image : ImageProps} :
    image? b = some image ↔ ∃ p, b.props? EmbedProps.read = some p ∧ p.image = image ∧
      (b.flavour = .image ∨ b.flavour = .embed ∧ p.type = "image") := by
  unfold image?
  cases b.flavour <;> simp [and_assoc, and_comm, and_left_comm]

theorem value_ownText_of_image {b : Block} {image : ImageProps} (h : image? b = some image)
    (o : Options) (template : Text) : (ownText o template b).run.value =
      (Template.fill argumentName image.sourceId.toList template).map fun url =>
        some (imageText url image) := by
  obtain ⟨p, hp, rfl, hb⟩ := image?_eq_some_iff.1 h
  have hown : ownText o template b = embedText template b := by
    rcases hb with hb | ⟨hb, -⟩ <;> simp [ownText, hb]
  have himage : (b.flavour = .image || p.type = "image") = true := by
    rcases hb with hb | ⟨-, hb⟩ <;> simp [hb]
  rw [hown, embedText, value_withProps, hp]
  simp only [himage, ↓reduceIte]
  cases Template.fill argumentName p.image.sourceId.toList template <;> rfl

/-- A block without an image has the same text under every template. -/
theorem value_ownText_of_no_image {b : Block} (h : image? b = none) (o : Options)
    (template template' : Text) :
    (ownText o template' b).run.value = (ownText o template b).run.value := by
  have hembed (hb : ∀ p, b.props? EmbedProps.read = some p → ¬ (b.flavour = .image || p.type = "image")) :
      (embedText template' b).run.value = (embedText template b).run.value := by
    rw [embedText, embedText, value_withProps, value_withProps]
    cases hp : b.props? EmbedProps.read with
    | none => rfl
    | some p => simp only [hb p hp, Bool.false_eq_true, ↓reduceIte]
  have hnone : ∀ p, b.props? EmbedProps.read = some p →
      ¬ (b.flavour = .image ∨ b.flavour = .embed ∧ p.type = "image") :=
    fun p hp hb => by simp [image?_eq_some_iff.2 ⟨p, hp, rfl, hb⟩] at h
  unfold ownText
  cases hf : b.flavour with
  | image => exact hembed fun p hp => absurd (.inl hf) (hnone p hp)
  | embed =>
    refine hembed fun p hp => ?_
    simpa [hf] using hnone p hp
  | _ => rfl

namespace Placement

/-- The image that the text shows of a block. -/
def image? (p : Placement) : Option ImageProps := p.pad?.bind fun _ => Legacy.image? p.block

/-- Its reference, unless that is empty. -/
def shown? (p : Placement) : Option String :=
  (p.image?.map ImageProps.sourceId).filter fun ref => !ref.isEmpty

theorem share_of_image {p : Placement} {image : ImageProps} (h : p.image? = some image)
    (o : Options) (template : Text) : ∃ pad, p.share o template =
      (Template.fill argumentName image.sourceId.toList template).map fun url =>
        pad ++ imageText url image := by
  obtain ⟨pad, hpad, h⟩ := Option.bind_eq_some_iff.1 h
  refine ⟨pad, ?_⟩
  simp only [share, hpad, value_ownText_of_image h]
  cases Template.fill argumentName image.sourceId.toList template <;> rfl

theorem share_of_no_image {p : Placement} (h : p.image? = none) (o : Options)
    (template template' : Text) : p.share o template' = p.share o template := by
  unfold share
  cases hpad : p.pad? with
  | none => rfl
  | some pad =>
    have himage : Legacy.image? p.block = none := by simpa [image?, hpad] using h
    simp only [value_ownText_of_no_image himage o template template']

end Placement

/-- Where the text and the report agree about a block. -/
def Placement.Agrees (p : Placement) : Prop :=
  match p.pad? with
  | some _ => p.shown? = none ∨ (p.block.props.lookup "sourceId").isSome
  | none => reference? p.block = none

theorem isImage_iff {b : Block} : isImage b = true ↔
    b.flavour = .image ∨ b.flavour = .embed ∧ b.prop "type" = .string "image" := by
  unfold isImage
  cases b.prop "type" <;> simp

theorem image?_eq {b : Block} (h : isReadable b = true) (hb : isImage b = true) :
    ∃ image, image? b = some image ∧
      ∀ v, b.props.lookup "sourceId" = some v → v = .string image.sourceId := by
  have hread : (b.props? EmbedProps.read).isSome := by
    rw [isImage_iff] at hb
    rcases hb with hb | ⟨hb, -⟩ <;> simpa [isReadable, hb] using h
  obtain ⟨p, hp⟩ := Option.isSome_iff_exists.1 hread
  obtain ⟨hsource, htype⟩ := of_props?_embed hp
  refine ⟨p.image, image?_eq_some_iff.2 ⟨p, hp, rfl, ?_⟩, hsource⟩
  rw [isImage_iff] at hb
  rcases hb with hb | ⟨hb, ht⟩
  · exact .inl hb
  · rcases htype with htype | ⟨htype, -⟩
    · exact .inr ⟨hb, (Value.string.inj (ht.symm.trans htype)).symm⟩
    · cases ht.symm.trans htype

theorem image?_eq_none {b : Block} (hb : isImage b = false) : image? b = none := by
  rw [Option.eq_none_iff_forall_ne_some]
  intro image himage
  obtain ⟨p, hp, -, hflavour⟩ := image?_eq_some_iff.1 himage
  rw [← Bool.not_eq_true, isImage_iff] at hb
  rcases hflavour with hflavour | ⟨hflavour, htype⟩
  · exact hb (.inl hflavour)
  · rcases (of_props?_embed hp).2 with ht | ⟨-, ht⟩
    · exact hb (.inr ⟨hflavour, htype ▸ ht⟩)
    · simp [ht] at htype

/-- A block whose props can be read is reported with its image, unless the reference stands under
another name. -/
theorem reference?_eq {b : Block} (h : isReadable b = true) : reference? b =
    if (b.props.lookup "sourceId").isSome then
      ((image? b).map ImageProps.sourceId).filter fun ref => !ref.isEmpty
    else none := by
  unfold reference? Block.prop
  cases hb : isImage b with
  | false =>
    rw [image?_eq_none hb]
    split <;> simp
  | true =>
    obtain ⟨image, himage, hsource⟩ := image?_eq h hb
    rw [himage]
    cases hv : b.props.lookup "sourceId" with
    | none => rfl
    | some v =>
      rw [hsource v hv]
      simp [Option.filter]

theorem reference?_eq_shown?_iff (p : Placement) : reference? p.block = p.shown? ↔ p.Agrees := by
  unfold Placement.Agrees Placement.shown? Placement.image?
  cases hpad : p.pad? with
  | none => simp
  | some pad =>
    rw [reference?_eq (p.readable (hpad ▸ rfl))]
    split
    · next h => simp [h]
    · next h => simp [h, eq_comm]

mutual

theorem references_eq_filterMap (b : Block) : references b = b.subtree.filterMap reference? := by
  cases b with
  | mk id tag props children =>
    rw [references, Block.subtree, List.filterMap_cons, referencesAmong_eq_filterMap]
    cases reference? ⟨id, tag, props, children⟩ <;> rfl

theorem referencesAmong_eq_filterMap (bs : List Block) :
    referencesAmong bs = (Block.subtrees bs).filterMap reference? := by
  cases bs with
  | nil => rfl
  | cons b bs =>
    rw [referencesAmong, Block.subtrees, List.filterMap_append, references_eq_filterMap,
      referencesAmong_eq_filterMap]

end

/-- The report goes through all blocks of the tree. -/
theorem references_eq_reduceOption (pad : Option Text) (b : Block) :
    references b = ((placements pad b).map fun p => reference? p.block).reduceOption := by
  rw [references_eq_filterMap, ← block_placements pad, List.filterMap_map, List.reduceOption,
    List.filterMap_map]
  rfl

theorem toPage_eq_ok {template : String} {o : Options} {b : Block} {page : Page}
    (h : (toPage template o b).value = .ok page) :
    (blockText o template.toList [] b).run.value = .ok page.markdown.toList ∧
      page.assetIds = references b := by
  unfold toPage at h
  rw [Logged.value_bind] at h
  cases ht : (blockText o template.toList [] b).run.value with
  | error e =>
    rw [ht] at h
    cases h
  | ok t =>
    rw [ht] at h
    cases h
    exact ⟨by simp, rfl⟩

theorem exists_of_mapM_eq_ok {α β ε : Type} {f : α → Except ε β} {as : List α} {bs : List β}
    (h : as.mapM f = .ok bs) : ∀ a ∈ as, ∃ b, f a = .ok b := by
  induction as generalizing bs with
  | nil => simp
  | cons a as ih =>
    rw [List.mapM_cons] at h
    cases ha : f a with
    | error e =>
      rw [ha] at h
      cases h
    | ok b =>
      cases has : as.mapM f with
      | error e =>
        rw [ha, has] at h
        cases h
      | ok bs => exact List.forall_mem_cons.2 ⟨⟨b, ha⟩, ih has⟩

/-- The text of a page is made of what its blocks add in pre-order: an image by the template, or a text
on which the template has no bearing. The report goes through the same blocks. It names the images
of the text, block by block, just if each image in the text has its reference under the name that
the report looks for, and no block that the text leaves out has one there. -/
theorem images_toPage_iff {template : String} {o : Options} {b : Block} {page : Page}
    (h : (toPage template o b).value = .ok page) :
    (∃ shares, (placements (some []) b).mapM (Placement.share o template.toList) = .ok shares ∧
      page.markdown = String.ofList shares.flatten) ∧
    (∀ p ∈ placements (some []) b, match p.image? with
      | some image => ∃ pad url, Template.fill argumentName image.sourceId.toList template.toList = .ok url ∧
          p.share o template.toList = .ok (pad ++ imageText url image)
      | none => ∀ template', p.share o template' = p.share o template.toList) ∧
    page.assetIds = ((placements (some []) b).map fun p => reference? p.block).reduceOption ∧
    (((placements (some []) b).map fun p => reference? p.block) =
        (placements (some []) b).map Placement.shown? ↔
      ∀ p ∈ placements (some []) b, p.Agrees) := by
  obtain ⟨htext, hids⟩ := toPage_eq_ok h
  have hshares : sharesText o template.toList (placements (some []) b) = .ok page.markdown.toList := by
    rw [sharesText_placements, Option.elim_some, htext]
  unfold sharesText at hshares
  cases hmap : (placements (some []) b).mapM (Placement.share o template.toList) with
  | error e =>
    rw [hmap] at hshares
    cases hshares
  | ok shares =>
    rw [hmap] at hshares
    have hflatten : shares.flatten = page.markdown.toList := Except.ok.inj hshares
    refine ⟨⟨shares, rfl, by rw [hflatten, String.ofList_toList]⟩, fun p hp => ?_, ?_, ?_⟩
    · cases himage : p.image? with
      | none => exact Placement.share_of_no_image himage o template.toList
      | some image =>
        obtain ⟨pad, hshare⟩ := Placement.share_of_image himage o template.toList
        obtain ⟨t, ht⟩ := exists_of_mapM_eq_ok hmap p hp
        rw [hshare] at ht
        cases hfill : Template.fill argumentName image.sourceId.toList template.toList with
        | error e =>
          rw [hfill] at ht
          cases ht
        | ok url => exact ⟨pad, url, hfill, by rw [hshare, hfill]; rfl⟩
    · rw [hids, references_eq_reduceOption]
    · rw [List.map_inj_left]
      exact forall₂_congr fun p _ => reference?_eq_shown?_iff p

/-- An image, and a paragraph with unreadable props above a rule. -/
def photoNote : Block :=
  ⟨"n", "affine:note", [], [⟨"i", "affine:image", [("sourceId", .string "x")], []⟩,
    ⟨"p", "affine:paragraph", [("type", .int 1)], [⟨"d", "affine:divider", [], []⟩]⟩]⟩

theorem images_toPage_photoNote :
    (toPage defaultTemplate {} photoNote).value = .ok ⟨"\n![x](assets/x)\n\n", ["x"]⟩ ∧
    (placements (some []) photoNote).map Placement.shown? = [none, some "x", none, none] ∧
    ∀ p ∈ placements (some []) photoNote, p.Agrees := by
  have h : (toPage defaultTemplate {} photoNote).value = .ok ⟨"\n![x](assets/x)\n\n", ["x"]⟩ := by rfl
  have hshown : (placements (some []) photoNote).map Placement.shown? = [none, some "x", none, none] := by
    rfl
  exact ⟨h, hshown, (images_toPage_iff h).2.2.2.1 (by rfl)⟩

/-- An image whose reference stands under the other name is in the text, but not in the report. -/
theorem images_toPage_otherName :
    (toPage defaultTemplate {} ⟨"i", "affine:image", [("source_id", .string "x")], []⟩).value =
      .ok ⟨"\n![x](assets/x)\n\n", []⟩ ∧
    (placements (some []) ⟨"i", "affine:image", [("source_id", .string "x")], []⟩).map
      Placement.shown? = [some "x"] := by
  constructor <;> rfl

end PageExport.Legacy
