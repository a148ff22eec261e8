import Mathlib.Data.List.Forall2
import PageExport.Proofs.Walk.Images

/-!
What a visit changes, wherever it starts: the references noted and the images put down go behind
those before them, the depth is as before, and no open node but a list is closed.
-/
namespace PageExport

open Markdown (Node NodeType nodesOfInlines)

namespace Walk

/-- From `s` to `t` these references were noted and these images put down, each behind all others; the
depth is the same, and all open nodes can hold children. -/
structure Added (ids : List String) (images : List Node) (s t : WalkState) : Prop where
  depth : t.context.global = s.context.global
  assetIds : t.assetIds = s.assetIds ++ ids
  images : t.context.tree.images = s.context.tree.images ++ images
  parents : ∀ o ∈ t.context.stack, o.IsParent

/-- And no node that was open is closed but lists. -/
structure Moved (ids : List String) (images : List Node) (s t : WalkState) : Prop
    extends Added ids images s t where
  stays : ∀ o rest, o.node.type ≠ .list → Over o rest s.context.stack → Over o rest t.context.stack

variable {α β : Type} {ids ids' : List String} {images images' : List Node} {s t u : WalkState}

theorem Added.trans (h : Added ids images s t) (h' : Added ids' images' t u) :
    Added (ids ++ ids') (images ++ images') s u where
  depth := h'.depth.trans h.depth
  assetIds := by rw [h'.assetIds, h.assetIds, List.append_assoc]
  images := by rw [h'.images, h.images, List.append_assoc]
  parents := h'.parents

namespace Moved

theorem trans (h : Moved ids images s t) (h' : Moved ids' images' t u) :
    Moved (ids ++ ids') (images ++ images') s u where
  toAdded := h.toAdded.trans h'.toAdded
  stays := fun o rest ho hover => h'.stays o rest ho (h.stays o rest ho hover)

section
variable (h : ∀ o ∈ s.context.stack, o.IsParent)
include h

theorem of_context (hc : t.context = s.context) (hids : t.assetIds = s.assetIds ++ ids) :
    Moved ids [] s t where
  depth := by rw [hc]
  assetIds := hids
  images := by rw [hc, List.append_nil]
  parents := by rwa [hc]
  stays := by rw [hc]; exact fun _ _ _ hover => hover

theorem of_extend {ns : List Node} (hc : t.context = s.context.extend ns)
    (hids : t.assetIds = s.assetIds) : Moved [] (ns.flatMap Node.images) s t where
  depth := by rw [hc]; rfl
  assetIds := by rw [hids, List.append_nil]
  images := by rw [hc, images_extend h]
  parents := by
    rw [hc]
    obtain ⟨hcur, hout⟩ := List.forall_mem_cons.1 h
    refine List.forall_mem_cons.2 ⟨?_, hout⟩
    simpa [OpenNode.IsParent, Context.extend] using hcur
  stays := fun _ _ _ hover => by
    rw [hc]
    exact hover.addChildren ns

theorem of_push {n : Node} (hn : n.children?.isSome) {scope : Option String}
    (hc : t.context = push n scope s.context) (hids : t.assetIds = s.assetIds) :
    Moved [] n.images s t where
  depth := by rw [hc]; rfl
  assetIds := by rw [hids, List.append_nil]
  images := by rw [hc, tree_push, images_extend h, List.flatMap_singleton]
  parents := by
    rw [hc]
    exact List.forall_mem_cons.2 ⟨hn, h⟩
  stays := fun _ _ _ hover => by
    rw [hc]
    exact hover.append [⟨n, scope⟩]

end

end Moved

theorem added_popped (h : ∀ o ∈ s.context.stack, o.IsParent) {o : OpenNode (Option String)}
    {outer : List (OpenNode (Option String))} (ho : s.context.outer = o :: outer) :
    Added [] [] s { s with context := popped o outer s.context } where
  depth := rfl
  assetIds := (List.append_nil _).symm
  images := by rw [tree_popped ho, List.append_nil]
  parents := by
    obtain ⟨-, hout⟩ := List.forall_mem_cons.1 h
    rw [ho] at hout
    obtain ⟨hcur, hrest⟩ := List.forall_mem_cons.1 hout
    refine List.forall_mem_cons.2 ⟨?_, hrest⟩
    simpa [OpenNode.IsParent, popped] using hcur

theorem leads_closeNode_cases {Q : Unit → WalkState → Prop} {E : WalkFault → WalkState → Prop}
    (hE : ∀ e, E e s) (hQ : ∀ o outer, s.context.outer = o :: outer →
      Q () { s with context := popped o outer s.context }) : Leads closeNode s Q E := by
  cases ho : s.context.outer with
  | nil =>
    simp only [Leads, closeNode, onContext, Context.closeNode, ho]
    exact hE _
  | cons o outer =>
    simp only [Leads, closeNode, onContext, Context.closeNode, ho]
    exact hQ o outer ho

/-- However the walk ends, the depth is the one before; if it ends without a fault, it moved on. -/
def Moves (ids : List String) (images : List Node) (x : Walk α) : Prop :=
  ∀ ⦃s : WalkState⦄, (∀ o ∈ s.context.stack, o.IsParent) →
    Leads x s (fun _ t => Moved ids images s t) fun _ t => t.context.global = s.context.global

theorem moves_pure (a : α) : Moves [] [] (pure a) :=
  fun s h => leads_pure (s := s) a (.of_context h rfl (List.append_nil _).symm)

theorem moves_bind {x : Walk α} {f : α → Walk β} (h : Moves ids images x)
    (hf : ∀ a, Moves ids' images' (f a)) : Moves (ids ++ ids') (images ++ images') (x >>= f) := by
  refine fun s hs => leads_bind ((h hs).mono (fun a t ht => ?_) fun _ _ he => he)
  exact (hf a ht.parents).mono (fun _ _ hu => ht.trans hu) fun _ _ he => he.trans ht.depth

theorem moves_logged (x : Logged α) : Moves [] [] (logged x) :=
  fun _ h => leads_logged (.of_context h rfl (List.append_nil _).symm)

theorem moves_note (level : Level) (message : String) : Moves [] [] (note level message) :=
  moves_logged _

theorem moves_append (n : Node) : Moves [] n.images (append n) := by
  intro s h
  refine leads_append (h _ List.mem_cons_self) ?_
  have hmoved := Moved.of_extend (t := { s with context := s.context.extend [n] }) h rfl rfl
  rwa [List.flatMap_singleton] at hmoved

theorem moves_appendInside {n child : Node} (hn : n.children?.isSome) :
    Moves [] (n.images ++ child.images) (appendInside n child) := by
  intro s h
  refine leads_appendInside (h _ List.mem_cons_self) hn ?_
  have hmoved := Moved.of_extend
    (t := { s with context := s.context.extend [n.addChildren [child]] }) h rfl rfl
  rwa [List.flatMap_singleton, Node.images_addChildren hn, List.flatMap_singleton] at hmoved

theorem moves_openList (ordered : Bool) (parent : Option String) :
    Moves [] [] (openList ordered parent) := by
  intro s h
  have hc : s.context.current.node.children?.isSome := h _ List.mem_cons_self
  have hrun : openList ordered parent s = .ok () { s with
      context := push (.list ordered none false []) parent s.context } := by
    simp [openList, openNode, onContext, Context.openNode, hc, push, Context.setScope, bind,
      EStateM.bind]
  exact leads_of_eq hrun (.of_push (n := .list ordered none false []) h rfl rfl rfl)

/-- A step that only looks at the state. -/
theorem moves_look (f : WalkState → α) : Moves [] [] fun s => .ok (f s) s :=
  fun _ h => .of_context h rfl (List.append_nil _).symm

theorem moves_currentSignature : Moves [] [] currentSignature := by
  intro s h
  unfold Leads currentSignature
  cases ListSignature.ofNode s.context.current.node with
  | ok prior => exact .of_context h rfl (List.append_nil _).symm
  | error e => rfl

theorem moves_closeList (parent : Option String) : Moves [] [] (closeList parent) := by
  intro s h
  have hstay : Leads (pure ()) s (fun _ t => Moved [] [] s t)
      fun _ t => t.context.global = s.context.global :=
    .of_context h rfl (List.append_nil _).symm
  by_cases hcur : s.context.current.node.type = .list ∧ s.context.current.scope = parent
  · have hclose : closeList parent s = closeNode s := by
      obtain ⟨ht, hs⟩ := hcur
      unfold closeList
      cases hn : s.context.current.node <;> simp_all [Node.type]
    rw [Leads, hclose]
    refine leads_closeNode_cases (fun _ => rfl) fun o outer ho => ⟨added_popped h ho, ?_⟩
    intro x rest hx hover
    rw [Context.stack, ho] at hover
    exact (hover.tail (by rwa [hcur.1])).addChildren _
  · have hskip : closeList parent s = .ok () s := by
      unfold closeList
      cases hn : s.context.current.node <;> simp_all [Node.type]
    rw [Leads, hskip]
    exact hstay

/-- What was entered from `s` and led to `t` can be left: the references and images are those of the
block and of what followed, and the depth is that of `s` even after a fault. -/
structure Undone (leave : Leave) (ids : List String) (images : List Node) (s t : WalkState) :
    Prop where
  parents : ∀ o ∈ t.context.stack, o.IsParent
  leaves : ∀ ⦃ids' images' u⦄, Moved ids' images' t u →
    Leads (undo leave) u (fun _ v => Moved (ids ++ ids') (images ++ images') s v)
      fun _ v => v.context.global = s.context.global
  fails : ∀ ⦃u : WalkState⦄, u.context.global = t.context.global →
    Leads (undo leave) u (fun _ v => v.context.global = s.context.global)
      fun _ v => v.context.global = s.context.global

theorem Moved.undone {leave : Leave} (h : Moved ids images s t)
    (h' : Undone leave ids' images' t u) : Undone leave (ids ++ ids') (images ++ images') s u where
  parents := h'.parents
  leaves := fun ids'' images'' v hv => (h'.leaves hv).mono (fun _ w hw => by
    rw [List.append_assoc, List.append_assoc]
    exact h.trans hw) fun _ w hw => hw.trans h.depth
  fails := fun v hv => (h'.fails hv).mono (fun _ w hw => hw.trans h.depth)
    fun _ w hw => hw.trans h.depth

theorem Undone.trans {leave : Leave} (h : Undone leave ids images s t)
    (h' : Moved ids' images' t u) : Undone leave (ids ++ ids') (images ++ images') s u where
  parents := h'.parents
  leaves := fun ids'' images'' v hv => by
    rw [List.append_assoc, List.append_assoc]
    exact h.leaves (h'.trans hv)
  fails := fun _ hv => h.fails (hv.trans h'.depth)

section
variable (h : ∀ o ∈ s.context.stack, o.IsParent)
include h

theorem undone_nothing : Undone .nothing [] [] s s where
  parents := h
  leaves := fun _ _ _ hu => hu
  fails := fun _ hu => hu

theorem undone_leaveParagraph
    (hc : t.context = { s.context with global := s.context.global + 1 })
    (hids : t.assetIds = s.assetIds) : Undone .leaveParagraph [] [] s t where
  parents := by
    rw [hc]
    exact h
  leaves := fun ids' images' u hu => by
    have hdepth : u.context.global - 1 = s.context.global := by rw [hu.depth, hc]; rfl
    have hadded : Added ids' images' s { u with
        context := { u.context with global := u.context.global - 1 } } := by
      refine ⟨hdepth, by rw [hu.assetIds, hids], ?_, hu.parents⟩
      have himages := hu.images
      rw [hc] at himages
      exact himages
    refine ⟨hadded, fun o rest ho hover => hu.stays o rest ho ?_⟩
    rw [hc]
    exact hover
  fails := fun u hu => by
    change u.context.global - 1 = s.context.global
    rw [hu, hc]
    rfl

theorem undone_closeItem {item : Node} (hitem : item.type = .listItem) (himages : item.images = [])
    (hc : t.context = push item none s.context) (hids : t.assetIds = s.assetIds) :
    Undone .closeItem [] [] s t := by
  have hsome : item.children?.isSome := by cases item <;> simp_all [Node.type, Node.children?]
  have hopened : Moved [] [] s t := himages ▸ Moved.of_push h hsome hc hids
  refine ⟨hopened.parents, fun ids' images' u hu => ?_, fun u hu => ?_⟩
  · -- the item is still open, so that above the nodes of `s` there is one to close
    have hover : Over ⟨item, none⟩ s.context.stack u.context.stack := by
      refine hu.stays _ _ (by simp [hitem]) ?_
      rw [hc]
      exact .refl _ _
    have hmoved := hopened.trans hu
    refine leads_closeNode_cases (fun _ => hmoved.depth) fun o outer ho => ?_
    refine ⟨?_, fun x rest hx hxover => ?_⟩
    · have hadded := hmoved.toAdded.trans (added_popped hu.parents ho)
      simpa using hadded
    · have htail : Over x rest (o :: outer) := by
        obtain ⟨above, ns, hstack⟩ := hover
        rw [Context.stack, ho] at hstack
        cases above with
        | nil =>
          rw [(List.cons.inj hstack).2]
          exact hxover
        | cons y above =>
          rw [(List.cons.inj hstack).2]
          exact (hxover.append [_]).append above
      exact htail.addChildren _
  · have hdepth : u.context.global = s.context.global := hu.trans hopened.depth
    exact leads_closeNode_cases (fun _ => hdepth) fun o outer _ => hdepth

end

/-- Entering a block; whether its children are visited, and what it notes and puts down itself. -/
def Enters (descend : Bool) (ids : List String) (images : List Node) (x : Walk Entry) : Prop :=
  ∀ ⦃s : WalkState⦄, (∀ o ∈ s.context.stack, o.IsParent) →
    Leads x s (fun entry t => entry.descend = descend ∧ Undone entry.leave ids images s t)
      fun _ t => t.context.global = s.context.global

theorem enters_pure : Enters true [] [] (pure {}) :=
  fun _ h => leads_pure _ ⟨rfl, undone_nothing h⟩

theorem enters_bind {descend : Bool} {x : Walk α} {f : α → Walk Entry} (h : Moves ids images x)
    (hf : ∀ a, Enters descend ids' images' (f a)) :
    Enters descend (ids ++ ids') (images ++ images') (x >>= f) := by
  refine fun s hs => leads_bind ((h hs).mono (fun a t ht => ?_) fun _ _ he => he)
  exact (hf a ht.parents).mono (fun entry u hu => ⟨hu.1, ht.undone hu.2⟩)
    fun _ _ he => he.trans ht.depth

/-- A first step that neither notes nor puts down anything. -/
theorem enters_next {descend : Bool} {x : Walk α} {f : α → Walk Entry} (h : Moves [] [] x)
    (hf : ∀ a, Enters descend ids images (f a)) : Enters descend ids images (x >>= f) :=
  enters_bind h hf

theorem enters_withProps {descend : Bool} {read : Members → Logged (Reading α)} {b : Block}
    {f : α → Walk Entry} (hf : ∀ p, b.props? read = some p → Enters descend ids images (f p))
    (hn : b.props? read = none → Enters descend ids images (pure {})) :
    Enters descend ids images (withProps read b f) := by
  intro s h
  have hlog (log : Log) : Moved [] [] s { s with log := log } :=
    .of_context h rfl (List.append_nil _).symm
  refine leads_withProps (fun p hp log => ?_) fun hp log => ?_
  · exact (hf p hp (hlog log).parents).mono (fun _ _ hu => ⟨hu.1, (hlog log).undone hu.2⟩)
      fun _ _ he => he
  · obtain ⟨hd, hu⟩ := hn hp (hlog log).parents
    exact ⟨hd, (hlog log).undone hu⟩

theorem enters_append {n : Node} (h : n.images = []) :
    Enters true [] [] (append n >>= fun _ => pure {}) :=
  enters_next (h ▸ moves_append n) fun _ => enters_pure

theorem moves_appendParagraph (b : Block) (p : ParagraphProps) (depth : Nat) :
    Moves [] [] (appendParagraph b p depth) := by
  have hinlines (n : Node) (d : Nat) (ht : n.type ≠ .image)
      (hn : n.children = nodesOfInlines (Delta.content d p.text)) : n.images = [] := by
    rw [Node.images_eq, if_neg ht, hn, Markdown.images_content]
    rfl
  unfold appendParagraph
  split
  · exact hinlines (.heading _ _) depth (by simp [Node.type]) rfl ▸ moves_append _
  · exact hinlines (.paragraph _) depth (by simp [Node.type]) rfl ▸ moves_append _
  · have hchild := hinlines (.paragraph (nodesOfInlines (Delta.content 0 p.text))) 0
      (by simp [Node.type]) rfl
    have hquote : Moves [] ((Node.blockquote []).images ++ _) (appendInside (.blockquote [])
        (.paragraph (nodesOfInlines (Delta.content 0 p.text)))) := moves_appendInside rfl
    rw [hchild] at hquote
    exact hquote
  · exact moves_note _ _

theorem enters_code (b : Block) : Enters true [] [] (enterCode b) :=
  enters_withProps (fun _ _ => enters_append rfl) fun _ => enters_pure

theorem enters_page (b : Block) : Enters true [] [] (enterPage b) := by
  refine enters_withProps (fun p _ => ?_) fun _ => enters_pure
  split
  · exact enters_next (moves_pure ()) fun _ => enters_pure
  · have himages : (Node.paragraph (nodesOfInlines (Delta.content 0 p.title))).images = [] := by
      rw [Node.images_eq]
      exact Markdown.images_content 0 p.title
    exact enters_append himages

theorem enters_other (b : Block) : Enters true [] [] (enterOther b) := by
  unfold enterOther
  split
  · exact enters_next (moves_pure ()) fun _ => enters_pure
  · exact enters_next (moves_note _ _) fun _ => enters_pure

theorem enters_database {b : Block} (hb : b.flavour = .database) :
    Enters b.descends [] [] (enterDatabase b) := by
  refine enters_withProps (fun p hp => ?_) fun hp => ?_
  · have hd : b.descends = false := by simp [Block.descends, hb, hp]
    rw [hd]
    refine enters_next (moves_logged _) fun grid => enters_next ?_ fun _ s h => ?_
    · exact Markdown.images_gridNode grid ▸ moves_append grid.toNode
    · exact leads_pure _ ⟨rfl, undone_nothing h⟩
  · have hd : b.descends = true := by simp [Block.descends, hp]
    rw [hd]
    exact enters_pure

theorem enters_paragraph (b : Block) : Enters true [] [] (enterParagraph b) := by
  refine enters_withProps (fun p _ s h => ?_) fun _ => enters_pure
  refine leads_bind (leads_bind ((moves_appendParagraph b p _ h).mono (fun _ t ht => ?_)
    fun _ _ he => he))
  have hdeeper : Undone .leaveParagraph [] [] t { t with
      context := { t.context with global := s.context.global + 1 } } :=
    undone_leaveParagraph ht.parents (by rw [ht.depth]) rfl
  exact ⟨rfl, ht.undone hdeeper⟩

theorem enters_list (b : Block) (parent : Option String) :
    Enters true [] [] (enterList b parent) := by
  refine enters_withProps (fun p _ => ?_) fun _ => enters_pure
  have item : Enters true [] [] (do
      openNode (.listItem p.checkState false [])
      append (.paragraph (nodesOfInlines (Delta.content 0 p.text)))
      return ⟨true, .closeItem⟩) := by
    intro s h
    have hc : s.context.current.node.children?.isSome := h _ List.mem_cons_self
    have htext : (Node.paragraph (nodesOfInlines (Delta.content 0 p.text))).images = [] := by
      rw [Node.images_eq]
      exact Markdown.images_content 0 p.text
    let item : Node := .listItem p.checkState false []
    let t : WalkState := { s with context := push item none s.context }
    have hopen : openNode item s = .ok () t := by
      simp only [openNode, onContext, Context.openNode, hc, ↓reduceIte]
      rfl
    have hleave : Undone .closeItem [] [] s t := undone_closeItem h rfl rfl rfl rfl
    refine leads_bind (leads_of_eq hopen (leads_bind ?_))
    exact ((htext ▸ moves_append _) hleave.parents).mono
      (fun _ u hu => ⟨rfl, hleave.trans hu⟩) fun _ _ he => he
  refine enters_next moves_currentSignature fun prior => enters_next (moves_look _) fun owner => ?_
  split
  · exact item
  · exact enters_next (moves_closeList parent) fun _ => enters_next (moves_openList _ parent) fun _ => item

end Walk

/-- The reference and the image of an image block whose asset is there. -/
def Block.picture? (assets : Option Resolver) (b : Block) : Option (String × Node) :=
  match b.flavour, assets with
  | .image, some r =>
    (b.props? ImageProps.read).bind fun p =>
      (r.asset? p.sourceId).map fun a => (p.sourceId, .image (a.url p.sourceId) none a.name)
  | _, _ => none

namespace Walk

theorem moves_addAssetId (ref : String) : Moves [ref] [] (addAssetId ref) :=
  fun _ h => .of_context h rfl rfl

theorem enters_image {assets : Option Resolver} {b : Block} (hb : b.flavour = .image) :
    Enters true ((b.picture? assets).toList.map Prod.fst) ((b.picture? assets).toList.map Prod.snd)
      (enterImage (assets.map .steady) b) := by
  cases assets with
  | none =>
    have hnone : b.picture? none = none := by simp [Block.picture?]
    rw [hnone]
    exact enters_pure
  | some r =>
    refine enters_withProps (fun p hp s h => ?_) fun hp => ?_
    · have hlog (log : Log) (asked : List String) :
          Moved [] [] s { s with log := log, asked := asked } :=
        .of_context h rfl (List.append_nil _).symm
      refine leads_bind (leads_resolve (fun log => ?_) fun _ _ _ _ => rfl)
      rw [Resolver.steady]
      cases ha : r.asset? p.sourceId with
      | none =>
        have hnone : b.picture? (some r) = none := by simp [Block.picture?, hb, hp, ha]
        rw [hnone]
        exact leads_pure _ ⟨rfl, (hlog log _).undone (undone_nothing (hlog log _).parents)⟩
      | some a =>
        have hsome : b.picture? (some r) =
            some (p.sourceId, .image (a.url p.sourceId) none a.name) := by
          simp [Block.picture?, hb, hp, ha]
        rw [hsome]
        have himage : Moves [] [.image (a.url p.sourceId) none a.name]
            (appendInside (.paragraph []) (.image (a.url p.sourceId) none a.name)) :=
          moves_appendInside rfl
        have henters := enters_bind (moves_addAssetId p.sourceId) fun _ =>
          enters_bind himage fun _ => enters_pure
        exact (henters (hlog log _).parents).mono
          (fun _ _ hu => ⟨hu.1, (hlog log _).undone hu.2⟩) fun _ _ he => he
    · have hnone : b.picture? (some r) = none := by simp [Block.picture?, hb, hp]
      rw [hnone]
      exact enters_pure

theorem enters_enter (assets : Option Resolver) (b : Block) (parent : Option String) :
    Enters b.descends ((b.picture? assets).toList.map Prod.fst)
      ((b.picture? assets).toList.map Prod.snd) (enter (assets.map .steady) b parent) := by
  have hd (h : b.flavour ≠ .database) : b.descends = true := by simp [Block.descends, h]
  have hp (h : b.flavour ≠ .image) : b.picture? assets = none := by
    unfold Block.picture?
    split
    · next hb => exact absurd hb h
    · rfl
  unfold enter
  split
  · next h => rw [hd (by simp [h]), hp (by simp [h])]; exact enters_code b
  · next h => rw [hd (by simp [h]), hp (by simp [h])]; exact enters_paragraph b
  · next h => rw [hd (by simp [h]), hp (by simp [h])]; exact enters_list b parent
  · next h => rw [hd (by simp [h]), hp (by simp [h])]; exact enters_append rfl
  · next h => rw [hd (by simp [h])]; exact enters_image h
  · next h => rw [hd (by simp [h]), hp (by simp [h])]; exact enters_page b
  · next h => rw [hp (by simp [h])]; exact enters_database h
  all_goals
    next h => rw [hd (by simp [h]), hp (by simp [h])]; exact enters_other b

theorem Undone.leads_withLeave {leave : Leave} {body : Walk Unit}
    (h : Undone leave ids images s t) (hbody : Moves ids' images' body) :
    Leads (withLeave body (undo leave)) t
      (fun _ u => Moved (ids ++ ids') (images ++ images') s u)
      fun _ u => u.context.global = s.context.global :=
  Walk.leads_withLeave ((hbody h.parents).mono (fun _ _ hu => h.leaves hu) fun _ _ he => h.fails he)

end Walk

namespace Block

mutual

/-- The references and images of a tree, block by block. -/
def pictures (assets : Option Resolver) : Block → List (String × Node)
  | ⟨id, tag, props, children⟩ =>
    let b : Block := ⟨id, tag, props, children⟩
    (b.picture? assets).toList ++ if b.descends then picturesAmong assets children else []

def picturesAmong (assets : Option Resolver) : List Block → List (String × Node)
  | [] => []
  | b :: bs => b.pictures assets ++ picturesAmong assets bs

end

theorem pictures_eq (assets : Option Resolver) (b : Block) :
    b.pictures assets = (b.picture? assets).toList ++
      if b.descends then picturesAmong assets b.children else [] := by
  obtain ⟨id, tag, props, children⟩ := b
  rw [pictures]

end Block

namespace Walk

theorem enters_arrive (assets : Option Resolver) (parent : Option String) (b : Block) :
    Enters b.descends ((b.picture? assets).toList.map Prod.fst)
      ((b.picture? assets).toList.map Prod.snd) (arrive (assets.map .steady) parent b) := by
  unfold arrive
  split
  · exact enters_enter assets b parent
  · exact enters_next (moves_closeList parent) fun _ => enters_enter assets b parent

theorem moves_of_children {assets : Option Resolver} {b : Block} {parent : Option String}
    (ih : Moves ((Block.picturesAmong assets b.children).map Prod.fst)
      ((Block.picturesAmong assets b.children).map Prod.snd)
      (visitAll (assets.map .steady) (some b.id) b.children)) :
    Moves ((b.pictures assets).map Prod.fst) ((b.pictures assets).map Prod.snd)
      (visit (assets.map .steady) parent b) := by
  intro s h
  rw [visit_eq_arrive]
  refine leads_bind ((enters_arrive assets parent b h).mono (fun entry t ht => ?_) fun _ _ he => he)
  obtain ⟨hd, hleave⟩ := ht
  unfold within
  rw [hd, Block.pictures_eq, List.map_append, List.map_append]
  by_cases hb : b.descends
  · rw [if_pos hb, if_pos hb]
    have hchildren := moves_bind ih fun _ => moves_closeList (some b.id)
    rw [List.append_nil, List.append_nil] at hchildren
    exact hleave.leads_withLeave hchildren
  · rw [if_neg hb, if_neg hb]
    exact hleave.leads_withLeave (moves_pure ())

mutual

theorem moves_visit (assets : Option Resolver) (parent : Option String) : (b : Block) →
    Moves ((b.pictures assets).map Prod.fst) ((b.pictures assets).map Prod.snd)
      (visit (assets.map .steady) parent b)
  | ⟨id, _, _, children⟩ => moves_of_children (moves_visitAll assets (some id) children)

theorem moves_visitAll (assets : Option Resolver) (parent : Option String) : (bs : List Block) →
    Moves ((Block.picturesAmong assets bs).map Prod.fst)
      ((Block.picturesAmong assets bs).map Prod.snd) (visitAll (assets.map .steady) parent bs)
  | [] => moves_pure ()
  | b :: bs => by
    rw [Block.picturesAmong, List.map_append, List.map_append, visitAll]
    exact moves_bind (moves_visit assets parent b) fun _ => moves_visitAll assets parent bs

end

end Walk

/-- The node is the image of the asset that the resolver has for the reference. -/
def Depicts (assets : Option Resolver) (ref : String) (n : Node) : Prop :=
  ∃ r ∈ assets, ∃ a, (r ref).value = .ok (some a) ∧ n = .image (a.url ref) none a.name

theorem depicts_picture? {assets : Option Resolver} {b : Block} {x : String × Node}
    (h : b.picture? assets = some x) : Depicts assets x.1 x.2 := by
  unfold Block.picture? at h
  split at h
  · next r _ =>
    obtain ⟨p, -, h⟩ := Option.bind_eq_some_iff.1 h
    obtain ⟨a, ha, rfl⟩ := Option.map_eq_some_iff.1 h
    refine ⟨r, rfl, a, ?_, rfl⟩
    unfold Resolver.asset? at ha
    split at ha
    · next hr => rw [hr, ha]
    · cases ha
  · cases h

namespace Block

mutual

theorem depicts_pictures (assets : Option Resolver) : (b : Block) →
    ∀ x ∈ b.pictures assets, Depicts assets x.1 x.2
  | ⟨id, tag, props, children⟩ => by
    rw [pictures_eq, List.forall_mem_append]
    refine ⟨fun x hx => depicts_picture? (Option.mem_toList.1 hx), ?_⟩
    split
    · exact depicts_picturesAmong assets children
    · simp

theorem depicts_picturesAmong (assets : Option Resolver) : (bs : List Block) →
    ∀ x ∈ picturesAmong assets bs, Depicts assets x.1 x.2
  | [] => by simp [picturesAmong]
  | b :: bs => by
    rw [picturesAmong, List.forall_mem_append]
    exact ⟨depicts_pictures assets b, depicts_picturesAmong assets bs⟩

end

end Block

/-- The references of a walk are those of its images in pre-order, one by one, and both are those of
the blocks whose assets are there; only a fault of the resolver keeps a walk from its end. -/
theorem walk_images (assets : Option Resolver) (b : Block) :
    match (b.walk assets (.root [])).value with
    | .ok result =>
      List.Forall₂ (Depicts assets) result.assetIds result.tree.images ∧
        result.assetIds = (b.pictures assets).map Prod.fst
    | .error e => Walk.StopsAt assets e := by
  let s : WalkState := { context := .start (.root []) 0 }
  have hparents : ∀ o ∈ s.context.stack, o.IsParent := by
    intro o ho
    rw [List.mem_singleton.1 ho]
    rfl
  have hmoved : Walk.Leads (Walk.visit (assets.map .steady) none b) s _ _ :=
    Walk.moves_visit assets none b hparents
  have hkept := walk_kept assets b
  unfold Walk.Leads at hmoved
  unfold Block.walk Block.walkFrom at hkept ⊢
  cases hv : Walk.visit (assets.map .steady) none b s with
  | error e t =>
    rw [hv] at hkept
    exact hkept
  | ok a t =>
    rw [hv] at hmoved
    have hids : t.assetIds = (b.pictures assets).map Prod.fst := hmoved.assetIds
    have himages : t.context.tree.images = (b.pictures assets).map Prod.snd := hmoved.images
    refine ⟨?_, hids⟩
    change List.Forall₂ (Depicts assets) t.assetIds t.context.tree.images
    rw [hids, himages, List.forall₂_map_left_iff, List.forall₂_map_right_iff, List.forall₂_same]
    exact b.depicts_pictures assets

end PageExport
