import Mathlib.Logic.Relation
import PageExport.Proofs.Bind
import PageExport.Proofs.Walk.OpenLists

/-!
The visits that a walk makes, each on its own. However a visit ends, the depth is the one before it;
its fault, if it has one, is a fault of the resolver and that of the whole walk; and the node that is
closed when an item is left is the one that was opened for it.
-/
namespace PageExport

open Markdown (Node NodeType)

namespace Walk

variable {α β : Type} {x : Walk α} {s t u : WalkState} {e : WalkFault}

theorem Leads.of_eq_ok {Q : α → WalkState → Prop} {E : WalkFault → WalkState → Prop} {a : α}
    (h : Leads x s Q E) (hx : x s = .ok a t) : Q a t := by
  rwa [Leads, hx] at h

theorem Leads.of_eq_error {Q : α → WalkState → Prop} {E : WalkFault → WalkState → Prop}
    (h : Leads x s Q E) (hx : x s = .error e t) : E e t := by
  rwa [Leads, hx] at h

theorem Leads.and {Q R : α → WalkState → Prop} {E F : WalkFault → WalkState → Prop}
    (h : Leads x s Q E) (h' : Leads x s R F) :
    Leads x s (fun a t => Q a t ∧ R a t) fun e t => E e t ∧ F e t := by
  unfold Leads at h h' ⊢
  cases hx : x s with
  | ok a t =>
    rw [hx] at h h'
    exact ⟨h, h'⟩
  | error e t =>
    rw [hx] at h h'
    exact ⟨h, h'⟩

theorem withLeave_eq_ok_iff {body leave : Walk Unit} :
    withLeave body leave s = .ok () u ↔ ∃ t, body s = .ok () t ∧ leave t = .ok () u := by
  unfold withLeave
  cases body s with
  | ok a t => simp
  | error e t =>
    cases h : leave t with
    | ok a v => simp [h]
    | error e' v => simp [h]

section
variable {body leave : Walk Unit} (h : body s = .error e t)
include h

theorem withLeave_of_left (hleave : leave t = .ok () u) : withLeave body leave s = .error e u := by
  simp only [withLeave, h, hleave]

theorem withLeave_of_not_left {e' : WalkFault} (hleave : leave t = .error e' u) :
    withLeave body leave s = .error e' u := by
  simp only [withLeave, h, hleave]

end

theorem exists_context_of_onContext {f : WalkContext → Except ContextFault WalkContext}
    (h : onContext f s = .error e t) : ∃ fault, e = .context fault := by
  unfold onContext at h
  split at h
  · cases h
  · next fault _ =>
    cases h
    exact ⟨fault, rfl⟩

/-- A leave that fails does so because of the open nodes. -/
theorem exists_context_of_undo {leave : Leave} (h : undo leave s = .error e t) :
    ∃ fault, e = .context fault := by
  cases leave with
  | nothing => cases h
  | leaveParagraph => cases h
  | closeItem => exact exists_context_of_onContext h

theorem visitAll_append (assets : Option AssetSource) (parent : Option String) (as bs : List Block) :
    visitAll assets parent (as ++ bs) =
      visitAll assets parent as >>= fun _ => visitAll assets parent bs := by
  induction as with
  | nil => rw [List.nil_append, visitAll, pure_bind]
  | cons a as ih => rw [List.cons_append, visitAll, visitAll, ih, bind_assoc]

/-- Above a root or an item at most lists are open, each with an item at its start. -/
def Settled (s : WalkState) : Prop :=
  ∃ place rest owners, IsPlace place ∧ (∀ o ∈ rest, o.IsParent) ∧
    Stacked place rest owners s.context.stack

namespace Settled

variable {assets : Option AssetSource} {parent : Option String} {b : Block}

theorem parents (h : Settled s) : ∀ o ∈ s.context.stack, o.IsParent := by
  obtain ⟨place, rest, owners, hp, hr, hs⟩ := h
  exact hs.isParent_of_mem hp hr

theorem of_item {item : Node} {scope : Option String} {rest : List (OpenNode (Option String))}
    (h : s.context.stack = ⟨item, scope⟩ :: rest) (hitem : item.type = .listItem)
    (hr : ∀ o ∈ rest, o.IsParent) : Settled s :=
  ⟨.listItem, rest, [], .item, hr, _, h, hitem⟩

/-- An item opens in a list. -/
theorem leads_arrive_item (h : Settled s) (hb : b.isItem = true) (assets : Option AssetSource)
    (parent : Option String) : ∃ p, b.props? ListProps.read = some p ∧
      Leads (arrive assets parent b) s
        (fun entry t => entry = ⟨true, .closeItem⟩ ∧
          ∃ l outer, t.context.stack = ⟨itemNode p, none⟩ :: l :: outer ∧
            ∀ o ∈ l :: outer, o.IsParent)
        fun e _ => HaltsAt assets e := by
  obtain ⟨place, rest, owners, hp, hr, hs⟩ := h
  obtain ⟨hflavour, p, hprops⟩ := Block.isItem_iff.1 hb
  obtain ⟨prior, hprior⟩ := hs.exists_signature hp
  refine ⟨p, hprops, Walk.leads_arrive_item hflavour hprops hprior (hs.type_ne_list hp)
    (hs.isParent hp) ((hs.closed hp.ne_list parent).isParent hp) fun t ht => ⟨rfl, ?_⟩⟩
  obtain ⟨l, outer, hstack, -, hback⟩ := hs.itemEntered hp.ne_list p parent hprior
  refine ⟨l, outer, by rw [ht, hstack], ?_⟩
  obtain ⟨hl, houter⟩ := List.forall_mem_cons.1 ((hback (itemNode p) rfl).isParent_of_mem hp hr)
  exact List.forall_mem_cons.2 ⟨by simpa [OpenNode.IsParent] using hl, houter⟩

theorem leads_arrive (h : Settled s) :
    Leads (arrive assets parent b) s (fun _ t => Settled t) fun e _ => HaltsAt assets e := by
  by_cases hb : b.isItem
  · obtain ⟨p, -, ha⟩ := h.leads_arrive_item hb assets parent
    refine ha.mono (fun entry t ht => ?_) fun _ _ he => he
    obtain ⟨-, l, outer, hstack, hparents⟩ := ht
    exact of_item hstack rfl hparents
  · obtain ⟨place, rest, owners, hp, hr, hs⟩ := h
    have ha := stacked_arrived hs hp parent b
    refine leads_arrive_other (by simpa using hb) (hs.type_ne_list hp) (ha.isParent hp)
      (fun t ht => ?_) fun e t he _ => he
    have hentered : Stacked place rest (b.ownersAt parent owners) t.context.stack := by
      rw [ht]
      exact ha.addChildren _
    exact ⟨place, rest, _, hp, hr, hentered⟩

theorem leads_visitAll (h : Settled s) (bs : List Block) :
    Leads (visitAll assets parent bs) s (fun _ t => Settled t) fun e _ => HaltsAt assets e := by
  obtain ⟨place, rest, owners, hp, hr, hs⟩ := h
  exact (keptByAll assets bs hp hr hs).mono
    (fun _ t ht => ⟨place, rest, _, hp, hr, ht.stacked⟩) fun _ _ he => he.1.1

theorem leads_visit (h : Settled s) :
    Leads (visit assets parent b) s (fun _ t => t.context.global = s.context.global)
      fun e t => HaltsAt assets e ∧ t.context.global = s.context.global := by
  obtain ⟨place, rest, owners, hp, hr, hs⟩ := h
  exact (keptBy assets b hp hr hs).mono (fun _ _ ht => ht.global) fun _ _ he => ⟨he.1.1, he.2⟩

end Settled

/-- The blocks below an item add nodes to it, and when they are done it is the current node again. -/
theorem exists_stack_of_children {assets : Option AssetSource} {parent : Option String}
    {bs : List Block} {item : Node} {rest : List (OpenNode (Option String))}
    (hstack : s.context.stack = ⟨item, none⟩ :: rest) (hitem : item.type = .listItem)
    (hrest : ∀ o ∈ rest, o.IsParent)
    (hrun : (do visitAll assets parent bs; closeList parent) s = .ok () u) :
    ∃ ns, u.context.stack = ⟨item.addChildren ns, none⟩ :: rest := by
  obtain ⟨⟨⟩, t, hchildren, hlist⟩ := bind_eq_ok_iff.1 hrun
  have hstacked : Stacked .listItem rest [] s.context.stack := ⟨_, hstack, hitem⟩
  have hkept := (keptByAll assets bs .item hrest hstacked).of_eq_ok hchildren
  rw [closeList_eq (hkept.stacked.type_ne_list .item)] at hlist
  obtain ⟨-, rfl⟩ := EStateM.Result.ok.inj hlist
  have hclosed := hkept.stacked.closed (by decide) parent
  rw [Block.dropOwner_ownersAfterAll_nil] at hclosed
  have hover : Over ⟨item, none⟩ rest (closed parent t.context).stack := by
    have hne : item.type ≠ .list := by simp [hitem]
    refine (hkept.stays hne ?_).closed hne parent
    rw [hstack]
    exact .refl _ _
  -- nothing is open above the item, as there is one node above `rest` only
  obtain ⟨o, ho, -⟩ := hclosed
  obtain ⟨above, ns, habove⟩ := hover
  have hlength := congrArg List.length (ho.symm.trans habove)
  simp only [List.length_cons, List.length_append] at hlength
  have hnil : above = [] := List.length_eq_zero_iff.1 (by omega)
  exact ⟨ns, by rw [habove, hnil]; rfl⟩

end Walk

/-- A block that is no item leaves no list open where none was. -/
theorem Block.ownersAfter_nil {b : Block} (hb : b.isItem = false) (parent : Option String) :
    b.ownersAfter parent [] = [] := by
  have hat : b.ownersAt parent [] = [] := List.suffix_nil.1 (b.ownersAt_suffix parent [])
  rw [Block.ownersAfter_other hb, hat]
  split
  · exact Block.dropOwner_ownersAfterAll_nil _ _
  · rfl

/-- A visit of a block below `parent`, and the state in which it starts. -/
structure Visit where
  parent : Option String
  block : Block
  before : WalkState

namespace Visit

open Walk

/-- The visit of a whole tree below a root, which may have children. -/
def whole (ns : List Node) (b : Block) : Visit := ⟨none, b, { context := .start (.root ns) 0 }⟩

def run (assets : Option AssetSource) (v : Visit) : EStateM.Result WalkFault WalkState Unit :=
  visit assets v.parent v.block v.before

/-- The visits of the children of a block. -/
inductive Calls (assets : Option AssetSource) (v : Visit) : Visit → Prop
  | child {entry : Walk.Entry} {s t : WalkState} {earlier later : List Block} {child : Block}
    (harrive : arrive assets v.parent v.block v.before = .ok entry s)
    (hdescend : entry.descend = true) (hchildren : v.block.children = earlier ++ child :: later)
    (hearlier : visitAll assets (some v.block.id) earlier s = .ok () t) :
    Calls assets v ⟨some v.block.id, child, t⟩

/-- The visits made in the course of a visit, itself included. -/
def Makes (assets : Option AssetSource) : Visit → Visit → Prop := Relation.ReflTransGen (Calls assets)

/-- An item was opened in a list, the blocks below it added nodes to it, and it was closed to become
the last child of that list. -/
def ClosesItem (assets : Option AssetSource) (v : Visit) (t : WalkState) : Prop :=
  ∃ p s u ns l outer, v.block.props? ListProps.read = some p ∧
    arrive assets v.parent v.block v.before = .ok ⟨true, .closeItem⟩ s ∧
    s.context.stack = ⟨itemNode p, none⟩ :: l :: outer ∧
    (do
      visitAll assets (some v.block.id) v.block.children
      closeList (some v.block.id)) s = .ok () u ∧
    u.context.stack = ⟨(itemNode p).addChildren ns, none⟩ :: l :: outer ∧
    undo .closeItem u = .ok () t ∧
    t.context.stack = { l with node := l.node.addChildren [(itemNode p).addChildren ns] } :: outer

/-- What holds of a visit on its own. -/
structure Disciplined (assets : Option AssetSource) (v : Visit) : Prop where
  depth : ∀ ⦃t⦄, v.run assets = .ok () t → t.context.global = v.before.context.global
  item : ∀ ⦃t⦄, v.run assets = .ok () t → v.block.isItem = true → v.ClosesItem assets t
  /-- In particular no node is closed, or opened, where that cannot be. -/
  fault : ∀ ⦃e t⦄, v.run assets = .error e t → HaltsAt assets e
  depth_fault : ∀ ⦃e t⦄, v.run assets = .error e t → t.context.global = v.before.context.global

variable {assets : Option AssetSource} {v w : Visit} {e : WalkFault} {t : WalkState}

theorem closesItem (h : Settled v.before) (hrun : v.run assets = .ok () t)
    (hb : v.block.isItem = true) : v.ClosesItem assets t := by
  obtain ⟨p, hprops, harrive⟩ := h.leads_arrive_item hb assets v.parent
  rw [run, visit_eq_arrive] at hrun
  obtain ⟨entry, s, hs, hrun⟩ := bind_eq_ok_iff.1 hrun
  obtain ⟨rfl, l, outer, hstack, hparents⟩ := harrive.of_eq_ok hs
  obtain ⟨u, hu, hclose⟩ := withLeave_eq_ok_iff.1 hrun
  simp only [↓reduceIte] at hu
  obtain ⟨ns, hns⟩ := exists_stack_of_children hstack rfl hparents hu
  obtain ⟨hcur, hout⟩ := List.cons.inj hns
  refine ⟨p, s, u, ns, l, outer, hprops, hs, hstack, hu, hns, hclose, ?_⟩
  have hpopped : t.context = popped l outer u.context := by
    have hleads : Leads closeNode u (fun _ t => t.context = popped l outer u.context)
        fun _ _ => True := leads_closeNode hout fun _ h => h
    exact hleads.of_eq_ok hclose
  rw [hpopped, popped, hcur]
  rfl

theorem disciplined (h : Settled v.before) : v.Disciplined assets where
  depth := fun _ hrun => h.leads_visit.of_eq_ok hrun
  item := fun _ hrun hb => closesItem h hrun hb
  fault := fun _ _ hrun => (h.leads_visit.of_eq_error hrun).1
  depth_fault := fun _ _ hrun => (h.leads_visit.of_eq_error hrun).2

theorem Calls.settled (h : Calls assets v w) (hv : Settled v.before) : Settled w.before := by
  obtain ⟨harrive, -, -, hearlier⟩ := h
  have hs := hv.leads_arrive.of_eq_ok harrive
  exact (hs.leads_visitAll _).of_eq_ok hearlier

/-- The fault of a child's visit is that of the visit itself: leaving the block does not fail. -/
theorem Calls.error (h : Calls assets v w) (hv : Settled v.before) (hw : w.run assets = .error e t) :
    ∃ u, v.run assets = .error e u := by
  obtain @⟨entry, s, s', earlier, later, child, harrive, hdescend, hchildren, hearlier⟩ := h
  have hall : visitAll assets (some v.block.id) v.block.children s = .error e t := by
    rw [hchildren, visitAll_append, bind_of_eq_ok hearlier, visitAll]
    exact bind_of_eq_error hw
  have hrun : v.run assets = within assets v.block entry s := by
    rw [run, visit_eq_arrive, bind_of_eq_ok harrive]
  rw [within, if_pos hdescend] at hrun
  cases hleave : undo entry.leave t with
  | ok a u => exact ⟨u, hrun.trans (withLeave_of_left (bind_of_eq_error hall) hleave)⟩
  | error e' u =>
    have hfault := hrun.trans (withLeave_of_not_left (bind_of_eq_error hall) hleave)
    obtain ⟨source, -, asked, ref, fault, -, -, hresolver⟩ := (disciplined hv).fault hfault
    obtain ⟨fault', hcontext⟩ := exists_context_of_undo hleave
    cases hresolver.symm.trans hcontext

theorem Makes.settled (h : Makes assets v w) (hv : Settled v.before) : Settled w.before := by
  induction h with
  | refl => exact hv
  | tail _ hcall ih => exact hcall.settled ih

theorem Makes.error (h : Makes assets v w) (hv : Settled v.before) (hw : w.run assets = .error e t) :
    ∃ u, v.run assets = .error e u := by
  induction h using Relation.ReflTransGen.head_induction_on with
  | refl => exact ⟨t, hw⟩
  | head hcall _ ih =>
    obtain ⟨u, hu⟩ := ih (hcall.settled hv)
    exact hcall.error hv hu

theorem settled_whole (ns : List Node) (b : Block) : Settled (whole ns b).before :=
  ⟨.root, [], [], .root, by simp, _, rfl, rfl⟩

/-- Only a list block at the top leaves its list open. -/
theorem stack_of_whole {ns : List Node} {b : Block} (h : (whole ns b).run assets = .ok () t) :
    ∃ ms, if b.isItem then ∃ l, l.node.type = .list ∧
        t.context.stack = [l, ⟨.root (ns ++ ms), none⟩]
      else t.context.stack = [⟨.root (ns ++ ms), none⟩] := by
  have hstart : Stacked .root [] [] (whole ns b).before.context.stack := ⟨_, rfl, rfl⟩
  have hkept := (keptBy assets b .root (by simp) hstart).of_eq_ok h
  have hstacked : Stacked .root [] (b.ownersAfter none []) t.context.stack := hkept.stacked
  have hover : Over ⟨.root ns, none⟩ [] t.context.stack :=
    hkept.stays (by simp [Node.type]) (.refl _ _)
  obtain ⟨above, ms, habove⟩ := hover
  refine ⟨ms, ?_⟩
  have hlength := hstacked.length_stack
  rw [habove, List.length_append, List.length_nil] at hlength
  by_cases hb : b.isItem
  · rw [if_pos hb]
    rw [Block.ownersAfter_item hb, dropOwner_nil] at hstacked hlength
    obtain ⟨l, hl⟩ := List.length_eq_one_iff.1 (by simpa using hlength : above.length = 1)
    rw [hl] at habove
    obtain ⟨hcur, -⟩ := List.cons.inj habove
    refine ⟨l, ?_, habove⟩
    rw [← hcur, hstacked.type_current, if_neg (by simp)]
  · rw [if_neg hb]
    have howners : b.ownersAfter none [] = [] := Block.ownersAfter_nil (by simpa using hb) none
    rw [howners] at hlength
    have hnil : above = [] := List.length_eq_zero_iff.1 (by simpa using hlength)
    rw [habove, hnil]
    rfl

/-- An image block whose asset fails stops the walk there, or puts nothing down. -/
theorem leads_arrive_image {source : AssetSource} {p : ImageProps} {fault : ResolveFault}
    (h : Settled v.before) (hb : v.block.flavour = .image)
    (hp : v.block.props? ImageProps.read = some p)
    (hfault : (source v.before.asked p.sourceId).value = .error fault) :
    Leads (arrive (some source) v.parent v.block) v.before
      (fun entry t => IsCaught fault ∧ entry = {} ∧ t.context.tree = v.before.context.tree ∧
        t.assetIds = v.before.assetIds)
      fun e _ => ¬ IsCaught fault ∧ e = .resolver fault := by
  obtain ⟨place, rest, owners, hplace, -, hs⟩ := h
  rw [arrive, if_neg (by simp [hb]), enter, hb]
  refine leads_bind (leads_of_eq (closeList_eq (hs.type_ne_list hplace)) ?_)
  refine leads_withProps (fun q hq log => ?_) fun hq _ => ?_
  · obtain rfl : p = q := Option.some.inj (hp.symm.trans hq)
    refine leads_bind ?_
    unfold resolve
    refine leads_bind (leads_of_eq rfl ?_)
    rw [hfault]
    cases hcaught : caught? v.block fault with
    | some message =>
      have hc : IsCaught fault := by
        by_contra hc
        rw [caught?_eq_none_iff.2 hc] at hcaught
        cases hcaught
      simp only [hcaught]
      exact leads_bind (leads_logged (leads_pure _ ⟨hc, rfl, tree_closed _ _, rfl⟩))
    | none =>
      simp only [hcaught]
      exact ⟨caught?_eq_none_iff.1 hcaught, rfl⟩
  · rw [hp] at hq
    cases hq

end Visit

/-- A walk that ends leaves the root open, with its list if the tree is an item; every visit that it
makes is disciplined, and a fault of any of them ends the walk as it is. A fault of the resolver at an
image block is such a fault, unless it is one that costs the block only: then the block puts nothing
down. -/
theorem walk_disciplined (assets : Option AssetSource) (ns : List Node) (b : Block) :
    (∀ t, (Visit.whole ns b).run assets = .ok () t →
      ∃ ms, if b.isItem then ∃ l, l.node.type = .list ∧
          t.context.stack = [l, ⟨.root (ns ++ ms), none⟩]
        else t.context.stack = [⟨.root (ns ++ ms), none⟩]) ∧
    ∀ v, (Visit.whole ns b).Makes assets v →
      v.Disciplined assets ∧
      (∀ e t, v.run assets = .error e t → (b.walkFrom assets (.root ns)).value = .error e) ∧
      ∀ source ∈ assets, ∀ p fault, v.block.flavour = .image →
        v.block.props? ImageProps.read = some p →
        (source v.before.asked p.sourceId).value = .error fault →
        (¬ Walk.IsCaught fault → (b.walkFrom assets (.root ns)).value = .error (.resolver fault)) ∧
        (Walk.IsCaught fault → ∃ t, Walk.arrive assets v.parent v.block v.before = .ok {} t ∧
          t.context.tree = v.before.context.tree ∧ t.assetIds = v.before.assetIds) := by
  refine ⟨fun t h => Visit.stack_of_whole h, fun v hv => ?_⟩
  have hstart := Visit.settled_whole ns b
  have herror {e : WalkFault} {t : WalkState} (h : v.run assets = .error e t) :
      (b.walkFrom assets (.root ns)).value = .error e := by
    obtain ⟨u, hu⟩ := hv.error hstart h
    unfold Visit.run Visit.whole at hu
    unfold Block.walkFrom
    rw [hu]
  refine ⟨Visit.disciplined (hv.settled hstart), fun e t h => herror h, ?_⟩
  rintro source hsource p fault hflavour hprops hfault
  obtain rfl : assets = some source := hsource
  have harrive := Visit.leads_arrive_image (hv.settled hstart) hflavour hprops hfault
  cases ha : Walk.arrive (some source) v.parent v.block v.before with
  | ok entry t =>
    obtain ⟨hcaught, rfl, htree, hids⟩ := harrive.of_eq_ok ha
    exact ⟨fun hn => absurd hcaught hn, fun _ => ⟨t, rfl, htree, hids⟩⟩
  | error e t =>
    obtain ⟨hcaught, rfl⟩ := harrive.of_eq_error ha
    have hrun : v.run (some source) = .error (.resolver fault) t := by
      rw [Visit.run, Walk.visit_eq_arrive]
      exact bind_of_eq_error ha
    exact ⟨fun _ => herror hrun, fun hc => absurd hc hcaught⟩

def globImage : Block := ⟨"i", "affine:image", [("sourceId", .string "*")], []⟩

/-- A resolver that takes every reference for that of a malformed block. -/
def findsMalformed : AssetSource := fun _ _ =>
  pure (.error (.malformed "Malformed affine:image block 'i': 1 invalid prop(s)"))

/-- Such a resolver does not stop the walk, though its fault is not that of an unreadable asset. -/
theorem walk_of_findsMalformed : ∃ fault, (∀ m, fault ≠ .unreadable m) ∧
    globImage.props? ImageProps.read = some { sourceId := "*" } ∧
    (findsMalformed [] "*").value = .error fault ∧
    (globImage.walkFrom (some findsMalformed) (.root [])).value = .ok ⟨.root [], []⟩ :=
  ⟨.malformed _, by simp, rfl, rfl, rfl⟩

def globItem : Block := ⟨"l", "affine:list", [("text", .string "b")], [globImage, globImage]⟩

/-- An image that is there twice, in an item below a paragraph. -/
def globParagraph : Block :=
  ⟨"p", "affine:paragraph", [("type", .string "text"), ("text", .string "a")], [globItem]⟩

/-- A resolver that has nothing for the first reference, and does not answer a second one. -/
def tiring : AssetSource := fun asked ref =>
  pure (if asked.isEmpty then .ok none else .error (.raised "TimeoutError" ref))

/-- The visit of the item below the paragraph. -/
def Visit.ofGlobItem : Visit :=
  ⟨some "p", globItem, { context := ⟨⟨.root [.paragraph [.text "a"]], none⟩, [], 1⟩ }⟩

theorem Visit.calls_globItem (assets : Option AssetSource) :
    (Visit.whole [] globParagraph).Calls assets .ofGlobItem := by
  have harrive : Walk.arrive assets none globParagraph { context := .start (.root []) 0 } =
      .ok ⟨true, .leaveParagraph⟩ Visit.ofGlobItem.before := rfl
  have hchildren : globParagraph.children = [] ++ globItem :: [] := rfl
  exact .child harrive rfl hchildren rfl

/-- When the second image is visited the resolver was asked for the first one. -/
theorem Visit.calls_globImage : ∃ s, s.asked = ["*"] ∧
    Visit.ofGlobItem.Calls (some tiring) ⟨some "l", globImage, s⟩ := by
  have harrive : Walk.arrive (some tiring) (some "p") globItem Visit.ofGlobItem.before =
      .ok ⟨true, .closeItem⟩ { context := ⟨⟨.listItem none false [.paragraph [.text "b"]], none⟩,
        [⟨.list false none false [], some "p"⟩, ⟨.root [.paragraph [.text "a"]], none⟩], 1⟩ } :=
    rfl
  have hchildren : globItem.children = [globImage] ++ globImage :: [] := rfl
  exact ⟨_, rfl, .child harrive rfl hchildren rfl⟩

theorem walk_disciplined_globParagraph :
    (∃ t, (Visit.whole [] globParagraph).run none = .ok () t ∧
      ∃ ms, t.context.stack = [⟨.root ([] ++ ms), none⟩]) ∧
    (∃ v t, (Visit.whole [] globParagraph).Makes none v ∧ v.block.isItem = true ∧
      v.run none = .ok () t ∧ v.ClosesItem none t) ∧
    (globParagraph.walkFrom (some tiring) (.root [])).value =
      .error (.resolver (.raised "TimeoutError" "*")) ∧
    ∃ t, Walk.arrive (some findsMalformed) none globImage { context := .start (.root []) 0 } =
      .ok {} t ∧ t.context.tree = .root [] ∧ t.assetIds = [] := by
  have hnone (e : WalkFault) : ¬ Walk.HaltsAt none e := by
    rintro ⟨source, hsource, -⟩
    cases hsource
  have himage : globImage.flavour = .image := by decide +kernel
  have hprops : globImage.props? ImageProps.read = some { sourceId := "*" } := rfl
  refine ⟨?_, ?_, ?_, ?_⟩
  · obtain ⟨hstack, hall⟩ := walk_disciplined none [] globParagraph
    cases hrun : (Visit.whole [] globParagraph).run none with
    | ok a t =>
      have hitem : globParagraph.isItem = false := by decide +kernel
      obtain ⟨ms, hms⟩ := hstack t hrun
      rw [hitem] at hms
      exact ⟨t, rfl, ms, hms⟩
    | error e t => exact absurd ((hall _ .refl).1.fault hrun) (hnone e)
  · have hmakes := Relation.ReflTransGen.single (Visit.calls_globItem none)
    have hdisciplined := ((walk_disciplined none [] globParagraph).2 _ hmakes).1
    have hitem : globItem.isItem = true := by decide +kernel
    cases hrun : Visit.ofGlobItem.run none with
    | ok a t => exact ⟨_, t, hmakes, hitem, hrun, hdisciplined.item hrun hitem⟩
    | error e t => exact absurd (hdisciplined.fault hrun) (hnone e)
  · obtain ⟨s, hasked, hcalls⟩ := Visit.calls_globImage
    have hmakes := (Relation.ReflTransGen.single (Visit.calls_globItem (some tiring))).tail hcalls
    have hanswer : (tiring s.asked "*").value = .error (.raised "TimeoutError" "*") := by
      rw [hasked]
      rfl
    have hstop := ((walk_disciplined (some tiring) [] globParagraph).2 _ hmakes).2.2 tiring rfl _ _
      himage hprops hanswer
    exact hstop.1 (by simp [Walk.IsCaught])
  · have hkept := ((walk_disciplined (some findsMalformed) [] globImage).2 _ .refl).2.2
      findsMalformed rfl _ _ himage hprops rfl
    exact hkept.2 ⟨_, .inr rfl⟩

end PageExport
