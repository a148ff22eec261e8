import Mathlib.Control.Monad.Basic
import PageExport.Page
import PageExport.Proofs.Markdown.FirstMisplaced
import PageExport.Proofs.Snapshot.Subtree
import PageExport.Proofs.Walk.Staying

/-!
The lists that the walk has open. List blocks leave their list open for their siblings, and a list
block whose props cannot be read leaves the list of its siblings open for its own children. A tree
becomes a page unless one of those children then puts a node of its own into that list.
-/
namespace PageExport

open Markdown (Node NodeType)

/-- The owners of the open lists, innermost first, after a list of `parent` is closed. -/
def dropOwner (parent : Option String) : List (Option String) → List (Option String)
  | [] => []
  | p :: owners => if p = parent then owners else p :: owners

namespace Block

/-- The owners of the open lists when a block that is no item puts its own nodes down. -/
def ownersAt (parent : Option String) (owners : List (Option String)) (b : Block) :
    List (Option String) :=
  if b.flavour = .list then owners else dropOwner parent owners

mutual

/-- The owners of the lists that are open after a block below `parent`, innermost first. -/
def ownersAfter (parent : Option String) (owners : List (Option String)) :
    Block → List (Option String)
  | ⟨id, tag, props, children⟩ =>
    let b : Block := ⟨id, tag, props, children⟩
    if b.isItem then parent :: dropOwner parent owners
    else if b.descends then
      dropOwner (some id) (ownersAfterAll (some id) (b.ownersAt parent owners) children)
    else b.ownersAt parent owners

def ownersAfterAll (parent : Option String) (owners : List (Option String)) :
    List Block → List (Option String)
  | [] => owners
  | b :: bs => ownersAfterAll parent (b.ownersAfter parent owners) bs

end

mutual

/-- Some node of the tree is put into an open list in the place of an item. -/
def strays (assets : Option Resolver) (parent : Option String) (owners : List (Option String)) :
    Block → Bool
  | ⟨id, tag, props, children⟩ =>
    let b : Block := ⟨id, tag, props, children⟩
    if b.isItem then
      !(dropOwner parent owners).isEmpty || straysAmong assets (some id) [] children
    else
      !(b.ownersAt parent owners).isEmpty && !(b.ownNodes assets 0).isEmpty ||
        b.descends && straysAmong assets (some id) (b.ownersAt parent owners) children

def straysAmong (assets : Option Resolver) (parent : Option String)
    (owners : List (Option String)) : List Block → Bool
  | [] => false
  | b :: bs =>
    b.strays assets parent owners || straysAmong assets parent (b.ownersAfter parent owners) bs

end

theorem ownersAfter_item {b : Block} (h : b.isItem = true) (parent : Option String)
    (owners : List (Option String)) :
    b.ownersAfter parent owners = parent :: dropOwner parent owners := by
  obtain ⟨id, tag, props, children⟩ := b
  rw [ownersAfter, if_pos h]

theorem ownersAfter_other {b : Block} (h : b.isItem = false) (parent : Option String)
    (owners : List (Option String)) :
    b.ownersAfter parent owners = if b.descends then
      dropOwner (some b.id) (ownersAfterAll (some b.id) (b.ownersAt parent owners) b.children)
    else b.ownersAt parent owners := by
  obtain ⟨id, tag, props, children⟩ := b
  rw [ownersAfter, if_neg (by simp [h])]

theorem strays_item {b : Block} (h : b.isItem = true) (assets : Option Resolver)
    (parent : Option String) (owners : List (Option String)) :
    b.strays assets parent owners = (!(dropOwner parent owners).isEmpty ||
      straysAmong assets (some b.id) [] b.children) := by
  obtain ⟨id, tag, props, children⟩ := b
  rw [strays, if_pos h]

theorem strays_other {b : Block} (h : b.isItem = false) (assets : Option Resolver)
    (parent : Option String) (owners : List (Option String)) :
    b.strays assets parent owners =
      (!(b.ownersAt parent owners).isEmpty && !(b.ownNodes assets 0).isEmpty ||
        b.descends && straysAmong assets (some b.id) (b.ownersAt parent owners) b.children) := by
  obtain ⟨id, tag, props, children⟩ := b
  rw [strays, if_neg (by simp [h])]

/-- Whether a block has nodes of its own does not hang on its depth. -/
theorem isEmpty_ownNodes (assets : Option Resolver) (depth : Nat) (b : Block) :
    (b.ownNodes assets depth).isEmpty = (b.ownNodes assets 0).isEmpty := by
  unfold ownNodes
  split <;> try rfl
  cases b.props? ParagraphProps.read with
  | none => rfl
  | some p =>
    simp only [Option.map_some, Option.getD_some, ParagraphProps.nodes]
    split <;> rfl

end Block

@[simp] theorem dropOwner_nil (parent : Option String) : dropOwner parent [] = [] := rfl

theorem dropOwner_cons (parent p : Option String) (owners : List (Option String)) :
    dropOwner parent (p :: owners) = if p = parent then owners else p :: owners := rfl

theorem dropOwner_suffix (parent : Option String) (owners : List (Option String)) :
    dropOwner parent owners <:+ owners := by
  cases owners with
  | nil => exact List.suffix_rfl
  | cons p owners =>
    rw [dropOwner_cons]
    split
    · exact List.suffix_cons p owners
    · exact List.suffix_rfl

theorem dropOwner_suffix_dropOwner {parent : Option String} {as bs : List (Option String)}
    (h : as <:+ bs) : dropOwner parent as <:+ dropOwner parent bs := by
  cases bs with
  | nil =>
    obtain rfl := List.suffix_nil.1 h
    exact List.suffix_rfl
  | cons p bs =>
    rcases List.suffix_cons_iff.1 h with rfl | h
    · exact List.suffix_rfl
    · have hd := (dropOwner_suffix parent as).trans h
      rw [dropOwner_cons]
      split
      · exact hd
      · exact hd.trans (List.suffix_cons p bs)

namespace Block

theorem ownersAt_suffix (parent : Option String) (owners : List (Option String)) (b : Block) :
    b.ownersAt parent owners <:+ owners := by
  unfold ownersAt
  split
  · exact List.suffix_rfl
  · exact dropOwner_suffix parent owners

theorem dropOwner_ownersAt (parent : Option String) (owners : List (Option String)) (b : Block) :
    dropOwner parent (b.ownersAt parent owners) <:+ dropOwner parent owners :=
  dropOwner_suffix_dropOwner (b.ownersAt_suffix parent owners)

mutual

/-- A block opens no list that outlasts it but one that its parent owns. -/
theorem dropOwner_ownersAfter (parent : Option String) (owners : List (Option String)) :
    (b : Block) → dropOwner parent (b.ownersAfter parent owners) <:+ dropOwner parent owners
  | ⟨id, tag, props, children⟩ => by
    rw [ownersAfter]
    split
    · have h : dropOwner parent (parent :: dropOwner parent owners) = dropOwner parent owners := by
        rw [dropOwner_cons, if_pos rfl]
      exact ⟨[], h⟩
    · split
      · have h := dropOwner_ownersAfterAll (some id)
          (ownersAt parent owners ⟨id, tag, props, children⟩) children
        have h' := h.trans ((dropOwner_suffix ..).trans (ownersAt_suffix parent owners _))
        exact dropOwner_suffix_dropOwner h'
      · exact dropOwner_ownersAt parent owners _

theorem dropOwner_ownersAfterAll (parent : Option String) (owners : List (Option String)) :
    (bs : List Block) →
      dropOwner parent (ownersAfterAll parent owners bs) <:+ dropOwner parent owners
  | [] => List.suffix_rfl
  | b :: bs =>
    (dropOwner_ownersAfterAll parent _ bs).trans (dropOwner_ownersAfter parent owners b)

end

theorem dropOwner_ownersAfterAll_nil (parent : Option String) (bs : List Block) :
    dropOwner parent (ownersAfterAll parent [] bs) = [] :=
  List.suffix_nil.1 (dropOwner_ownersAfterAll parent [] bs)

end Block

/-- A node that is open with children allowed. -/
def OpenNode.IsParent (o : OpenNode (Option String)) : Prop := o.node.children?.isSome

/-- A list that started with an item. -/
def OpenNode.IsList (o : OpenNode (Option String)) : Prop :=
  ∃ ordered start spread checked loose content items,
    o.node = .list ordered start spread (.listItem checked loose content :: items)

theorem isList_addChildren {o : OpenNode (Option String)} (h : o.IsList) (ns : List Node) :
    { o with node := o.node.addChildren ns }.IsList := by
  obtain ⟨ordered, start, spread, checked, loose, content, items, hn⟩ := h
  exact ⟨ordered, start, spread, checked, loose, content, items ++ ns, by rw [hn]; rfl⟩

/-- The innermost open nodes are lists of these owners above a node of the type `place`, and the
other open nodes are `rest`. -/
def Stacked (place : NodeType) (rest : List (OpenNode (Option String))) :
    List (Option String) → List (OpenNode (Option String)) → Prop
  | [], stack => ∃ b, stack = b :: rest ∧ b.node.type = place
  | p :: owners, stack =>
    ∃ l below, stack = l :: below ∧ l.IsList ∧ l.scope = p ∧ Stacked place rest owners below

namespace Stacked

variable {place : NodeType} {rest : List (OpenNode (Option String))} {owners : List (Option String)}
  {o : OpenNode (Option String)} {below : List (OpenNode (Option String))}

theorem addChildren (h : Stacked place rest owners (o :: below)) (ns : List Node) :
    Stacked place rest owners ({ o with node := o.node.addChildren ns } :: below) := by
  cases owners with
  | nil =>
    obtain ⟨b, hb, ht⟩ := h
    cases hb
    exact ⟨_, rfl, by simpa using ht⟩
  | cons p owners =>
    obtain ⟨l, below, hl, hlist, hs, hb⟩ := h
    cases hl
    exact ⟨_, _, rfl, isList_addChildren hlist ns, hs, hb⟩

theorem isParent (h : Stacked place rest owners (o :: below))
    (hp : Walk.IsPlace place) : o.IsParent := by
  cases owners with
  | nil =>
    obtain ⟨b, hb, ht⟩ := h
    cases hb
    exact Walk.IsPlace.isSome_children? (by rwa [ht])
  | cons p owners =>
    obtain ⟨l, below, hl, ⟨_, _, _, _, _, _, _, hn⟩, -⟩ := h
    cases hl
    simp [OpenNode.IsParent, hn, Node.children?]

theorem isParent_of_mem (h : Stacked place rest owners below) (hp : Walk.IsPlace place)
    (hr : ∀ o ∈ rest, o.IsParent) : ∀ o ∈ below, o.IsParent := by
  induction owners generalizing below with
  | nil =>
    have hb := h
    obtain ⟨b, rfl, -⟩ := h
    intro o ho
    rcases List.mem_cons.1 ho with rfl | ho
    · exact isParent hb hp
    · exact hr o ho
  | cons p owners ih =>
    have hl := h
    obtain ⟨l, below, rfl, -, -, hb⟩ := h
    intro o ho
    rcases List.mem_cons.1 ho with rfl | ho
    · exact isParent hl hp
    · exact ih hb o ho

end Stacked

section
variable {σ : Type}

/-- Children added to an open node fit if the whole tree did and they fit there. -/
theorem fits_close_addChildren {outer : List (OpenNode σ)}
    (h : ∀ o ∈ outer, o.node.children?.isSome) {n : Node} (hn : n.children?.isSome)
    (ns : List Node) :
    (Context.close (n.addChildren ns) outer).fits =
      ((Context.close n outer).fits && Markdown.allFit n.type ns) := by
  induction outer generalizing n ns with
  | nil => exact Node.fits_withChildren_append hn ns
  | cons o outer ih =>
    obtain ⟨ho, houter⟩ := List.forall_mem_cons.1 h
    have hstep (m : Node) : (Context.close m (o :: outer)).fits =
        ((Context.close o.node outer).fits && (o.node.type.holds m.type && m.fits)) := by
      change (Context.close (o.node.addChildren [m]) outer).fits = _
      rw [ih houter ho [m]]
      simp [Markdown.allFit]
    rw [hstep, hstep, Node.type_addChildren, Node.addChildren, Node.fits_withChildren_append hn]
    simp only [Bool.and_assoc]

end

/-- An open node fits only if the open node around it holds its type. -/
theorem holds_of_fits {c : WalkContext} (h : ∀ o ∈ c.stack, o.IsParent)
    {o : OpenNode (Option String)} {outer : List (OpenNode (Option String))}
    (ho : c.outer = o :: outer) (hf : c.tree.fits = true) :
    o.node.type.holds c.current.node.type = true := by
  obtain ⟨-, hout⟩ := List.forall_mem_cons.1 h
  rw [ho] at hout
  obtain ⟨hop, hout⟩ := List.forall_mem_cons.1 hout
  have ht : c.tree = Context.close (o.node.addChildren [c.current.node]) outer := by
    rw [Context.tree, ho]
    rfl
  rw [ht, fits_close_addChildren hout hop] at hf
  simp only [Markdown.allFit, Bool.and_true, Bool.and_eq_true] at hf
  exact hf.2.1

theorem fits_extend {c : WalkContext} (h : ∀ o ∈ c.stack, o.IsParent) (ns : List Node) :
    (c.extend ns).tree.fits = (c.tree.fits && Markdown.allFit c.current.node.type ns) := by
  obtain ⟨hc, ho⟩ := List.forall_mem_cons.1 h
  exact fits_close_addChildren ho hc ns

theorem tree_push (n : Node) (scope : Option String) (c : WalkContext) :
    (Walk.push n scope c).tree = (c.extend [n]).tree := rfl

@[simp] theorem tree_closed (parent : Option String) (c : WalkContext) :
    (Walk.closed parent c).tree = c.tree := by
  unfold Walk.closed
  split
  · next ho =>
    split
    · simp [Context.tree, Context.close, ho]
    · rfl
  · rfl

theorem tree_popped {c : WalkContext} {o : OpenNode (Option String)}
    {outer : List (OpenNode (Option String))} (h : c.outer = o :: outer) :
    (Walk.popped o outer c).tree = c.tree := by
  simp [Walk.popped, Context.tree, Context.close, h, Node.addChild, Node.addChildren]

theorem fits_gridNode (g : Grid) : g.toNode.fits = true := by
  have hrow (row : List (Option String)) :
      (Node.tableRow (row.map fun t => .tableCell [.text t])).fits = true := by
    rw [Node.fits, Markdown.allFit_iff, List.forall_mem_map]
    exact fun t _ => ⟨rfl, rfl⟩
  rw [Grid.toNode, Node.fits, Markdown.allFit_iff, List.forall_mem_map]
  exact fun row _ => ⟨rfl, hrow row⟩

theorem ownNodes_fit (assets : Option Resolver) (depth : Nat) (b : Block) :
    ∀ n ∈ b.ownNodes assets depth, n.type.isFlow = true ∧ n.fits = true := by
  unfold Block.ownNodes
  split
  · cases b.props? CodeProps.read <;> simp [Node.type, NodeType.isFlow, Node.fits]
  · cases b.props? ParagraphProps.read with
    | none => simp
    | some p =>
      simp only [Option.map_some, Option.getD_some, ParagraphProps.nodes]
      split <;> simp [Node.type, NodeType.isFlow, Node.fits, Markdown.allFit, NodeType.holds]
  · simp [Node.type, NodeType.isFlow, Node.fits]
  · cases assets with
    | none => simp
    | some r =>
      cases b.props? ImageProps.read with
      | none => simp
      | some p =>
        simp only [Option.bind_some, Option.map_some, Option.getD_some, ImageProps.nodes]
        split <;> simp [Node.type, NodeType.isFlow, Node.fits, Markdown.allFit, NodeType.holds,
          NodeType.isPhrasing]
  · cases b.props? PageProps.read with
    | none => simp
    | some p =>
      simp only [Option.map_some, Option.getD_some, PageProps.nodes]
      split <;> simp [Node.type, NodeType.isFlow, Node.fits]
  · cases b.props? DatabaseProps.read with
    | none => simp
    | some p => simpa using ⟨rfl, fits_gridNode (p.grid b).value⟩
  all_goals simp

namespace Stacked

variable {place : NodeType} {rest : List (OpenNode (Option String))} {owners : List (Option String)}
  {c : WalkContext}

theorem type_current (h : Stacked place rest owners c.stack) :
    c.current.node.type = if owners = [] then place else .list := by
  cases owners with
  | nil =>
    obtain ⟨b, hb, ht⟩ := h
    cases hb
    simpa using ht
  | cons p owners =>
    obtain ⟨l, below, hl, ⟨_, _, _, _, _, _, _, hn⟩, -⟩ := h
    cases hl
    simp [hn, Node.type]

theorem exists_signature (h : Stacked place rest owners c.stack)
    (hp : Walk.IsPlace place) :
    ∃ prior, ListSignature.ofNode c.current.node = .ok prior := by
  have ht := h.type_current
  cases owners with
  | nil =>
    rw [if_pos rfl] at ht
    exact ⟨none, Walk.IsPlace.signature_eq (by rwa [ht])⟩
  | cons p owners =>
    obtain ⟨l, below, hl, ⟨_, _, _, _, _, _, _, hn⟩, -⟩ := h
    cases hl
    rw [hn]
    exact ⟨_, rfl⟩

theorem length_stack {stack : List (OpenNode (Option String))} (h : Stacked place rest owners stack) :
    stack.length = owners.length + rest.length + 1 := by
  induction owners generalizing stack with
  | nil =>
    obtain ⟨b, rfl, -⟩ := h
    simp
  | cons p owners ih =>
    obtain ⟨l, below, rfl, -, -, hb⟩ := h
    have := ih hb
    simp only [List.length_cons]
    omega

theorem type_ne_list (h : Stacked place rest owners c.stack)
    (hp : Walk.IsPlace place) (ho : c.outer = []) : c.current.node.type ≠ .list := by
  rw [h.type_current]
  have hlen := h.length_stack
  rw [Context.stack, ho, List.length_singleton] at hlen
  have hown : owners = [] := List.length_eq_zero_iff.1 (by omega)
  rw [if_pos hown]
  exact hp.ne_list

theorem closed (h : Stacked place rest owners c.stack) (hp : place ≠ .list)
    (parent : Option String) :
    Stacked place rest (dropOwner parent owners) (Walk.closed parent c).stack := by
  have ht := h.type_current
  cases owners with
  | nil =>
    rw [if_pos rfl] at ht
    rw [Walk.closed_of_type_ne (by rwa [ht])]
    exact h
  | cons p owners =>
    rw [if_neg (by simp)] at ht
    obtain ⟨l, below, hl, -, hs, hb⟩ := id h
    obtain ⟨hcur, hout⟩ := List.cons.inj hl
    cases below with
    | nil => cases owners <;> simp [Stacked] at hb
    | cons o outer =>
      rw [Walk.closed_of_type_eq ht hout, dropOwner_cons, hcur, hs]
      split
      · exact hb.addChildren _
      · exact h

/-- The whole tree is the place with what is open above it. -/
theorem type_tree (h : Stacked place [] owners c.stack) : c.tree.type = place := by
  induction owners generalizing c with
  | nil =>
    obtain ⟨b, hb, ht⟩ := h
    obtain ⟨hcur, hout⟩ := List.cons.inj hb
    rw [Context.tree, hcur, hout]
    exact ht
  | cons p owners ih =>
    obtain ⟨l, below, hl, -, -, hb⟩ := h
    obtain ⟨-, hout⟩ := List.cons.inj hl
    cases below with
    | nil => cases owners <;> simp [Stacked] at hb
    | cons o outer =>
      rw [← tree_popped hout]
      exact ih (hb.addChildren _)

/-- In a tree that fits no list is open directly in another one. -/
theorem owners_eq_nil {p : Option String} (h : Stacked place rest (p :: owners) c.stack)
    (hp : Walk.IsPlace place) (hr : ∀ o ∈ rest, o.IsParent)
    (hf : c.tree.fits = true) : owners = [] := by
  have hcur := h.type_current
  obtain ⟨l, below, hl, -, -, hb⟩ := id h
  cases owners with
  | nil => rfl
  | cons q owners =>
    obtain ⟨m, below, rfl, ⟨_, _, _, _, _, _, _, hm⟩, -, -⟩ := hb
    have hh := holds_of_fits (h.isParent_of_mem hp hr) (List.cons.inj hl).2 hf
    rw [hcur, hm] at hh
    cases hh

/-- The item of a list block opens in a list of the block's parent. -/
theorem itemEntered (h : Stacked place rest owners c.stack) (hp : place ≠ .list)
    (p : ListProps) (parent : Option String) {prior : Option ListSignature}
    (hs : ListSignature.ofNode c.current.node = .ok prior) :
    ∃ l below, (Walk.itemEntered p parent prior c).stack = ⟨Walk.itemNode p, none⟩ :: l :: below ∧
      l.node.type = .list ∧ ∀ item : Node, item.type = .listItem →
        Stacked place rest (parent :: dropOwner parent owners)
          ({ l with node := l.node.addChildren [item] } :: below) := by
  unfold Walk.itemEntered
  split
  · next hk =>
    obtain ⟨howner, -, rfl⟩ := Walk.goesOn_iff.1 hk
    have ht := (Walk.isSome_signature hs).1 rfl
    refine ⟨c.current, c.outer, rfl, ht, fun item _ => ?_⟩
    cases owners with
    | nil => exact absurd (h.type_current.symm.trans ht) hp
    | cons q owners =>
      obtain ⟨l, below, hl, -, hq, -⟩ := id h
      cases hl
      have hqp : q = parent := hq.symm.trans howner
      rw [dropOwner_cons, if_pos hqp, ← hqp]
      exact h.addChildren [item]
  · refine ⟨_, _, rfl, rfl, fun item hitem => ?_⟩
    cases item with
    | listItem checked spread content =>
      exact ⟨_, _, rfl, ⟨_, _, _, _, _, _, _, rfl⟩, rfl, h.closed hp parent⟩
    | _ => simp [Node.type] at hitem

/-- An item fits if no further list is open below the one that it goes to. -/
theorem fits_itemEntered (h : Stacked place rest owners c.stack)
    (hp : Walk.IsPlace place) (hr : ∀ o ∈ rest, o.IsParent) (p : ListProps)
    (parent : Option String) {prior : Option ListSignature}
    (hs : ListSignature.ofNode c.current.node = .ok prior) :
    (Walk.itemEntered p parent prior c).tree.fits =
      (c.tree.fits && (dropOwner parent owners).isEmpty) := by
  have hin : Markdown.allFit .list [Walk.itemNode p] = true := by
    simp [Markdown.allFit, Walk.itemNode, Node.type, Node.fits, NodeType.holds, NodeType.isFlow]
  have hplace : place.holds .list = true := by rw [hp.holds_eq]; rfl
  unfold Walk.itemEntered
  split
  · next hk =>
    obtain ⟨howner, -, rfl⟩ := Walk.goesOn_iff.1 hk
    have ht := (Walk.isSome_signature hs).1 rfl
    rw [tree_push, fits_extend (h.isParent_of_mem hp hr), ht, hin, Bool.and_true]
    cases owners with
    | nil => simp
    | cons q owners =>
      obtain ⟨l, below, hl, -, hq, -⟩ := id h
      cases hl
      rw [dropOwner_cons, if_pos (hq.symm.trans howner)]
      cases hf : c.tree.fits with
      | false => rfl
      | true => simp [h.owners_eq_nil hp hr hf]
  · have hd := h.closed hp.ne_list parent
    have hparents := hd.isParent_of_mem hp hr
    have hlist : ∀ o ∈ (Walk.push (.list p.signature.ordered none false []) parent
        (Walk.closed parent c)).stack, o.IsParent := by
      intro o ho
      rcases List.mem_cons.1 ho with rfl | ho
      · rfl
      · exact hparents o ho
    have hnew : Markdown.allFit (Walk.closed parent c).current.node.type
        [.list p.signature.ordered none false []] = (dropOwner parent owners).isEmpty := by
      rw [hd.type_current]
      cases dropOwner parent owners with
      | nil => simp [Markdown.allFit, Node.fits, Node.type, hplace]
      | cons q owners => simp [Markdown.allFit, Node.type, NodeType.holds]
    rw [tree_push, fits_extend hlist, tree_push, fits_extend hparents, tree_closed, hnew]
    simp [Walk.push, Node.type, hin]

/-- The own nodes of a block fit unless they go to a list. -/
theorem fits_entered (h : Stacked place rest owners c.stack)
    (hp : Walk.IsPlace place) (hr : ∀ o ∈ rest, o.IsParent)
    (assets : Option Resolver) (b : Block) :
    (Walk.entered assets b c).tree.fits =
      (c.tree.fits && (owners.isEmpty || (b.ownNodes assets 0).isEmpty)) := by
  have hown := ownNodes_fit assets c.global b
  have hin : Markdown.allFit c.current.node.type (b.ownNodes assets c.global) =
      (owners.isEmpty || (b.ownNodes assets c.global).isEmpty) := by
    rw [h.type_current]
    cases owners with
    | nil =>
      simpa [Markdown.allFit_iff, hp.holds_eq] using hown
    | cons p owners =>
      cases hn : b.ownNodes assets c.global with
      | nil => rfl
      | cons n ns =>
        have hn := (hown n (by simp [hn])).1
        have hl : n.type ≠ .listItem := by
          intro ht
          rw [ht] at hn
          cases hn
        simp [Markdown.allFit, NodeType.holds, hl]
  rw [← Block.isEmpty_ownNodes assets c.global b, ← hin]
  exact fits_extend (h.isParent_of_mem hp hr) _

end Stacked

@[simp] theorem global_itemEntered (p : ListProps) (parent : Option String)
    (prior : Option ListSignature) (c : WalkContext) :
    (Walk.itemEntered p parent prior c).global = c.global := by
  unfold Walk.itemEntered
  split <;> simp [Walk.push]

/-- What a visit that ends leaves behind: the other open nodes, the depth, and, with a resolver that
always answers the same, a tree that fits unless it did not before or a node strayed. -/
structure Kept (place : NodeType) (rest : List (OpenNode (Option String)))
    (owners : List (Option String)) (source : Option AssetSource)
    (strays : Option Resolver → Bool) (c d : WalkContext) : Prop where
  stacked : Stacked place rest owners d.stack
  global : d.global = c.global
  stays : ∀ ⦃o outer⦄, o.node.type ≠ .list → Over o outer c.stack → Over o outer d.stack
  fits : ∀ ⦃assets⦄, source = assets.map .steady → d.tree.fits = (c.tree.fits && !strays assets)

namespace Walk

/-- Visiting a block keeps the open nodes below its place and the depth, wherever it is. -/
def KeptBy (source : Option AssetSource) (b : Block) : Prop :=
  ∀ ⦃place rest owners parent⦄ ⦃s : WalkState⦄, IsPlace place → (∀ o ∈ rest, o.IsParent) →
    Stacked place rest owners s.context.stack →
    Leads (visit source parent b) s
      (fun _ t => Kept place rest (b.ownersAfter parent owners) source
        (fun assets => b.strays assets parent owners) s.context t.context)
      fun e t => Abandoned source rest e t ∧ t.context.global = s.context.global

def KeptByAll (source : Option AssetSource) (bs : List Block) : Prop :=
  ∀ ⦃place rest owners parent⦄ ⦃s : WalkState⦄, IsPlace place → (∀ o ∈ rest, o.IsParent) →
    Stacked place rest owners s.context.stack →
    Leads (visitAll source parent bs) s
      (fun _ t => Kept place rest (Block.ownersAfterAll parent owners bs) source
        (fun assets => Block.straysAmong assets parent owners bs) s.context t.context)
      fun e t => Abandoned source rest e t ∧ t.context.global = s.context.global

theorem keptBy_item {source : Option AssetSource} {b : Block} (hb : b.isItem = true)
    (ih : KeptByAll source b.children) : KeptBy source b := by
  intro place rest owners parent s hp hr h
  obtain ⟨hflavour, p, hprops⟩ := Block.isItem_iff.1 hb
  obtain ⟨prior, hs⟩ := h.exists_signature hp
  have hclosed := h.closed hp.ne_list parent
  refine leads_visit_item hflavour hprops hs (h.type_ne_list hp) (h.isParent hp)
    (hclosed.isParent hp) fun t ht => ?_
  obtain ⟨l, below, hstack, hl, hback⟩ := h.itemEntered hp.ne_list p parent hs
  rw [← ht] at hstack
  -- the children see only the new item: what is open below it is part of their rest
  have hitem : Stacked .listItem (l :: below) [] t.context.stack := ⟨_, hstack, rfl⟩
  have hbelow := (hback (itemNode p) rfl).isParent_of_mem hp hr
  have hlparent : l.IsParent := by
    unfold OpenNode.IsParent
    cases hn : l.node <;> simp_all [Node.type, Node.children?]
  have hparents : ∀ o ∈ l :: below, o.IsParent := by
    intro o ho
    rcases List.mem_cons.1 ho with rfl | ho
    · exact hlparent
    · exact hbelow o (List.mem_cons_of_mem _ ho)
  have hlen := (hback (itemNode p) rfl).length_stack
  have hglobal : t.context.global = s.context.global := by rw [ht, global_itemEntered]
  refine leads_within_item ((ih .item hparents hitem).mono (fun _ u hu => ?_)
    fun e u he => ?_)
  · have hu' := hu.stacked.closed (by decide) (some b.id)
    rw [Block.dropOwner_ownersAfterAll_nil] at hu'
    obtain ⟨item, hstack', htype⟩ := hu'
    obtain ⟨hcur, hout⟩ := List.cons.inj hstack'
    refine ⟨hu.stacked.type_ne_list .item, l, below, hout, fun v hv => ?_⟩
    refine ⟨?_, ?_, fun o outer ho hover => ?_, fun assets hassets => ?_⟩
    · rw [Block.ownersAfter_item hb, hv]
      exact hback _ (by rw [hcur]; exact htype)
    · rw [hv]
      exact (global_closed ..).trans (hu.global.trans hglobal)
    · have hbelow := hover.tail_itemEntered ho p parent prior
      rw [← ht, hstack] at hbelow
      rw [hv]
      exact hbelow.addChildren _
    · rw [hv, tree_popped hout, tree_closed, hu.fits hassets, ht,
        h.fits_itemEntered hp hr p parent hs, Block.strays_item hb]
      simp [Bool.and_assoc]
  · simp only [List.length_cons] at hlen
    have hrest : rest.length ≤ below.length := by omega
    obtain ⟨o, outer, hout, hpopped⟩ := he.1.popped hrest
    exact ⟨o, outer, hout, fun v hv => ⟨hpopped v hv, by rw [hv]; exact he.2.trans hglobal⟩⟩

theorem stacked_arrived {place : NodeType} {rest : List (OpenNode (Option String))}
    {owners : List (Option String)} {c : WalkContext} (h : Stacked place rest owners c.stack)
    (hp : IsPlace place) (parent : Option String) (b : Block) :
    Stacked place rest (b.ownersAt parent owners) (arrived parent b c).stack := by
  unfold Block.ownersAt arrived
  split
  · exact h
  · exact h.closed hp.ne_list parent

theorem keptBy_other {source : Option AssetSource} {b : Block} (hb : b.isItem = false)
    (ih : KeptByAll source b.children) : KeptBy source b := by
  intro place rest owners parent s hp hr h
  have ha := stacked_arrived h hp parent b
  have hglobal : (arrived parent b s.context).global = s.context.global := by
    unfold arrived
    split
    · rfl
    · exact global_closed ..
  have htree : (arrived parent b s.context).tree = s.context.tree := by
    unfold arrived
    split
    · rfl
    · exact tree_closed ..
  have harrived {o : OpenNode (Option String)} {outer : List (OpenNode (Option String))}
      (ho : o.node.type ≠ .list) (hover : Over o outer s.context.stack) :
      Over o outer (arrived parent b s.context).stack := by
    unfold arrived
    split
    · exact hover
    · exact hover.closed ho parent
  refine leads_visit_other hb (h.type_ne_list hp) (ha.isParent hp) (fun t ht => ?_) fun e t he ht => ?_
  · have hent : Stacked place rest (b.ownersAt parent owners) t.context.stack := by
      rw [ht]
      exact ha.addChildren _
    have hover {o : OpenNode (Option String)} {outer : List (OpenNode (Option String))}
        (ho : o.node.type ≠ .list) (hover : Over o outer s.context.stack) :
        Over o outer t.context.stack := by
      rw [ht]
      exact (harrived ho hover).addChildren _
    have hfits {assets : Option Resolver} (hassets : source = assets.map .steady) :
        t.context.tree.fits = (s.context.tree.fits &&
          ((b.ownersAt parent owners).isEmpty || (b.ownNodes assets 0).isEmpty)) := by
      rw [hassets, resolverAt_steady] at ht
      rw [ht, ha.fits_entered hp hr assets b, htree]
    have hleft (d : WalkContext) (hd : d.global = t.context.global) :
        (left b d).global = s.context.global := by
      have hdepth : d.global = b.childDepth s.context.global := by rw [hd, ht, ← hglobal]; rfl
      unfold left
      rw [hdepth, Block.childDepth]
      split <;> simp
    refine leads_within_other (fun hd => ?_) fun hd u hu => ?_
    · refine (ih hp hr hent).mono (fun _ u hu => ⟨hu.stacked.type_ne_list hp, fun v hv => ?_⟩)
        fun e u he v hv => ?_
      · refine ⟨?_, ?_, fun o outer ho hbefore => ?_, fun assets hassets => ?_⟩
        · rw [Block.ownersAfter_other hb, if_pos hd, hv]
          exact hu.stacked.closed hp.ne_list (some b.id)
        · rw [hv]
          exact hleft _ ((global_closed ..).trans hu.global)
        · rw [hv]
          exact (hu.stays ho (hover ho hbefore)).closed ho (some b.id)
        · rw [hv]
          change (closed (some b.id) u.context).tree.fits = _
          rw [tree_closed, hu.fits hassets, hfits hassets, Block.strays_other hb, hd]
          simp [Bool.and_assoc]
      · rw [hv]
        exact ⟨⟨he.1.1, by rw [hv]; exact he.1.2⟩, hleft _ he.2⟩
    · refine ⟨?_, ?_, fun o outer ho hbefore => ?_, fun assets hassets => ?_⟩
      · rw [Block.ownersAfter_other hb, if_neg (by simp [hd]), hu]
        exact hent
      · rw [hu]
        exact hleft _ rfl
      · rw [hu]
        exact hover ho hbefore
      · rw [hu]
        change t.context.tree.fits = _
        rw [hfits hassets, Block.strays_other hb, hd]
        simp
  · refine ⟨⟨he, ?_⟩, by rw [ht, hglobal]⟩
    have hlen := ha.length_stack
    rw [ht]
    simp only [Context.stack, List.length_cons] at hlen
    omega

mutual

theorem keptBy (source : Option AssetSource) : (b : Block) → KeptBy source b
  | ⟨id, tag, props, children⟩ => by
    by_cases hb : Block.isItem ⟨id, tag, props, children⟩
    · exact keptBy_item hb (keptByAll source children)
    · exact keptBy_other (by simpa using hb) (keptByAll source children)

theorem keptByAll (source : Option AssetSource) : (bs : List Block) → KeptByAll source bs
  | [] => by
    intro place rest owners parent s hp hr h
    rw [visitAll]
    exact leads_pure _ ⟨h, rfl, fun _ _ _ hover => hover, by simp [Block.straysAmong]⟩
  | b :: bs => by
    intro place rest owners parent s hp hr h
    rw [visitAll]
    refine leads_bind ((keptBy source b hp hr h).mono (fun _ t ht => ?_) fun _ _ he => he)
    refine (keptByAll source bs hp hr ht.stacked).mono (fun _ u hu => ?_)
      fun _ _ he => ⟨he.1, he.2.trans ht.global⟩
    refine ⟨hu.stacked, hu.global.trans ht.global,
      fun _ _ ho hover => hu.stays ho (ht.stays ho hover), fun assets hassets => ?_⟩
    rw [hu.fits hassets, ht.fits hassets, Block.straysAmong, Bool.not_or, Bool.and_assoc]

end

end Walk

/-- A walk that the resolver does not stop ends with a root; what is below it fits unless a node
strayed. -/
theorem walk_kept (assets : Option Resolver) (b : Block) :
    match (b.walk assets (.root [])).value with
    | .ok result => result.tree.type = .root ∧ result.tree.fits = !b.strays assets none []
    | .error e => Walk.StopsAt assets e := by
  let s : WalkState := { context := .start (.root []) 0 }
  have h : Stacked .root [] [] s.context.stack := ⟨_, rfl, rfl⟩
  have hk : Walk.Leads (Walk.visit (assets.map .steady) none b) s _ _ :=
    Walk.keptBy (assets.map .steady) b .root (by simp) h
  unfold Walk.Leads at hk
  unfold Block.walk Block.walkFrom
  cases hv : Walk.visit (assets.map .steady) none b s with
  | ok a t =>
    rw [hv] at hk
    exact ⟨hk.stacked.type_tree, hk.fits rfl⟩
  | error e t =>
    rw [hv] at hk
    exact Walk.haltsAt_steady_iff.1 hk.1.1

namespace Block

mutual

/-- Where the props of all list blocks can be read no node strays. -/
theorem strays_of_items {assets : Option Resolver} {parent : Option String}
    {owners : List (Option String)} (ho : dropOwner parent owners = []) : (b : Block) →
    (∀ x ∈ b.subtree, x.flavour = .list → x.isItem = true) →
    b.strays assets parent owners = false
  | ⟨id, tag, props, children⟩, h => by
    rw [subtree, List.forall_mem_cons] at h
    by_cases hb : isItem ⟨id, tag, props, children⟩
    · rw [strays_item hb, ho, straysAmong_of_items (dropOwner_nil (some id)) children h.2]
      rfl
    · have hl : ¬ flavour ⟨id, tag, props, children⟩ = .list := fun hl => hb (h.1 hl)
      have ha : ownersAt parent owners ⟨id, tag, props, children⟩ = [] := by
        rw [ownersAt, if_neg hl, ho]
      rw [strays_other (by simpa using hb), ha,
        straysAmong_of_items (dropOwner_nil (some id)) children h.2]
      simp

theorem straysAmong_of_items {assets : Option Resolver} {parent : Option String}
    {owners : List (Option String)} (ho : dropOwner parent owners = []) : (bs : List Block) →
    (∀ x ∈ subtrees bs, x.flavour = .list → x.isItem = true) →
    straysAmong assets parent owners bs = false
  | [], _ => rfl
  | b :: bs, h => by
    rw [subtrees, List.forall_mem_append] at h
    have hafter : dropOwner parent (b.ownersAfter parent owners) = [] := by
      have := dropOwner_ownersAfter parent owners b
      rwa [ho, List.suffix_nil] at this
    rw [straysAmong, strays_of_items ho b h.1, straysAmong_of_items hafter bs h.2]
    rfl

end

end Block

theorem Block.value_toPage_of_walk {assets : Option Resolver} {b : Block} {result : WalkResult}
    (h : (b.walk assets (.root [])).value = .ok result) (o : Markdown.Options) :
    (b.toPage assets o).value = match Markdown.markdown o result.tree with
      | .ok text => .ok ⟨text, result.assetIds⟩
      | .error e => .error (.misplaced e) := by
  unfold Block.toPage
  rw [Logged.value_bind, h]
  simp only
  cases Markdown.markdown o result.tree <;> rfl

/-- A block tree becomes a page unless one of its nodes strays into a list, which only a list block
with props that cannot be read can cause. -/
theorem toPage_ok_iff_not_strays {assets : Option Resolver} (h : ∀ r ∈ assets, r.Answers)
    (o : Markdown.Options) (b : Block) :
    (∃ result, (b.walk assets (.root [])).value = .ok result ∧ result.tree.type = .root ∧
      (result.tree.fits = true ↔ b.strays assets none [] = false)) ∧
    ((∃ page, (b.toPage assets o).value = .ok page) ↔ b.strays assets none [] = false) ∧
    ((∀ x ∈ b.subtree, x.flavour = .list → x.isItem = true) →
      b.strays assets none [] = false) := by
  have hk := walk_kept assets b
  cases hw : (b.walk assets (.root [])).value with
  | error e =>
    rw [hw] at hk
    exact absurd hk (not_stopsAt h e)
  | ok result =>
    rw [hw] at hk
    obtain ⟨ht, hf⟩ := hk
    refine ⟨⟨result, rfl, ht, by simp [hf]⟩, ?_, fun hi => b.strays_of_items rfl hi⟩
    have hdoc : (Markdown.Document.ofNode result.tree).isOk = !b.strays assets none [] := by
      rw [Markdown.isOk_documentOfNode, ht, hf]
      simp
    rw [Block.value_toPage_of_walk hw, Markdown.markdown]
    cases hd : Markdown.Document.ofNode result.tree with
    | ok d =>
      rw [hd] at hdoc
      simpa [Except.map, Except.isOk, Except.toBool] using hdoc
    | error e =>
      rw [hd] at hdoc
      simpa [Except.map, Except.isOk, Except.toBool] using hdoc

/-- An item, and behind it a list block whose props cannot be read, above a block. -/
def brokenRun (child : Block) : Block :=
  ⟨"n", "affine:note", [], [
    ⟨"a", "affine:list", [("text", .string "x")], []⟩,
    ⟨"b", "affine:list", [("type", .int 1)], [child]⟩]⟩

def oneAsset : Resolver := fun ref =>
  pure (if ref = "img" then .ok (some { data := .empty, name := some "a.png" })
    else .error (.unreadable "gone"))

/-- Below the broken item an image without its asset does not stray. -/
theorem toPage_brokenRun_image : (∀ r ∈ some oneAsset, r.Answers) ∧
    ∃ page, ((brokenRun ⟨"c", "affine:image", [("sourceId", .string "gone")], []⟩).toPage
      (some oneAsset) {}).value = .ok page := by
  have h : ∀ r ∈ some oneAsset, r.Answers := by
    rintro r ⟨⟩ ref
    by_cases hr : ref = "img"
    · exact .inl ⟨some { data := .empty, name := some "a.png" }, by simp [oneAsset, hr]⟩
    · exact .inr ⟨"gone", by simp [oneAsset, hr]⟩
  exact ⟨h, (toPage_ok_iff_not_strays h {} _).2.1.2 (by decide +kernel)⟩

def brokenRunValue : Value :=
  .object [
    ("children", .array [
      .object [("flavour", .string "affine:list"), ("id", .string "a"),
        ("props", .object [("text", .string "x")])],
      .object [
        ("children", .array [
          .object [("flavour", .string "affine:divider"), ("id", .string "c")]]),
        ("flavour", .string "affine:list"), ("id", .string "b"),
        ("props", .object [("type", .int 1)])]]),
    ("flavour", .string "affine:note"), ("id", .string "n")]

/-- A divider below the broken item makes the whole page fail. -/
theorem toPage_brokenRun_divider :
    Block.parse brokenRunValue = .ok (brokenRun ⟨"c", "affine:divider", [], []⟩) ∧
    ((brokenRun ⟨"c", "affine:divider", [], []⟩).toPage none {}).value =
      .error (.misplaced ⟨.item, .thematicBreak⟩) := by
  exact ⟨rfl, by decide +kernel⟩

end PageExport
