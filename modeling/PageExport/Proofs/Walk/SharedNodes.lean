import Mathlib.Data.List.Chain
import PageExport.Proofs.Walk.Spine
import PageExport.Walk.SharedContext

/-!
Which trees are stored. The open nodes are a branch from the root: each of them refers to the next one
last, and what is stored for the children closed before lies between the two, so that no later operation
reaches it.
-/
namespace PageExport

open Markdown (Node storeAll)

namespace Markdown

theorem Node.store_eq (first : Nat) (n : Node) : n.store first =
    ⟨n.withChildren [], n.children?.map fun _ => (storeAll (first + 1) n.children).1⟩ ::
      (storeAll (first + 1) n.children).2 := by
  cases n <;> rfl

theorem Node.withChildren_children (n : Node) : (n.withChildren []).withChildren n.children = n := by
  cases n <;> rfl

theorem Node.withChildren_nil {n : Node} (h : n.children? = none) : n.withChildren [] = n := by
  cases n <;> first | rfl | cases h

end Markdown

mutual

/-- The tree `n` is stored at `id`, and what is below its root is stored between there and `last`. -/
inductive Holds (nodes : List StoredNode) : Nat → Nat → Node → Prop
  | node {id last : Nat} {n : Node} {ids : List Nat}
    (hroot : nodes[id]? = some ⟨n.withChildren [], n.children?.map fun _ => ids⟩)
    (hbelow : HoldsAll nodes ids (id + 1) last n.children) : Holds nodes id last n

inductive HoldsAll (nodes : List StoredNode) :
    List Nat → Nat → Nat → List Node → Prop
  | nil {first last : Nat} (h : first ≤ last) : HoldsAll nodes [] first last []
  | cons {id first mid last : Nat} {ids : List Nat} {n : Node} {ns : List Node}
    (h : first ≤ id) (hn : Holds nodes id mid n) (hns : HoldsAll nodes ids mid last ns) :
    HoldsAll nodes (id :: ids) first last (n :: ns)

end

section
variable {nodes nodes' : List StoredNode}

mutual

theorem Holds.lt {id last : Nat} {n : Node} : Holds nodes id last n → id < last
  | .node _ hbelow => hbelow.le

theorem HoldsAll.le {ids : List Nat} {first last : Nat} {ns : List Node} :
    HoldsAll nodes ids first last ns → first ≤ last
  | .nil h => h
  | .cons h hn hns => h.trans (hn.lt.le.trans hns.le)

end

mutual

/-- Only what is stored between the two places counts. -/
theorem Holds.congr {id last : Nat} {n : Node} : Holds nodes id last n →
    (∀ i, id ≤ i → i < last → nodes'[i]? = nodes[i]?) → Holds nodes' id last n
  | .node hroot hbelow, hsame =>
    .node ((hsame id le_rfl hbelow.le).trans hroot)
      (hbelow.congr fun i hi => hsame i (Nat.le_of_succ_le hi))

theorem HoldsAll.congr {ids : List Nat} {first last : Nat} {ns : List Node} :
    HoldsAll nodes ids first last ns → (∀ i, first ≤ i → i < last → nodes'[i]? = nodes[i]?) →
      HoldsAll nodes' ids first last ns
  | .nil h, _ => .nil h
  | .cons h hn hns, hsame =>
    .cons h (hn.congr fun i hi hlt => hsame i (h.trans hi) (hlt.trans_le hns.le))
      (hns.congr fun i hi => hsame i (h.trans (hn.lt.le.trans hi)))

end

theorem HoldsAll.mono {ids : List Nat} {first last last' : Nat} {ns : List Node} :
    HoldsAll nodes ids first last ns → last ≤ last' → HoldsAll nodes ids first last' ns
  | .nil h, hle => .nil (h.trans hle)
  | .cons h hn hns, hle => .cons h hn (hns.mono hle)

/-- Another tree, stored behind the others. -/
theorem HoldsAll.concat {ids : List Nat} {id first last : Nat} {n : Node} {ns : List Node} :
    HoldsAll nodes ids first id ns → Holds nodes id last n →
      HoldsAll nodes (ids ++ [id]) first last (ns ++ [n])
  | .nil h, hn => .cons h hn (.nil le_rfl)
  | .cons h hm hns, hn => .cons h hm (hns.concat hn)

/-- Where the nodes of a tree were put behind others, the tree is stored if those below its root are. -/
theorem holds_of_below {before rest : List StoredNode} {n : Node}
    (h : nodes = before ++ (n.store before.length ++ rest))
    (hbelow : ∀ {before rest}, nodes = before ++ ((storeAll before.length n.children).2 ++ rest) →
      HoldsAll nodes (storeAll before.length n.children).1 before.length
        (before.length + (storeAll before.length n.children).2.length) n.children) :
    Holds nodes before.length (before.length + (n.store before.length).length) n := by
  rw [Node.store_eq] at h ⊢
  let top : StoredNode :=
    ⟨n.withChildren [], n.children?.map fun _ => (storeAll (before.length + 1) n.children).1⟩
  have hroot : nodes[before.length]? = some top := by
    rw [h, List.cons_append, List.getElem?_append_right le_rfl, Nat.sub_self]
    rfl
  have hlength : (before.concat top).length = before.length + 1 := List.length_concat
  have hnodes : nodes = before.concat top ++
      ((storeAll (before.concat top).length n.children).2 ++ rest) := by
    rw [hlength, h, List.concat_eq_append, List.append_assoc]
    rfl
  have hall := hbelow hnodes
  rw [hlength] at hall
  refine .node hroot ?_
  rwa [List.length_cons, ← Nat.add_assoc, Nat.add_right_comm]

mutual

theorem holds_store {before rest : List StoredNode} (n : Node)
    (h : nodes = before ++ (n.store before.length ++ rest)) :
    Holds nodes before.length (before.length + (n.store before.length).length) n :=
  match n with
  | .strong cs | .emphasis cs | .delete cs | .link _ _ cs | .paragraph cs | .heading _ cs
  | .blockquote cs | .listItem _ _ cs | .list _ _ _ cs | .tableCell cs | .tableRow cs
  | .table _ cs | .root cs => holds_of_below h (holdsAll_storeAll cs)
  | .text _ | .inlineCode _ | .image _ _ _ | .code _ _ _ | .thematicBreak =>
    holds_of_below h fun _ => .nil (Nat.le_add_right _ _)

theorem holdsAll_storeAll {before rest : List StoredNode} (ns : List Node)
    (h : nodes = before ++ ((storeAll before.length ns).2 ++ rest)) :
    HoldsAll nodes (storeAll before.length ns).1 before.length
      (before.length + (storeAll before.length ns).2.length) ns := by
  cases ns with
  | nil => exact .nil le_rfl
  | cons n ns =>
    rw [storeAll, List.append_assoc] at h
    have hnodes : nodes = (before ++ n.store before.length) ++
        ((storeAll (before ++ n.store before.length).length ns).2 ++ rest) := by
      rw [h, List.append_assoc, List.length_append]
    have hns := holdsAll_storeAll ns hnodes
    rw [List.length_append] at hns
    simpa [storeAll, Nat.add_assoc] using HoldsAll.cons le_rfl (holds_store n h) hns

end

theorem holds_stored (nodes : List StoredNode) (n : Node) :
    Holds (nodes ++ n.store nodes.length) nodes.length (nodes ++ n.store nodes.length).length n := by
  have hnodes : nodes ++ n.store nodes.length = nodes ++ (n.store nodes.length ++ []) := by
    rw [List.append_nil]
  rw [List.length_append]
  exact holds_store n hnodes

mutual

theorem Holds.readNode {id last : Nat} {n : Node} {height : Nat} :
    Holds nodes id last n → last ≤ id + height → SharedContext.readNode nodes height id = some n
  | @Holds.node _ _ _ _ ids hroot hbelow, hheight => by
    obtain ⟨height, rfl⟩ : ∃ h, height = h + 1 := ⟨height - 1, by have := hbelow.le; omega⟩
    have hread : ids.mapM (SharedContext.readNode nodes height) = some n.children :=
      hbelow.mapM_readNode (by omega)
    rw [SharedContext.readNode, hroot]
    cases hc : n.children? with
    | none => exact congrArg some (Node.withChildren_nil hc)
    | some cs =>
      simp [hread, Node.withChildren_children]

theorem HoldsAll.mapM_readNode {ids : List Nat} {first last : Nat} {ns : List Node}
    {height : Nat} : HoldsAll nodes ids first last ns → last ≤ first + height →
      ids.mapM (SharedContext.readNode nodes height) = some ns
  | .nil _, _ => rfl
  | .cons h hn hns, hheight => by
    have hle := hns.le
    have hlt := hn.lt
    rw [List.mapM_cons, hn.readNode (by omega), hns.mapM_readNode (by omega)]
    rfl

end

/-- The open nodes `os`, from the innermost one outwards, are stored at `ids`. Each refers to the one inside
it last, the innermost one to `inner`; the trees that are closed in it are stored behind it, before the node
inside it or before `last`. -/
inductive Branch (nodes : List StoredNode) :
    List Nat → Nat → List (OpenNode Members) → List Nat → Prop
  | nil (inner : List Nat) (last : Nat) : Branch nodes inner last [] []
  | cons {inner closed ids : List Nat} {last id : Nat} {o : OpenNode Members}
    {os : List (OpenNode Members)}
    (hnode : nodes[id]? =
      some ⟨o.node.withChildren [], o.node.children?.map fun _ => closed ++ inner⟩)
    (hclosed : HoldsAll nodes closed (id + 1) last o.node.children)
    (houter : Branch nodes [id] id os ids) : Branch nodes inner last (o :: os) (id :: ids)

namespace Branch

variable {inner ids : List Nat} {last last' id id' : Nat} {o o' : OpenNode Members}
  {os : List (OpenNode Members)}

theorem congr (h : Branch nodes inner last os ids) (hsame : ∀ i, i < last → nodes'[i]? = nodes[i]?) :
    Branch nodes' inner last os ids := by
  induction h with
  | nil => exact .nil _ _
  | cons hnode hclosed _ ih =>
    have hlt := hclosed.le
    exact .cons ((hsame _ hlt).trans hnode) (hclosed.congr fun i _ => hsame i)
      (ih fun i hi => hsame i (by omega))

theorem mono (h : Branch nodes inner last os ids) (hle : last ≤ last') :
    Branch nodes inner last' os ids := by
  cases h with
  | nil => exact .nil _ _
  | cons hnode hclosed houter => exact .cons hnode (hclosed.mono hle) houter

theorem length_eq (h : Branch nodes inner last os ids) : os.length = ids.length := by
  induction h with
  | nil => rfl
  | cons _ _ _ ih => rw [List.length_cons, List.length_cons, ih]

theorem exists_node (h : Branch nodes [] last (o :: os) (id :: ids)) : id < last ∧
    ∃ closed, nodes[id]? = some ⟨o.node.withChildren [], o.node.children?.map fun _ => closed⟩ := by
  cases h with
  | @cons _ closed _ _ _ _ _ hnode hclosed _ => exact ⟨hclosed.le, closed, by simpa using hnode⟩

theorem exists_ids (h : Branch nodes inner last (o :: os) ids) : ∃ id below, ids = id :: below := by
  cases h
  exact ⟨_, _, rfl⟩

/-- Scopes are not stored with the nodes. -/
theorem setScope (h : Branch nodes inner last (o :: os) ids) (scope : Members) :
    Branch nodes inner last ({ o with scope := scope } :: os) ids := by
  cases h with
  | cons hnode hclosed houter => exact .cons hnode hclosed houter

/-- The innermost node becomes the last one that is closed in the node around it. -/
theorem close (h : Branch nodes [] last (o :: o' :: os) (id :: ids)) (ho : o'.node.children?.isSome) :
    Branch nodes [] last ({ o' with node := o'.node.addChild o.node } :: os) ids := by
  obtain ⟨cs, hcs⟩ := Option.isSome_iff_exists.1 ho
  cases h with
  | @cons _ closed _ _ _ _ _ hnode hclosed houter =>
    cases houter with
    | @cons _ closed' _ _ id' _ _ hnode' hclosed' houter =>
      have hinner : Holds nodes id last o.node := .node (by simpa using hnode) hclosed
      have hlabel : (o'.node.addChild o.node).withChildren [] = o'.node.withChildren [] := by
        cases o'.node <;> rfl
      have hchildren : (o'.node.addChild o.node).children = o'.node.children ++ [o.node] :=
        Node.children_addChildren ho [o.node]
      have hnode : nodes[id']? = some ⟨(o'.node.addChild o.node).withChildren [],
          (o'.node.addChild o.node).children?.map fun _ => (closed' ++ [id]) ++ []⟩ := by
        rw [hnode', hlabel, Node.addChild, Node.children?_withChildren, hcs, List.append_nil]
        rfl
      refine .cons hnode ?_ houter
      rw [hchildren]
      exact hclosed'.concat hinner

/-- A tree that is stored behind the others becomes the innermost open node once the one that was it
refers to it last. -/
theorem openBehind {n : Node} (h : Branch nodes [] id (o :: os) (id' :: ids))
    (hn : Holds nodes id last n) (ho : o.node.children?.isSome)
    (hwritten : nodes'[id']? =
      (nodes[id']?).map fun node => { node with children := node.children.map (· ++ [id]) })
    (hsame : ∀ i, i ≠ id' → nodes'[i]? = nodes[i]?) :
    Branch nodes' [] last (⟨n, default⟩ :: o :: os) (id :: id' :: ids) := by
  obtain ⟨cs, hcs⟩ := Option.isSome_iff_exists.1 ho
  cases h with
  | @cons _ closed _ _ _ _ _ hnode hclosed houter =>
    have hlt : id' < id := hclosed.le
    obtain ⟨hroot, hbelow⟩ := hn.congr fun i hi _ => hsame i (by omega)
    have hparent : nodes'[id']? =
        some ⟨o.node.withChildren [], o.node.children?.map fun _ => closed ++ [id]⟩ := by
      rw [hwritten, hnode, hcs, List.append_nil]
      rfl
    refine .cons (by simpa using hroot) hbelow (.cons hparent ?_ ?_)
    · exact hclosed.congr fun i hi _ => hsame i (by omega)
    · exact houter.congr fun i hi => hsame i (by omega)

/-- At the outermost of the open nodes the whole tree is stored. -/
theorem holds (h : Branch nodes [] last (o :: os) ids) (hos : ∀ p ∈ os, p.node.children?.isSome) :
    ∃ root, ids.getLast? = some root ∧ Holds nodes root last (Context.close o.node os) := by
  induction os generalizing o ids with
  | nil =>
    cases h with
    | @cons _ _ _ _ id _ _ hnode hclosed houter =>
      cases houter
      have hholds : Holds nodes id last o.node := .node (by simpa using hnode) hclosed
      exact ⟨id, rfl, hholds⟩
  | cons p os ih =>
    obtain ⟨hp, hos⟩ := List.forall_mem_cons.1 hos
    obtain ⟨id, ids, rfl⟩ := h.exists_ids
    obtain ⟨root, hroot, hholds⟩ := ih (h.close hp) hos
    exact ⟨root, by rw [List.getLast?_cons, hroot]; rfl, hholds⟩

/-- Each open node but the root is the last child of the one around it. -/
theorem isChain (h : Branch nodes inner last os ids) (hos : ∀ p ∈ os.tail, p.node.children?.isSome) :
    ids.IsChain fun id parent => ∃ label closed, nodes[parent]? = some ⟨label, some (closed ++ [id])⟩ := by
  induction h with
  | nil => exact List.isChain_nil
  | @cons _ _ ids _ id o os _ _ houter ih =>
    refine List.isChain_cons.2 ⟨fun parent hparent => ?_, ih fun p hp => hos p (List.mem_of_mem_tail hp)⟩
    cases houter with
    | nil => cases hparent
    | @cons _ closed _ _ id' o' _ hnode _ _ =>
      cases hparent
      obtain ⟨cs, hcs⟩ := Option.isSome_iff_exists.1 (hos o' (by simp))
      exact ⟨_, closed, by rw [hnode, hcs]; rfl⟩

end Branch

end

end PageExport
