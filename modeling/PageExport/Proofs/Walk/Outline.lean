import Mathlib.Data.List.SplitBy
import PageExport.Proofs.Snapshot.Subtree
import PageExport.Proofs.Walk.Steps

/-!
The outline of a block tree: what the walk builds, told without open nodes. Siblings contribute in
turn, and each maximal run of items with one signature becomes one list.
-/
namespace PageExport

open Markdown (Node NodeType nodesOfInlines)

/-- What a block contributes among its siblings: an item of a list, or nodes. -/
inductive Part where
  | item (signature : ListSignature) (node : Node)
  | blocks (nodes : List Node)

namespace Part

/-- Items with one signature go into one list. -/
def joins : Part → Part → Bool
  | .item s _, .item t _ => s = t
  | _, _ => false

def node? : Part → Option Node
  | .item _ n => some n
  | .blocks _ => none

/-- The nodes of a run of parts that join. -/
def ofRun : List Part → List Node
  | .item s n :: ps => [.list s.ordered none false (n :: ps.filterMap node?)]
  | .blocks ns :: _ => ns
  | [] => []

/-- The nodes of parts in turn, run by run. -/
def gather (ps : List Part) : List Node := (ps.splitBy joins).flatMap ofRun

@[simp] theorem gather_nil : gather [] = [] := rfl

/-- Between parts that do not join a run ends. -/
theorem gather_append {ps qs : List Part}
    (h : ∀ p ∈ ps.getLast?, ∀ q ∈ qs.head?, p.joins q = false) :
    gather (ps ++ qs) = gather ps ++ gather qs := by
  rw [gather, List.splitBy_append h, List.flatMap_append]
  rfl

theorem gather_append_blocks (ps : List Part) (ns : List Node) :
    gather (ps ++ [.blocks ns]) = gather ps ++ ns := by
  rw [gather_append (by simp [joins])]
  have hrun : gather [.blocks ns] = ns ++ [] := rfl
  rw [hrun, List.append_nil]

theorem filterMap_item (s : ListSignature) (ns : List Node) :
    (ns.map (item s)).filterMap node? = ns := by
  rw [List.filterMap_map]
  exact List.filterMap_some

theorem gather_items (s : ListSignature) {ns : List Node} (h : ns ≠ []) :
    gather (ns.map (.item s)) = [.list s.ordered none false ns] := by
  obtain ⟨n, ns, rfl⟩ := List.exists_cons_of_ne_nil h
  have hchain : ((n :: ns).map (item s)).IsChain fun p q => p.joins q := by
    rw [List.isChain_map]
    exact (List.pairwise_of_forall fun _ _ => by simp [joins]).isChain
  have hrun : gather ((n :: ns).map (item s)) =
      [.list s.ordered none false (n :: (ns.map (item s)).filterMap node?)] := by
    rw [gather, List.splitBy_of_isChain (by simp) hchain]
    rfl
  rw [hrun, filterMap_item]

/-- Items behind parts that none of them joins make one list behind the nodes of those parts. -/
theorem gather_run {ps : List Part} {s : ListSignature} {ns : List Node} (hns : ns ≠ [])
    (h : ∀ p ∈ ps.getLast?, ∀ n, p.joins (.item s n) = false) :
    gather (ps ++ ns.map (.item s)) = gather ps ++ [.list s.ordered none false ns] := by
  rw [gather_append, gather_items s hns]
  intro p hp q hq
  obtain ⟨n, ns, rfl⟩ := List.exists_cons_of_ne_nil hns
  cases hq
  exact h p hp n

end Part

namespace Block

mutual

/-- What a block contributes at an indent depth. -/
def part (assets : Option Resolver) (depth : Nat) : Block → Part
  | ⟨id, tag, props, children⟩ =>
    let b : Block := ⟨id, tag, props, children⟩
    match if b.flavour = .list then b.props? ListProps.read else none with
    | some p =>
      .item p.signature (.listItem p.checkState false
        (.paragraph (nodesOfInlines (Delta.content 0 p.text)) ::
          Part.gather (parts assets depth children)))
    | none =>
      .blocks (b.ownNodes assets depth ++
        if b.descends then Part.gather (parts assets (b.childDepth depth) children) else [])

def parts (assets : Option Resolver) (depth : Nat) : List Block → List Part
  | [] => []
  | b :: bs => b.part assets depth :: parts assets depth bs

end

def outline (assets : Option Resolver) (depth : Nat) (siblings : List Block) : List Node :=
  Part.gather (parts assets depth siblings)

variable {assets : Option Resolver} {depth : Nat} {b : Block}

theorem part_item {p : ListProps} (hb : b.flavour = .list)
    (hp : b.props? ListProps.read = some p) :
    b.part assets depth = .item p.signature
      ((Walk.itemNode p).addChildren (outline assets depth b.children)) := by
  obtain ⟨id, tag, props, children⟩ := b
  simp [part, hb, hp, Walk.itemNode, Node.addChildren, Node.withChildren, Node.children, Node.children?, outline]

theorem part_other (hb : b.isItem = false) :
    b.part assets depth = .blocks (b.ownNodes assets depth ++
      if b.descends then outline assets (b.childDepth depth) b.children else []) := by
  obtain ⟨id, tag, props, children⟩ := b
  have hn : (if flavour ⟨id, tag, props, children⟩ = .list then
      props? ⟨id, tag, props, children⟩ ListProps.read else none) = none := by
    split
    · next hl => simpa [isItem, hl] using hb
    · rfl
  rw [part, hn]
  rfl

end Block

namespace Walk

/-- Parts laid down in an open node, of which the last run of items may still be open. -/
inductive Laid (c : WalkContext) (parent : Option String) : List Part → WalkContext → Prop
  | settled {ps : List Part} (h : ∀ p ∈ ps.getLast?, ∀ q, p.joins q = false) :
    Laid c parent ps (c.extend (Part.gather ps))
  | running {ps : List Part} {s : ListSignature} {ns : List Node} (hns : ns ≠ [])
      (hs : ListSignature.ofNode (.list s.ordered none false ns) = .ok (some s))
      (h : ∀ p ∈ ps.getLast?, ∀ n, p.joins (.item s n) = false) :
    Laid c parent (ps ++ ns.map (.item s))
      ⟨⟨.list s.ordered none false ns, parent⟩, (c.extend (Part.gather ps)).stack, c.global⟩

theorem signature_append {ns : List Node} (h : ns ≠ []) (ordered : Bool) (ms : List Node) :
    ListSignature.ofNode (.list ordered none false (ns ++ ms)) =
      ListSignature.ofNode (.list ordered none false ns) := by
  obtain ⟨n, ns, rfl⟩ := List.exists_cons_of_ne_nil h
  cases n <;> rfl

theorem signature_item (p : ListProps) (content : List Node) :
    ListSignature.ofNode (.list p.signature.ordered none false [(itemNode p).addChildren content]) =
      .ok (some p.signature) := by
  have h : p.checkState.isSome = p.signature.todo := by
    unfold ListProps.checkState ListProps.signature
    split <;> simp_all
  change Except.ok (some (ListSignature.mk p.signature.ordered p.checkState.isSome)) = _
  rw [h]

namespace Laid

variable {c d : WalkContext} {parent : Option String} {ps : List Part}

theorem nil (c : WalkContext) (parent : Option String) : Laid c parent [] c := by
  have h : Laid c parent [] (c.extend (Part.gather [])) := .settled (by simp)
  rwa [Part.gather_nil, Context.extend_nil] at h

theorem blocks (c : WalkContext) (parent : Option String) (ps : List Part) (ns : List Node) :
    Laid c parent (ps ++ [.blocks ns]) (c.extend (Part.gather ps ++ ns)) := by
  rw [← Part.gather_append_blocks]
  exact .settled (by simp [Part.joins])

theorem isParent (h : Laid c parent ps d) (hc : IsPlace c.current.node.type) :
    d.current.node.children?.isSome := by
  cases h with
  | settled => simpa [Context.extend] using hc.isSome_children?
  | running => rfl

theorem exists_signature (h : Laid c parent ps d) (hc : IsPlace c.current.node.type) :
    ∃ prior, ListSignature.ofNode d.current.node = .ok prior := by
  cases h with
  | settled => exact ⟨none, IsPlace.signature_eq (by simpa [Context.extend] using hc)⟩
  | running _ hs => exact ⟨_, hs⟩

theorem type_ne_list (h : Laid c parent ps d) (hc : IsPlace c.current.node.type)
    (ho : d.outer = []) : d.current.node.type ≠ .list := by
  cases h with
  | settled => simpa [Context.extend] using hc.ne_list
  | running => cases ho

theorem closed_eq (h : Laid c parent ps d) (hc : IsPlace c.current.node.type) :
    closed parent d = c.extend (Part.gather ps) := by
  cases h with
  | settled => exact closed_of_type_ne (by simpa [Context.extend] using hc.ne_list) parent
  | running hns _ h =>
    rw [Part.gather_run hns h, ← Context.extend_extend, closed_of_type_eq rfl rfl, if_pos rfl]
    rfl

theorem tree_eq (h : Laid c parent ps d) : d.tree = (c.extend (Part.gather ps)).tree := by
  cases h with
  | settled => rfl
  | running hns _ h =>
    rw [Part.gather_run hns h, ← Context.extend_extend]
    rfl

/-- An item that does not go on with the open list joins nothing that is laid down. -/
theorem not_joins (h : Laid c parent ps d) (hparent : parent.isSome ∨ ps = [])
    {prior : Option ListSignature} (hprior : ListSignature.ofNode d.current.node = .ok prior)
    {p : ListProps} (hp : ¬ goesOn p parent prior d) :
    ∀ q ∈ ps.getLast?, ∀ n, q.joins (.item p.signature n) = false := by
  cases h with
  | settled h => exact fun q hq n => h q hq _
  | running hns hs h =>
    intro q hq n
    obtain ⟨m, hm⟩ := Option.isSome_iff_exists.1 (List.getLast?_isSome.2 hns)
    have hsome : parent.isSome := hparent.resolve_right (by simp [hns])
    rw [List.getLast?_append_of_ne_nil _ (by simpa using hns), List.getLast?_map, hm] at hq
    cases hq
    rw [hs] at hprior
    cases hprior
    have hne : ¬ _ = p.signature := fun he => hp (goesOn_iff.2 ⟨rfl, hsome, he ▸ rfl⟩)
    simpa [Part.joins] using hne

/-- A list block puts its item behind the items before it, or else starts a list. -/
theorem itemEntered (h : Laid c parent ps d) (hc : IsPlace c.current.node.type)
    (hparent : parent.isSome ∨ ps = []) {prior : Option ListSignature}
    (hprior : ListSignature.ofNode d.current.node = .ok prior) (p : ListProps) :
    ∃ l below, itemEntered p parent prior d = ⟨⟨itemNode p, none⟩, l :: below, c.global⟩ ∧
      c.outer.length ≤ below.length ∧ ∀ content,
        Laid c parent (ps ++ [.item p.signature ((itemNode p).addChildren content)])
          ⟨{ l with node := l.node.addChildren [(itemNode p).addChildren content] }, below,
            c.global⟩ := by
  unfold Walk.itemEntered
  split
  · next hp =>
    obtain ⟨hscope, -, rfl⟩ := goesOn_iff.1 hp
    cases h with
    | settled h =>
      have ht : IsPlace (c.extend (Part.gather ps)).current.node.type := by
        simpa [Context.extend] using hc
      rw [ht.signature_eq] at hprior
      cases hprior
    | @running ps s ns hns hs h =>
      rw [hs] at hprior
      cases hprior
      refine ⟨_, _, rfl, Nat.le_succ _, fun content => ?_⟩
      have hmore := signature_append hns p.signature.ordered [(itemNode p).addChildren content]
      have hrun : Laid c parent (ps ++ (ns ++ [(itemNode p).addChildren content]).map _) _ :=
        running (by simp) (hmore.trans hs) h
      rw [List.map_append, ← List.append_assoc] at hrun
      exact hrun
  · next hp =>
    rw [h.closed_eq hc]
    refine ⟨_, _, rfl, Nat.le_succ _, fun content => ?_⟩
    exact running (List.cons_ne_nil _ []) (signature_item p content) (h.not_joins hparent hprior hp)

end Laid

/-- Visiting a block lays its part down. -/
def LaidBy (assets : Option Resolver) (b : Block) : Prop :=
  ∀ ⦃c : WalkContext⦄ ⦃parent ps⦄ ⦃s : WalkState⦄, IsPlace c.current.node.type →
    parent.isSome ∨ ps = [] → Laid c parent ps s.context →
    Leads (visit (assets.map .steady) parent b) s
      (fun _ t => Laid c parent (ps ++ [b.part assets c.global]) t.context)
      (Abandoned (assets.map .steady) c.outer)

def LaidByAll (assets : Option Resolver) (bs : List Block) : Prop :=
  ∀ ⦃c : WalkContext⦄ ⦃id ps⦄ ⦃s : WalkState⦄, IsPlace c.current.node.type →
    Laid c (some id) ps s.context →
    Leads (visitAll (assets.map .steady) (some id) bs) s
      (fun _ t => Laid c (some id) (ps ++ Block.parts assets c.global bs) t.context)
      (Abandoned (assets.map .steady) c.outer)

variable {assets : Option Resolver} {b : Block}

theorem laidBy_item {p : ListProps} (hb : b.flavour = .list)
    (hp : b.props? ListProps.read = some p) (ih : LaidByAll assets b.children) :
    LaidBy assets b := by
  intro c parent ps s hc hparent h
  obtain ⟨prior, hprior⟩ := h.exists_signature hc
  have hclosed : (closed parent s.context).current.node.children?.isSome := by
    rw [h.closed_eq hc]
    simpa [Context.extend] using hc.isSome_children?
  obtain ⟨l, below, hentered, hlen, hlaid⟩ := h.itemEntered hc hparent hprior p
  refine leads_visit_item hb hp hprior (h.type_ne_list hc) (h.isParent hc) hclosed fun t ht => ?_
  rw [hentered] at ht
  -- nothing is laid down in the new item yet, whatever runs are open around it
  have hplace : IsPlace t.context.current.node.type := by
    rw [ht]
    exact .item
  refine leads_within_item ((ih hplace (.nil _ _)).mono (fun _ u hu => ?_) fun e u he => ?_)
  · refine ⟨hu.type_ne_list hplace, l, below, ?_⟩
    rw [hu.closed_eq hplace, ht]
    refine ⟨rfl, fun v hv => ?_⟩
    rw [hv, Block.part_item hb hp]
    exact hlaid (Block.outline assets c.global b.children)
  · rw [ht] at he
    exact he.popped hlen

theorem laidBy_other (hb : b.flavour ≠ .list) (ih : LaidByAll assets b.children) :
    LaidBy assets b := by
  intro c parent ps s hc hparent h
  have hitem : b.isItem = false := by simp [Block.isItem, hb]
  have harrived : arrived parent b s.context = c.extend (Part.gather ps) := by
    rw [arrived, if_neg hb, h.closed_eq hc]
  have hplace (ns : List Node) : IsPlace (c.extend ns).current.node.type := by
    simpa [Context.extend] using hc
  refine leads_visit_other hitem (h.type_ne_list hc)
    (by rw [harrived]; exact (hplace _).isSome_children?) (fun t ht => ?_) fun e t he ht => ?_
  · rw [harrived, resolverAt_steady] at ht
    have hglobal : t.context.global = b.childDepth c.global := by rw [ht]; rfl
    have hleft (ns : List Node) : left b (t.context.extend ns) =
        c.extend (Part.gather ps ++ (b.ownNodes assets c.global ++ ns)) := by
      have hback : (if b.indents then b.childDepth c.global - 1 else b.childDepth c.global) =
          c.global := by
        unfold Block.childDepth
        split <;> simp
      simp [left, ht, entered, Context.extend, hback]
    have ht' : IsPlace t.context.current.node.type := by
      rw [ht]
      simpa [entered, Context.extend] using hc
    refine leads_within_other (fun hd => ?_) fun hd u hu => ?_
    · refine (ih ht' (.nil _ _)).mono (fun _ u hu => ⟨hu.type_ne_list ht', fun v hv => ?_⟩)
        fun e u he v hv => ?_
      · rw [hv, hu.closed_eq ht', hglobal, hleft, Block.part_other hitem, if_pos hd]
        exact .blocks c parent ps _
      · rw [ht] at he
        exact ⟨he.1, by rw [hv]; exact he.2⟩
    · rw [hu, ← Context.extend_nil t.context, hleft, Block.part_other hitem, if_neg (by simp [hd])]
      exact .blocks c parent ps _
  · rw [Abandoned, ht, harrived]
    exact ⟨he, le_rfl⟩

mutual

theorem laidBy (assets : Option Resolver) : (b : Block) →
    (∀ x ∈ b.subtree, x.flavour = .list → x.isItem = true) → LaidBy assets b
  | ⟨id, tag, props, children⟩, h => by
    rw [Block.subtree, List.forall_mem_cons] at h
    have ih := laidByAll assets children h.2
    by_cases hb : Block.flavour ⟨id, tag, props, children⟩ = .list
    · obtain ⟨-, p, hp⟩ := Block.isItem_iff.1 (h.1 hb)
      exact laidBy_item hb hp ih
    · exact laidBy_other hb ih

theorem laidByAll (assets : Option Resolver) : (bs : List Block) →
    (∀ x ∈ Block.subtrees bs, x.flavour = .list → x.isItem = true) → LaidByAll assets bs
  | [], _ => by
    intro c id ps s hc h
    rw [visitAll, Block.parts, List.append_nil]
    exact leads_pure _ h
  | b :: bs, h => by
    intro c id ps s hc hs
    rw [Block.subtrees, List.forall_mem_append] at h
    rw [visitAll, Block.parts]
    refine leads_bind ((laidBy assets b h.1 hc (.inl rfl) hs).mono (fun _ t ht => ?_)
      fun _ _ he => he)
    have hrest := laidByAll assets bs h.2 hc ht
    rw [List.append_assoc] at hrest
    exact hrest

end

end Walk

/-- Where the props of all list blocks can be read the walk builds the outline of the block tree, and
only a resolver can keep it from that. -/
theorem walk_eq_outline {b : Block} (h : ∀ x ∈ b.subtree, x.flavour = .list → x.isItem = true)
    (assets : Option Resolver) :
    (∀ result, (b.walk assets (.root [])).value = .ok result →
      result.tree = .root (Block.outline assets 0 [b])) ∧
    ∀ e, (b.walk assets (.root [])).value = .error e → Walk.StopsAt assets e := by
  let s : WalkState := { context := .start (.root []) 0 }
  have hs : Walk.IsPlace s.context.current.node.type := .root
  have hl : Walk.Leads (Walk.visit (assets.map .steady) none b) s _ _ :=
    Walk.laidBy assets b h hs (.inr rfl) (.nil s.context none)
  unfold Walk.Leads at hl
  unfold Block.walk Block.walkFrom
  cases hv : Walk.visit (assets.map .steady) none b s with
  | ok a t =>
    rw [hv] at hl
    refine ⟨fun result hr => ?_, fun e he => ?_⟩
    · cases hr
      exact hl.tree_eq
    · cases he
  | error e t =>
    rw [hv] at hl
    refine ⟨fun result hr => ?_, fun e he => ?_⟩
    · cases hr
    · cases he
      exact Walk.haltsAt_steady_iff.1 hl.1

/-- A page of blocks of many kinds, with ids that repeat. The quote and the paragraph `below` are inside
a heading, and the props of the last block cannot be read. -/
def mixedBlocks : Block :=
  ⟨"n", "affine:page", [("title", .string "top")], [
    ⟨"n", "affine:paragraph", [("type", .string "h2"), ("text", .string "title")], [
      ⟨"n", "affine:paragraph", [("type", .string "quote"), ("text", .string "said")], []⟩,
      ⟨"n", "affine:paragraph", [("type", .string "text"), ("text", .string "below")], []⟩]⟩,
    ⟨"n", "affine:list", [("text", .string "a")], [
      ⟨"n", "affine:list", [("text", .string "b")], []⟩,
      ⟨"n", "affine:paragraph", [("type", .string "text"), ("text", .string "c")], []⟩]⟩,
    ⟨"n", "affine:list", [("text", .string "d")], []⟩,
    ⟨"n", "affine:list", [("type", .string "numbered"), ("text", .string "e")], []⟩,
    ⟨"n", "affine:list", [("type", .string "todo"), ("checked", .bool true)], []⟩,
    ⟨"n", "affine:code", [("language", .string "lean"), ("text", .string "rfl")], []⟩,
    ⟨"n", "affine:image", [("sourceId", .string "img")], []⟩,
    ⟨"n", "affine:database", [
      ("columns", .array [
        .object [("id", .string "k"), ("name", .string "size"), ("type", .string "number")]]),
      ("cells", .object [("r", .object [("k", .object [("value", .int 3)])])])],
      [⟨"r", "affine:paragraph", [("text", .string "row")], []⟩]⟩,
    ⟨"n", "affine:code", [("language", .int 1)], [⟨"n", "affine:divider", [], []⟩]⟩]⟩

def picture : Resolver := fun _ => pure (.ok (some { data := .empty, name := some "a.png" }))

theorem outline_mixedBlocks : (∀ x ∈ mixedBlocks.subtree, x.flavour = .list → x.isItem = true) ∧
    ∃ result, (mixedBlocks.walk (some picture) (.root [])).value = .ok result ∧
      result.tree = .root [
        .paragraph [.text "top"],
        .heading 2 [.text "title"],
        .blockquote [.paragraph [.text "said"]],
        .paragraph [.text "    ", .text "below"],
        .list false none false [
          .listItem none false [.paragraph [.text "a"],
            .list false none false [.listItem none false [.paragraph [.text "b"]]],
            .paragraph [.text "c"]],
          .listItem none false [.paragraph [.text "d"]]],
        .list true none false [.listItem none false [.paragraph [.text "e"]]],
        .list false none false [.listItem (some true) false [.paragraph []]],
        .code (some "lean") none "rfl",
        .paragraph [.image "assets/a.png" none (some "a.png")],
        .table none [.tableRow [.tableCell [.text "size"]], .tableRow [.tableCell [.text "3"]]],
        .thematicBreak] := by
  have h : ∀ x ∈ mixedBlocks.subtree, x.flavour = .list → x.isItem = true := by decide +kernel
  obtain ⟨htree, hstop⟩ := walk_eq_outline h (some picture)
  refine ⟨h, ?_⟩
  cases hw : (mixedBlocks.walk (some picture) (.root [])).value with
  | ok result =>
    refine ⟨result, rfl, (htree result hw).trans ?_⟩
    rfl
  | error e =>
    obtain ⟨r, hr, ref, fault, hfault, -⟩ := hstop e hw
    obtain rfl : picture = r := Option.some.inj hr
    cases hfault

end PageExport
