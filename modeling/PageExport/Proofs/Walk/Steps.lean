import PageExport.Proofs.Markdown.ContentModel
import PageExport.Walk.Visit

/-!
What one step of the walk does to the open nodes. A block that is no list only adds its own nodes to
the current node; a list block settles which list is open and opens an item in it.
-/
namespace PageExport

open Markdown (Node NodeType nodesOfInlines)

namespace Markdown.Node

/-- The node with further children behind its own. -/
def addChildren (n : Node) (ns : List Node) : Node := n.withChildren (n.children ++ ns)

@[simp] theorem type_addChildren (n : Node) (ns : List Node) : (n.addChildren ns).type = n.type :=
  type_withChildren ..

@[simp] theorem isSome_children?_addChildren (n : Node) (ns : List Node) :
    (n.addChildren ns).children?.isSome = n.children?.isSome := by
  simp [addChildren, children?_withChildren]

@[simp] theorem addChildren_nil (n : Node) : n.addChildren [] = n := by
  cases n <;> simp [addChildren, withChildren, children, children?]

@[simp] theorem addChildren_addChildren (n : Node) (ms ns : List Node) :
    (n.addChildren ms).addChildren ns = n.addChildren (ms ++ ns) := by
  cases n <;> simp [addChildren, withChildren, children, children?]

end Markdown.Node

namespace Context

variable {γ σ : Type}

def stack (c : Context γ σ) : List (OpenNode σ) := c.current :: c.outer

/-- Nodes added to the current node. -/
def extend (c : Context γ σ) (ns : List Node) : Context γ σ :=
  { c with current := { c.current with node := c.current.node.addChildren ns } }

@[simp] theorem extend_nil (c : Context γ σ) : c.extend [] = c := by simp [extend]

@[simp] theorem extend_extend (c : Context γ σ) (ms ns : List Node) :
    (c.extend ms).extend ns = c.extend (ms ++ ns) := by simp [extend]

theorem append_eq_extend [Inhabited σ] {c : Context γ σ} (h : c.current.node.children?.isSome)
    (n : Node) : c.append n = .ok (c.extend [n]) := by
  rw [append_eq, if_pos h]
  rfl

end Context

namespace Walk

variable {α β : Type}

/-- From `s` the walk `x` ends in a state with `Q`, or stops at a fault in a state with `E`. -/
def Leads (x : Walk α) (s : WalkState) (Q : α → WalkState → Prop)
    (E : WalkFault → WalkState → Prop) : Prop :=
  match x s with
  | .ok a t => Q a t
  | .error e t => E e t

variable {x : Walk α} {s : WalkState} {Q R : α → WalkState → Prop} {E F : WalkFault → WalkState → Prop}

theorem Leads.mono (h : Leads x s Q E) (hQ : ∀ a t, Q a t → R a t) (hE : ∀ e t, E e t → F e t) :
    Leads x s R F := by
  unfold Leads at h ⊢
  split at h
  · exact hQ _ _ h
  · exact hE _ _ h

theorem leads_pure (a : α) (h : Q a s) : Leads (pure a) s Q E := h

theorem leads_of_eq {a : α} {t : WalkState} (h : x s = .ok a t) (hQ : Q a t) : Leads x s Q E := by
  rw [Leads, h]
  exact hQ

theorem leads_bind {f : α → Walk β} {Q : β → WalkState → Prop}
    (h : Leads x s (fun a t => Leads (f a) t Q E) E) : Leads (x >>= f) s Q E := by
  unfold Leads at h
  change match EStateM.bind x f s with
    | .ok b t => Q b t
    | .error e t => E e t
  unfold EStateM.bind
  split at h
  · next hx => rw [hx]; exact h
  · next hx => rw [hx]; exact h

theorem leads_withLeave {body leave : Walk Unit} {Q : Unit → WalkState → Prop}
    (h : Leads body s (fun _ t => Leads leave t Q E)
      fun e t => Leads leave t (fun _ u => E e u) E) :
    Leads (withLeave body leave) s Q E := by
  unfold Leads at h ⊢
  unfold withLeave
  split at h
  · next hx => rw [hx]; exact h
  · next e t hx =>
    rw [hx]
    simp only at h ⊢
    cases hl : leave t with
    | ok a u => simpa [Leads, hl] using h
    | error e' u => simpa [Leads, hl] using h

theorem leads_logged {y : Logged α} (h : Q y.value { s with log := s.log ++ y.log }) :
    Leads (logged y) s Q E := h

theorem leads_append {n : Node} {Q : Unit → WalkState → Prop}
    (hc : s.context.current.node.children?.isSome)
    (h : Q () { s with context := s.context.extend [n] }) : Leads (append n) s Q E := by
  simpa [Leads, append, onContext, Context.append_eq_extend hc] using h

/-- The faults that an image block takes as a missing asset: an asset that cannot be read, and a block
that the resolver finds malformed. -/
def IsCaught (fault : ResolveFault) : Prop :=
  ∃ message, fault = .unreadable message ∨ fault = .malformed message

theorem caught?_eq_none_iff {b : Block} {fault : ResolveFault} :
    caught? b fault = none ↔ ¬ IsCaught fault := by
  cases fault <;> simp [caught?, IsCaught]

/-- A fault with which a resolver ends the walk. -/
def HaltsAt (assets : Option AssetSource) (e : WalkFault) : Prop :=
  ∃ source ∈ assets, ∃ asked ref fault, (source asked ref).value = .error fault ∧ ¬ IsCaught fault ∧
    e = .resolver fault

/-- A fault with which a resolver that always answers the same ends the walk. -/
def StopsAt (assets : Option Resolver) (e : WalkFault) : Prop :=
  ∃ r ∈ assets, ∃ ref fault, (r ref).value = .error fault ∧ ¬ IsCaught fault ∧ e = .resolver fault

theorem haltsAt_steady_iff {assets : Option Resolver} {e : WalkFault} :
    HaltsAt (assets.map .steady) e ↔ StopsAt assets e := by
  cases assets <;> simp [HaltsAt, StopsAt, Resolver.steady]

/-- A fault of a resolver leaves at least the nodes open that are below the current place. -/
def Abandoned (assets : Option AssetSource) (rest : List (OpenNode (Option String))) (e : WalkFault)
    (t : WalkState) : Prop := HaltsAt assets e ∧ rest.length ≤ t.context.outer.length

end Walk

/-- For each reference there is an asset, or nothing, or an asset that cannot be read. -/
def Resolver.Answers (r : Resolver) : Prop :=
  ∀ ref, (∃ a, (r ref).value = .ok a) ∨ ∃ m, (r ref).value = .error (.unreadable m)

theorem not_stopsAt {assets : Option Resolver} (h : ∀ r ∈ assets, r.Answers) (e : WalkFault) :
    ¬ Walk.StopsAt assets e := by
  rintro ⟨r, hr, ref, fault, hf, hu, -⟩
  rcases h r hr ref with ⟨a, ha⟩ | ⟨m, hm⟩
  · rw [ha] at hf
    cases hf
  · rw [hm] at hf
    cases hf
    exact hu ⟨m, .inl rfl⟩

/-- The level of a heading, by the type of the paragraph. -/
def headingLevel? (type : String) : Option Nat :=
  [("h1", 1), ("h2", 2), ("h3", 3), ("h4", 4), ("h5", 5), ("h6", 6)].lookup type

def ParagraphProps.nodes (p : ParagraphProps) (depth : Nat) : List Node :=
  match p.type.bind headingLevel?, p.type with
  | some h, _ => [.heading h (nodesOfInlines (Delta.content depth p.text))]
  | none, some "text" => [.paragraph (nodesOfInlines (Delta.content depth p.text))]
  | none, some "quote" => [.blockquote [.paragraph (nodesOfInlines (Delta.content 0 p.text))]]
  | none, _ => []

def ImageProps.nodes (p : ImageProps) (r : Resolver) : List Node :=
  match r.asset? p.sourceId with
  | some a => [.paragraph [.image (a.url p.sourceId) none a.name]]
  | none => []

def PageProps.nodes (p : PageProps) : List Node :=
  if p.title.isEmpty then [] else [.paragraph (nodesOfInlines (Delta.content 0 p.title))]

namespace Block

/-- The props of a block if they can be read. -/
def props? {α : Type} (b : Block) (read : Members → Logged (Reading α)) : Option α :=
  (b.readAs read).value.toOption

/-- The nodes that a block other than a list puts before those of its children. -/
def ownNodes (assets : Option Resolver) (depth : Nat) (b : Block) : List Node :=
  match b.flavour with
  | .code =>
    ((b.props? CodeProps.read).map fun p =>
      [.code p.language none (Delta.plainText "" p.text)]).getD []
  | .paragraph => ((b.props? ParagraphProps.read).map fun p => p.nodes depth).getD []
  | .divider => [.thematicBreak]
  | .image =>
    (assets.bind fun r => (b.props? ImageProps.read).map fun p => p.nodes r).getD []
  | .page => ((b.props? PageProps.read).map PageProps.nodes).getD []
  | .database => ((b.props? DatabaseProps.read).map fun p => [(p.grid b).value.toNode]).getD []
  | .list | .note | .surface | .frame | .embed | .unknown => []

/-- The children of a block are visited, unless it is a database whose props can be read. -/
def descends (b : Block) : Bool :=
  !(b.flavour = .database && (b.props? DatabaseProps.read).isSome)

/-- A list block whose props can be read is an item of a list. -/
def isItem (b : Block) : Bool := b.flavour = .list && (b.props? ListProps.read).isSome

theorem isItem_iff {b : Block} :
    b.isItem = true ↔ b.flavour = .list ∧ ∃ p, b.props? ListProps.read = some p := by
  rw [isItem, Bool.and_eq_true, decide_eq_true_eq, Option.isSome_iff_exists]

/-- A paragraph whose props can be read indents the blocks below it. -/
def indents (b : Block) : Bool :=
  b.flavour = .paragraph && (b.props? ParagraphProps.read).isSome

def childDepth (depth : Nat) (b : Block) : Nat := if b.indents then depth + 1 else depth

end Block

namespace Walk

/-- How a block that is no list is entered and left. -/
def entryOf (b : Block) : Entry :=
  ⟨b.descends, if b.indents then .leaveParagraph else .nothing⟩

variable {s : WalkState} {Q : Entry → WalkState → Prop} {E : WalkFault → WalkState → Prop}

theorem leads_withProps {α : Type} {read : Members → Logged (Reading α)} {b : Block}
    {f : α → Walk Entry} (hf : ∀ p, b.props? read = some p → ∀ log,
      Leads (f p) { s with log := log } Q E)
    (hn : b.props? read = none → ∀ log, Q {} { s with log := log }) :
    Leads (withProps read b f) s Q E := by
  unfold withProps
  refine leads_bind (leads_logged ?_)
  unfold Block.props? at hf hn
  cases hr : (b.readAs read).value with
  | ok p => exact hf p (by rw [hr]; rfl) _
  | error m =>
    refine leads_bind (leads_logged (leads_pure _ ?_))
    exact hn (by rw [hr]; rfl) _

theorem leads_appendInside {n child : Node} {Q : Unit → WalkState → Prop}
    (hc : s.context.current.node.children?.isSome) (hn : n.children?.isSome)
    (h : Q () { s with context := s.context.extend [n.addChildren [child]] }) :
    Leads (appendInside n child) s Q E := by
  obtain ⟨cs, hcs⟩ := Option.isSome_iff_exists.1 hn
  simpa [Leads, appendInside, withLeave, openNode, closeNode, append, onContext, bind, EStateM.bind,
    Context.openNode, Context.closeNode, Context.append_eq, hc, hn, Context.extend,
    Node.addChild, Node.addChildren] using h

theorem headingDepth?_eq (type : String) : headingDepth? type = headingLevel? type := by
  unfold headingDepth?
  split
  case h_7 h₁ h₂ h₃ h₄ h₅ h₆ =>
    have hnone : headingLevel? type = none := by
      rw [headingLevel?, List.lookup_eq_none_iff]
      simpa using ⟨h₁, h₂, h₃, h₄, h₅, h₆⟩
    exact hnone.symm
  all_goals rfl

theorem leads_appendParagraph {b : Block} {p : ParagraphProps} {depth : Nat}
    {Q : Unit → WalkState → Prop} (hc : s.context.current.node.children?.isSome)
    (hQ : ∀ t, t.context = s.context.extend (p.nodes depth) → Q () t) :
    Leads (appendParagraph b p depth) s Q E := by
  have hlevel : p.type.bind headingDepth? = p.type.bind headingLevel? := by
    rw [funext headingDepth?_eq]
  cases hh : p.type.bind headingLevel? with
  | some h =>
    rw [ParagraphProps.nodes, hh] at hQ
    rw [appendParagraph, hlevel, hh]
    exact leads_append hc (hQ _ rfl)
  | none =>
    by_cases ht : p.type = some "text"
    · rw [ParagraphProps.nodes, hh, ht] at hQ
      rw [appendParagraph, hlevel, hh, ht]
      exact leads_append hc (hQ _ rfl)
    · by_cases hq : p.type = some "quote"
      · rw [ParagraphProps.nodes, hh, hq] at hQ
        rw [appendParagraph, hlevel, hh, hq]
        exact leads_appendInside hc rfl (hQ _ rfl)
      · have hnodes : p.nodes depth = [] := by
          unfold ParagraphProps.nodes
          rw [hh]
          generalize p.type = type at ht hq
          split <;> first | contradiction | rfl
        have hnote : ∃ message, appendParagraph b p depth = note .debug message := by
          unfold appendParagraph
          rw [hlevel, hh]
          generalize p.type = type at ht hq
          split <;> first | contradiction | exact ⟨_, rfl⟩
        obtain ⟨message, hmessage⟩ := hnote
        rw [hnodes, Context.extend_nil] at hQ
        rw [hmessage]
        exact leads_logged (hQ _ rfl)

/-- The open nodes after a block that is no list is entered. -/
def entered (assets : Option Resolver) (b : Block) (c : WalkContext) : WalkContext :=
  { c.extend (b.ownNodes assets c.global) with global := b.childDepth c.global }

theorem entered_eq_extend {assets : Option Resolver} {b : Block} {c : WalkContext} (ns : List Node)
    (hn : b.ownNodes assets c.global = ns) (hi : b.indents = false) :
    entered assets b c = c.extend ns := by
  simp only [entered, hn, Block.childDepth, hi]
  rfl

theorem entryOf_eq {b : Block} (hb : b.flavour ≠ .paragraph ∧ b.flavour ≠ .database) :
    entryOf b = {} := by
  simp [entryOf, Block.descends, Block.indents, hb]

section
variable {assets : Option Resolver} {b : Block}
  (hQ : ∀ t, t.context = entered assets b s.context → Q (entryOf b) t)
include hQ

private theorem of_ownNodes (hb : b.flavour ≠ .paragraph ∧ b.flavour ≠ .database)
    {ns : List Node} (hn : b.ownNodes assets s.context.global = ns) {t : WalkState}
    (ht : t.context = s.context.extend ns) : Q {} t := by
  rw [← entryOf_eq hb]
  apply hQ
  rw [entered_eq_extend ns hn (by simp [Block.indents, hb]), ht]

theorem leads_enterOther (hb : b.flavour ≠ .paragraph ∧ b.flavour ≠ .database)
    (hn : b.ownNodes assets s.context.global = []) : Leads (enterOther b) s Q E := by
  have h (t : WalkState) (ht : t.context = s.context) : Q {} t :=
    of_ownNodes hQ hb hn (by rw [ht, Context.extend_nil])
  unfold enterOther
  by_cases hc : b.flavour.isContainer
  · simp only [hc, ↓reduceIte]
    exact leads_bind (leads_pure _ (leads_pure _ (h _ rfl)))
  · simp only [hc, Bool.false_eq_true, ↓reduceIte]
    exact leads_bind (leads_logged (leads_pure _ (h _ rfl)))

variable (hc : s.context.current.node.children?.isSome)
include hc

theorem leads_enterCode (hb : b.flavour = .code) : Leads (enterCode b) s Q E := by
  refine leads_withProps (fun p hp log => ?_) fun hp log => ?_
  · refine leads_bind (leads_append hc (leads_pure _ ?_))
    exact of_ownNodes hQ (by simp [hb]) (by simp [Block.ownNodes, hb, hp]) rfl
  · exact of_ownNodes hQ (by simp [hb]) (by simp [Block.ownNodes, hb, hp])
      (Context.extend_nil _).symm

theorem leads_enterPage (hb : b.flavour = .page) : Leads (enterPage b) s Q E := by
  refine leads_withProps (fun p hp log => ?_) fun hp log => ?_
  · have hn : b.ownNodes assets s.context.global = p.nodes := by simp [Block.ownNodes, hb, hp]
    by_cases ht : p.title.isEmpty
    · simp only [ht, ↓reduceIte]
      refine leads_bind (leads_pure _ (leads_pure _ ?_))
      refine of_ownNodes hQ (by simp [hb]) hn ?_
      simp [PageProps.nodes, ht]
    · simp only [ht]
      refine leads_bind (leads_append hc (leads_pure _ ?_))
      refine of_ownNodes hQ (by simp [hb]) hn ?_
      simp [PageProps.nodes, ht]
  · exact of_ownNodes hQ (by simp [hb]) (by simp [Block.ownNodes, hb, hp])
      (Context.extend_nil _).symm

theorem leads_enterDatabase (hb : b.flavour = .database) : Leads (enterDatabase b) s Q E := by
  have hi : b.indents = false := by simp [Block.indents, hb]
  refine leads_withProps (fun p hp log => ?_) fun hp log => ?_
  · refine leads_bind (leads_logged (leads_bind (leads_append hc (leads_pure _ ?_))))
    have he : entryOf b = ⟨false, .nothing⟩ := by simp [entryOf, Block.descends, hi, hb, hp]
    rw [← he]
    exact hQ _ (entered_eq_extend _ (by simp [Block.ownNodes, hb, hp]) hi).symm
  · have he : entryOf b = {} := by simp [entryOf, Block.descends, hi, hb, hp]
    rw [← he]
    apply hQ
    rw [entered_eq_extend [] (by simp [Block.ownNodes, hb, hp]) hi, Context.extend_nil]

theorem leads_enterParagraph (hb : b.flavour = .paragraph) : Leads (enterParagraph b) s Q E := by
  refine leads_withProps (fun p hp log => ?_) fun hp log => ?_
  · have he : entryOf b = ⟨true, .leaveParagraph⟩ := by
      simp [entryOf, Block.descends, Block.indents, hb, hp]
    refine leads_bind (leads_bind (leads_appendParagraph hc fun t ht => ?_))
    change Q ⟨true, .leaveParagraph⟩ _
    rw [← he]
    apply hQ
    rw [ht]
    simp [entered, Block.ownNodes, Block.childDepth, Block.indents, Context.extend, hb, hp]
  · have hi : b.indents = false := by simp [Block.indents, hb, hp]
    have he : entryOf b = {} := by simp [entryOf, Block.descends, hi, hb]
    rw [← he]
    apply hQ
    rw [entered_eq_extend [] (by simp [Block.ownNodes, hb, hp]) hi, Context.extend_nil]

end

/-- The resolver that the assets are when they were asked for what `s` says. -/
def resolverAt (assets : Option AssetSource) (s : WalkState) : Option Resolver :=
  assets.map fun source => source s.asked

@[simp] theorem resolverAt_steady (assets : Option Resolver) (s : WalkState) :
    resolverAt (assets.map .steady) s = assets := by
  cases assets <;> rfl

theorem leads_resolve {source : AssetSource} {b : Block} {ref : String}
    {Q : Option Asset → WalkState → Prop}
    (hQ : ∀ log, Q ((source s.asked).asset? ref) { s with log := log, asked := ref :: s.asked })
    (hE : ∀ fault, (source s.asked ref).value = .error fault → ¬ IsCaught fault → ∀ log,
      E (.resolver fault) { s with log := log, asked := ref :: s.asked }) :
    Leads (resolve source b ref) s Q E := by
  unfold resolve
  unfold Resolver.asset? at hQ
  refine leads_bind (leads_of_eq rfl ?_)
  cases hr : (source s.asked ref).value with
  | ok a =>
    simp only [hr] at hQ
    cases a with
    | some a => exact hQ _
    | none => exact leads_bind (leads_logged (hQ _))
  | error fault =>
    simp only [hr] at hQ
    cases hc : caught? b fault with
    | some message =>
      simp only [hc]
      exact leads_bind (leads_logged (hQ _))
    | none =>
      simp only [hc]
      exact hE _ hr (caught?_eq_none_iff.1 hc) _

theorem leads_enterImage {assets : Option AssetSource} {b : Block} (hb : b.flavour = .image)
    (hc : s.context.current.node.children?.isSome)
    (hQ : ∀ t, t.context = entered (resolverAt assets s) b s.context → Q (entryOf b) t)
    (hE : ∀ e t, HaltsAt assets e → t.context = s.context → E e t) :
    Leads (enterImage assets b) s Q E := by
  cases assets with
  | none =>
    exact leads_pure _ (of_ownNodes hQ (by simp [hb]) (by simp [Block.ownNodes, hb, resolverAt])
      (Context.extend_nil _).symm)
  | some source =>
    refine leads_withProps (fun p hp log => ?_) fun hp log => ?_
    · let r : Resolver := source s.asked
      have hn : b.ownNodes (resolverAt (some source) s) s.context.global = p.nodes r := by
        simp [Block.ownNodes, resolverAt, r, hb, hp]
      refine leads_bind (leads_resolve (fun log => ?_) fun fault hf hu log => ?_)
      · cases ha : r.asset? p.sourceId with
        | none =>
          refine leads_pure _ (of_ownNodes hQ (by simp [hb]) hn ?_)
          simp [ImageProps.nodes, ha]
        | some a =>
          refine leads_bind ?_
          refine leads_bind (leads_appendInside hc rfl ?_)
          refine leads_pure _ (of_ownNodes hQ (by simp [hb]) hn ?_)
          simp [ImageProps.nodes, ha]
          rfl
      · exact hE _ _ ⟨source, rfl, _, _, _, hf, hu, rfl⟩ rfl
    · exact of_ownNodes hQ (by simp [hb]) (by simp [Block.ownNodes, hb, hp])
        (Context.extend_nil _).symm

/-- Entering a block that is no list adds its own nodes and indents what is below a paragraph. -/
theorem leads_enter {assets : Option AssetSource} {b : Block} {parent : Option String}
    (hb : b.flavour ≠ .list) (hc : s.context.current.node.children?.isSome)
    (hQ : ∀ t, t.context = entered (resolverAt assets s) b s.context → Q (entryOf b) t)
    (hE : ∀ e t, HaltsAt assets e → t.context = s.context → E e t) :
    Leads (enter assets b parent) s Q E := by
  unfold enter
  split
  · next h => exact leads_enterCode hQ hc h
  · next h => exact leads_enterParagraph hQ hc h
  · next h => exact absurd h hb
  · next h =>
    refine leads_bind (leads_append hc (leads_pure _ ?_))
    exact of_ownNodes hQ (by simp [h]) (by simp [Block.ownNodes, h]) rfl
  · next h => exact leads_enterImage h hc hQ hE
  · next h => exact leads_enterPage hQ hc h
  · next h => exact leads_enterDatabase hQ hc h
  all_goals
    next h => exact leads_enterOther hQ (by simp [h]) (by simp [Block.ownNodes, h])

def push (n : Node) (scope : Option String) (c : WalkContext) : WalkContext :=
  ⟨⟨n, scope⟩, c.current :: c.outer, c.global⟩

/-- The open nodes after the current node is closed. -/
def popped (o : OpenNode (Option String)) (outer : List (OpenNode (Option String)))
    (c : WalkContext) : WalkContext :=
  ⟨{ o with node := o.node.addChildren [c.current.node] }, outer, c.global⟩

/-- Closing an item that a fault ends leaves the nodes open that are below its list. -/
theorem Abandoned.popped {assets : Option AssetSource} {l : OpenNode (Option String)}
    {below rest : List (OpenNode (Option String))} {e : WalkFault} {s : WalkState}
    (h : Abandoned assets (l :: below) e s) (hlen : rest.length ≤ below.length) :
    ∃ o outer, s.context.outer = o :: outer ∧
      ∀ t, t.context = Walk.popped o outer s.context → Abandoned assets rest e t := by
  obtain ⟨hstop, hlength⟩ := h
  obtain ⟨o, outer, hout⟩ := List.exists_cons_of_length_pos (Nat.zero_lt_of_lt hlength)
  refine ⟨o, outer, hout, fun t ht => ⟨hstop, ?_⟩⟩
  rw [hout] at hlength
  rw [ht]
  simp only [Walk.popped, List.length_cons] at hlength ⊢
  omega

/-- The open nodes after a list that `parent` started is closed, if it is the current node. -/
def closed (parent : Option String) (c : WalkContext) : WalkContext :=
  match c.current.node, c.outer with
  | .list _ _ _ _, o :: outer =>
    if c.current.scope = parent then
      { c with current := { o with node := o.node.addChild c.current.node }, outer := outer }
    else c
  | _, _ => c

theorem closed_of_type_ne {c : WalkContext} (h : c.current.node.type ≠ .list)
    (parent : Option String) : closed parent c = c := by
  unfold closed
  split
  · next hn _ => exact absurd (by rw [hn]; rfl) h
  · rfl

theorem closed_of_type_eq {c : WalkContext} {o : OpenNode (Option String)}
    {outer : List (OpenNode (Option String))} (h : c.current.node.type = .list)
    (ho : c.outer = o :: outer) (parent : Option String) :
    closed parent c = if c.current.scope = parent then popped o outer c else c := by
  unfold closed
  cases hn : c.current.node with
  | list =>
    rw [ho, popped, hn]
    rfl
  | _ => simp [hn, Node.type] at h

@[simp] theorem global_closed (parent : Option String) (c : WalkContext) :
    (closed parent c).global = c.global := by
  unfold closed
  split
  · split <;> rfl
  · rfl

/-- The item of a list block before the blocks below it are visited. -/
def itemNode (p : ListProps) : Node :=
  .listItem p.checkState false [.paragraph (nodesOfInlines (Delta.content 0 p.text))]

theorem isSome_signature {n : Node} {prior : Option ListSignature}
    (h : ListSignature.ofNode n = .ok prior) : prior.isSome = true ↔ n.type = .list := by
  cases n with
  | list ordered start spread items =>
    cases items with
    | nil =>
      cases h
      simp [Node.type]
    | cons item items =>
      cases item <;> cases h
      simp [Node.type]
  | _ =>
    cases h
    simp [Node.type]

/-- Blocks are put down in a root or in an item. -/
def IsPlace (place : NodeType) : Prop := place = .root ∨ place = .listItem

namespace IsPlace

theorem root : IsPlace .root := .inl rfl

theorem item : IsPlace .listItem := .inr rfl

theorem ne_list {place : NodeType} (h : IsPlace place) : place ≠ .list := by
  rcases h with rfl | rfl <;> decide

theorem holds_eq {place : NodeType} (h : IsPlace place) : place.holds = NodeType.isFlow := by
  rcases h with rfl | rfl <;> rfl

variable {n : Node}

theorem isSome_children? (h : IsPlace n.type) : n.children?.isSome := by
  cases n <;> simp_all [IsPlace, Node.type, Node.children?]

theorem signature_eq (h : IsPlace n.type) : ListSignature.ofNode n = .ok none := by
  cases n with
  | list => exact absurd rfl h.ne_list
  | _ => rfl

end IsPlace

/-- The current node is the list that an item below `parent` goes to. -/
def goesOn (p : ListProps) (parent : Option String) (prior : Option ListSignature)
    (c : WalkContext) : Bool :=
  p.signature.continues parent (if prior.isSome then c.current.scope else none) prior

theorem goesOn_iff {p : ListProps} {parent : Option String} {prior : Option ListSignature}
    {c : WalkContext} : goesOn p parent prior c = true ↔
      c.current.scope = parent ∧ parent.isSome = true ∧ prior = some p.signature := by
  cases prior with
  | none => simp [goesOn, ListSignature.continues]
  | some signature =>
    simp only [goesOn, ListSignature.continues, Option.isSome_some, ↓reduceIte, Bool.and_eq_true,
      beq_iff_eq]
    constructor
    · rintro ⟨⟨hsome, hs⟩, hp⟩
      exact ⟨hs, hs ▸ hsome, hp⟩
    · rintro ⟨hs, hsome, hp⟩
      exact ⟨⟨hs ▸ hsome, hs⟩, hp⟩

/-- The open nodes after a list block is entered: its item, in the list before it or in a new one. -/
def itemEntered (p : ListProps) (parent : Option String) (prior : Option ListSignature)
    (c : WalkContext) : WalkContext :=
  if goesOn p parent prior c then push (itemNode p) none c
  else push (itemNode p) none (push (.list p.signature.ordered none false []) parent (closed parent c))

theorem closeList_eq {parent : Option String} (h : s.context.outer = [] →
    s.context.current.node.type ≠ .list) :
    closeList parent s = .ok () { s with context := closed parent s.context } := by
  unfold closeList closed
  cases hn : s.context.current.node with
  | list =>
    cases ho : s.context.outer with
    | nil => exact absurd (by rw [hn]; rfl) (h ho)
    | cons o outer =>
      by_cases hs : s.context.current.scope = parent
      · simp [hs, closeNode, onContext, Context.closeNode, hn, ho]
      · simp [hs]
  | _ => rfl

theorem leads_closeList {parent : Option String} {Q : Unit → WalkState → Prop}
    (h : s.context.outer = [] → s.context.current.node.type ≠ .list)
    (hQ : ∀ t, t.context = closed parent s.context → Q () t) : Leads (closeList parent) s Q E := by
  unfold Leads
  rw [closeList_eq h]
  exact hQ _ rfl

theorem leads_openNode {n : Node} {Q : Unit → WalkState → Prop}
    (hc : s.context.current.node.children?.isSome)
    (hQ : ∀ t, t.context = push n none s.context → Q () t) : Leads (openNode n) s Q E := by
  simp only [Leads, openNode, onContext, Context.openNode, hc, ↓reduceIte]
  exact hQ _ rfl

theorem leads_openList {ordered : Bool} {parent : Option String} {Q : Unit → WalkState → Prop}
    (hc : s.context.current.node.children?.isSome)
    (hQ : ∀ t, t.context = push (.list ordered none false []) parent s.context → Q () t) :
    Leads (openList ordered parent) s Q E := by
  refine leads_bind (leads_openNode hc fun t ht => ?_)
  apply hQ
  simp [ht, push, Context.setScope]

theorem leads_enterList {b : Block} {parent : Option String} {p : ListProps}
    {prior : Option ListSignature} (hp : b.props? ListProps.read = some p)
    (hs : ListSignature.ofNode s.context.current.node = .ok prior)
    (ho : s.context.outer = [] → s.context.current.node.type ≠ .list)
    (hc : s.context.current.node.children?.isSome)
    (hd : (closed parent s.context).current.node.children?.isSome)
    (hQ : ∀ t, t.context = itemEntered p parent prior s.context → Q ⟨true, .closeItem⟩ t) :
    Leads (enterList b parent) s Q E := by
  have item (t : WalkState) (ht : t.context.current.node.children?.isSome)
      (h : push (itemNode p) none t.context = itemEntered p parent prior s.context) :
      Leads (do
        openNode (.listItem p.checkState false [])
        append (.paragraph (nodesOfInlines (Delta.content 0 p.text)))
        return ⟨true, .closeItem⟩) t Q E := by
    refine leads_bind (leads_openNode ht fun u hu => ?_)
    refine leads_bind (leads_append (by rw [hu]; rfl) (leads_pure _ (hQ _ ?_)))
    rw [← h, hu]
    rfl
  refine leads_withProps (fun q hq log => ?_) fun hq log => ?_
  · obtain rfl : p = q := Option.some.inj (hp.symm.trans hq)
    have hcur : currentSignature { s with log := log } = .ok prior { s with log := log } := by
      simp only [currentSignature, hs]
    refine leads_bind (leads_of_eq hcur (leads_bind (leads_of_eq rfl ?_)))
    unfold itemEntered goesOn at item
    by_cases hk : p.signature.continues parent
        (if prior.isSome then s.context.current.scope else none) prior
    · simp only [hk, ↓reduceIte] at item ⊢
      exact item _ hc rfl
    · simp only [hk, Bool.false_eq_true, ↓reduceIte] at item ⊢
      refine leads_bind (leads_closeList ho fun t ht => ?_)
      refine leads_bind (leads_openList (by rw [ht]; exact hd) fun u hu => item _ ?_ ?_)
      · rw [hu]
        rfl
      · rw [hu, ht]
  · rw [hp] at hq
    cases hq

theorem leads_enterList_of_none {b : Block} {parent : Option String}
    (hp : b.props? ListProps.read = none) (hQ : ∀ t, t.context = s.context → Q {} t) :
    Leads (enterList b parent) s Q E := by
  refine leads_withProps (fun p hq log => ?_) fun _ log => hQ _ rfl
  rw [hp] at hq
  cases hq

/-- What a visit does between entering a block and the end of it. -/
def within (assets : Option AssetSource) (b : Block) (entry : Entry) : Walk Unit :=
  withLeave
    (if entry.descend then do
      visitAll assets (some b.id) b.children
      closeList (some b.id)
    else pure ())
    (undo entry.leave)

theorem visit_eq (assets : Option AssetSource) (parent : Option String) (b : Block) :
    visit assets parent b =
      if b.flavour = .list then enter assets b parent >>= within assets b
      else closeList parent >>= fun _ => enter assets b parent >>= within assets b := by
  obtain ⟨id, tag, props, children⟩ := b
  rw [visit]
  rfl

/-- What a visit does before the blocks below: a block that is no list ends the list of `parent`, and
the block is entered. -/
def arrive (assets : Option AssetSource) (parent : Option String) (b : Block) : Walk Entry :=
  if b.flavour = .list then enter assets b parent
  else closeList parent >>= fun _ => enter assets b parent

theorem visit_eq_arrive (assets : Option AssetSource) (parent : Option String) (b : Block) :
    visit assets parent b = arrive assets parent b >>= within assets b := by
  rw [visit_eq, arrive]
  split
  · rfl
  · rw [bind_assoc]

/-- The open nodes when a block that is no item puts its own nodes down. -/
def arrived (parent : Option String) (b : Block) (c : WalkContext) : WalkContext :=
  if b.flavour = .list then c else closed parent c

variable {assets : Option AssetSource} {b : Block} {parent : Option String}
  {R : Unit → WalkState → Prop}

theorem leads_arrive_item {p : ListProps} {prior : Option ListSignature} (hb : b.flavour = .list)
    (hp : b.props? ListProps.read = some p)
    (hs : ListSignature.ofNode s.context.current.node = .ok prior)
    (ho : s.context.outer = [] → s.context.current.node.type ≠ .list)
    (hc : s.context.current.node.children?.isSome)
    (hd : (closed parent s.context).current.node.children?.isSome)
    (hQ : ∀ t, t.context = itemEntered p parent prior s.context → Q ⟨true, .closeItem⟩ t) :
    Leads (arrive assets parent b) s Q E := by
  unfold arrive
  rw [if_pos hb]
  unfold enter
  rw [hb]
  exact leads_enterList hp hs ho hc hd hQ

theorem leads_arrive_other (hb : b.isItem = false)
    (ho : s.context.outer = [] → s.context.current.node.type ≠ .list)
    (hc : (arrived parent b s.context).current.node.children?.isSome)
    (hQ : ∀ t, t.context = entered (resolverAt assets s) b (arrived parent b s.context) →
      Q (entryOf b) t)
    (hE : ∀ e t, HaltsAt assets e → t.context = arrived parent b s.context → E e t) :
    Leads (arrive assets parent b) s Q E := by
  unfold arrive
  unfold arrived at hc hQ hE
  by_cases hl : b.flavour = .list
  · simp only [if_pos hl] at hc hQ hE ⊢
    unfold enter
    rw [hl]
    have hp : b.props? ListProps.read = none := by simpa [Block.isItem, hl] using hb
    refine leads_enterList_of_none hp fun t ht => ?_
    rw [entryOf_eq (by simp [hl])] at hQ
    apply hQ
    rw [entered_eq_extend [] (by simp [Block.ownNodes, hl]) (by simp [Block.indents, hl]),
      Context.extend_nil, ht]
  · simp only [if_neg hl] at hc hQ hE ⊢
    exact leads_bind (leads_of_eq (closeList_eq ho) (leads_enter hl hc hQ hE))

theorem leads_visit_item {p : ListProps} {prior : Option ListSignature} (hb : b.flavour = .list)
    (hp : b.props? ListProps.read = some p)
    (hs : ListSignature.ofNode s.context.current.node = .ok prior)
    (ho : s.context.outer = [] → s.context.current.node.type ≠ .list)
    (hc : s.context.current.node.children?.isSome)
    (hd : (closed parent s.context).current.node.children?.isSome)
    (hR : ∀ t, t.context = itemEntered p parent prior s.context →
      Leads (within assets b ⟨true, .closeItem⟩) t R E) :
    Leads (visit assets parent b) s R E := by
  rw [visit_eq_arrive]
  exact leads_bind (leads_arrive_item hb hp hs ho hc hd hR)

theorem leads_visit_other (hb : b.isItem = false)
    (ho : s.context.outer = [] → s.context.current.node.type ≠ .list)
    (hc : (arrived parent b s.context).current.node.children?.isSome)
    (hR : ∀ t, t.context = entered (resolverAt assets s) b (arrived parent b s.context) →
      Leads (within assets b (entryOf b)) t R E)
    (hE : ∀ e t, HaltsAt assets e → t.context = arrived parent b s.context → E e t) :
    Leads (visit assets parent b) s R E := by
  rw [visit_eq_arrive]
  exact leads_bind (leads_arrive_other hb ho hc hR hE)

/-- The open nodes after a block that is no item is left. -/
def left (b : Block) (c : WalkContext) : WalkContext :=
  { c with global := if b.indents then c.global - 1 else c.global }

theorem leads_within_other
    (hv : b.descends = true → Leads (visitAll assets (some b.id) b.children) s (fun _ t =>
      (t.context.outer = [] → t.context.current.node.type ≠ .list) ∧
        ∀ u, u.context = left b (closed (some b.id) t.context) → R () u)
      fun e t => ∀ u, u.context = left b t.context → E e u)
    (hn : b.descends = false → ∀ u, u.context = left b s.context → R () u) :
    Leads (within assets b (entryOf b)) s R E := by
  have hundo {t : WalkState} {R : Unit → WalkState → Prop}
      (h : ∀ u, u.context = left b t.context → R () u) :
      Leads (undo (entryOf b).leave) t R E := by
    unfold entryOf
    unfold left at h
    by_cases hi : b.indents
    · simp only [hi, ↓reduceIte] at h ⊢
      exact h _ rfl
    · simp only [hi, Bool.false_eq_true, ↓reduceIte] at h ⊢
      exact h _ rfl
  refine leads_withLeave ?_
  have hd : (entryOf b).descend = b.descends := rfl
  rw [hd]
  by_cases hb : b.descends
  · rw [if_pos hb]
    refine leads_bind ((hv hb).mono (fun _ t ht => ?_) fun e t he => ?_)
    · exact leads_closeList ht.1 fun u hu => hundo fun v hv => ht.2 v (by rw [hv, hu])
    · exact hundo fun u hu => he u hu
  · rw [if_neg hb]
    exact leads_pure _ (hundo fun u hu => hn (by simpa using hb) u hu)

theorem leads_closeNode {o : OpenNode (Option String)} {outer : List (OpenNode (Option String))}
    {Q : Unit → WalkState → Prop} (ho : s.context.outer = o :: outer)
    (hQ : ∀ t, t.context = popped o outer s.context → Q () t) : Leads closeNode s Q E := by
  simp only [Leads, closeNode, onContext, Context.closeNode, ho]
  exact hQ _ rfl

theorem leads_within_item (hv : Leads (visitAll assets (some b.id) b.children) s
    (fun _ t => (t.context.outer = [] → t.context.current.node.type ≠ .list) ∧
      ∃ o outer, (closed (some b.id) t.context).outer = o :: outer ∧
        ∀ u, u.context = popped o outer (closed (some b.id) t.context) → R () u)
    fun e t => ∃ o outer, t.context.outer = o :: outer ∧
      ∀ u, u.context = popped o outer t.context → E e u) :
    Leads (within assets b ⟨true, .closeItem⟩) s R E := by
  refine leads_withLeave ?_
  simp only [↓reduceIte]
  refine leads_bind (hv.mono (fun _ t ht => ?_) fun e t he => ?_)
  · obtain ⟨ho, o, outer, hout, hR⟩ := ht
    refine leads_closeList ho fun u hu => ?_
    exact leads_closeNode (by rw [hu, hout]) fun v hv => hR v (by rw [hv, hu])
  · obtain ⟨o, outer, hout, hE⟩ := he
    exact leads_closeNode hout hE

end Walk
end PageExport
