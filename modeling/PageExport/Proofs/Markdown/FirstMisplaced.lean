import PageExport.Proofs.Markdown.ContentModel

/-!
The nodes of a tree in pre-order. A tree has a Markdown text unless one of its nodes stands where the
content model has no place for it, and the first such node is the one that the fault names.
-/
namespace PageExport.Markdown

/-- A node of a tree and the type of the node above it; above the top node there is none. -/
structure Standing where
  above : Option NodeType
  node : Node

mutual

/-- The nodes of a tree in pre-order. -/
def Node.standings (above : Option NodeType) : Node → List Standing
  | .strong cs => ⟨above, .strong cs⟩ :: standingsBelow .strong cs
  | .emphasis cs => ⟨above, .emphasis cs⟩ :: standingsBelow .emphasis cs
  | .delete cs => ⟨above, .delete cs⟩ :: standingsBelow .delete cs
  | .link url title cs => ⟨above, .link url title cs⟩ :: standingsBelow .link cs
  | .paragraph cs => ⟨above, .paragraph cs⟩ :: standingsBelow .paragraph cs
  | .heading depth cs => ⟨above, .heading depth cs⟩ :: standingsBelow .heading cs
  | .blockquote cs => ⟨above, .blockquote cs⟩ :: standingsBelow .blockquote cs
  | .listItem checked spread cs =>
    ⟨above, .listItem checked spread cs⟩ :: standingsBelow .listItem cs
  | .list ordered start spread cs =>
    ⟨above, .list ordered start spread cs⟩ :: standingsBelow .list cs
  | .tableCell cs => ⟨above, .tableCell cs⟩ :: standingsBelow .tableCell cs
  | .tableRow cs => ⟨above, .tableRow cs⟩ :: standingsBelow .tableRow cs
  | .table align cs => ⟨above, .table align cs⟩ :: standingsBelow .table cs
  | .root cs => ⟨above, .root cs⟩ :: standingsBelow .root cs
  | .text value => [⟨above, .text value⟩]
  | .inlineCode value => [⟨above, .inlineCode value⟩]
  | .image url title alt => [⟨above, .image url title alt⟩]
  | .code language info value => [⟨above, .code language info value⟩]
  | .thematicBreak => [⟨above, .thematicBreak⟩]

def standingsBelow (parent : NodeType) : List Node → List Standing
  | [] => []
  | n :: ns => n.standings (some parent) ++ standingsBelow parent ns

end

theorem Node.standings_eq (above : Option NodeType) (n : Node) :
    n.standings above = ⟨above, n⟩ :: standingsBelow n.type n.children := by
  cases n <;> rfl

/-- The kind of place that the children of a node stand in. -/
def NodeType.placeBelow : NodeType → Position
  | .root | .blockquote | .listItem => .flow
  | .list => .item
  | .table => .row
  | .tableRow => .cell
  | _ => .phrasing

namespace Standing

/-- The node is a top node that is no root, or the node above it does not hold its type. -/
def isMisplaced (s : Standing) : Bool :=
  match s.above with
  | none => s.node.type ≠ .root
  | some parent => !parent.holds s.node.type

def fault (s : Standing) : Misplaced :=
  ⟨(s.above.map NodeType.placeBelow).getD .root, s.node.type⟩

/-- The fault of the first misplaced node. -/
def firstFault? (ss : List Standing) : Option Misplaced := (ss.find? isMisplaced).map fault

theorem firstFault?_append (ss us : List Standing) :
    firstFault? (ss ++ us) = (firstFault? ss).or (firstFault? us) := by
  simp [firstFault?, Option.map_or]

/-- A node that is not misplaced leaves it to the nodes below it. -/
theorem firstFault?_cons (s : Standing) (ss : List Standing) :
    firstFault? (s :: ss) = if s.isMisplaced then some s.fault else firstFault? ss := by
  unfold firstFault?
  rw [List.find?_cons]
  cases s.isMisplaced <;> rfl

theorem firstFault?_standings (parent : NodeType) (n : Node) :
    firstFault? (n.standings (some parent)) =
      if parent.holds n.type then firstFault? (standingsBelow n.type n.children)
      else some ⟨parent.placeBelow, n.type⟩ := by
  rw [Node.standings_eq, firstFault?_cons]
  cases h : parent.holds n.type <;> simp [isMisplaced, h, fault]

mutual

/-- Nodes fit exactly if none of them is misplaced. -/
theorem isNone_standings (parent : NodeType) (n : Node) :
    (firstFault? (n.standings (some parent))).isNone = (parent.holds n.type && n.fits) := by
  have hbelow : (firstFault? (standingsBelow n.type n.children)).isNone = n.fits := by
    cases n with
    | text | inlineCode | image | code | thematicBreak => rfl
    | strong cs | emphasis cs | delete cs | link _ _ cs | paragraph cs | heading _ cs
    | blockquote cs | listItem _ _ cs | list _ _ _ cs | tableCell cs | tableRow cs | table _ cs
    | root cs => exact isNone_standingsBelow _ cs
  rw [firstFault?_standings, ← hbelow]
  cases parent.holds n.type <;> rfl

theorem isNone_standingsBelow (parent : NodeType) (ns : List Node) :
    (firstFault? (standingsBelow parent ns)).isNone = allFit parent ns := by
  cases ns with
  | nil => rfl
  | cons n ns =>
    rw [standingsBelow, firstFault?_append, allFit, ← isNone_standings parent n,
      ← isNone_standingsBelow parent ns]
    simp

end

end Standing

/-- The message of a fault has the type of the node at fault between quotes. -/
theorem Misplaced.message_names (m : Misplaced) :
    ∃ before after, m.message = before ++ ("'" ++ m.found.name ++ "'") ++ after := by
  cases m with
  | mk place found =>
    cases place with
    | phrasing | flow => exact ⟨_, _, rfl⟩
    | item | row | cell | root => exact ⟨_, "", String.append_empty.symm⟩

/-- The fault of a reading that failed. -/
def fault? {ε α : Type} : Except ε α → Option ε
  | .ok _ => none
  | .error e => some e

section
variable {ε α β γ : Type}

theorem fault?_eq_some_iff {x : Except ε α} {e : ε} : fault? x = some e ↔ x = .error e := by
  cases x <;> simp [fault?]

theorem fault?_map (f : α → β) (x : Except ε α) : fault? (x.map f) = fault? x := by
  cases x <;> rfl

/-- Of two readings one after the other the first fault counts. -/
theorem fault?_both (x : Except ε α) (y : Except ε β) (f : α → β → γ) :
    fault? (x >>= fun a => y >>= fun b => .ok (f a b)) = (fault? x).or (fault? y) := by
  cases x <;> cases y <;> rfl

end

open Standing

mutual

theorem fault?_inlineOfNode (parent : NodeType) (h : parent.holds = NodeType.isPhrasing)
    (hp : parent.placeBelow = .phrasing) (n : Node) :
    fault? (Inline.ofNode n) = firstFault? (n.standings (some parent)) := by
  rw [firstFault?_standings, h, hp]
  cases n with
  | text | inlineCode | image => rfl
  | strong cs => exact (fault?_map ..).trans (fault?_inlinesOfNodes .strong rfl rfl cs)
  | emphasis cs =>
    exact (fault?_map ..).trans (fault?_inlinesOfNodes .emphasis rfl rfl cs)
  | delete cs => exact (fault?_map ..).trans (fault?_inlinesOfNodes .delete rfl rfl cs)
  | link url title cs =>
    exact (fault?_map ..).trans (fault?_inlinesOfNodes .link rfl rfl cs)
  | paragraph | heading | code | thematicBreak | blockquote | listItem | list | tableCell | tableRow
  | table | root => rfl

theorem fault?_inlinesOfNodes (parent : NodeType) (h : parent.holds = NodeType.isPhrasing)
    (hp : parent.placeBelow = .phrasing) (ns : List Node) :
    fault? (inlinesOfNodes ns) = firstFault? (standingsBelow parent ns) := by
  cases ns with
  | nil => rfl
  | cons n ns =>
    rw [inlinesOfNodes, fault?_both, standingsBelow, firstFault?_append,
      fault?_inlineOfNode parent h hp n, fault?_inlinesOfNodes parent h hp ns]

end

theorem fault?_cellsOfNodes (ns : List Node) :
    fault? (cellsOfNodes ns) = firstFault? (standingsBelow .tableRow ns) := by
  induction ns with
  | nil => rfl
  | cons n ns ih =>
    rw [standingsBelow, firstFault?_append, firstFault?_standings]
    cases n with
    | tableCell cs =>
      rw [cellsOfNodes, fault?_both, fault?_inlinesOfNodes .tableCell rfl rfl, ih]
      rfl
    | _ => rfl

theorem fault?_rowsOfNodes (ns : List Node) :
    fault? (rowsOfNodes ns) = firstFault? (standingsBelow .table ns) := by
  induction ns with
  | nil => rfl
  | cons n ns ih =>
    rw [standingsBelow, firstFault?_append, firstFault?_standings]
    cases n with
    | tableRow cs =>
      rw [rowsOfNodes, fault?_both, fault?_cellsOfNodes, ih]
      rfl
    | _ => rfl

mutual

theorem fault?_flowOfNode (parent : NodeType) (h : parent.holds = NodeType.isFlow)
    (hp : parent.placeBelow = .flow) (n : Node) :
    fault? (Flow.ofNode n) = firstFault? (n.standings (some parent)) := by
  rw [firstFault?_standings, h, hp]
  cases n with
  | paragraph cs =>
    exact (fault?_map ..).trans (fault?_inlinesOfNodes .paragraph rfl rfl cs)
  | heading depth cs =>
    exact (fault?_map ..).trans (fault?_inlinesOfNodes .heading rfl rfl cs)
  | code | thematicBreak => rfl
  | blockquote cs =>
    exact (fault?_map ..).trans (fault?_flowOfNodes .blockquote rfl rfl cs)
  | list ordered start spread cs => exact (fault?_map ..).trans (fault?_itemsOfNodes cs)
  | table align cs => exact (fault?_map ..).trans (fault?_rowsOfNodes cs)
  | text | inlineCode | image | strong | emphasis | delete | link | listItem | tableCell | tableRow
  | root => rfl

theorem fault?_flowOfNodes (parent : NodeType) (h : parent.holds = NodeType.isFlow)
    (hp : parent.placeBelow = .flow) (ns : List Node) :
    fault? (flowOfNodes ns) = firstFault? (standingsBelow parent ns) := by
  cases ns with
  | nil => rfl
  | cons n ns =>
    rw [flowOfNodes, fault?_both, standingsBelow, firstFault?_append, fault?_flowOfNode parent h hp n,
      fault?_flowOfNodes parent h hp ns]

theorem fault?_itemOfNode (n : Node) :
    fault? (Item.ofNode n) = firstFault? (n.standings (some .list)) := by
  rw [firstFault?_standings]
  cases n with
  | listItem checked spread cs =>
    exact (fault?_map ..).trans (fault?_flowOfNodes .listItem rfl rfl cs)
  | _ => rfl

theorem fault?_itemsOfNodes (ns : List Node) :
    fault? (itemsOfNodes ns) = firstFault? (standingsBelow .list ns) := by
  cases ns with
  | nil => rfl
  | cons n ns =>
    rw [itemsOfNodes, fault?_both, standingsBelow, firstFault?_append, fault?_itemOfNode n,
      fault?_itemsOfNodes ns]

end

theorem fault?_documentOfNode (n : Node) :
    fault? (Document.ofNode n) = firstFault? (n.standings none) := by
  rw [Node.standings_eq, firstFault?_cons]
  cases n with
  | root cs => exact (fault?_map ..).trans (fault?_flowOfNodes .root rfl rfl cs)
  | _ => rfl

/-- A tree is a document exactly if its top node is a root and all nodes below it fit. -/
theorem isOk_documentOfNode (n : Node) :
    (Document.ofNode n).isOk = (n.type = .root && n.fits) := by
  have hok : (Document.ofNode n).isOk = (fault? (Document.ofNode n)).isNone := by
    cases Document.ofNode n <;> rfl
  rw [hok, fault?_documentOfNode, Node.standings_eq, firstFault?_cons, Node.fits_eq,
    ← isNone_standingsBelow]
  by_cases h : n.type = .root <;> simp [isMisplaced, h]

theorem allFit_nodesOfInlines (parent : NodeType) (h : parent.holds = NodeType.isPhrasing)
    (hp : parent.placeBelow = .phrasing) (cs : List Inline) :
    allFit parent (nodesOfInlines cs) = true := by
  rw [← isNone_standingsBelow, ← fault?_inlinesOfNodes parent h hp, inlinesOfNodes_nodesOfInlines]
  rfl

@[simp] theorem allFit_paragraph (cs : List Inline) :
    allFit .paragraph (nodesOfInlines cs) = true := allFit_nodesOfInlines .paragraph rfl rfl cs

@[simp] theorem allFit_heading (cs : List Inline) :
    allFit .heading (nodesOfInlines cs) = true := allFit_nodesOfInlines .heading rfl rfl cs

theorem exists_firstFault?_iff {ss : List Standing} :
    (∃ m, firstFault? ss = some m) ↔ ∃ s ∈ ss, s.isMisplaced = true := by
  rw [← Option.isSome_iff_exists, firstFault?, Option.isSome_map, List.find?_isSome]

/-- A tree has no Markdown exactly if a node in it is misplaced. The fault is that of the first
misplaced node in pre-order, whatever the options are, and names its type. -/
theorem markdown_eq_error_iff_misplaced (o : Options) (n : Node) :
    ((∃ m, markdown o n = .error m) ↔ ∃ s ∈ n.standings none, s.isMisplaced = true) ∧
    ∀ m, markdown o n = .error m ↔
      ∃ s, (n.standings none).find? isMisplaced = some s ∧ m = s.fault ∧
        ∃ before after, m.message = before ++ ("'" ++ s.node.type.name ++ "'") ++ after := by
  have hfault (m : Misplaced) :
      markdown o n = .error m ↔ firstFault? (n.standings none) = some m := by
    rw [← fault?_documentOfNode, ← fault?_eq_some_iff, markdown, fault?_map]
  refine ⟨?_, fun m => ?_⟩
  · simp only [hfault]
    exact exists_firstFault?_iff
  · rw [hfault, firstFault?, Option.map_eq_some_iff]
    constructor
    · rintro ⟨s, hs, rfl⟩
      exact ⟨s, hs, rfl, s.fault.message_names⟩
    · rintro ⟨s, hs, rfl, -⟩
      exact ⟨s, hs, rfl⟩

end PageExport.Markdown
