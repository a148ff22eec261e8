import Mathlib.Data.List.Forall2
import PageExport.Proofs.Reading.Faults
import PageExport.Snapshot.Block

/-!
The grammar of block trees. A structured value is read as a tree exactly if it is written as one, and
what it is written as is the tree that is read; otherwise the places that are against the grammar are
counted, all of them in the whole value.
-/
namespace PageExport

/-- A member may hold the props of a block; where they are missing or null they are empty. -/
inductive HoldsProps : Option Value → Members → Prop where
  | missing : HoldsProps none []
  | null : HoldsProps (some .null) []
  | object (ms : Members) : HoldsProps (some (.object ms)) ms

/-- A member may hold items; where they are missing or null there are none. -/
inductive HoldsItems : Option Value → List Value → Prop where
  | missing : HoldsItems none []
  | null : HoldsItems (some .null) []
  | array (vs : List Value) : HoldsItems (some (.array vs)) vs

/-- The value is written as a block tree, with any further members in its objects. -/
inductive IsTreeOf : Value → Block → Prop where
  | object {ms props : Members} {id tag : String} {items : List Value} {children : List Block}
      (hid : ms.lookup "id" = some (.string id)) (htag : ms.lookup "flavour" = some (.string tag))
      (hprops : HoldsProps (ms.lookup "props") props)
      (hitems : HoldsItems (ms.lookup "children") items)
      (hchildren : List.Forall₂ IsTreeOf items children) :
      IsTreeOf (.object ms) ⟨id, tag, props, children⟩

def textViolations : Option Value → Nat
  | some (.string _) => 0
  | _ => 1

def propsViolations : Option Value → Nat
  | none | some .null | some (.object _) => 0
  | _ => 1

mutual

/-- The number of places in a value where it is not written as a block tree: a missing or improper id
or flavour, improper props or children, and a child that is no object. -/
def violations : Value → Nat
  | .object ms => textViolations (ms.lookup "id") + textViolations (ms.lookup "flavour")
      + propsViolations (ms.lookup "props") + childViolations ms
  | _ => 1

def childViolations : Members → Nat
  | [] => 0
  | (key, v) :: ms => if key = "children" then siblingViolations v else childViolations ms

def siblingViolations : Value → Nat
  | .null => 0
  | .array vs => eachViolations vs
  | _ => 1

def eachViolations : List Value → Nat
  | [] => 0
  | v :: vs => violations v + eachViolations vs

end

/-- A value that stands where a block is expected, so many levels below the whole value. -/
inductive IsPart : Nat → Value → Value → Prop where
  | whole (v : Value) : IsPart 0 v v
  | child {n : Nat} {ms : Members} {vs : List Value} {v w : Value}
      (hitems : ms.lookup "children" = some (.array vs)) (hv : v ∈ vs) (hw : IsPart n v w) :
      IsPart (n + 1) (.object ms) w

/-- No object in the value is nested deeper than so many levels, and none has a further member without a
proper name. -/
def Fits (levels : Nat) (v : Value) : Prop :=
  ∀ n ms, IsPart n v (.object ms) → n < levels ∧ Block.hasTextNames ms = true

theorem not_fits_zero (ms : Members) : ¬ Fits 0 (.object ms) := fun h =>
  Nat.not_lt_zero 0 (h 0 ms (.whole _)).1

theorem fits_object_iff {levels : Nat} {ms : Members} :
    Fits (levels + 1) (.object ms) ↔ Block.hasTextNames ms = true ∧
      ∀ vs, ms.lookup "children" = some (.array vs) → ∀ v ∈ vs, Fits levels v := by
  constructor
  · intro h
    refine ⟨(h 0 ms (.whole _)).2, fun vs hitems v hv n ms' hpart => ?_⟩
    obtain ⟨hlevel, hnames⟩ := h (n + 1) ms' (.child hitems hv hpart)
    exact ⟨Nat.lt_of_succ_lt_succ hlevel, hnames⟩
  · rintro ⟨hnames, hbelow⟩ n ms' hpart
    cases hpart with
    | whole => exact ⟨Nat.succ_pos levels, hnames⟩
    | child hitems hv hw =>
      obtain ⟨hlevel, hnames'⟩ := hbelow _ hitems _ hv _ _ hw
      exact ⟨Nat.succ_lt_succ hlevel, hnames'⟩

theorem holdsItems_iff {member : Option Value} {items : List Value} :
    HoldsItems member items ↔ member = some (.array items) ∨
      (member = none ∨ member = some .null) ∧ items = [] := by
  constructor
  · rintro (_ | _ | _) <;> simp
  · rintro (rfl | ⟨rfl | rfl, rfl⟩)
    · exact .array items
    · exact .missing
    · exact .null

theorem isTreeOf_object_iff {ms : Members} {b : Block} :
    IsTreeOf (.object ms) b ↔ ms.lookup "id" = some (.string b.id) ∧
      ms.lookup "flavour" = some (.string b.tag) ∧ HoldsProps (ms.lookup "props") b.props ∧
      ∃ items, HoldsItems (ms.lookup "children") items ∧
        List.Forall₂ IsTreeOf items b.children := by
  constructor
  · rintro ⟨hid, htag, hprops, hitems, hchildren⟩
    exact ⟨hid, htag, hprops, _, hitems, hchildren⟩
  · obtain ⟨id, tag, props, children⟩ := b
    rintro ⟨hid, htag, hprops, items, hitems, hchildren⟩
    exact .object hid htag hprops hitems hchildren

theorem childViolations_eq (ms : Members) :
    childViolations ms = ((ms.lookup "children").map siblingViolations).getD 0 := by
  induction ms with
  | nil => simp [childViolations]
  | cons m ms ih =>
    obtain ⟨key, v⟩ := m
    rw [childViolations]
    by_cases h : key = "children"
    · simp [h]
    · have hkey : ("children" == key) = false := by simpa using Ne.symm h
      rw [if_neg h, ih, List.lookup_cons, hkey]

namespace Block

open Reading (Located located_ok located_wrong)

variable {depth : Nat}

theorem readProps_eq_ok_iff {v : Value} {props : Members} :
    readProps v = .ok props ↔ HoldsProps (some v) props := by
  constructor
  · intro h
    cases v <;> cases h
    · exact .null
    · exact .object _
  · rintro (_ | _ | _) <;> rfl

theorem located_readProps (v : Value) : (readProps v).Located := by
  cases v <;> first | exact located_ok _ | exact located_wrong

theorem readChildren_eq_field (ms : Members) :
    readChildren depth ms = .field ms "children" [] (readSiblings depth) := by
  unfold Reading.field
  induction ms with
  | nil => rfl
  | cons m ms ih =>
    obtain ⟨key, v⟩ := m
    rw [readChildren]
    by_cases h : key = "children"
    · simp [h]
    · have hkey : ("children" == key) = false := by simpa using Ne.symm h
      rw [if_neg h, ih, List.lookup_cons, hkey]

/-- The members of an object that are read as a block. -/
theorem readTo_object (ms : Members) : readTo (depth + 1) (.object ms) =
    if hasTextNames ms then
      mk <$> .required ms "id" .string <*> .required ms "flavour" .string
        <*> .field ms "props" [] readProps <*> .field ms "children" [] (readSiblings depth)
    else .wrong := by
  rw [readTo]
  simp only [readChildren_eq_field]

theorem readEach_eq_ok_iff {vs : List Value} {bs : List Block} {index : Nat} :
    readEach depth index vs = .ok bs ↔ List.Forall₂ (fun v b => readTo depth v = .ok b) vs bs := by
  induction vs generalizing index bs with
  | nil => simp [readEach, eq_comm]
  | cons v vs ih =>
    simp only [readEach, Reading.seq_eq_ok_iff, Reading.map_eq_ok_iff, Reading.under_eq_ok_iff, ih]
    constructor
    · rintro ⟨_, rest, ⟨b, hb, rfl⟩, hrest, rfl⟩
      exact .cons hb hrest
    · rintro (_ | ⟨hb, hrest⟩)
      exact ⟨_, _, ⟨_, hb, rfl⟩, hrest, rfl⟩

theorem readSiblings_eq_ok_iff {v : Value} {bs : List Block} :
    readSiblings depth v = .ok bs ↔ ∃ items, HoldsItems (some v) items ∧
      List.Forall₂ (fun v b => readTo depth v = .ok b) items bs := by
  constructor
  · intro h
    cases v with
    | null =>
      cases h
      exact ⟨[], .null, .nil⟩
    | array vs => exact ⟨vs, .array vs, readEach_eq_ok_iff.1 h⟩
    | _ => cases h
  · rintro ⟨items, _ | _ | _, hitems⟩
    · cases hitems
      rfl
    · exact readEach_eq_ok_iff.2 hitems

theorem located_readEach (h : ∀ v, (readTo depth v).Located) (vs : List Value) (index : Nat) :
    (readEach depth index vs).Located := by
  induction vs generalizing index with
  | nil => exact located_ok []
  | cons v vs ih => exact (((h v).under _).map _).seq (ih (index + 1))

theorem located_readSiblings (h : ∀ v, (readTo depth v).Located) (v : Value) :
    (readSiblings depth v).Located := by
  cases v with
  | null => exact located_ok []
  | array vs => exact located_readEach h vs 0
  | _ => exact located_wrong

theorem located_readTo (depth : Nat) (v : Value) : (readTo depth v).Located := by
  induction depth generalizing v with
  | zero => cases v <;> exact located_wrong
  | succ depth ih =>
    cases v with
    | object ms =>
      rw [readTo_object]
      split
      · exact (((Located.required Reading.located_string).map _).seq
          (.required Reading.located_string)).seq (.field located_readProps) |>.seq
          (.field (located_readSiblings ih))
      · exact located_wrong
    | _ => exact located_wrong

theorem field_props_eq_ok_iff {ms props : Members} :
    Reading.field ms "props" [] readProps = .ok props ↔ HoldsProps (ms.lookup "props") props := by
  simp only [Reading.field_eq_ok_iff, readProps_eq_ok_iff]
  cases ms.lookup "props" with
  | none =>
    simp only [reduceCtorEq, false_and, exists_false, or_false, true_and]
    constructor
    · rintro rfl
      exact .missing
    · rintro (_ | _)
      rfl
  | some v => simp

theorem field_children_eq_ok_iff {ms : Members} {bs : List Block} :
    Reading.field ms "children" [] (readSiblings depth) = .ok bs ↔
      ∃ items, HoldsItems (ms.lookup "children") items ∧
        List.Forall₂ (fun v b => readTo depth v = .ok b) items bs := by
  simp only [Reading.field_eq_ok_iff, readSiblings_eq_ok_iff]
  cases ms.lookup "children" with
  | none =>
    simp only [reduceCtorEq, false_and, exists_false, or_false, true_and]
    constructor
    · rintro rfl
      exact ⟨[], .missing, .nil⟩
    · rintro ⟨_, _ | _, hitems⟩
      cases hitems
      rfl
  | some v => simp

/-- What is read is a tree as which the value is written, within the limits of the reader. -/
theorem readTo_eq_ok_iff {v : Value} {b : Block} :
    readTo depth v = .ok b ↔ IsTreeOf v b ∧ Fits depth v := by
  induction depth generalizing v b with
  | zero =>
    cases v with
    | object ms => simp [readTo, Reading.wrong, not_fits_zero]
    | _ =>
      simp only [readTo, Reading.wrong, reduceCtorEq, false_iff, not_and]
      rintro ⟨⟩
  | succ depth ih =>
    cases v with
    | object ms =>
      have hitems {items : List Value} {bs : List Block} :
          List.Forall₂ (fun v b => readTo depth v = .ok b) items bs ↔
            (∀ v ∈ items, Fits depth v) ∧ List.Forall₂ IsTreeOf items bs := by
        simp only [ih, and_comm (a := IsTreeOf _ _)]
        exact List.forall₂_and_left ..
      rw [readTo_object, isTreeOf_object_iff, fits_object_iff]
      split
      · next hnames =>
        simp only [hnames, true_and, Reading.seq_eq_ok_iff, Reading.map_eq_ok_iff,
          Reading.required_eq_ok_iff, Reading.string_eq_ok_iff, field_props_eq_ok_iff,
          field_children_eq_ok_iff, hitems]
        constructor
        · rintro ⟨_, children, ⟨_, props, ⟨_, tag, ⟨id, ⟨_, hid, rfl⟩, rfl⟩, ⟨_, htag, rfl⟩, rfl⟩,
            hprops, rfl⟩, ⟨items, hmember, hfits, htrees⟩, rfl⟩
          refine ⟨⟨hid, htag, hprops, items, hmember, htrees⟩, fun vs hvs => ?_⟩
          rw [hvs] at hmember
          cases hmember
          exact hfits
        · obtain ⟨id, tag, props, children⟩ := b
          rintro ⟨⟨hid, htag, hprops, items, hmember, htrees⟩, hfits⟩
          refine ⟨_, children, ⟨_, props, ⟨_, tag, ⟨id, ⟨_, hid, rfl⟩, rfl⟩, ⟨_, htag, rfl⟩, rfl⟩,
            hprops, rfl⟩, ⟨items, hmember, ?_, htrees⟩, rfl⟩
          rcases holdsItems_iff.1 hmember with hvs | ⟨-, rfl⟩
          · exact hfits items hvs
          · simp
      · next hnames => simp [hnames, Reading.wrong]
    | _ =>
      simp only [readTo, Reading.wrong, reduceCtorEq, false_iff, not_and]
      rintro ⟨⟩

theorem faults_required_string (ms : Members) (key : String) :
    (Reading.required ms key .string).faults.length = textViolations (ms.lookup key) := by
  unfold Reading.required
  cases ms.lookup key with
  | none => rfl
  | some v => cases v <;> rfl

theorem faults_field_props (ms : Members) :
    (Reading.field ms "props" [] readProps).faults.length = propsViolations (ms.lookup "props") := by
  unfold Reading.field
  cases ms.lookup "props" with
  | none => rfl
  | some v => cases v <;> rfl

theorem faults_readEach {vs : List Value} (index : Nat)
    (h : ∀ v ∈ vs, (readTo depth v).faults.length = violations v) :
    (readEach depth index vs).faults.length = eachViolations vs := by
  induction vs generalizing index with
  | nil => rfl
  | cons v vs ih =>
    obtain ⟨hv, hvs⟩ := List.forall_mem_cons.1 h
    simp [readEach, eachViolations, hv, ih (index + 1) hvs]

/-- Within the limits of the reader each violation is a fault of its own. -/
theorem faults_readTo {v : Value} (h : Fits depth v) :
    (readTo depth v).faults.length = violations v := by
  induction depth generalizing v with
  | zero =>
    cases v with
    | object ms => exact absurd h (not_fits_zero ms)
    | _ => rfl
  | succ depth ih =>
    cases v with
    | object ms =>
      obtain ⟨hnames, hbelow⟩ := fits_object_iff.1 h
      have hchildren : (Reading.field ms "children" [] (readSiblings depth)).faults.length =
          childViolations ms := by
        rw [childViolations_eq]
        unfold Reading.field
        cases hmember : ms.lookup "children" with
        | none => rfl
        | some v =>
          cases v with
          | array vs =>
            simpa [readSiblings, siblingViolations] using
              faults_readEach 0 fun v hv => ih (hbelow vs hmember v hv)
          | _ => rfl
      rw [readTo_object, if_pos hnames]
      simp only [Reading.faults_seq, Reading.faults_map, List.length_append, faults_required_string,
        faults_field_props, hchildren, violations]
    | _ => rfl

end Block

/-- A value that fits the reader is written as a tree exactly if there is no violation in it. -/
theorem exists_isTreeOf_iff {levels : Nat} {v : Value} (h : Fits levels v) :
    (∃ b, IsTreeOf v b) ↔ violations v = 0 := by
  have hread : (∃ b, Block.readTo levels v = .ok b) ↔ ∃ b, IsTreeOf v b := by
    simp only [Block.readTo_eq_ok_iff, h, and_true]
  rw [← hread, (Block.located_readTo levels v).exists_eq_ok_iff, ← Block.faults_readTo h,
    List.length_eq_zero_iff]

/-- Parsing by a reader with another limit of nesting. -/
def Block.parseTo (levels : Nat) (v : Value) : Except SnapshotFault Block :=
  let v := openEnvelope v
  if v.isObject then
    match Block.readTo levels v with
    | .ok b => .ok b
    | .faulty fs => .error (.invalidTree fs.length)
  else .error (.notAnObject v.typeName)

theorem IsPart.lt_sizeOf {n : Nat} {v w : Value} (h : IsPart n v w) : n < sizeOf v := by
  induction h with
  | whole v => cases v <;> simp +arith
  | @child n ms vs v w hitems hv _ ih =>
    obtain ⟨before, after, rfl, -⟩ := List.lookup_eq_some_iff.1 hitems
    have hitem := List.sizeOf_lt_of_mem hv
    have hmember := List.sizeOf_lt_of_mem
      (List.mem_append_right before (List.mem_cons_self (a := ("children", Value.array vs)) (l := after)))
    simp only [Prod.mk.sizeOf_spec, Value.array.sizeOf_spec] at hmember
    rw [Value.object.sizeOf_spec]
    omega

/-- A value fits every reader with enough levels, as long as the names in it are proper. -/
theorem fits_of_sizeOf_le {levels : Nat} {v : Value} (hlevels : sizeOf v ≤ levels)
    (hnames : ∀ n ms, IsPart n v (.object ms) → Block.hasTextNames ms = true) : Fits levels v :=
  fun n ms hpart => ⟨Nat.lt_of_lt_of_le hpart.lt_sizeOf hlevels, hnames n ms hpart⟩

theorem parseTo_of_isObject {levels : Nat} {v : Value} (h : (openEnvelope v).isObject = true) :
    Block.parseTo levels v = match Block.readTo levels (openEnvelope v) with
      | .ok b => .ok b
      | .faulty fs => .error (.invalidTree fs.length) := by
  simp [Block.parseTo, h]

theorem parseTo_eq_ok_iff {levels : Nat} {v : Value} {b : Block} :
    Block.parseTo levels v = .ok b ↔
      IsTreeOf (openEnvelope v) b ∧ Fits levels (openEnvelope v) := by
  rw [← Block.readTo_eq_ok_iff]
  cases h : (openEnvelope v).isObject with
  | true =>
    rw [parseTo_of_isObject h]
    cases Block.readTo levels (openEnvelope v) <;> simp
  | false =>
    have hread : Block.readTo levels (openEnvelope v) = .wrong := by
      cases hv : openEnvelope v <;> first | rfl | simp [hv, Value.isObject] at h
    simp [Block.parseTo, h, hread, Reading.wrong]

/-- What is no tree is refused with all its violations counted. -/
theorem parseTo_of_not_isTreeOf {levels : Nat} {v : Value} (h : (openEnvelope v).isObject = true)
    (hfits : Fits levels (openEnvelope v)) (htree : ¬ ∃ b, IsTreeOf (openEnvelope v) b) :
    0 < violations (openEnvelope v) ∧
      Block.parseTo levels v = .error (.invalidTree (violations (openEnvelope v))) := by
  refine ⟨Nat.pos_of_ne_zero fun hzero => htree ((exists_isTreeOf_iff hfits).2 hzero), ?_⟩
  rw [parseTo_of_isObject h, ← Block.faults_readTo hfits]
  cases hread : Block.readTo levels (openEnvelope v) with
  | ok b => exact absurd ⟨b, (Block.readTo_eq_ok_iff.1 hread).1⟩ htree
  | faulty fs => rfl

/-- Parsing accepts exactly what is written as a tree, once the envelope of a page is off it, and gives
that tree; of what else is an object it counts the violations. The reader's limit of nesting plays no part
but for values that are nested deeper, and no value is too deep for all limits. -/
theorem parse_grammar (v : Value) :
    Block.parse v = Block.parseTo Block.maxLevels v ∧
    ((∀ n ms, IsPart n (openEnvelope v) (.object ms) → Block.hasTextNames ms = true) →
      ∃ enough, ∀ levels, enough ≤ levels → Fits levels (openEnvelope v)) ∧
    ∀ levels,
      (∀ b, Block.parseTo levels v = .ok b ↔
        IsTreeOf (openEnvelope v) b ∧ Fits levels (openEnvelope v)) ∧
      ((openEnvelope v).isObject = false →
        Block.parseTo levels v = .error (.notAnObject (openEnvelope v).typeName)) ∧
      ((openEnvelope v).isObject = true → Fits levels (openEnvelope v) →
        (¬ ∃ b, IsTreeOf (openEnvelope v) b) →
        0 < violations (openEnvelope v) ∧
        Block.parseTo levels v = .error (.invalidTree (violations (openEnvelope v)))) := by
  refine ⟨rfl, fun hnames => ⟨_, fun levels hlevels => fits_of_sizeOf_le hlevels hnames⟩,
    fun levels => ⟨fun b => parseTo_eq_ok_iff, fun h => ?_, parseTo_of_not_isTreeOf⟩⟩
  simp [Block.parseTo, h]

/-- A block with a further member whose name is half of a surrogate pair. -/
def halfNamed : Value :=
  .object [("id", .string "a"), ("flavour", .string "affine:note"),
    (String.singleton (Unicode.charOf 0xD800), .int 1)]

/-- Further members are no part of the grammar, but the name of one of them can keep a tree from being
read. -/
theorem parse_halfNamed : IsTreeOf (openEnvelope halfNamed) ⟨"a", "affine:note", [], []⟩ ∧
    violations (openEnvelope halfNamed) = 0 ∧ Block.parse halfNamed = .error (.invalidTree 1) := by
  refine ⟨.object rfl rfl ?_ ?_ .nil, rfl, rfl⟩
  · exact .missing
  · exact .missing

/-- An id that is no text, a flavour that is missing, and below them a child that is no object and one
without an id. -/
example : violations (.object [("id", .int 1), ("children", .array
    [.null, .object [("flavour", .string "affine:note"), ("props", .null)]])]) = 4 := rfl

end PageExport
