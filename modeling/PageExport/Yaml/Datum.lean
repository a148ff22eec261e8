import PageExport.Value.Basic
import PageExport.Yaml.Base64
import PageExport.Yaml.Node
import PageExport.Yaml.Number

/-!
The data that the nodes of a document stand for. Of several faults the one counts that lies under the
fewest collections, and of those the first.
-/
namespace PageExport.Yaml

inductive Datum where
  | null
  | bool (b : Bool)
  | integer (i : Int)
  | real (x : Binary64)
  | text (t : Text)
  | bytes (data : List UInt8)
  | timestamp (t : Timestamp)
  | sequence (items : List Datum)
  /-- A sequence of entries that stand alone. -/
  | pairs (entries : List (Datum × Datum))
  | mapping (entries : List (Datum × Datum))
  | set (items : List Datum)
  deriving Inhabited

namespace Datum

def typeName : Datum → String
  | .null => "NoneType"
  | .bool _ => "bool"
  | .integer _ => "int"
  | .real _ => "float"
  | .text _ => "str"
  | .bytes _ => "bytes"
  | .timestamp t => if t.clock.isSome then "datetime" else "date"
  | .sequence _ | .pairs _ => "list"
  | .mapping _ => "dict"
  | .set _ => "set"

/-- Null, false, zero and what is empty. -/
def isNothing : Datum → Bool
  | .null | .bool false | .text [] | .bytes [] | .sequence [] | .pairs [] | .mapping [] | .set [] => true
  | .integer i => i = 0
  | .real x => x.isZero
  | _ => false

/-- A fault and the number of collections that it is in. -/
structure DeepFault where
  depth : Nat
  fault : Fault

/-- Data, or the fault that counts. -/
abbrev Built (α : Type) := Except DeepFault α

/-- Combines two parts, of which `x` comes first. -/
def combine {α β γ : Type} (f : α → β → γ) (x : Built α) (y : Built β) : Built γ :=
  match x, y with
  | .ok a, .ok b => .ok (f a b)
  | .ok _, .error e => .error e
  | .error e, .ok _ => .error e
  | .error d, .error e => .error (if e.depth < d.depth then e else d)

def atDepth {α : Type} (depth : Nat) : Except Fault α → Built α
  | .ok a => .ok a
  | .error f => .error ⟨depth, f⟩

def malformed {α : Type} (depth : Nat) : Built α := .error ⟨depth, .malformed⟩

def tagStart : Text := "tag:yaml.org,2002:".toList

/-- The name that a tag ends in, if it has a meaning. -/
def tagName? (tag : Text) : Option String :=
  if tagStart.isPrefixOf tag then some (String.ofList (tag.drop tagStart.length)) else none

def ofTimestamp (t : Timestamp) : Except Fault Datum :=
  match t.fault? with
  | some f => .error (.timestamp f)
  | none => .ok (.timestamp t)

def truthOf (t : Text) : Except Fault Bool :=
  let word := Unicode.lowercase t
  if ["yes", "true", "on"].contains (String.ofList word) then .ok true
  else if ["no", "false", "off"].contains (String.ofList word) then .ok false
  else .error (.noTruthValue word)

/-- The datum of a type that a text writes. -/
def ofTyped (type : ScalarType) (t : Text) : Except Fault Datum :=
  match type with
  | .null => .ok .null
  | .bool => .bool <$> truthOf t
  | .integer => .integer <$> integerOf t
  | .real => .real <$> realOf t
  | .binary => ((decodeBase64? t).map .bytes).elim (.error .malformed) .ok
  | .timestamp => ((Timestamp.read (dropLineEnd t)).map ofTimestamp).getD (.error .noTimestamp)
  | .text => .ok (.text t)

/-- The type of scalars that a tag names. -/
def scalarType? (tag : Text) : Option ScalarType := (tagName? tag).bind ScalarType.ofName?

def ofScalar (tag : Option Text) (isOpen : Bool) (t : Text) : Except Fault Datum :=
  match tag with
  | some tag => ((scalarType? tag).map (ofTyped · t)).getD (.error .malformed)
  | none =>
    if isOpen then
      match Shown.ofText t with
      | .typed type => ofTyped type t
      | .merge | .default => .error .malformed
    else .ok (.text t)

inductive CollectionType where
  | sequence | pairs | mapping | set

def CollectionType.ofName? : String → Option CollectionType
  | "seq" => some .sequence
  | "omap" | "pairs" => some .pairs
  | "map" => some .mapping
  | "set" => some .set
  | _ => none

/-- The type of a collection: that of its tag, unless it has none. -/
def collectionType? (tag : Option Text) (untagged : CollectionType) : Option CollectionType :=
  match tag with
  | some tag => (tagName? tag).bind CollectionType.ofName?
  | none => some untagged

/-- The key of an entry whose value is merged. -/
def isMergeKey : Node → Bool
  | .scalar (some tag) _ _ => tagName? tag = some "merge"
  | .scalar none true t => Shown.ofText t = .merge
  | _ => false

/-- The key of the entry that stands for the mapping. -/
def isDefaultKey : Node → Bool
  | .scalar (some tag) _ _ => tagName? tag = some "value"
  | .scalar none true t => Shown.ofText t = .default
  | _ => false

mutual

/-- The text of a scalar, or of the entry that stands for a mapping. -/
def scalarText? : Node → Option Text
  | .scalar _ _ t => some t
  | .mapping _ entries => defaultText? entries
  | .sequence _ _ | .enclosing _ => none

def defaultText? : List (Node × Node) → Option Text
  | [] => none
  | (k, v) :: es => if isDefaultKey k then scalarText? v else defaultText? es

end

/-- A collection whose tag is that of scalars, or has no meaning. -/
def ofCollectionAsScalar (tag : Option Text) (n : Node) : Except Fault Datum :=
  match tag.bind scalarType?, scalarText? n with
  | some .timestamp, some _ => .error .timestampInMapping
  | some type, some t => ofTyped type t
  | _, _ => .error .malformed

/-- The key of an entry. Collections cannot be keys. The key of the entry that stands for the mapping is a
text like others. -/
def ofKey (depth : Nat) (k : Node) : Built Datum :=
  match k with
  | .scalar tag isOpen t =>
    if isDefaultKey k then .ok (.text t) else atDepth depth (ofScalar tag isOpen t)
  | .mapping tag _ => atDepth depth (ofCollectionAsScalar tag k)
  | .sequence _ _ | .enclosing _ => malformed depth

/-- A scalar cannot have the tag of a collection; that it has one is found out where its items would be. -/
def faultDepth (depth : Nat) (tag : Option Text) : Nat :=
  if ((tag.bind tagName?).bind CollectionType.ofName?).isSome then depth + 1 else depth

mutual

/-- The datum of a node that lies in `depth` collections. -/
def ofNode (depth : Nat) : Node → Built Datum
  | .scalar tag isOpen t => atDepth (faultDepth depth tag) (ofScalar tag isOpen t)
  | .sequence tag items =>
    match collectionType? tag .sequence with
    | some .sequence => (ofItems (depth + 1) items).map .sequence
    | some .pairs => (ofPairs (depth + 1) items).map .pairs
    | some .mapping | some .set => malformed (depth + 1)
    | none => malformed depth
  | .mapping tag entries =>
    match collectionType? tag .mapping with
    | some .mapping =>
      (ofEntries (depth + 1) entries).map fun (merged, own) => .mapping (merged ++ own)
    | some .set =>
      (ofEntries (depth + 1) entries).map fun (merged, own) => .set ((merged ++ own).map Prod.fst)
    | some .sequence | some .pairs => malformed (depth + 1)
    | none => atDepth depth (ofCollectionAsScalar tag (.mapping tag entries))
  | .enclosing isMapping => .ok (if isMapping then .mapping [] else .sequence [])

def ofItems (depth : Nat) : List Node → Built (List Datum)
  | [] => .ok []
  | n :: ns => combine List.cons (ofNode depth n) (ofItems depth ns)

/-- The only entries of the mappings in a sequence. -/
def ofPairs (depth : Nat) : List Node → Built (List (Datum × Datum))
  | [] => .ok []
  | .mapping _ [(k, v)] :: ns =>
    combine List.cons (combine Prod.mk (ofNode depth k) (ofNode depth v)) (ofPairs depth ns)
  | _ :: _ => malformed depth

/-- The entries that are merged into a mapping and those of its own. -/
def ofEntries (depth : Nat) :
    List (Node × Node) → Built (List (Datum × Datum) × List (Datum × Datum))
  | [] => .ok ([], [])
  | (k, v) :: es =>
    if isMergeKey k then
      combine (fun merged (others, own) => (merged ++ others, own)) (ofMerged depth v)
        (ofEntries depth es)
    else
      combine (fun e (merged, own) => (merged, e :: own))
        (combine Prod.mk (ofKey depth k) (ofNode depth v)) (ofEntries depth es)

/-- The entries of a mapping or of several ones, of which the first wins, to be merged. -/
def ofMerged (depth : Nat) : Node → Built (List (Datum × Datum))
  | .mapping _ entries => (ofEntries depth entries).map fun (merged, own) => merged ++ own
  | .sequence _ items => ofMergedItems depth items
  | .enclosing true => .ok []
  | _ => malformed depth

def ofMergedItems (depth : Nat) : List Node → Built (List (Datum × Datum))
  | [] => .ok []
  | .mapping _ entries :: ns =>
    combine (fun (merged, own) others => others ++ merged ++ own) (ofEntries depth entries)
      (ofMergedItems depth ns)
  | .enclosing true :: ns => ofMergedItems depth ns
  | _ :: _ => malformed depth

end

def dayNumbers (t : Timestamp) : List Value := [.int t.year, .int t.month, .int t.day]

mutual

/-- A datum as a structured value. Bytes are the text that they write. What no setting can be, a timestamp
or a set or bytes that write none, is an array. Entries whose keys are no texts are left out. -/
def toValue : Datum → Value
  | .null => .null
  | .bool b => .bool b
  | .integer i => .int i
  | .real x => .float x
  | .text t => .string (String.ofList t)
  | .bytes data => ((String.fromUTF8? ⟨data.toArray⟩).map Value.string).getD (.array [])
  | .timestamp t => .array (dayNumbers t)
  | .sequence items | .set items => .array (toValues items)
  | .pairs entries => .array (toPairs entries)
  | .mapping entries => .object (Members.ofList (toMembers entries))

def toValues : List Datum → List Value
  | [] => []
  | d :: ds => toValue d :: toValues ds

def toPairs : List (Datum × Datum) → List Value
  | [] => []
  | (k, d) :: es => .array [toValue k, toValue d] :: toPairs es

def toMembers : List (Datum × Datum) → Members
  | [] => []
  | (.text key, d) :: es => (String.ofList key, toValue d) :: toMembers es
  | (_, _) :: es => toMembers es

end

end Datum
end PageExport.Yaml
