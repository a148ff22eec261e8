import PageExport.Number.Decimal
import PageExport.Value.Basic

/-!
Reading typed data from structured values. A reading that fails names every place at fault, not
only the first one, so readings of several parts combine by joining their faults.
-/
namespace PageExport

/-- One step down into a value. -/
inductive Step where
  | key (name : String)
  | index (i : Nat)
  deriving DecidableEq, Repr

/-- The way from the whole value to the place of a fault. -/
abbrev FaultPath := List Step

inductive Reading (α : Type) where
  | ok (a : α)
  | faulty (faults : List FaultPath)
  deriving Repr

namespace Reading

def faults {α : Type} : Reading α → List FaultPath
  | .ok _ => []
  | .faulty fs => fs

def map {α β : Type} (f : α → β) : Reading α → Reading β
  | .ok a => .ok (f a)
  | .faulty fs => .faulty fs

/-- Combines two readings; the faults of both count. -/
def seq {α β : Type} : Reading (α → β) → Reading α → Reading β
  | .ok f, .ok a => .ok (f a)
  | .ok _, .faulty fs => .faulty fs
  | .faulty fs, .ok _ => .faulty fs
  | .faulty fs, .faulty gs => .faulty (fs ++ gs)

instance : Functor Reading := ⟨map, fun a x => map (fun _ => a) x⟩

instance : Pure Reading := ⟨.ok⟩

instance : Seq Reading := ⟨fun f x => seq f (x ())⟩

/-- The reading of a part as part of the whole. -/
def under {α : Type} (step : Step) : Reading α → Reading α
  | .ok a => .ok a
  | .faulty fs => .faulty (fs.map (step :: ·))

/-- The value itself is at fault. -/
def wrong {α : Type} : Reading α := .faulty [[]]

def ofOption {α : Type} : Option α → Reading α
  | some a => .ok a
  | none => wrong

/-- All parts of a list, the first of them at an index. -/
def each {α : Type} (index : Nat) : List (Reading α) → Reading (List α)
  | [] => .ok []
  | r :: rs => List.cons <$> r.under (.index index) <*> each (index + 1) rs

/-- The parts of an object under their keys. -/
def eachMember {α : Type} : List (String × Reading α) → Reading (List (String × α))
  | [] => .ok []
  | (k, r) :: rs => (fun a as => (k, a) :: as) <$> r.under (.key k) <*> eachMember rs

/-- A member that may be absent. -/
def field {α : Type} (ms : Members) (key : String) (default : α) (read : Value → Reading α) :
    Reading α :=
  match ms.lookup key with
  | some v => (read v).under (.key key)
  | none => .ok default

/-- A member that must be there. -/
def required {α : Type} (ms : Members) (key : String) (read : Value → Reading α) : Reading α :=
  match ms.lookup key with
  | some v => (read v).under (.key key)
  | none => .faulty [[.key key]]

/-- A member known by two names, of which the first wins. -/
def field₂ {α : Type} (ms : Members) (key other : String) (default : α)
    (read : Value → Reading α) : Reading α :=
  if (ms.lookup key).isSome then field ms key default read else field ms other default read

def string : Value → Reading String
  | .string s => .ok s
  | _ => wrong

def choice {α : Type} (table : List (String × α)) : Value → Reading α
  | .string s => ofOption (table.lookup s)
  | _ => wrong

def truth? (s : String) : Option Bool :=
  let word := s.map Char.toLower
  if ["1", "on", "t", "true", "y", "yes"].contains word then some true
  else if ["0", "off", "f", "false", "n", "no"].contains word then some false
  else none

/-- A truth value, one of its words, or the number one or zero. -/
def truth : Value → Reading Bool
  | .bool b => .ok b
  | .int i => if i = 1 then .ok true else if i = 0 then .ok false else wrong
  | .float x =>
    if x.toInt? = some 1 then .ok true else if x.toInt? = some 0 then .ok false else wrong
  | .string s => ofOption (truth? s)
  | _ => wrong

/-- Blanks without the information separators. -/
def isPadding (c : Char) : Bool := isBlank c && !(0x1C ≤ c.toNat && c.toNat < 0x20)

def trim (t : Text) : Text :=
  ((t.dropWhile isPadding).reverse.dropWhile isPadding).reverse

/-- A number with padding around it, or with underscores inside and no padding. -/
def decimal? (t : Text) : Option Binary64 :=
  (Binary64.read (trim t)).or ((Binary64.dropLoneUnderscores t).bind Binary64.read)

/-- A number, a truth value, or a text that writes a number. -/
def number : Value → Reading Binary64
  | .float x => .ok x
  | .int i => ofOption (Binary64.ofInt? i)
  | .bool b => .ok (.ofBool b)
  | .string s => ofOption (decimal? s.toList)
  | _ => wrong

def optional {α : Type} (read : Value → Reading α) : Value → Reading (Option α)
  | .null => .ok none
  | v => some <$> read v

def list {α : Type} (read : Value → Reading α) : Value → Reading (List α)
  | .array vs => each 0 (vs.map read)
  | _ => wrong

def table {α : Type} (read : Value → Reading α) : Value → Reading (List (String × α))
  | .object ms => eachMember (ms.map fun (k, v) => (k, read v))
  | _ => wrong

def record {α : Type} (read : Members → Reading α) : Value → Reading α
  | .object ms => read ms
  | _ => wrong

/-- A record in whose place null stands for one without members. -/
def recordOrNull {α : Type} (read : Members → Reading α) : Value → Reading α
  | .null => read []
  | v => record read v

/-- The names of the members of the whole value that are at fault or hold a fault, in order. -/
def faultyMembers (fs : List FaultPath) : List String :=
  let names := fs.filterMap fun
    | .key name :: _ => some name
    | _ => none
  (names.mergeSort (fun a b => a ≤ b)).eraseDups

end Reading
end PageExport
