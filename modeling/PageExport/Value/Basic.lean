import PageExport.Number.Shortest
import PageExport.Text.Quoted

/-!
Structured values: the data that documents, settings and node scopes hold. Whole numbers and
floating-point numbers are told apart, and an object keeps its members in order.
-/
namespace PageExport

inductive Value where
  | null
  | bool (b : Bool)
  | int (i : Int)
  | float (x : Binary64)
  | string (s : String)
  | array (items : List Value)
  | object (members : List (String × Value))
  deriving Inhabited

/-- The members of an object, in order, one for each key. -/
abbrev Members := List (String × Value)

/-- Sets the member `key`: a new key goes to the end, a present one keeps its place. -/
def Members.insert (key : String) (v : Value) : Members → Members
  | [] => [(key, v)]
  | (k, w) :: ms => if k = key then (k, v) :: ms else (k, w) :: Members.insert key v ms

/-- The members of `base`, replaced and continued by those of `upper`. -/
def Members.overlay (base upper : Members) : Members :=
  upper.foldl (fun done (key, v) => done.insert key v) base

/-- Members of which a later one replaces an earlier one of its key. -/
def Members.ofList (ms : List (String × Value)) : Members := overlay [] ms

theorem Members.lookup_insert (key k : String) (v : Value) (ms : Members) :
    (Members.insert key v ms).lookup k = if k = key then some v else ms.lookup k := by
  induction ms with
  | nil => grind [Members.insert]
  | cons m ms ih => grind [Members.insert]

namespace Value

def typeName : Value → String
  | .null => "NoneType"
  | .bool _ => "bool"
  | .int _ => "int"
  | .float _ => "float"
  | .string _ => "str"
  | .array _ => "list"
  | .object _ => "dict"

def isNull : Value → Bool
  | .null => true
  | _ => false

def isObject : Value → Bool
  | .object _ => true
  | _ => false

mutual

/-- The form of a value in messages and in table cells. -/
def display : Value → Text
  | .null => ['N', 'o', 'n', 'e']
  | .bool b => if b then ['T', 'r', 'u', 'e'] else ['F', 'a', 'l', 's', 'e']
  | .int i => Text.ofInt i
  | .float x => x.text
  | .string s => Text.quoted s.toList
  | .array items => '[' :: Text.join [',', ' '] (displayItems items) ++ [']']
  | .object members => '\x7b' :: Text.join [',', ' '] (displayMembers members) ++ ['\x7d']

def displayItems : List Value → List Text
  | [] => []
  | v :: vs => v.display :: displayItems vs

def displayMembers : List (String × Value) → List Text
  | [] => []
  | (k, v) :: ms => (Text.quoted k.toList ++ [':', ' '] ++ v.display) :: displayMembers ms

end

theorem displayItems_eq_map (vs : List Value) : displayItems vs = vs.map display := by
  induction vs with
  | nil => rfl
  | cons v vs ih => simp [displayItems, ih]

end Value
end PageExport
