import PageExport.Number.Decimal
import PageExport.Yaml.Timestamp

/-!
The types of scalars. A tag names one; a plain scalar shows its own: words for nothing and for truth
values, integers in several bases, numbers with a point, and timestamps. Every other plain scalar is a
text.
-/
namespace PageExport.Yaml

def nullWords : List String := ["", "~", "null", "Null", "NULL"]

def trueWords : List String := ["yes", "Yes", "YES", "true", "True", "TRUE", "on", "On", "ON"]

def falseWords : List String := ["no", "No", "NO", "false", "False", "FALSE", "off", "Off", "OFF"]

def isDigitOf (base : Nat) (c : Char) : Bool :=
  if c.isDigit then c.toNat < 48 + base
  else 10 < base && ('a' ≤ c.toLower && c.toLower ≤ 'f')

/-- Digits of a base with underscores among them. -/
def isDigitRun (base : Nat) (t : Text) : Bool :=
  !t.isEmpty && t.all fun c => c = '_' || isDigitOf base c

/-- A run of decimal digits and underscores that starts with a digit. -/
def isNumeral (t : Text) : Bool :=
  match t with
  | c :: _ => c.isDigit && isDigitRun 10 t
  | [] => false

/-- Minutes or seconds: one or two digits below sixty. -/
def isSixtieth (t : Text) : Bool :=
  t.all Char.isDigit && match t with
    | [_] => true
    | [a, _] => a < '6'
    | _ => false

/-- A numeral and minutes and seconds after colons. -/
def isSexagesimal (t : Text) : Bool :=
  match Text.split ':' t with
  | first :: second :: rest => isNumeral first && (second :: rest).all isSixtieth
  | _ => false

/-- The text has the form of an integer. -/
def isInteger (t : Text) : Bool :=
  match (Binary64.splitSign t).2 with
  | ['0'] => true
  | '0' :: 'b' :: ds => isDigitRun 2 ds
  | '0' :: 'x' :: ds => isDigitRun 16 ds
  | '0' :: ds => isDigitRun 8 ds
  | t => isNumeral t || isSexagesimal t

def isExponent (t : Text) : Bool :=
  match t with
  | [] => true
  | e :: s :: ds =>
    (e = 'e' || e = 'E') && (s = '+' || s = '-') && !ds.isEmpty && ds.all Char.isDigit
  | [_] => false

/-- Digits around a point with an exponent; a number that starts with the point has no sign. -/
def isDecimal (signed : Bool) (t : Text) : Bool :=
  let whole := t.takeWhile (· ≠ '.')
  match t.dropWhile (· ≠ '.') with
  | [] => false
  | _ :: rest =>
    let part := rest.takeWhile fun c => c.isDigit || c = '_'
    let exponent := rest.dropWhile fun c => c.isDigit || c = '_'
    if whole.isEmpty then !signed && part.head?.any Char.isDigit && isExponent exponent
    else if isNumeral whole then isExponent exponent
    else isSexagesimal whole && exponent.isEmpty

def infinityWords : List String := [".inf", ".Inf", ".INF"]

def nanWords : List String := [".nan", ".NaN", ".NAN"]

/-- The text has the form of a number with a point, or is a word for infinity or for no number. -/
def isReal (t : Text) : Bool :=
  let u := (Binary64.splitSign t).2
  infinityWords.contains (String.ofList u) || nanWords.contains (String.ofList t)
    || isDecimal (u.length < t.length) u

inductive ScalarType where
  | null | bool | integer | real | binary | timestamp | text
  deriving DecidableEq, Repr

def ScalarType.ofName? : String → Option ScalarType
  | "null" => some .null
  | "bool" => some .bool
  | "int" => some .integer
  | "float" => some .real
  | "binary" => some .binary
  | "timestamp" => some .timestamp
  | "str" => some .text
  | _ => none

/-- What the text of a plain scalar shows. -/
inductive Shown where
  | typed (type : ScalarType)
  /-- The key of an entry whose value is merged into the mapping. -/
  | merge
  /-- The key of the entry that stands for the mapping. -/
  | default
  deriving DecidableEq, Repr

/-- A line feed at the end of a text does not count, unless it is all of the text. -/
def dropLineEnd (t : Text) : Text :=
  if t.getLast? = some '\n' && t.length ≠ 1 then t.dropLast else t

def Shown.ofText (t : Text) : Shown :=
  let t := dropLineEnd t
  let word := String.ofList t
  if nullWords.contains word then .typed .null
  else if trueWords.contains word || falseWords.contains word then .typed .bool
  else if word = "<<" then .merge
  else if word = "=" then .default
  else if isReal t then .typed .real
  else if isInteger t then .typed .integer
  else if Timestamp.isShownBy t then .typed .timestamp
  else .typed .text

end PageExport.Yaml
