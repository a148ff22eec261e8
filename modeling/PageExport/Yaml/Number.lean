import PageExport.Unicode.Lowercase
import PageExport.Yaml.Fault
import PageExport.Yaml.Scalar

/-!
The numbers that scalars stand for. A tag lets a text be a number that does not show itself as one, so
these read more than what has the form of a number.
-/
namespace PageExport.Yaml

def dropMarks (t : Text) : Text := t.filter (· ≠ '_')

def digitOf (c : Char) : Nat :=
  if c.isDigit then c.toNat - 48 else c.toLower.toNat - 87

/-- Goes past the mark of a base before digits of it. -/
def dropBaseMark (base : Nat) (t : Text) : Text :=
  match t with
  | '0' :: c :: ds =>
    if (base = 2 && c.toLower = 'b') || (base = 8 && c.toLower = 'o')
        || (base = 16 && c.toLower = 'x') then ds
    else t
  | t => t

/-- The integer that digits of a base write, with a sign and with blanks around it. -/
def integerIn (base : Nat) (t : Text) : Except Fault Int :=
  let (negative, u) := Binary64.splitSign (Binary64.stripPlain (t.map Binary64.asciiForm))
  let rest := dropBaseMark base u
  let ds := rest.takeWhile (isDigitOf base)
  if base = 10 && maxDigits < ds.length then .error (.tooManyDigits ds.length)
  else if ds.isEmpty || ds.length < rest.length then .error (.notAnInteger base t)
  else
    let n : Int := (ds.foldl (fun n c => base * n + digitOf c) 0 : Nat)
    .ok (if negative then -n else n)

def integerOf (t : Text) : Except Fault Int :=
  match dropMarks t with
  | [] => .error .noCharacter
  | c :: cs => do
    let (negative, u) := Binary64.splitSign (c :: cs)
    let i ← match u with
      | [] => .error .noCharacter
      | '0' :: 'b' :: ds => integerIn 2 ds
      | '0' :: 'x' :: ds => integerIn 16 ds
      | '0' :: _ => integerIn 8 u
      | u =>
        if u.contains ':' then
          (·.foldl (fun n part => 60 * n + part) 0) <$> (Text.split ':' u).mapM (integerIn 10)
        else integerIn 10 u
    return if negative then -i else i

def realIn (t : Text) : Except Fault Binary64 :=
  match Binary64.readLoose t with
  | some x => .ok x
  | none => .error (.notANumber t)

/-- Parts in units of powers of sixty from the last one on, of which `unit` is the next. -/
def sumOfParts (sum : Binary64) (unit : Nat) : List Binary64 → Except Fault Binary64
  | [] => .ok sum
  | part :: parts =>
    match Binary64.ofInt? unit with
    | some x => sumOfParts (sum.add (part.mul x)) (60 * unit) parts
    | none => .error .tooManyParts

def realOf (t : Text) : Except Fault Binary64 :=
  match Unicode.lowercase (dropMarks t) with
  | [] => .error .noCharacter
  | c :: cs => do
    let (negative, u) := Binary64.splitSign (c :: cs)
    let x ← if u = ".inf".toList then pure (.infinite false)
      else if u = ".nan".toList then pure .nan
      else if u.contains ':' then do
        let parts ← (Text.split ':' u).mapM realIn
        sumOfParts (Binary64.ofRatio false 0 1) 1 parts.reverse
      else realIn u
    return if negative then x.negate else x

end PageExport.Yaml
