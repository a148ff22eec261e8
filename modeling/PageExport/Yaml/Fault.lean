import PageExport.Text.Quoted
import PageExport.Yaml.Timestamp

/-!
Why a document cannot be read.
-/
namespace PageExport.Yaml

inductive Fault where
  /-- The text is no document, or holds more than one, or a value has no meaning. -/
  | malformed
  | tooDeep
  /-- An escape names a code point beyond the last one. -/
  | codePoint (n : Nat)
  /-- There is no character where a number should start. -/
  | noCharacter
  | noTruthValue (word : Text)
  | notAnInteger (base : Nat) (t : Text)
  | tooManyDigits (count : Nat)
  | notANumber (t : Text)
  /-- A number has so many parts that the unit of its first one is beyond the finite values. -/
  | tooManyParts
  | noTimestamp
  /-- What should be a timestamp is an entry of a mapping. -/
  | timestampInMapping
  | timestamp (fault : TimestampFault)
  deriving DecidableEq, Repr

/-- Decimal integers have at most so many digits. -/
def maxDigits : Nat := 4300

/-- So much is told of a text that is no integer. -/
def maxQuoted : Nat := 200

def Fault.message : Fault → String
  | .malformed => "not a document of settings"
  | .tooDeep => "maximum recursion depth exceeded"
  | .codePoint _ => "chr() arg not in range(0x110000)"
  | .noCharacter => "string index out of range"
  | .noTruthValue word => String.ofList (Text.quoted word)
  | .notAnInteger base t =>
    "invalid literal for int() with base " ++ String.ofList (Text.ofNat base) ++ ": "
      ++ String.ofList ((Text.quoted t).take maxQuoted)
  | .tooManyDigits count =>
    "Exceeds the limit (" ++ String.ofList (Text.ofNat maxDigits)
      ++ " digits) for integer string conversion: value has " ++ String.ofList (Text.ofNat count)
      ++ " digits; use sys.set_int_max_str_digits() to increase the limit"
  | .notANumber t => "could not convert string to float: " ++ String.ofList (Text.quoted t)
  | .tooManyParts => "int too large to convert to float"
  | .noTimestamp => "'NoneType' object has no attribute 'groupdict'"
  | .timestampInMapping => "expected string or bytes-like object, got 'list'"
  | .timestamp f => f.message

end PageExport.Yaml
