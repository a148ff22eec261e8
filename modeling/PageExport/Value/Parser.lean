import PageExport.Number.Decimal
import PageExport.Unicode.Surrogate
import PageExport.Value.Basic

/-!
Reading a value from JSON text. A refusal tells what is wrong and how much of the text was left,
from which line, column and offset follow. The words `NaN`, `Infinity` and `-Infinity` count as
numbers; of members with the same key the last one stays.
-/
namespace PageExport

inductive JsonFault where
  | value
  | propertyName
  | colon
  | comma
  | extraData
  | controlCharacter
  | escape
  | unicodeEscape
  | unterminatedString
  | byteOrderMark
  | integerTooLong
  | tooDeep
  deriving DecidableEq, Repr

def JsonFault.message : JsonFault → String
  | .value => "Expecting value"
  | .propertyName => "Expecting property name enclosed in double quotes"
  | .colon => "Expecting ':' delimiter"
  | .comma => "Expecting ',' delimiter"
  | .extraData => "Extra data"
  | .controlCharacter => "Invalid control character at"
  | .escape => "Invalid \\escape"
  | .unicodeEscape => "Invalid \\uXXXX escape"
  | .unterminatedString => "Unterminated string starting at"
  | .byteOrderMark => "Unexpected UTF-8 BOM (decode using utf-8-sig)"
  | .integerTooLong => "Exceeds the limit for integer string conversion"
  | .tooDeep => "Exceeds the limit for nested collections"

/-- A refusal: the fault and the number of characters from it to the end. -/
structure JsonRefusal where
  fault : JsonFault
  left : Nat
  deriving DecidableEq, Repr

/-- The place of a refusal in the text: line and column from one, offset from zero. -/
def JsonRefusal.place (r : JsonRefusal) (t : Text) : Nat × Nat × Nat :=
  let before := t.take (t.length - r.left)
  (before.count '\n' + 1, (before.reverse.takeWhile (· ≠ '\n')).length + 1, before.length)

def JsonRefusal.message (r : JsonRefusal) (t : Text) : String :=
  let (line, column, offset) := r.place t
  s!"{r.fault.message}: line {line} column {column} (char {offset})"

namespace JsonText

def refuse {α : Type} (fault : JsonFault) (rest : Text) : Except JsonRefusal α :=
  .error ⟨fault, rest.length⟩

def isSpace (c : Char) : Bool := c = ' ' || c = '\t' || c = '\n' || c = '\r'

def skipSpace (t : Text) : Text := t.dropWhile isSpace

def hexValue? (c : Char) : Option Nat :=
  if c.isDigit then some (c.toNat - '0'.toNat)
  else if 'a' ≤ c && c ≤ 'f' then some (c.toNat - 'a'.toNat + 10)
  else if 'A' ≤ c && c ≤ 'F' then some (c.toNat - 'A'.toNat + 10)
  else none

/-- Four hexadecimal digits that another character follows. -/
def readHex4 : Text → Option (Nat × Text)
  | a :: b :: c :: d :: e :: rest => do
    let a ← hexValue? a
    let b ← hexValue? b
    let c ← hexValue? c
    let d ← hexValue? d
    some (((a * 16 + b) * 16 + c) * 16 + d, e :: rest)
  | _ => none

/-- The rest of a `\u` escape, after the `u`: a character, or two halves of a pair. -/
def readUnicode (t : Text) : Except JsonRefusal (Char × Text) :=
  match readHex4 t with
  | none => .error ⟨.unicodeEscape, t.length + 1⟩
  | some (high, rest) =>
    match rest with
    | '\\' :: 'u' :: rest' =>
      if Unicode.isHighSurrogate high && !(rest'.drop 4).isEmpty then
        match readHex4 rest' with
        | none => .error ⟨.unicodeEscape, rest'.length + 1⟩
        | some (low, rest'') =>
          if Unicode.isLowSurrogate low then
            .ok (Unicode.charOf (Unicode.joinSurrogates high low), rest'')
          else .ok (Unicode.charOf high, rest)
      else .ok (Unicode.charOf high, rest)
    | _ => .ok (Unicode.charOf high, rest)

/-- The character that a backslash and one letter stand for. -/
def simpleEscape? : Char → Option Char
  | '"' => some '"'
  | '\\' => some '\\'
  | '/' => some '/'
  | 'b' => some '\x08'
  | 'f' => some '\x0c'
  | 'n' => some '\n'
  | 'r' => some '\r'
  | 't' => some '\t'
  | _ => none

/-- The rest of a string after its opening quote; `start` is the text from that quote on. The
characters read so far are in `done`, the last one first; at most `fuel` further ones are read. -/
def readString (start done : Text) : Nat → Text → Except JsonRefusal (String × Text)
  | 0, t => refuse .value t
  | _ + 1, [] => refuse .unterminatedString start
  | fuel + 1, c :: t =>
    if c = '"' then .ok (String.ofList done.reverse, t)
    else if c = '\\' then
      match t with
      | [] => refuse .unterminatedString start
      | 'u' :: t' => do
        let (d, rest) ← readUnicode t'
        readString start (d :: done) fuel rest
      | e :: t' =>
        match simpleEscape? e with
        | some d => readString start (d :: done) fuel t'
        | none => .error ⟨.escape, t.length + 1⟩
    else if c.toNat < 0x20 then refuse .controlCharacter (c :: t)
    else readString start (c :: done) fuel t

/-- Whole numbers have at most so many digits. -/
def maxDigits : Nat := 4300

/-- Collections are nested at most so deep. -/
def maxDepth : Nat := 990

/-- The exponent part of a number, if a digit follows its mark and sign. -/
def splitExponent : Text → Text × Text
  | c :: t =>
    if c = 'e' || c = 'E' then
      let (sign, ds) := match t with
        | '-' :: r => (['-'], r)
        | '+' :: r => (['+'], r)
        | r => ([], r)
      let digits := ds.takeWhile Char.isDigit
      if digits.isEmpty then ([], c :: t)
      else (c :: sign ++ digits, ds.dropWhile Char.isDigit)
    else ([], c :: t)
  | [] => ([], [])

/-- The fraction part of a number, if a digit follows its point. -/
def splitFraction : Text → Text × Text
  | '.' :: t =>
    let digits := t.takeWhile Char.isDigit
    if digits.isEmpty then ([], '.' :: t) else ('.' :: digits, t.dropWhile Char.isDigit)
  | t => ([], t)

/-- A number; `whole` is the text from its first character on. -/
def readNumber (whole : Text) : Except JsonRefusal (Value × Text) :=
  let (negative, t) := match whole with
    | '-' :: t => (true, t)
    | t => (false, t)
  let digits := match t with
    | '0' :: _ => ['0']
    | t => t.takeWhile Char.isDigit
  if digits.isEmpty then refuse .value whole
  else
    let (fraction, rest) := splitFraction (t.drop digits.length)
    let (exponent, rest) := splitExponent rest
    if fraction.isEmpty && exponent.isEmpty then
      if maxDigits < digits.length then refuse .integerTooLong whole
      else
        let n : Int := Binary64.digitsValue digits
        .ok (.int (if negative then -n else n), rest)
    else
      match Binary64.readMagnitude negative (digits ++ fraction ++ exponent) with
      | some x => .ok (.float x, rest)
      | none => refuse .value whole

/-- The values that are words. -/
def words : List (Text × Value) := [
  ("null".toList, .null), ("true".toList, .bool true), ("false".toList, .bool false),
  ("NaN".toList, .float .nan), ("Infinity".toList, .float (.infinite false)),
  ("-Infinity".toList, .float (.infinite true))]

def readWord? (t : Text) : Option (Value × Text) :=
  words.findSome? fun (word, v) => if word.isPrefixOf t then some (v, t.drop word.length) else none

mutual

/-- A value at the start of a text of at most `size` characters, with at most `depth` collections one
inside the other. Every level of nesting takes two units of fuel, one of them for the item that it
is. -/
def readValue (size depth fuel : Nat) (t : Text) : Except JsonRefusal (Value × Text) :=
  match fuel, t with
  | _, [] => refuse .value []
  | 0, t => refuse .value t
  | _ + 1, '"' :: rest => do
    let (s, rest) ← readString t [] size rest
    .ok (.string s, rest)
  | fuel + 1, '[' :: rest =>
    if depth = 0 then refuse .tooDeep t
    else
      match skipSpace rest with
      | ']' :: rest => .ok (.array [], rest)
      | rest => do
        let (vs, rest) ← readItems size (depth - 1) fuel [] rest
        .ok (.array vs, rest)
  | fuel + 1, '\x7b' :: rest =>
    if depth = 0 then refuse .tooDeep t
    else
      match skipSpace rest with
      | '\x7d' :: rest => .ok (.object [], rest)
      | rest => do
        let (ms, rest) ← readMembers size (depth - 1) fuel [] rest
        .ok (.object ms, rest)
  | _ + 1, t =>
    match readWord? t with
    | some r => .ok r
    | none => readNumber t

/-- The items of an array from the next one on, to its closing bracket. -/
def readItems (size depth fuel : Nat) (done : List Value) (t : Text) :
    Except JsonRefusal (List Value × Text) :=
  match fuel with
  | 0 => refuse .value t
  | fuel + 1 => do
    let (v, rest) ← readValue size depth fuel t
    match skipSpace rest with
    | ']' :: rest => .ok ((v :: done).reverse, rest)
    | ',' :: rest => readItems size depth fuel (v :: done) (skipSpace rest)
    | rest => refuse .comma rest

/-- The members of an object from the next one on, to its closing brace. -/
def readMembers (size depth fuel : Nat) (done : Members) (t : Text) :
    Except JsonRefusal (Members × Text) :=
  match fuel, t with
  | 0, t => refuse .value t
  | fuel + 1, '"' :: rest => do
    let (key, rest) ← readString t [] size rest
    match skipSpace rest with
    | ':' :: rest => do
      let (v, rest) ← readValue size depth fuel (skipSpace rest)
      let done := done.insert key v
      match skipSpace rest with
      | '\x7d' :: rest => .ok (done, rest)
      | ',' :: rest => readMembers size depth fuel done (skipSpace rest)
      | rest => refuse .comma rest
    | rest => refuse .colon rest
  | _ + 1, t => refuse .propertyName t

end

end JsonText

open JsonText in
/-- Reads a text that holds one value and nothing else but space. -/
def Value.parse (t : Text) : Except JsonRefusal Value :=
  match t with
  | '\uFEFF' :: _ => refuse .byteOrderMark t
  | _ => do
    let size := t.length
    let (v, rest) ← readValue (size + 1) maxDepth (2 * size + 2) (skipSpace t)
    match skipSpace rest with
    | [] => .ok v
    | rest => refuse .extraData rest

end PageExport
