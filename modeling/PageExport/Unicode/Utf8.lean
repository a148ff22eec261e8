import PageExport.Text.Quoted

/-!
What keeps bytes from being a text in UTF-8: the first place where a character cannot be read, and
why.
-/
namespace PageExport.Utf8

inductive Cause where
  | start | continuation | endOfData
  deriving DecidableEq, Repr

/-- The unreadable bytes: `length` of them from `position` on, of which the first is `byte`. -/
structure Fault where
  cause : Cause
  position : Nat
  length : Nat
  byte : Nat
  deriving DecidableEq, Repr

def Cause.description : Cause → String
  | .start => "invalid start byte"
  | .continuation => "invalid continuation byte"
  | .endOfData => "unexpected end of data"

def Fault.message (f : Fault) : String :=
  let place := if f.length = 1 then
      "byte 0x" ++ String.ofList (Text.hex 2 f.byte) ++ " in position "
        ++ String.ofList (Text.ofNat f.position)
    else
      "bytes in position " ++ String.ofList (Text.ofNat f.position) ++ "-"
        ++ String.ofList (Text.ofNat (f.position + f.length - 1))
  "'utf-8' codec can't decode " ++ place ++ ": " ++ f.cause.description

/-- The number of bytes after a first byte, unless no character starts with it. -/
def following? (first : Nat) : Option Nat :=
  if first < 0x80 then some 0
  else if 0xC2 ≤ first && first < 0xE0 then some 1
  else if 0xE0 ≤ first && first < 0xF0 then some 2
  else if 0xF0 ≤ first && first < 0xF5 then some 3
  else none

/-- The second bytes that may follow a first byte: neither overlong forms nor surrogates nor code
points beyond the last one. -/
def secondRange (first : Nat) : Nat × Nat :=
  if first = 0xE0 then (0xA0, 0xBF)
  else if first = 0xED then (0x80, 0x9F)
  else if first = 0xF0 then (0x90, 0xBF)
  else if first = 0xF4 then (0x80, 0x8F)
  else (0x80, 0xBF)

/-- Why the next `count` bytes do not continue a character, with the number of those that do. -/
def continuationFault? (range : Nat × Nat) (done : Nat) : Nat → List UInt8 → Option (Cause × Nat)
  | 0, _ => none
  | _ + 1, [] => some (.endOfData, done)
  | count + 1, b :: bs =>
    if range.1 ≤ b.toNat && b.toNat ≤ range.2 then
      continuationFault? (0x80, 0xBF) (done + 1) count bs
    else some (.continuation, done)

/-- Skips `skip` bytes of the character before, then looks for the first fault. -/
def faultFrom? (position skip : Nat) : List UInt8 → Option Fault
  | [] => none
  | b :: bs =>
    match skip with
    | skip + 1 => faultFrom? (position + 1) skip bs
    | 0 =>
      match following? b.toNat with
      | none => some ⟨.start, position, 1, b.toNat⟩
      | some count =>
        match continuationFault? (secondRange b.toNat) 0 count bs with
        | some (cause, done) => some ⟨cause, position, done + 1, b.toNat⟩
        | none => faultFrom? (position + 1) count bs

def fault? (data : ByteArray) : Option Fault := faultFrom? 0 0 data.toList

end PageExport.Utf8
