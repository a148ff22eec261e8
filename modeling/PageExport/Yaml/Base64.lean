import PageExport.Text.Basic

/-!
Bytes as texts in base 64. Characters without a meaning are passed over, and what follows the padding is
not looked at.
-/
namespace PageExport.Yaml

def sextet? (c : Char) : Option Nat :=
  if 'A' ≤ c && c ≤ 'Z' then some (c.toNat - 65)
  else if 'a' ≤ c && c ≤ 'z' then some (c.toNat - 71)
  else if '0' ≤ c && c ≤ '9' then some (c.toNat + 4)
  else if c = '+' then some 62
  else if c = '/' then some 63
  else none

/-- Decodes from the next character on, `count` characters into a group of four, of which `rest` is left
over and after which `pads` marks of padding came. -/
def decodeFrom (count rest pads : Nat) : Text → Option (List UInt8)
  | [] => if count = 0 then some [] else none
  | c :: t =>
    if c = '=' then
      if count < 2 then decodeFrom count rest pads t
      else if 4 ≤ count + pads + 1 then some []
      else decodeFrom count rest (pads + 1) t
    else match sextet? c, count with
      | none, _ => decodeFrom count rest pads t
      | some n, 0 => decodeFrom 1 n 0 t
      | some n, 1 => (UInt8.ofNat (rest * 4 + n / 16) :: ·) <$> decodeFrom 2 (n % 16) 0 t
      | some n, 2 => (UInt8.ofNat (rest * 16 + n / 4) :: ·) <$> decodeFrom 3 (n % 4) 0 t
      | some n, _ => (UInt8.ofNat (rest * 64 + n) :: ·) <$> decodeFrom 0 0 0 t

/-- The bytes that a text writes, unless it has characters beyond ASCII or ends within a group. -/
def decodeBase64? (t : Text) : Option (List UInt8) :=
  if t.all fun c => c.toNat < 0x80 then decodeFrom 0 0 0 t else none

example : decodeBase64? "ZGlz\ndA==".toList = some [100, 105, 115, 116] := by decide

end PageExport.Yaml
