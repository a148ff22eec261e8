/-!
Binary floating-point numbers of 64 bits, as mantissa and exponent. Every finite value comes from
`ofRatio`, which rounds a quotient to the nearest value and a tie to the even mantissa.
-/
namespace PageExport

/-- `finite negative m e` stands for `m * 2 ^ e`, with `m < 2 ^ 53` and `-1074 ≤ e ≤ 971`. -/
inductive Binary64 where
  | nan
  | infinite (negative : Bool)
  | finite (negative : Bool) (mantissa : Nat) (exponent : Int)
  deriving DecidableEq, Repr, Inhabited

/-- A quotient rounded to the nearest natural number, a half to the even neighbour. -/
def divHalfEven (num den : Nat) : Nat :=
  let q := num / den
  let r := num % den
  if den < 2 * r || (2 * r == den && q % 2 == 1) then q + 1 else q

namespace Binary64

/-- Mantissas have at most 53 bits. -/
def mantissaLimit : Nat := 0x20000000000000

def minExponent : Int := -1074

def maxExponent : Int := 971

/-- The quotient `num / (den * 2 ^ e)` as a pair of naturals. -/
def scale (num den : Nat) (e : Int) : Nat × Nat :=
  if 0 ≤ e then (num, den <<< e.toNat) else (num <<< (-e).toNat, den)

/-- The exponent at which `num / den` has a mantissa of 53 bits, or the least exponent. -/
def exponentFor (num den : Nat) : Int :=
  let guess := max (num.log2 - den.log2 - 53 : Int) minExponent
  let (n, d) := scale num den guess
  if n / d < mantissaLimit then guess else guess + 1

/-- The value nearest to `num / den`; beyond the largest finite value it is infinite. -/
def ofRatio (negative : Bool) (num den : Nat) : Binary64 :=
  if num = 0 then .finite negative 0 minExponent
  else
    let e := exponentFor num den
    let (n, d) := scale num den e
    let m := divHalfEven n d
    let (m, e) := if m = mantissaLimit then (mantissaLimit / 2, e + 1) else (m, e)
    if maxExponent < e then .infinite negative else .finite negative m e

/-- The value nearest to `digits * 10 ^ exponent`. Exponents far beyond the range are decided
without computing the power. -/
def ofDecimal (negative : Bool) (digits : Nat) (exponent : Int) : Binary64 :=
  if digits = 0 || exponent < -(400 + digits.log2 : Int) then .finite negative 0 minExponent
  else if 400 < exponent then .infinite negative
  else if 0 ≤ exponent then ofRatio negative (digits * Nat.pow 10 exponent.toNat) 1
  else ofRatio negative digits (Nat.pow 10 (-exponent).toNat)

/-- The value nearest to an integer, unless the integer is beyond the finite values. -/
def ofInt? (i : Int) : Option Binary64 :=
  match ofRatio (i < 0) i.natAbs 1 with
  | .finite s m e => some (.finite s m e)
  | _ => none

def ofBool (b : Bool) : Binary64 := ofRatio false b.toNat 1

def isZero : Binary64 → Bool
  | .finite _ m _ => m == 0
  | _ => false

/-- The integer that a value is equal to, if there is one. -/
def toInt? : Binary64 → Option Int
  | .finite s m e =>
    let (n, d) := scale m 1 (-e)
    if n % d = 0 then
      let k : Int := (n / d : Nat)
      some (if s then -k else k)
    else none
  | _ => none

/-- The value nearest to `n * 2 ^ e`. -/
def ofScaled (negative : Bool) (n : Nat) (e : Int) : Binary64 :=
  if 0 ≤ e then ofRatio negative (n <<< e.toNat) 1 else ofRatio negative n (1 <<< (-e).toNat)

def negate : Binary64 → Binary64
  | .nan => .nan
  | .infinite s => .infinite !s
  | .finite s m e => .finite (!s) m e

def mul : Binary64 → Binary64 → Binary64
  | .nan, _ | _, .nan => .nan
  | .finite s m e, .finite s' m' e' => ofScaled (s != s') (m * m') (e + e')
  | .infinite s, .infinite s' => .infinite (s != s')
  | .infinite s, .finite s' m _ | .finite s' m _, .infinite s =>
    if m = 0 then .nan else .infinite (s != s')

/-- A sum that cancels is positive zero, unless both parts are negative zeros. -/
def add : Binary64 → Binary64 → Binary64
  | .nan, _ | _, .nan => .nan
  | .infinite s, .infinite s' => if s = s' then .infinite s else .nan
  | .infinite s, _ | _, .infinite s => .infinite s
  | .finite s m e, .finite s' m' e' =>
    let least := min e e'
    let part (s : Bool) (m : Nat) (e : Int) : Int :=
      let n : Int := (m <<< (e - least).toNat : Nat)
      if s then -n else n
    let sum := part s m e + part s' m' e'
    if sum = 0 then .finite (s && s') 0 minExponent else ofScaled (sum < 0) sum.natAbs least

end Binary64
end PageExport
