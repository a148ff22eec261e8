import PageExport.Number.Binary64
import PageExport.Text.Basic

/-!
The shortest decimal that reads back to a binary floating-point value, and its written form.
A decimal reads back when it lies in the interval of numbers that round to the value; grids of
one, two, … digits are tried in turn, so no shorter decimal lies in the interval.
-/
namespace PageExport.Binary64

/-- The numbers that round to `m * 2 ^ e`: four times the value and the ends, all over `den`,
where `unit` is a quarter of the spacing. -/
structure Rounding where
  value : Nat
  low : Nat
  high : Nat
  den : Nat
  closed : Bool

/-- Just above a power of two the neighbour below is at half the distance. -/
def rounding (m : Nat) (e : Int) : Rounding :=
  let unit := if 2 ≤ e then 1 <<< (e - 2).toNat else 1
  let den := if 2 ≤ e then 1 else 1 <<< (2 - e).toNat
  let below := if m = mantissaLimit / 2 && minExponent < e then 1 else 2
  ⟨4 * m * unit, (4 * m - below) * unit, (4 * m + 2) * unit, den, m % 2 == 0⟩

/-- `num / den` lies in the interval. -/
def Rounding.admits (r : Rounding) (num den : Nat) : Bool :=
  let x := num * r.den
  if r.closed then r.low * den ≤ x && x ≤ r.high * den else r.low * den < x && x < r.high * den

/-- An upper bound of the power of ten that exceeds the value. -/
def Rounding.decimalPoint (r : Rounding) : Int :=
  if r.den ≤ r.value then (Nat.toDigits 10 (r.value / r.den)).length
  else 2 - (Nat.toDigits 10 (r.den / r.value)).length

/-- The grid `10 ^ k`: the nearer of the value's two neighbours that reads back. -/
def Rounding.onGrid (r : Rounding) (k : Int) : Option Nat :=
  let up := if 0 ≤ k then Nat.pow 10 k.toNat else 1
  let down := if 0 ≤ k then 1 else Nat.pow 10 (-k).toNat
  let c := r.value * down / (r.den * up)
  match r.admits (c * up) down, r.admits ((c + 1) * up) down with
  | true, false => some c
  | false, true => some (c + 1)
  | false, false => none
  | true, true =>
    let twice := 2 * r.value * down
    let middle := (2 * c + 1) * up * r.den
    some (if twice < middle || (twice == middle && c % 2 == 0) then c else c + 1)

/-- The first of `count` ever finer grids that has a decimal in the interval. -/
def Rounding.search (r : Rounding) (k : Int) : Nat → Option (Nat × Int)
  | 0 => none
  | count + 1 =>
    match r.onGrid k with
    | some c => some (c, k)
    | none => r.search (k - 1) count

/-- The digits of the shortest decimal and the place of its point: `0.d₁d₂… * 10 ^ point`. -/
def shortest (m : Nat) (e : Int) : Text × Int :=
  let r := rounding m e
  match r.search (r.decimalPoint - 1) 19 with
  | some (c, k) =>
    let ds := Nat.toDigits 10 c
    ((ds.reverse.dropWhile (· = '0')).reverse, ds.length + k)
  | none => ([], 0)

/-- Decimal exponents from here up are written with a mark. -/
def firstLargeExponent : Int := 16

/-- Decimal exponents below this one are written with a mark. -/
def leastPlainExponent : Int := -4

/-- An exponent has a sign and at least two digits. -/
def exponentText (x : Int) : Text :=
  let ds := Nat.toDigits 10 x.natAbs
  'e' :: (if x < 0 then '-' else '+') :: (if ds.length < 2 then '0' :: ds else ds)

/-- Digits laid out around the point; a whole number keeps `.0`. -/
def layout (ds : Text) (point : Int) : Text :=
  let x := point - 1
  if x < leastPlainExponent || firstLargeExponent ≤ x then
    ds.take 1 ++ (if ds.length ≤ 1 then [] else '.' :: ds.drop 1) ++ exponentText x
  else if point ≤ 0 then ['0', '.'] ++ List.replicate (-point).toNat '0' ++ ds
  else if ds.length ≤ point.toNat then
    ds ++ List.replicate (point.toNat - ds.length) '0' ++ ['.', '0']
  else ds.take point.toNat ++ '.' :: ds.drop point.toNat

/-- The written form of a value: the shortest decimal, a sign also on the negative zero. -/
def text : Binary64 → Text
  | .nan => ['n', 'a', 'n']
  | .infinite s => (if s then ['-'] else []) ++ ['i', 'n', 'f']
  | .finite s m e =>
    let body := if m = 0 then ['0', '.', '0'] else layout (shortest m e).1 (shortest m e).2
    (if s then ['-'] else []) ++ body

end PageExport.Binary64
