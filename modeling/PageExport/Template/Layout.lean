import PageExport.Text.Basic
import PageExport.Unicode.DecimalDigit

/-!
Layouts of a text in a template: how many characters of it are kept, and how it is padded to a
width.
-/
namespace PageExport.Template

inductive Side where
  | left | right | center
  deriving DecidableEq, Repr, Inhabited

/-- A text is cut to at most `limit` characters and padded with `fill` to at least `width`. -/
structure Layout where
  fill : Char := ' '
  side : Side := .left
  width : Nat := 0
  limit : Option Nat := none
  deriving DecidableEq, Repr, Inhabited

/-- The largest number that a template may write, of 63 bits. -/
def maxNumber : Nat := 0x7FFFFFFFFFFFFFFF

/-- The number that decimal digits of any script write. -/
def digitsValue (ds : Text) : Nat :=
  ds.foldl (fun n d => 10 * n + ((Unicode.digitValue? d).getD 0)) 0

/-- The number at the start and the text after it; without digits the number is absent. -/
def readNumber (t : Text) : Option (Option Nat × Text) :=
  let ds := t.takeWhile Unicode.isDecimalDigit
  let rest := t.dropWhile Unicode.isDecimalDigit
  if ds.isEmpty then some (none, rest)
  else if digitsValue ds ≤ maxNumber then some (some (digitsValue ds), rest)
  else none

def Side.ofChar? : Char → Option Side
  | '<' => some .left
  | '>' => some .right
  | '^' => some .center
  | _ => none

/-- The side that a text is aligned to, with the fill character before it, if they are written. -/
def readSide : Text → Option Char × Option Side × Text
  | c :: d :: t =>
    match Side.ofChar? d, Side.ofChar? c with
    | some side, _ => (some c, some side, t)
    | none, some side => (none, some side, d :: t)
    | none, none => (none, none, c :: d :: t)
  | [c] =>
    match Side.ofChar? c with
    | some side => (none, some side, [])
    | none => (none, none, [c])
  | [] => (none, none, [])

/-- A zero before the width is the fill character unless another one is written. -/
def readZero (fill : Option Char) : Text → Option Char × Text
  | '0' :: t => if fill.isNone then (some '0', t) else (fill, '0' :: t)
  | t => (fill, t)

def readLimit : Text → Option (Option Nat × Text)
  | '.' :: t => do
    let (n, rest) ← readNumber t
    let n ← n
    return (some n, rest)
  | t => some (none, t)

/-- Reads a layout; the letter for texts may end it. -/
def Layout.read (t : Text) : Option Layout := do
  let (fill, side, t) := readSide t
  let (fill, t) := readZero fill t
  let (width, t) ← readNumber t
  let (limit, t) ← readLimit t
  if t = [] || t = ['s'] then
    return { fill := fill.getD ' ', side := side.getD .left, width := width.getD 0, limit := limit }
  else none

/-- How much of the padding goes before the text. -/
def Side.before (padding : Nat) : Side → Nat
  | .left => 0
  | .right => padding
  | .center => padding / 2

def Layout.apply (l : Layout) (t : Text) : Text :=
  let t := match l.limit with
    | some n => t.take n
    | none => t
  let padding := l.width - t.length
  let before := l.side.before padding
  List.replicate before l.fill ++ t ++ List.replicate (padding - before) l.fill

end PageExport.Template
