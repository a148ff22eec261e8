import PageExport.Number.Binary64
import PageExport.Text.Basic

/-!
Dates of instants: milliseconds since the start of 1970, rounded to microseconds, as a day of the
calendar in universal time.
-/
namespace PageExport

structure Date where
  year : Int
  month : Nat
  day : Nat
  deriving DecidableEq, Repr

namespace Date

/-- The date that lies a number of days after the first day of 1970. Years are counted from March, in
cycles of 400 years. -/
def ofDays (days : Int) : Date :=
  let z := days + 719468
  let cycle := z.fdiv 146097
  let dayOfCycle := (z - cycle * 146097).toNat
  let yearOfCycle :=
    (dayOfCycle - dayOfCycle / 1460 + dayOfCycle / 36524 - dayOfCycle / 146096) / 365
  let dayOfYear := dayOfCycle - (365 * yearOfCycle + yearOfCycle / 4 - yearOfCycle / 100)
  let marchMonth := (5 * dayOfYear + 2) / 153
  let month := if marchMonth < 10 then marchMonth + 3 else marchMonth - 9
  { year := yearOfCycle + cycle * 400 + (if month ≤ 2 then 1 else 0)
    month := month
    day := dayOfYear - (153 * marchMonth + 2) / 5 + 1 }

def twoDigits (n : Nat) : Text := if n < 10 then '0' :: Text.ofNat n else Text.ofNat n

/-- Year, month and day; the year has no leading zeros. -/
def text (d : Date) : Text :=
  Text.ofInt d.year ++ '-' :: twoDigits d.month ++ '-' :: twoDigits d.day

end Date

/-- The second that an instant falls in, once it is rounded to microseconds. -/
def wholeSeconds? : Binary64 → Option Int
  | .finite negative m e =>
    let (n, d) := Binary64.scale m 1 (-e)
    let whole : Int := (n / d : Nat)
    let micros := match Binary64.ofRatio false (n % d * 1000000) d with
      | .finite _ m e =>
        let (n, d) := Binary64.scale m 1 (-e)
        divHalfEven n d
      | _ => 0
    if negative then some (-whole - if 0 < micros then 1 else 0)
    else some (whole + if 1000000 ≤ micros then 1 else 0)
  | _ => none

/-- A thousandth of a number. -/
def Binary64.thousandth : Binary64 → Binary64
  | .finite negative m e =>
    let (n, d) := scale m 1 (-e)
    ofRatio negative n (d * 1000)
  | x => x

/-- The date of an instant, if it has a year from 1 to 9999. -/
def Date.ofMilliseconds? (x : Binary64) : Option Date := do
  let seconds ← wholeSeconds? x.thousandth
  let date := ofDays (seconds.fdiv 86400)
  if 1 ≤ date.year && date.year ≤ 9999 then some date else none

end PageExport
