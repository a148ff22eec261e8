import PageExport.Text.Basic

/-!
Timestamps: a day, or a moment of a day with an offset from universal time.
-/
namespace PageExport.Yaml

/-- A moment of a day. The offset from universal time is in minutes. -/
structure Clock where
  hour : Nat
  minute : Nat
  second : Nat
  offset : Option Int := none
  deriving DecidableEq, Repr

structure Timestamp where
  year : Nat
  month : Nat
  day : Nat
  clock : Option Clock := none
  deriving DecidableEq, Repr

/-- Why a timestamp means no moment. -/
inductive TimestampFault where
  | year (year : Nat) | month | day | hour | minute | second
  | offset (minutes : Int)
  deriving DecidableEq, Repr

namespace Timestamp

/-- The number that at least `least` and at most `most` digits write, and the text after them. -/
def takeNumber (least most : Nat) (t : Text) : Option (Nat × Text) :=
  let ds := (t.take most).takeWhile Char.isDigit
  if ds.length < least then none
  else some (ds.foldl (fun n d => 10 * n + (d.toNat - 48)) 0, t.drop ds.length)

def takeAfter (mark : Char) (least most : Nat) : Text → Option (Nat × Text)
  | c :: t => if c = mark then takeNumber least most t else none
  | [] => none

def isGap (c : Char) : Bool := c = ' ' || c = '\t'

/-- Goes past what separates the day from the moment. -/
def skipSeparator? : Text → Option Text
  | 'T' :: t | 't' :: t => some t
  | c :: t => if isGap c then some (t.dropWhile isGap) else none
  | [] => none

/-- An offset that fills the rest of the text, or nothing. -/
def readOffset (t : Text) : Option (Option Int) :=
  match t.dropWhile isGap with
  | [] => if t.isEmpty then some none else none
  | ['Z'] => some (some 0)
  | sign :: rest => do
    if sign ≠ '+' && sign ≠ '-' then failure
    let (hours, rest) ← takeNumber 1 2 rest
    let (minutes, rest) ← if rest.isEmpty then some (0, []) else takeAfter ':' 2 2 rest
    if !rest.isEmpty then failure
    let total : Int := (60 * hours + minutes : Nat)
    return some (if sign = '-' then -total else total)

def readClock (t : Text) : Option Clock := do
  let (hour, t) ← takeNumber 1 2 t
  let (minute, t) ← takeAfter ':' 2 2 t
  let (second, t) ← takeAfter ':' 2 2 t
  let t := match t with
    | '.' :: t => t.dropWhile Char.isDigit
    | t => t
  return ⟨hour, minute, second, ← readOffset t⟩

/-- Reads a text that has the form of a timestamp. -/
def read (t : Text) : Option Timestamp := do
  let (year, rest) ← takeNumber 4 4 t
  let (month, rest) ← takeAfter '-' 1 2 rest
  let (day, rest) ← takeAfter '-' 1 2 rest
  if rest.isEmpty then return ⟨year, month, day, none⟩
  else return ⟨year, month, day, some (← readClock (← skipSeparator? rest))⟩

/-- A plain scalar shows a day alone only with two digits for its month and two for itself. -/
def isShownBy (t : Text) : Bool := (read t).any fun s => s.clock.isSome || t.length = 10

def isLeapYear (year : Nat) : Bool := year % 4 = 0 && (year % 100 ≠ 0 || year % 400 = 0)

def daysIn (year month : Nat) : Nat :=
  if month = 2 then (if isLeapYear year then 29 else 28)
  else if [4, 6, 9, 11].contains month then 30 else 31

/-- An offset lies within a day of universal time. -/
def offsetFault? (c : Clock) : Option TimestampFault :=
  match c.offset with
  | some minutes => if 1440 ≤ minutes.natAbs then some (.offset minutes) else none
  | none => none

def dayFault? (t : Timestamp) : Option TimestampFault :=
  if t.year = 0 then some (.year t.year)
  else if t.month = 0 || 12 < t.month then some .month
  else if t.day = 0 || daysIn t.year t.month < t.day then some .day
  else none

def clockFault? (c : Clock) : Option TimestampFault :=
  if 23 < c.hour then some .hour
  else if 59 < c.minute then some .minute
  else if 59 < c.second then some .second
  else none

/-- The first fault of a timestamp: that of its offset, then those from the year down. -/
def fault? (t : Timestamp) : Option TimestampFault :=
  (t.clock.bind offsetFault?).or ((dayFault? t).or (t.clock.bind clockFault?))

end Timestamp

namespace TimestampFault

/-- A duration of some minutes as full days and the seconds beyond them. -/
def durationText (minutes : Int) : String :=
  let days := minutes.fdiv 1440
  let seconds := (minutes - 1440 * days) * 60
  "datetime.timedelta(days=" ++ String.ofList (Text.ofInt days)
    ++ (if seconds = 0 then "" else ", seconds=" ++ String.ofList (Text.ofInt seconds)) ++ ")"

def message : TimestampFault → String
  | .year y => "year " ++ String.ofList (Text.ofNat y) ++ " is out of range"
  | .month => "month must be in 1..12"
  | .day => "day is out of range for month"
  | .hour => "hour must be in 0..23"
  | .minute => "minute must be in 0..59"
  | .second => "second must be in 0..59"
  | .offset minutes =>
    "offset must be a timedelta strictly between -timedelta(hours=24) and timedelta(hours=24), not "
      ++ durationText minutes ++ "."

end TimestampFault
end PageExport.Yaml
