import PageExport.Number.Binary64
import PageExport.Text.Blank
import PageExport.Unicode.DecimalDigit

/-!
Reading numbers from text: an optional sign, digits with an optional point, an optional exponent,
or one of the words for infinity and not-a-number in any case.
-/
namespace PageExport.Binary64

/-- The number that a list of ASCII digits writes. -/
def digitsValue (ds : Text) : Nat :=
  ds.foldl (fun n d => 10 * n + (d.toNat - 48)) 0

def splitSign : Text → Bool × Text
  | '-' :: t => (true, t)
  | '+' :: t => (false, t)
  | t => (false, t)

def readExponent : Text → Option Int
  | [] => some 0
  | c :: t =>
    if c = 'e' || c = 'E' then
      let (s, ds) := splitSign t
      if !ds.isEmpty && ds.all Char.isDigit then
        some (if s then -(digitsValue ds : Int) else digitsValue ds)
      else none
    else none

/-- A number without sign. -/
def readMagnitude (negative : Bool) (t : Text) : Option Binary64 :=
  let whole := t.takeWhile Char.isDigit
  let rest := t.dropWhile Char.isDigit
  let (part, rest) := match rest with
    | '.' :: r => (r.takeWhile Char.isDigit, r.dropWhile Char.isDigit)
    | r => ([], r)
  if whole.isEmpty && part.isEmpty then none
  else (readExponent rest).map fun x =>
    ofDecimal negative (digitsValue (whole ++ part)) (x - part.length)

def readWord (negative : Bool) (t : Text) : Option Binary64 :=
  let word := String.ofList (t.map Char.toLower)
  if word = "inf" || word = "infinity" then some (.infinite negative)
  else if word = "nan" then some .nan
  else none

/-- Removes the underscores between digits; any other underscore makes the text unreadable. -/
def dropUnderscores (afterDigit : Bool) : Text → Option Text
  | [] => some []
  | c :: t =>
    if c = '_' then
      match t with
      | d :: _ => if afterDigit && d.isDigit then dropUnderscores false t else none
      | [] => none
    else (dropUnderscores c.isDigit t).map (c :: ·)

/-- Reads a number that fills the whole text and has no underscores. -/
def read (t : Text) : Option Binary64 :=
  let (s, t) := splitSign t
  (readMagnitude s t).or (readWord s t)

/-- The text without its underscores, if each of them stands alone between other characters. -/
def dropLoneUnderscores (t : Text) : Option Text :=
  if (Text.split '_' t).all (!·.isEmpty) then some (t.filter (· ≠ '_')) else none

/-- Characters that a number in ASCII may have around it. -/
def isPlainBlank (c : Char) : Bool := c = ' ' || (0x9 ≤ c.toNat && c.toNat ≤ 0xD)

def stripPlain (t : Text) : Text :=
  ((t.dropWhile isPlainBlank).reverse.dropWhile isPlainBlank).reverse

/-- The form in ASCII that digits of any script and blanks have. -/
def asciiForm (c : Char) : Char :=
  if c.toNat < 0x7F then c
  else match Unicode.digitValue? c with
    | some d => Char.ofNat (48 + d)
    | none => if isBlank c then ' ' else c

/-- Reads a number with blanks around it, with decimal digits of any script and underscores between
them. -/
def readLoose (t : Text) : Option Binary64 := do
  read (← dropUnderscores false (stripPlain (t.map asciiForm)))

end PageExport.Binary64
