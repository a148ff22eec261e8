import PageExport.Unicode.Printable
import PageExport.Unicode.Surrogate

/-!
The quoted form of a text: single quotes, or double quotes around a text with single and no
double quotes; what is not printable is written by its code point.
-/
namespace PageExport.Text

/-- The last `width` hexadecimal digits of `n`. -/
def hex (width n : Nat) : Text :=
  let ds := Nat.toDigits 16 n
  List.replicate (width - ds.length) '0' ++ ds

def quoteMark (t : Text) : Char :=
  if t.contains '\'' && !t.contains '"' then '"' else '\''

/-- A character by its code point. -/
def codePoint (c : Char) : Text :=
  let n := Unicode.codePointOf c
  if n < 0x100 then ['\\', 'x'] ++ hex 2 n
  else if n < 0x10000 then ['\\', 'u'] ++ hex 4 n
  else ['\\', 'U'] ++ hex 8 n

/-- A character as it stands between the marks `mark`. -/
def quoteChar (mark c : Char) : Text :=
  if c = mark || c = '\\' then ['\\', c]
  else if c = '\n' then ['\\', 'n']
  else if c = '\r' then ['\\', 'r']
  else if c = '\t' then ['\\', 't']
  else if Unicode.isPrintable c then [c]
  else codePoint c

def quoted (t : Text) : Text :=
  let mark := quoteMark t
  mark :: t.flatMap (quoteChar mark) ++ [mark]

/-- The text with every character beyond ASCII written by its code point. -/
def asciiOnly (t : Text) : Text := t.flatMap fun c => if c.toNat < 0x80 then [c] else codePoint c

end PageExport.Text

namespace PageExport

def quotedName (s : String) : String := String.ofList (Text.quoted s.toList)

end PageExport
