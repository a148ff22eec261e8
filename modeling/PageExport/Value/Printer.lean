import PageExport.Value.Basic

/-!
JSON text of a value: on one line, or with members and items on lines of their own, indented by
two spaces a level. Characters beyond ASCII stand for themselves.
-/
namespace PageExport.JsonText

def escapeChar (c : Char) : Text :=
  if c = '"' || c = '\\' then ['\\', c]
  else if c = '\n' then ['\\', 'n']
  else if c = '\r' then ['\\', 'r']
  else if c = '\t' then ['\\', 't']
  else if c = '\x08' then ['\\', 'b']
  else if c = '\x0c' then ['\\', 'f']
  else if c.toNat < 0x20 then ['\\', 'u'] ++ Text.hex 4 c.toNat
  else [c]

def stringText (s : String) : Text := '"' :: s.toList.flatMap escapeChar ++ ['"']

/-- Numbers that are not finite are written as words. -/
def floatText : Binary64 → Text
  | .nan => ['N', 'a', 'N']
  | .infinite s => (if s then ['-'] else []) ++ "Infinity".toList
  | x => x.text

/-- The line break and indentation at a level, if the text has several lines. -/
def newline (indent : Bool) (level : Nat) : Text :=
  if indent then '\n' :: List.replicate (2 * level) ' ' else []

/-- Parts between brackets, one a line if the text has several lines. -/
def enclose (indent : Bool) (level : Nat) (opening closing : Char) (parts : List Text) : Text :=
  if parts.isEmpty then [opening, closing]
  else
    let sep := if indent then ',' :: newline indent (level + 1) else [',', ' ']
    opening :: newline indent (level + 1) ++ Text.join sep parts ++ newline indent level ++ [closing]

mutual

/-- The text of a value that starts at a level of indentation. -/
def print (indent : Bool) (level : Nat) : Value → Text
  | .null => "null".toList
  | .bool b => if b then "true".toList else "false".toList
  | .int i => Text.ofInt i
  | .float x => floatText x
  | .string s => stringText s
  | .array items => enclose indent level '[' ']' (printItems indent (level + 1) items)
  | .object members => enclose indent level '\x7b' '\x7d' (printMembers indent (level + 1) members)

def printItems (indent : Bool) (level : Nat) : List Value → List Text
  | [] => []
  | v :: vs => print indent level v :: printItems indent level vs

def printMembers (indent : Bool) (level : Nat) : List (String × Value) → List Text
  | [] => []
  | (k, v) :: ms =>
    (stringText k ++ [':', ' '] ++ print indent level v) :: printMembers indent level ms

end

end PageExport.JsonText

namespace PageExport.Value

def line (v : Value) : String := String.ofList (JsonText.print false 0 v)

def pretty (v : Value) : String := String.ofList (JsonText.print true 0 v)

end PageExport.Value
