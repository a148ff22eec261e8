import PageExport.Text.Basic
import PageExport.Unicode.DecimalDigit

/-!
Lines of a paragraph that would open another block get a backslash, and spaces at the edges of a
line are written as character references, so that the paragraph stays one paragraph.
-/
namespace PageExport.Markdown

/-- The line ends here or goes on with a space. -/
def atWordEnd : Text → Bool
  | [] => true
  | c :: _ => c = ' '

/-- The indentation of a line and the rest, if the indentation is at most three spaces. -/
def splitIndent (line : Text) : Option (Text × Text) :=
  let indent := line.takeWhile (· = ' ')
  if indent.length ≤ 3 then some (indent, line.dropWhile (· = ' ')) else none

/-- A heading mark, a quote mark, or a bullet at the start. -/
def opensBlock : Text → Bool
  | [] => false
  | c :: rest => c = '#' || c = '>' || ((c = '-' || c = '+') && atWordEnd rest)

/-- The digits and the rest at an ordered list mark. -/
def splitOrdinal (t : Text) : Option (Text × Text) :=
  let digits := t.takeWhile Unicode.isDecimalDigit
  match t.dropWhile Unicode.isDecimalDigit with
  | c :: rest =>
    if 1 ≤ digits.length && digits.length ≤ 9 && (c = '.' || c = ')') && atWordEnd rest then
      some (digits, c :: rest)
    else none
  | [] => none

/-- A line of equals signs, or of at least two dashes, and blanks after them. -/
def isUnderline (t : Text) : Bool :=
  match t with
  | [] => false
  | c :: _ =>
    let run := t.takeWhile (· = c)
    (c = '=' || (c = '-' && 2 ≤ run.length))
      && (t.dropWhile (· = c)).all fun d => d = ' ' || d = '\t'

def escapeBlockStart (line : Text) : Text :=
  match splitIndent line with
  | some (indent, rest) => if opensBlock rest then indent ++ '\\' :: rest else line
  | none => line

def escapeOrdinal (line : Text) : Text :=
  match splitIndent line with
  | some (indent, rest) =>
    match splitOrdinal rest with
    | some (digits, rest) => indent ++ digits ++ '\\' :: rest
    | none => line
  | none => line

def escapeUnderline (line : Text) : Text :=
  match splitIndent line with
  | some (indent, rest) => if isUnderline rest then indent ++ '\\' :: rest else line
  | none => line

def encodedSpace : Text := ['&', '#', 'x', '2', '0', ';']

def encodeFirst : Text → Text
  | ' ' :: rest => encodedSpace ++ rest
  | line => line

def encodeLast (line : Text) : Text :=
  if line.getLast? = some ' ' then line.dropLast ++ encodedSpace else line

/-- A line as it stands in a paragraph. -/
def guardLine (line : Text) : Text :=
  encodeLast (encodeFirst (escapeUnderline (escapeOrdinal (escapeBlockStart line))))

/-- The text of a paragraph or heading from its rendered content. -/
def guardLines (t : Text) : Text := Text.unlines (t.lines.map guardLine)

end PageExport.Markdown
