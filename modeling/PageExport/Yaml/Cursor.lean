import PageExport.Text.Basic

/-!
Places in the text of a document. Lines end with a line feed, a next-line character, or one of the
separators of lines and paragraphs; a first line break inside a scalar folds to a space.
-/
namespace PageExport.Yaml

/-- A place in a text: what is left of it, the number of characters before, line and column. -/
structure Cursor where
  rest : Text
  index : Nat := 0
  line : Nat := 0
  column : Nat := 0

def isBreak (c : Char) : Bool := c = '\n' || c = '\u0085' || c = '\u2028' || c = '\u2029'

def isGap (c : Char) : Bool := c = ' ' || c = '\t'

/-- A line ends here, or the text. -/
def atLineEnd : Text → Bool
  | [] => true
  | c :: _ => isBreak c

/-- A space or the end of a line comes next. -/
def atSpace : Text → Bool
  | ' ' :: _ => true
  | t => atLineEnd t

/-- A space, a tab or the end of a line comes next. -/
def atGap : Text → Bool
  | '\t' :: _ => true
  | t => atSpace t

/-- A line starts here with the mark that starts or ends a document. -/
def atDocumentMark (t : Text) : Bool :=
  (t.take 3 = ['-', '-', '-'] || t.take 3 = ['.', '.', '.']) && atGap (t.drop 3)

namespace Cursor

/-- Goes past one character. A byte order mark takes no column. -/
def next (p : Cursor) : Cursor :=
  match p.rest with
  | [] => p
  | c :: t =>
    if isBreak c then ⟨t, p.index + 1, p.line + 1, 0⟩
    else ⟨t, p.index + 1, p.line, if c = '\uFEFF' then p.column else p.column + 1⟩

def skip (p : Cursor) : Nat → Cursor
  | 0 => p
  | n + 1 => p.next.skip n

/-- The characters from here on that satisfy a test, and the place after them. -/
def span (p : Cursor) (test : Char → Bool) : Text × Cursor :=
  let s := p.rest.takeWhile test
  (s, p.skip s.length)

def skipSpaces (p : Cursor) : Cursor := (p.span (· = ' ')).2

def skipLine (p : Cursor) : Cursor := (p.span fun c => !isBreak c).2

/-- The character that a line break counts as, and the place after it. -/
def takeBreak? (p : Cursor) : Option (Char × Cursor) :=
  match p.rest with
  | c :: _ => if isBreak c then some (if c = '\u0085' then '\n' else c, p.next) else none
  | [] => none

/-- Goes past a comment, if there is one, and past the end of the line, which must come next. -/
def skipRestOfLine? (p : Cursor) : Option Cursor :=
  let p := p.skipSpaces
  let p := if p.rest.head? = some '#' then p.skipLine else p
  if atLineEnd p.rest then some p.next else none

end Cursor

/-- What a line break and the empty lines after it stand for inside a scalar. -/
def fold (first : Char) (further : Text) : Text :=
  if first ≠ '\n' then first :: further
  else if further.isEmpty then [' '] else further

end PageExport.Yaml
