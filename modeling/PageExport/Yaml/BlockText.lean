import PageExport.Yaml.Cursor
import PageExport.Yaml.Fault

/-!
Scalars of indented lines, after a bar or a greater-than sign. The first keeps its line breaks, the second
folds them between lines that start with no gap.
-/
namespace PageExport.Yaml

/-- What becomes of the line breaks at the end. -/
inductive Chomping where
  | strip | clip | keep
  deriving DecidableEq, Repr

/-- The marks after the sign: how to end, and the indentation if it is given. -/
structure BlockHeader where
  chomping : Chomping := .clip
  indentation : Option Nat := none
  deriving DecidableEq, Repr

def chompingOf? : Char → Option Chomping
  | '+' => some .keep
  | '-' => some .strip
  | _ => none

def indentationOf? (c : Char) : Option Nat :=
  if '1' ≤ c && c ≤ '9' then some (c.toNat - '0'.toNat) else none

def readHeader (p : Cursor) : Except Fault (BlockHeader × Cursor) :=
  let first := p.rest.head?
  let second := (p.rest.drop 1).head?
  let (header, p) : BlockHeader × Cursor :=
    match first.bind chompingOf?, first.bind indentationOf? with
    | some c, _ =>
      match second.bind indentationOf? with
      | some n => (⟨c, some n⟩, p.skip 2)
      | none => (⟨c, none⟩, p.next)
    | none, some n =>
      match second.bind chompingOf? with
      | some c => (⟨c, some n⟩, p.skip 2)
      | none => (⟨.clip, some n⟩, p.next)
    | none, none => ({}, p)
  if atSpace p.rest then
    match p.skipRestOfLine? with
    | some p => .ok (header, p)
    | none => .error .malformed
  else .error .malformed

/-- Goes past spaces, at most to the column `indent`. -/
def Cursor.skipIndent (p : Cursor) (indent : Nat) : Cursor :=
  p.skip (min (indent - p.column) (p.rest.takeWhile (· = ' ')).length)

/-- The breaks of empty lines and the place of what comes next. At most `fuel` lines are read. -/
def emptyLines (indent fuel : Nat) (p : Cursor) : Text × Cursor :=
  let p := p.skipIndent indent
  match fuel, p.takeBreak? with
  | fuel + 1, some (b, p) =>
    let (bs, p) := emptyLines indent fuel p
    (b :: bs, p)
  | _, _ => ([], p)

/-- The breaks of the empty lines at the start, the greatest column that is reached before a line with
content, and the place of that line. At most `fuel` lines are read. -/
def startingLines (fuel : Nat) (p : Cursor) : Text × Nat × Cursor :=
  let p := p.skipSpaces
  match fuel, p.takeBreak? with
  | fuel + 1, some (b, q) =>
    let (bs, column, q) := startingLines fuel q
    (b :: bs, max p.column column, q)
  | _, _ => ([], p.column, p)

/-- A line of the scalar starts here. -/
def startsLine (indent : Nat) (p : Cursor) : Bool := p.column = indent && !p.rest.isEmpty

def startsWithGap (t : Text) : Bool := t.head?.any isGap

/-- Reads the lines from `p` on, before which there are the empty lines of `breaks`. The text so far
is in `done`, the last part first; at most `fuel` lines are read. -/
def readLines (folded : Bool) (chomping : Chomping) (indent fuel : Nat) (done : List Text)
    (breaks : Text) (p : Cursor) : Text × Cursor :=
  match fuel with
  | 0 => (done.reverse.flatten, p)
  | fuel + 1 =>
    let (line, q) := p.span fun c => !isBreak c
    let (lineBreak, q) : Text × Cursor := match q.takeBreak? with
      | some (b, q) => ([b], q)
      | none => ([], q)
    let (further, q) := emptyLines indent fuel q
    let done := line :: breaks :: done
    if startsLine indent q then
      let joint := if folded && lineBreak = ['\n'] && !startsWithGap line && !startsWithGap q.rest then
          if further.isEmpty then [' '] else []
        else lineBreak
      readLines folded chomping indent fuel (joint :: done) further q
    else
      let ending := match chomping with
        | .strip => []
        | .clip => lineBreak
        | .keep => lineBreak ++ further
      ((ending :: done).reverse.flatten, q)

/-- Reads a scalar of indented lines after its sign, in a text of at most `size` characters. Its lines
start at the column `margin` or further right, and never at the first. -/
def readBlockText (folded : Bool) (margin size : Nat) (p : Cursor) :
    Except Fault (Text × Cursor) := do
  let (header, p) ← readHeader p
  let least := max margin 1
  let (breaks, indent, p) := match header.indentation with
    | some n =>
      let (breaks, p) := emptyLines (least + n - 1) size p
      (breaks, least + n - 1, p)
    | none =>
      let (breaks, column, p) := startingLines size p
      (breaks, max least column, p)
  if startsLine indent p then
    return readLines folded header.chomping indent (size + 1) [] breaks p
  else return (if header.chomping = .keep then breaks else [], p)

end PageExport.Yaml
