import PageExport.Unicode.Surrogate
import PageExport.Yaml.Cursor
import PageExport.Yaml.Fault

/-!
Scalars in quotes. Between single quotes a doubled quote stands for one; between double quotes a
backslash starts an escape. A line break folds, and the gaps around it are dropped.
-/
namespace PageExport.Yaml

/-- The character that a backslash and one letter stand for. -/
def letterEscape? : Char → Option Char
  | '0' => some '\x00'
  | 'a' => some '\x07'
  | 'b' => some '\x08'
  | 't' | '\t' => some '\t'
  | 'n' => some '\n'
  | 'v' => some '\x0b'
  | 'f' => some '\x0c'
  | 'r' => some '\r'
  | 'e' => some '\x1b'
  | 'N' => some '\u0085'
  | '_' => some '\u00a0'
  | 'L' => some '\u2028'
  | 'P' => some '\u2029'
  | c => if c = ' ' || c = '"' || c = '/' || c = '\\' then some c else none

/-- The number of hexadecimal digits after an escape letter. -/
def escapeWidth? : Char → Option Nat
  | 'x' => some 2
  | 'u' => some 4
  | 'U' => some 8
  | _ => none

def hexValue? (c : Char) : Option Nat :=
  if c.isDigit then some (c.toNat - '0'.toNat)
  else if 'a' ≤ c && c ≤ 'f' then some (c.toNat - 'a'.toNat + 10)
  else if 'A' ≤ c && c ≤ 'F' then some (c.toNat - 'A'.toNat + 10)
  else none

/-- The code point that `width` hexadecimal digits write. -/
def readCodePoint (width : Nat) (t : Text) : Except Fault Nat :=
  match (t.take width).mapM hexValue? with
  | some ds => if ds.length = width then .ok (ds.foldl (fun n d => 16 * n + d) 0) else .error .malformed
  | none => .error .malformed

/-- The line breaks that follow a first one, and the place of what comes next. A line that starts or
ends a document is refused. At most `fuel` lines are read. -/
def readBreaks (fuel : Nat) (p : Cursor) : Except Fault (Text × Cursor) :=
  if atDocumentMark p.rest then .error .malformed
  else
    let (_, p) := p.span isGap
    match fuel, p.takeBreak? with
    | fuel + 1, some (b, p) => (readBreaks fuel p).map fun (bs, p) => (b :: bs, p)
    | _, _ => .ok ([], p)

/-- What an escape stands for, after its backslash. A line break there stands for nothing. -/
def readEscape (fuel : Nat) (p : Cursor) : Except Fault (Text × Cursor) :=
  match p.rest with
  | [] => .error .malformed
  | c :: t =>
    match letterEscape? c, escapeWidth? c with
    | some d, _ => .ok ([d], p.next)
    | none, some width => do
      let n ← readCodePoint width t
      if 0x10FFFF < n then .error (.codePoint n) else .ok ([Unicode.charOf n], p.next.skip width)
    | none, none =>
      match p.takeBreak? with
      | some (_, p) => readBreaks fuel p
      | none => .error .malformed

/-- The text up to the closing mark, which is `mark`, and the place after it. The characters read so
far are in `done`, the last one first; at most `fuel` further ones are read. -/
def readQuoted (mark : Char) (fuel : Nat) (done : Text) (p : Cursor) : Except Fault (Text × Cursor) :=
  match fuel, p.rest with
  | 0, _ | _, [] => .error .malformed
  | fuel + 1, c :: t =>
    if c = mark then
      if mark = '\'' && t.head? = some '\'' then readQuoted mark fuel (c :: done) (p.skip 2)
      else .ok (done.reverse, p.next)
    else if mark = '"' && c = '\\' then do
      let (s, p) ← readEscape fuel p.next
      readQuoted mark fuel (s.reverse ++ done) p
    else if isGap c || isBreak c then
      let (gap, q) := p.span isGap
      match q.takeBreak? with
      | some (b, q) => do
        let (bs, q) ← readBreaks fuel q
        readQuoted mark fuel ((fold b bs).reverse ++ done) q
      | none => readQuoted mark fuel (gap.reverse ++ done) q
    else readQuoted mark fuel (c :: done) p.next

end PageExport.Yaml
