import PageExport.Yaml.Cursor

/-!
Scalars without quotes. They end at a comment, at the colon of an entry, or at a line that is indented
too little; between brackets also at the marks of a collection. Line breaks fold.
-/
namespace PageExport.Yaml

/-- Marks that end a plain scalar between brackets. -/
def isFlowMark (c : Char) : Bool := [',', '?', '[', ']', '\x7b', '\x7d'].contains c

def endsWord (inFlow : Bool) : Text → Bool
  | ':' :: t => atGap t || (inFlow && t.head?.any fun c => c ≠ '?' && isFlowMark c)
  | c :: t => atGap (c :: t) || (inFlow && isFlowMark c)
  | [] => true

def firstWord (inFlow : Bool) : Text → Text
  | [] => []
  | c :: t => if endsWord inFlow (c :: t) then [] else c :: firstWord inFlow t

/-- The line breaks that follow a first one, and the place of what comes next; none where a document
starts or ends. At most `fuel` characters are read. -/
def plainBreaks (fuel : Nat) (p : Cursor) : Option Text × Cursor :=
  match fuel with
  | 0 => (some [], p)
  | fuel + 1 =>
    let p := p.skipSpaces
    match p.takeBreak? with
    | none => (some [], p)
    | some (b, p) =>
      if atDocumentMark p.rest then (none, p)
      else
        let (bs, p) := plainBreaks fuel p
        (bs.map (b :: ·), p)

/-- What stands between two words. -/
structure WordGap where
  text : Text
  next : Cursor
  /-- The next word is on another line. -/
  crossesLine : Bool

/-- The gap after a word in a text of at most `size` characters; its text is empty if the scalar
ends. -/
def wordGap (size : Nat) (p : Cursor) : WordGap :=
  let (spaces, p) := p.span (· = ' ')
  match p.takeBreak? with
  | none => ⟨spaces, p, false⟩
  | some (b, p) =>
    if atDocumentMark p.rest then ⟨[], p, true⟩
    else
      match plainBreaks size p with
      | (some bs, p) => ⟨fold b bs, p, true⟩
      | (none, p) => ⟨[], p, true⟩

/-- Reads the words of a plain scalar from `gap` on; further lines start at the column `margin` or
later. The scalar so far is in `done`, the last part first; at most `fuel` words are read. -/
def readWords (inFlow : Bool) (margin size fuel : Nat) (done : List Text) (gap : WordGap) :
    Text × WordGap :=
  match fuel with
  | 0 => (done.reverse.flatten, gap)
  | fuel + 1 =>
    let word := firstWord inFlow gap.next.rest
    if word.isEmpty || gap.next.rest.head? = some '#' then (done.reverse.flatten, gap)
    else
      let done := word :: gap.text :: done
      let after := wordGap size (gap.next.skip word.length)
      if after.text.isEmpty || (!inFlow && after.next.column < margin) then
        (done.reverse.flatten, after)
      else readWords inFlow margin size fuel done after

/-- Reads a plain scalar in a text of at most `size` characters, and the gap after it. -/
def readPlain (inFlow : Bool) (margin size : Nat) (p : Cursor) : Text × WordGap :=
  readWords inFlow margin size (size + 1) [] ⟨[], p, false⟩

end PageExport.Yaml
