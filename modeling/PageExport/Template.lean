import PageExport.Template.Layout
import PageExport.Template.Subject

/-!
Templates: texts with replacement fields in braces. There is one argument, a text with a name; a
field may take a character or an attribute of it, quote it and lay it out. A doubled brace stands for
a brace. Filling a template reports the first fault from the left.
-/
namespace PageExport

/-- Why a template cannot be filled. -/
inductive TemplateFault where
  | malformed
  /-- A field that is named by its place instead of a name. -/
  | positional
  | unknownName (name : Text)
  | attribute (name : Text)
  | outOfRange (index : Nat)
  | indexByName (name : Text)
  /-- The subject of a field has no parts. -/
  | notIndexable
  /-- The subject of a field is no text and cannot be laid out. -/
  | notLaidOut
  deriving DecidableEq, Repr

namespace Template

structure Field where
  name : Text
  conversion : Option Char := none
  layout : Text := []
  deriving DecidableEq, Repr

inductive Piece where
  | char (c : Char)
  | field (f : Field)
  /-- The template is malformed from here on. -/
  | malformed
  deriving DecidableEq, Repr

/-- The name of a field, the character that ends it, and the rest. Inside square brackets only the
closing one counts. -/
def splitName (bracketed : Bool) : Text → Option (Text × Char × Text)
  | [] => none
  | c :: t =>
    if !bracketed && (c = '\x7d' || c = ':' || c = '!') then some ([], c, t)
    else if !bracketed && c = '\x7b' then none
    else
      let bracketed := if bracketed then c ≠ ']' else c = '['
      (splitName bracketed t).map fun (name, last, rest) => (c :: name, last, rest)

/-- The text before the brace that closes the last of `opened` braces, and the rest. -/
def splitLayout (opened : Nat) : Text → Option (Text × Text)
  | [] => none
  | c :: t =>
    if c = '\x7d' && opened ≤ 1 then some ([], t)
    else
      let opened := if c = '\x7b' then opened + 1 else if c = '\x7d' then opened - 1 else opened
      (splitLayout opened t).map fun (layout, rest) => (c :: layout, rest)

def readField (t : Text) : Option (Field × Text) := do
  let (name, last, rest) ← splitName false t
  match last, rest with
  | ':', rest =>
    let (layout, rest) ← splitLayout 1 rest
    return (⟨name, none, layout⟩, rest)
  | '!', c :: '\x7d' :: rest => return (⟨name, some c, []⟩, rest)
  | '!', c :: ':' :: rest =>
    let (layout, rest) ← splitLayout 1 rest
    return (⟨name, some c, layout⟩, rest)
  | '!', _ => none
  | _, rest => return (⟨name, none, []⟩, rest)

/-- The pieces of a text of at most `fuel` characters. -/
def scan (fuel : Nat) (t : Text) : List Piece :=
  match fuel, t with
  | 0, _ | _, [] => []
  | fuel + 1, '\x7b' :: '\x7b' :: t => .char '\x7b' :: scan fuel t
  | fuel + 1, '\x7d' :: '\x7d' :: t => .char '\x7d' :: scan fuel t
  | fuel + 1, '\x7b' :: t =>
    match readField t with
    | some (f, rest) => .field f :: scan fuel rest
    | none => [.malformed]
  | _ + 1, '\x7d' :: _ => [.malformed]
  | fuel + 1, c :: t => .char c :: scan fuel t

def pieces (t : Text) : List Piece := scan t.length t

def isStepMark (c : Char) : Bool := c = '.' || c = '['

/-- The part of a subject that is written between brackets: by a number, which is its index. -/
def part (s : Subject) (key : Text) (index : Option Nat) : Except TemplateFault Subject :=
  match s.parts?, index with
  | none, _ => .error .notIndexable
  | some _, none => .error (.indexByName key)
  | some parts, some i =>
    match parts[i]? with
    | some s => .ok s
    | none => .error (.outOfRange i)

/-- Follows the steps after a name from the subject `s`: each takes an attribute by its name or a part
by its index. At most `fuel` characters are read. -/
def follow (fuel : Nat) (s : Subject) (t : Text) : Except TemplateFault Subject :=
  match fuel, t with
  | 0, _ | _, [] => .ok s
  | fuel + 1, '.' :: t =>
    let name := t.takeWhile fun c => !isStepMark c
    if name.isEmpty then .error .malformed
    else match s.attribute? (String.ofList name) with
      | some s => follow fuel s (t.dropWhile fun c => !isStepMark c)
      | none => .error (.attribute name)
  | fuel + 1, '[' :: t =>
    let key := t.takeWhile (· ≠ ']')
    match t.dropWhile (· ≠ ']'), readNumber key with
    | _ :: rest, some (some i, []) => do follow fuel (← part s key (some i)) rest
    | _ :: rest, some (_, _ :: _) => do follow fuel (← part s key none) rest
    | _, _ => .error .malformed
  | _ + 1, _ :: _ => .error .malformed

def look (argument value name : Text) : Except TemplateFault Subject :=
  let first := name.takeWhile fun c => !isStepMark c
  match readNumber first with
  | none => .error .malformed
  | some (_, []) => .error .positional
  | some _ =>
    if first = argument then
      follow name.length (.text value) (name.dropWhile fun c => !isStepMark c)
    else .error (.unknownName first)

/-- A conversion makes a text of any subject. -/
def convert (s : Subject) : Option Char → Except TemplateFault Subject
  | none => .ok s
  | some 's' => .ok (.text s.shown)
  | some 'r' => .ok (.text s.quoted)
  | some 'a' => .ok (.text (Text.asciiOnly s.quoted))
  | some _ => .error .malformed

/-- Lays out a subject; what is no text has only the empty layout. -/
def layOut (layout : Text) : Subject → Except TemplateFault Text
  | .text t =>
    match Layout.read layout with
    | some l => .ok (l.apply t)
    | none => .error .malformed
  | s => if layout.isEmpty then .ok s.shown else .error .notLaidOut

/-- Fills one field; `expand` fills the fields inside its layout. -/
def Field.fill (expand : Text → Except TemplateFault Text) (argument value : Text) (f : Field) :
    Except TemplateFault Text := do
  let subject ← look argument value f.name
  let subject ← convert subject f.conversion
  let layout ← if f.layout.contains '\x7b' then expand f.layout else .ok f.layout
  layOut layout subject

def fillPieces (expand : Text → Except TemplateFault Text) (argument value : Text) :
    List Piece → Except TemplateFault Text
  | [] => .ok []
  | .char c :: ps => return c :: (← fillPieces expand argument value ps)
  | .field f :: ps => do
    let t ← f.fill expand argument value
    return t ++ (← fillPieces expand argument value ps)
  | .malformed :: _ => .error .malformed

/-- Fills a template whose fields may have fields inside to a depth of `depth`. -/
def fillTo (argument value : Text) : Nat → Text → Except TemplateFault Text
  | 0, _ => .error .malformed
  | depth + 1, t => fillPieces (fillTo argument value depth) argument value (pieces t)

/-- Fills a template with the text `value` for the argument of the name `argument`. Layouts may have
fields, but no deeper ones. -/
def fill (argument value t : Text) : Except TemplateFault Text := fillTo argument value 2 t

end Template
end PageExport
