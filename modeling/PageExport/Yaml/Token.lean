import PageExport.Yaml.BlockText
import PageExport.Yaml.Plain
import PageExport.Yaml.Quoted

/-!
Tokens of a document. Whether a scalar or a collection is the key of an entry shows at a later colon
only, so each of them that may be one leaves an empty slot before it, which the colon fills.
-/
namespace PageExport.Yaml

inductive Token where
  | versionDirective (major : Nat)
  | tagDirective (handle expansion : Text)
  | otherDirective
  | documentStart | documentEnd
  | blockSequence | blockMapping | blockEnd
  | flowSequence | flowSequenceEnd | flowMapping | flowMappingEnd
  | item | comma | key | value
  | alias (name : Text)
  | anchor (name : Text)
  | tag (handle : Option Text) (suffix : Text)
  | plain (text : Text)
  | quoted (text : Text)
  deriving DecidableEq, Repr

/-- A place where a key may start that a colon follows later. -/
structure PossibleKey where
  slot : Nat
  /-- Nothing else than a key may start there. -/
  required : Bool
  index : Nat
  line : Nat
  column : Nat

structure Lexer where
  /-- The number of characters of the text. -/
  size : Nat
  cursor : Cursor
  /-- The tokens so far, the last ones first; a slot that is to be filled holds none. -/
  slots : List (List Token) := []
  slotCount : Nat := 0
  /-- The number of open brackets. -/
  level : Nat := 0
  /-- One more than the column of the innermost block, zero outside all blocks. -/
  margin : Nat := 0
  outerMargins : List Nat := []
  keyAllowed : Bool := true
  /-- The possible keys by their levels. -/
  possibleKeys : List (Nat × PossibleKey) := []

abbrev Lexing := StateT Lexer (Except Fault)

namespace Lexer

def addSlot (l : Lexer) (ts : List Token) : Lexer :=
  { l with slots := ts :: l.slots, slotCount := l.slotCount + 1 }

/-- Puts tokens into the slot that has `n` slots before it. -/
def fillSlot (l : Lexer) (n : Nat) (ts : List Token) : Lexer :=
  { l with slots := l.slots.set (l.slotCount - 1 - n) ts }

def tokensOf (l : Lexer) (n : Nat) : List Token := (l.slots.drop (l.slotCount - n)).reverse.flatten

end Lexer

namespace Lexing

def refuse {α : Type} : Lexing α := throw .malformed

def push (t : Token) : Lexing Unit := modify fun l => l.addSlot [t]

def skip (n : Nat) : Lexing Unit := modify fun l => { l with cursor := l.cursor.skip n }

def allowKey (b : Bool) : Lexing Unit := modify fun l => { l with keyAllowed := b }

/-- A key stands on one line and takes at most so many characters. -/
def maxKeyLength : Nat := 1024

/-- A colon can still follow a key at `p`. -/
def isFresh (p : Cursor) (k : PossibleKey) : Bool :=
  k.line = p.line && p.index ≤ k.index + maxKeyLength

/-- Gives up the keys that no colon can follow any more. -/
def dropStaleKeys : Lexing Unit := do
  let l ← get
  let (fresh, stale) := l.possibleKeys.partition fun (_, k) => isFresh l.cursor k
  if stale.any fun (_, k) => k.required then refuse
  set { l with possibleKeys := fresh }

/-- Gives up the possible key of the present level. -/
def dropKey : Lexing Unit := do
  let l ← get
  match l.possibleKeys.lookup l.level with
  | some k =>
    if k.required then refuse
    set { l with possibleKeys := l.possibleKeys.filter fun (level, _) => level ≠ l.level }
  | none => return

/-- Leaves a slot for the case that the next token starts a key. -/
def markKey : Lexing Unit := do
  if (← get).keyAllowed then
    dropKey
    modify fun l =>
      let required := l.level = 0 && l.margin = l.cursor.column + 1
      let k : PossibleKey :=
        ⟨l.slotCount, required, l.cursor.index, l.cursor.line, l.cursor.column⟩
      { l.addSlot [] with possibleKeys := (l.level, k) :: l.possibleKeys }

/-- Ends the blocks whose column is `margin` or further right. -/
def endBlocks (margin : Nat) : Lexing Unit := modify fun l =>
  if l.level = 0 then
    let ended := l.margin :: l.outerMargins |>.takeWhile (margin < ·)
    let left := l.margin :: l.outerMargins |>.dropWhile (margin < ·)
    { l.addSlot (ended.map fun _ => .blockEnd) with
      margin := left.headD 0
      outerMargins := left.drop 1 }
  else l

/-- Opens a block at a column, unless one is open there, and tells whether it did. -/
def openBlock (column : Nat) : Lexing Bool := do
  let l ← get
  if l.margin ≤ column then
    set { l with margin := column + 1, outerMargins := l.margin :: l.outerMargins }
    return true
  else return false

/-- Goes past spaces, comments and line breaks, of which at most `fuel` are read. -/
def skipLines : Nat → Lexing Unit
  | 0 => return
  | fuel + 1 => do
    let l ← get
    let p := l.cursor.skipSpaces
    let p := if p.rest.head? = some '#' then p.skipLine else p
    match p.takeBreak? with
    | some (_, q) =>
      set { l with cursor := q, keyAllowed := l.keyAllowed || l.level = 0 }
      skipLines fuel
    | none => set { l with cursor := p }

def documentMark (t : Token) : Lexing Unit := do
  endBlocks 0
  dropKey
  allowKey false
  skip 3
  push t

def openBracket (t : Token) : Lexing Unit := do
  markKey
  modify fun l => { l with level := l.level + 1 }
  allowKey true
  skip 1
  push t

def closeBracket (t : Token) : Lexing Unit := do
  dropKey
  if (← get).level = 0 then refuse
  modify fun l => { l with level := l.level - 1 }
  allowKey false
  skip 1
  push t

def comma : Lexing Unit := do
  allowKey true
  dropKey
  skip 1
  push .comma

/-- Opens a block for an item or an entry that stands here. -/
def openBlockHere (t : Token) : Lexing Unit := do
  if !(← get).keyAllowed then refuse
  if ← openBlock (← get).cursor.column then push t

def item : Lexing Unit := do
  if (← get).level = 0 then openBlockHere .blockSequence
  allowKey true
  dropKey
  skip 1
  push .item

/-- The mark of a key that may be of any form. -/
def key : Lexing Unit := do
  let inBlock := (← get).level = 0
  if inBlock then openBlockHere .blockMapping
  allowKey inBlock
  dropKey
  skip 1
  push .key

def value : Lexing Unit := do
  let l ← get
  match l.possibleKeys.lookup l.level with
  | some k =>
    set { l with possibleKeys := l.possibleKeys.filter fun (level, _) => level ≠ l.level }
    let opens ← if l.level = 0 then openBlock k.column else pure false
    modify fun l => l.fillSlot k.slot (if opens then [.blockMapping, .key] else [.key])
    allowKey false
  | none =>
    if l.level = 0 then openBlockHere .blockMapping
    allowKey (l.level = 0)
    dropKey
  skip 1
  push .value

def isNameCharacter (c : Char) : Bool := c.isAlphanum || c = '-' || c = '_'

/-- The name of an anchor or an alias, after its mark. -/
def name (token : Text → Token) : Lexing Unit := do
  markKey
  allowKey false
  let (name, p) := (← get).cursor.next.span isNameCharacter
  let ended := atGap p.rest || p.rest.head?.any fun c =>
    ['?', ':', ',', ']', '\x7d', '%', '@', '\x60'].contains c
  if name.isEmpty || !ended then refuse
  modify fun l => { l with cursor := p }
  push (token name)

/-- Characters of tags beside letters and digits. -/
def tagMarks : Text := "-;/?:@&=+$,_.!~*'()[]".toList

def isTagCharacter (c : Char) : Bool := c.isAlphanum || tagMarks.contains c

/-- Reads the text of a tag, which is not empty, with its bytes in hexadecimal decoded. At most `fuel`
characters are read. -/
def tagText (fuel : Nat) (p : Cursor) : Except Fault (Text × Cursor) :=
  let rec bytes : Nat → Cursor → Except Fault (List UInt8 × Cursor)
    | fuel + 1, p =>
      match p.rest with
      | '%' :: t => do
        let n ← readCodePoint 2 t
        let (bs, p) ← bytes fuel (p.skip 3)
        return (UInt8.ofNat n :: bs, p)
      | _ => .ok ([], p)
    | 0, p => .ok ([], p)
  let rec parts : Nat → List Text → Cursor → Except Fault (Text × Cursor)
    | 0, done, p => .ok (done.reverse.flatten, p)
    | fuel + 1, done, p =>
      let (part, p) := p.span isTagCharacter
      if p.rest.head? = some '%' then do
        let (bs, p) ← bytes p.rest.length p
        match String.fromUTF8? ⟨bs.toArray⟩ with
        | some s => parts fuel (s.toList :: part :: done) p
        | none => .error .malformed
      else .ok ((part :: done).reverse.flatten, p)
  match parts fuel [] p with
  | .ok ([], q) => if q.index = p.index then .error .malformed else .ok ([], q)
  | r => r

/-- Reads a handle: an exclamation mark alone, or a name between two of them. -/
def tagHandle (p : Cursor) : Except Fault (Text × Cursor) :=
  match p.rest with
  | '!' :: ' ' :: _ => .ok (['!'], p.next)
  | '!' :: _ =>
    let (name, q) := p.next.span isNameCharacter
    if q.rest.head? = some '!' then .ok ('!' :: name ++ ['!'], q.next) else .error .malformed
  | _ => .error .malformed

def tag : Lexing Unit := do
  markKey
  allowKey false
  let l ← get
  let p := l.cursor
  let (handle, suffix, q) : Option Text × Text × Cursor ←
    match p.rest.drop 1 with
    | '<' :: _ => do
      let (suffix, q) ← tagText l.size (p.skip 2)
      if q.rest.head? ≠ some '>' then throw .malformed
      pure (none, suffix, q.next)
    | t =>
      if atGap t then pure (none, ['!'], p.next)
      else do
        let word := t.takeWhile fun c => !(c = ' ' || isBreak c)
        let (handle, q) ← if word.contains '!' then (tagHandle p : Except Fault _)
          else pure (['!'], p.next)
        let (suffix, q) ← tagText l.size q
        pure (some handle, suffix, q)
  if !atSpace q.rest then refuse
  modify fun l => { l with cursor := q }
  push (.tag handle suffix)

/-- A number that is no part of a longer word. -/
def number (p : Cursor) : Except Fault (Nat × Cursor) :=
  let (ds, q) := p.span Char.isDigit
  if ds.isEmpty then .error .malformed
  else .ok (ds.foldl (fun n d => 10 * n + (d.toNat - 48)) 0, q)

def directiveToken (name : Text) (p : Cursor) : Except Fault (Token × Cursor) := do
  if name = "YAML".toList then
    let (major, p) ← number p.skipSpaces
    if p.rest.head? ≠ some '.' then throw .malformed
    let (_, p) ← number p.next
    if !atSpace p.rest then throw .malformed
    return (.versionDirective major, p)
  else if name = "TAG".toList then
    let (handle, p) ← tagHandle p.skipSpaces
    if p.rest.head? ≠ some ' ' then throw .malformed
    let p := p.skipSpaces
    let (expansion, p) ← tagText p.rest.length p
    if !atSpace p.rest then throw .malformed
    return (.tagDirective handle expansion, p)
  else return (.otherDirective, p.skipLine)

def directive : Lexing Unit := do
  endBlocks 0
  dropKey
  allowKey false
  let (name, p) := (← get).cursor.next.span isNameCharacter
  if name.isEmpty || !atSpace p.rest then refuse
  let (t, p) ← directiveToken name p
  match p.skipRestOfLine? with
  | some p =>
    modify fun l => { l with cursor := p }
    push t
  | none => refuse

def blockText (folded : Bool) : Lexing Unit := do
  allowKey true
  dropKey
  let l ← get
  let (text, p) ← readBlockText folded l.margin l.size l.cursor.next
  modify fun l => { l with cursor := p }
  push (.quoted text)

def quoted (mark : Char) : Lexing Unit := do
  markKey
  allowKey false
  let l ← get
  let (text, p) ← readQuoted mark (l.size + 1) [] l.cursor.next
  modify fun l => { l with cursor := p }
  push (.quoted text)

def plain : Lexing Unit := do
  markKey
  let l ← get
  let (text, after) := readPlain (0 < l.level) l.margin l.size l.cursor
  modify fun l => { l with cursor := after.next, keyAllowed := after.crossesLine }
  push (.plain text)

/-- Characters that start something other than a plain scalar. -/
def isIndicator (c : Char) : Bool :=
  "-?:,[]\x7b\x7d#&*!|>'\"%@\x60".toList.contains c

def startsPlain (inFlow : Bool) : Text → Bool
  | [] => false
  | c :: t =>
    !(atGap (c :: t) || isIndicator c) || (!atGap t && (c = '-' || (!inFlow && (c = '?' || c = ':'))))

def token : Lexing Unit := do
  let l ← get
  let inFlow := 0 < l.level
  let p := l.cursor
  let atStart := p.column = 0
  match p.rest with
  | [] => return
  | c :: t =>
    if c = '%' && atStart then directive
    else if c = '-' && atStart && atDocumentMark p.rest then documentMark .documentStart
    else if c = '.' && atStart && atDocumentMark p.rest then documentMark .documentEnd
    else if c = '[' then openBracket .flowSequence
    else if c = '\x7b' then openBracket .flowMapping
    else if c = ']' then closeBracket .flowSequenceEnd
    else if c = '\x7d' then closeBracket .flowMappingEnd
    else if c = ',' then comma
    else if c = '-' && atGap t then item
    else if c = '?' && (inFlow || atGap t) then key
    else if c = ':' && (inFlow || atGap t) then value
    else if c = '*' then name .alias
    else if c = '&' then name .anchor
    else if c = '!' then tag
    else if c = '|' && !inFlow then blockText false
    else if c = '>' && !inFlow then blockText true
    else if c = '\'' || c = '"' then quoted c
    else if startsPlain inFlow p.rest then plain
    else refuse

/-- Reads the next token and those that its column implies, and tells whether more may follow. -/
def step : Lexing Bool := do
  skipLines ((← get).size + 1)
  dropStaleKeys
  endBlocks ((← get).cursor.column + 1)
  if (← get).cursor.rest.isEmpty then
    endBlocks 0
    dropKey
    return false
  else
    token
    return true

end Lexing

/-- The tokens of a text, up to a fault if it has one. -/
structure TokenStream where
  tokens : List Token
  fault : Option Fault := none

namespace Lexer

/-- The slots before the first possible key: only these stay as they are whatever follows. -/
def settled (l : Lexer) : Nat :=
  l.possibleKeys.foldl (fun n (_, k) => if Lexing.isFresh l.cursor k then min n k.slot else n)
    l.slotCount

/-- Reads at most `fuel` tokens. A fault hides the tokens that could not be told before it. -/
def stream : Nat → Lexer → TokenStream
  | 0, l => ⟨l.tokensOf l.slotCount, none⟩
  | fuel + 1, l =>
    match Lexing.step.run l with
    | .ok (true, l) => stream fuel l
    | .ok (false, l) => ⟨l.tokensOf l.slotCount, none⟩
    | .error fault => ⟨l.tokensOf l.settled, some fault⟩

end Lexer

def TokenStream.ofText (t : Text) : TokenStream :=
  Lexer.stream (t.length + 1) { size := t.length, cursor := { rest := t } }

end PageExport.Yaml
