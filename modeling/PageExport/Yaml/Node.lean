import PageExport.Yaml.Token

/-!
The tree of nodes in a document: scalars, sequences and mappings with their tags. An alias is replaced
by the node that it names.
-/
namespace PageExport.Yaml

inductive Node where
  /-- The type of a scalar is that of its tag, else the one that its text shows if it is open to that. -/
  | scalar (tag : Option Text) (isOpen : Bool) (text : Text)
  | sequence (tag : Option Text) (items : List Node)
  | mapping (tag : Option Text) (entries : List (Node × Node))
  /-- An alias to a collection that it is a part of. -/
  | enclosing (isMapping : Bool)
  deriving Inhabited

/-- What an anchor names: a node, or a collection that is not read to its end. -/
inductive Anchored where
  | node (n : Node)
  | unfinished (isMapping : Bool)

structure NodeReader where
  tokens : List Token
  /-- What is wrong with the text after these tokens. -/
  fault : Option Fault
  anchors : List (Text × Anchored) := []
  /-- What the handles of tags stand for. -/
  handles : List (Text × Text)

namespace Node

abbrev Read := StateT NodeReader (Except Fault)

def emptyScalar : Node := .scalar none true []

/-- Collections are nested at most so deep. -/
def maxDepth : Nat := 490

namespace Read

def refuse {α : Type} : Read α := throw .malformed

def peek? : Read (Option Token) := do
  let r ← get
  match r.tokens, r.fault with
  | t :: _, _ => return some t
  | [], some fault => throw fault
  | [], none => return none

def advance : Read Unit := modify fun r => { r with tokens := r.tokens.drop 1 }

/-- Takes the token `t` if it comes next, and tells whether it did. -/
def take (t : Token) : Read Bool := do
  if (← peek?) = some t then
    advance
    return true
  else return false

def isNext (ts : List Token) : Read Bool := return (← peek?).any ts.contains

def expand (handle : Option Text) (suffix : Text) : Read Text := do
  match handle with
  | none => return suffix
  | some h =>
    match (← get).handles.lookup h with
    | some expansion => return expansion ++ suffix
    | none => refuse

structure Properties where
  anchor : Option Text := none
  tag : Option Text := none

def properties : Read Properties := do
  match ← peek? with
  | some (.anchor name) =>
    advance
    match ← peek? with
    | some (.tag handle suffix) =>
      advance
      return ⟨some name, some (← expand handle suffix)⟩
    | _ => return ⟨some name, none⟩
  | some (.tag handle suffix) =>
    advance
    match ← peek? with
    | some (.anchor name) =>
      advance
      return ⟨some name, some (← expand handle suffix)⟩
    | _ => return ⟨none, some (← expand handle suffix)⟩
  | _ => return {}

/-- The tag that says only that the content decides. -/
def openTag : Text := ['!']

def scalar (tag : Option Text) (plain : Bool) (text : Text) : Node :=
  if tag = some openTag then .scalar none true text else .scalar tag plain text

/-- A tag of a collection, unless it says nothing. -/
def collectionTag (tag : Option Text) : Option Text := tag.filter (· ≠ openTag)

def bindAnchor (name : Option Text) (a : Anchored) : Read Unit := do
  match name with
  | none => return
  | some name => modify fun r => { r with anchors := (name, a) :: r.anchors }

/-- An anchor is set once. -/
def checkAnchor (name : Option Text) : Read Unit := do
  match name with
  | none => return
  | some name => if ((← get).anchors.lookup name).isSome then refuse

def resolve (name : Text) : Read Node := do
  match (← get).anchors.lookup name with
  | some (.node n) => return n
  | some (.unfinished isMapping) => return .enclosing isMapping
  | none => refuse

/-- Reads a collection that can be named inside itself. -/
def named (anchor : Option Text) (isMapping : Bool) (read : Read Node) : Read Node := do
  bindAnchor anchor (.unfinished isMapping)
  let n ← read
  bindAnchor anchor (.node n)
  return n

/-- Tokens before which a key or value of a block is empty. -/
def blockStops : List Token := [.key, .value, .blockEnd]

mutual

/-- Reads a node, in a block or between brackets; in an entry of a block also a sequence that is not
indented. At most `depth` collections are one inside the other. -/
def node (fuel depth : Nat) (inBlock inEntry : Bool) : Read Node := do
  match fuel with
  | 0 => refuse
  | fuel + 1 =>
    if let some (.alias name) ← peek? then
      advance
      return ← resolve name
    let ps ← properties
    let next ← peek?
    checkAnchor ps.anchor
    let tag := collectionTag ps.tag
    let collection (isMapping : Bool) (read : Nat → Read Node) : Read Node :=
      match depth with
      | 0 => throw .tooDeep
      | depth + 1 => named ps.anchor isMapping (read depth)
    match next with
    | some .item =>
      if inBlock && inEntry then
        collection false fun depth => .sequence tag <$> openItems fuel depth []
      else if ps.anchor.isSome || ps.tag.isSome then
        let n := scalar ps.tag true []
        bindAnchor ps.anchor (.node n)
        return n
      else refuse
    | some (.plain text) =>
      advance
      let n := scalar ps.tag ps.tag.isNone text
      bindAnchor ps.anchor (.node n)
      return n
    | some (.quoted text) =>
      advance
      let n := scalar ps.tag false text
      bindAnchor ps.anchor (.node n)
      return n
    | some .flowSequence =>
      advance
      collection false fun depth => .sequence tag <$> flowItems fuel depth true []
    | some .flowMapping =>
      advance
      collection true fun depth => .mapping tag <$> flowEntries fuel depth true []
    | some .blockSequence =>
      if !inBlock then refuse
      advance
      collection false fun depth => .sequence tag <$> blockItems fuel depth []
    | some .blockMapping =>
      if !inBlock then refuse
      advance
      collection true fun depth => .mapping tag <$> blockEntries fuel depth []
    | _ =>
      if ps.anchor.isSome || ps.tag.isSome then
        let n := scalar ps.tag true []
        bindAnchor ps.anchor (.node n)
        return n
      else refuse

/-- Reads a node, or an empty scalar if one of `stops` comes next. -/
def nodeOrEmpty (fuel depth : Nat) (inBlock inEntry : Bool) (stops : List Token) : Read Node := do
  match fuel with
  | 0 => refuse
  | fuel + 1 =>
    if ← isNext stops then return emptyScalar
    else node fuel depth inBlock inEntry

/-- Reads the value of an entry, which is empty without a colon. -/
def valueOf (fuel depth : Nat) (inBlock : Bool) (stops : List Token) : Read Node := do
  match fuel with
  | 0 => refuse
  | fuel + 1 =>
    if ← take .value then nodeOrEmpty fuel depth inBlock inBlock stops else return emptyScalar

def blockItems (fuel depth : Nat) (done : List Node) : Read (List Node) := do
  match fuel with
  | 0 => refuse
  | fuel + 1 =>
    if ← take .item then
      let n ← nodeOrEmpty fuel depth true false [.item, .blockEnd]
      blockItems fuel depth (n :: done)
    else if ← take .blockEnd then return done.reverse
    else refuse

/-- Reads the items of a sequence that ends with the entry that it is in. -/
def openItems (fuel depth : Nat) (done : List Node) : Read (List Node) := do
  match fuel with
  | 0 => refuse
  | fuel + 1 =>
    if ← take .item then
      let n ← nodeOrEmpty fuel depth true false [.item, .key, .value, .blockEnd]
      openItems fuel depth (n :: done)
    else return done.reverse

def blockEntries (fuel depth : Nat) (done : List (Node × Node)) : Read (List (Node × Node)) := do
  match fuel with
  | 0 => refuse
  | fuel + 1 =>
    if ← take .key then
      let k ← nodeOrEmpty fuel depth true true blockStops
      let v ← valueOf fuel depth true blockStops
      blockEntries fuel depth ((k, v) :: done)
    else if ← take .blockEnd then return done.reverse
    else refuse

/-- Reads the items between square brackets from the next one on; an item may be an entry alone. -/
def flowItems (fuel depth : Nat) (first : Bool) (done : List Node) : Read (List Node) := do
  match fuel with
  | 0 => refuse
  | fuel + 1 =>
    if ← take .flowSequenceEnd then return done.reverse
    if !first then
      if !(← take .comma) then refuse
      if ← take .flowSequenceEnd then return done.reverse
    if ← take .key then
      let k ← nodeOrEmpty fuel depth false false [.value, .comma, .flowSequenceEnd]
      let v ← valueOf fuel depth false [.comma, .flowSequenceEnd]
      flowItems fuel depth false (.mapping none [(k, v)] :: done)
    else
      let n ← node fuel depth false false
      flowItems fuel depth false (n :: done)

/-- Reads the entries between braces from the next one on. -/
def flowEntries (fuel depth : Nat) (first : Bool) (done : List (Node × Node)) :
    Read (List (Node × Node)) := do
  match fuel with
  | 0 => refuse
  | fuel + 1 =>
    if ← take .flowMappingEnd then return done.reverse
    if !first then
      if !(← take .comma) then refuse
      if ← take .flowMappingEnd then return done.reverse
    if ← take .key then
      let k ← nodeOrEmpty fuel depth false false [.value, .comma, .flowMappingEnd]
      let v ← valueOf fuel depth false [.comma, .flowMappingEnd]
      flowEntries fuel depth false ((k, v) :: done)
    else
      let k ← node fuel depth false false
      flowEntries fuel depth false ((k, emptyScalar) :: done)

end

def directives (fuel : Nat) (hasVersion : Bool) (handles : List (Text × Text)) :
    Read (List (Text × Text)) := do
  match fuel, ← peek? with
  | fuel + 1, some (.versionDirective major) =>
    if hasVersion || major ≠ 1 then refuse
    advance
    directives fuel true handles
  | fuel + 1, some (.tagDirective handle expansion) =>
    if (handles.lookup handle).isSome then refuse
    advance
    directives fuel hasVersion ((handle, expansion) :: handles)
  | fuel + 1, some .otherDirective =>
    advance
    directives fuel hasVersion handles
  | _, _ => return handles

def commonHandles : List (Text × Text) :=
  [(['!'], ['!']), (['!', '!'], "tag:yaml.org,2002:".toList)]

def atDocumentEnd : Read Bool := do
  match ← peek? with
  | none | some .documentStart | some .documentEnd | some (.versionDirective _)
  | some (.tagDirective _ _) | some .otherDirective => return true
  | _ => return false

/-- Reads on to the end of the text, where nothing but marks of the end may be. -/
def finish (fuel : Nat) : Read Unit := do
  match fuel, ← peek? with
  | fuel + 1, some .documentEnd =>
    advance
    finish fuel
  | _, none => return
  | _, _ =>
    let _ ← directives fuel false []
    refuse

def document (size : Nat) : Read (Option Node) := do
  if (← peek?).isNone then return none
  let implicit := !(← atDocumentEnd) || (← peek?) = some .documentEnd
  if !implicit then
    let handles ← directives size false []
    modify fun r => { r with handles := handles ++ commonHandles }
    if !(← take .documentStart) then refuse
  let n ← if !implicit && (← atDocumentEnd) then pure emptyScalar
    else node (3 * size + 3) maxDepth true false
  finish (size + 1)
  return some n

end Read

/-- The node of the document in a text, if it holds one. -/
def ofText? (t : Text) : Except Fault (Option Node) := do
  let s := TokenStream.ofText t
  let (n, _) ← (Read.document s.tokens.length).run ⟨s.tokens, s.fault, [], Read.commonHandles⟩
  return n

end Node
end PageExport.Yaml
