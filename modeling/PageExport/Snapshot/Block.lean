import PageExport.Reading
import PageExport.Unicode.Surrogate

/-!
Block trees: what a document snapshot holds, and their reading from structured values. A page
snapshot wraps the tree of its page in an envelope.
-/
namespace PageExport

inductive Flavour where
  | page | note | surface | frame | paragraph | list | code | divider | image | embed | database
  | unknown
  deriving DecidableEq, Repr, Inhabited

namespace Flavour

def tag : Flavour → String
  | .page => "affine:page"
  | .note => "affine:note"
  | .surface => "affine:surface"
  | .frame => "affine:frame"
  | .paragraph => "affine:paragraph"
  | .list => "affine:list"
  | .code => "affine:code"
  | .divider => "affine:divider"
  | .image => "affine:image"
  | .embed => "affine:embed"
  | .database => "affine:database"
  | .unknown => "unknown"

/-- The flavours with a tag of their own. -/
def known : List Flavour :=
  [.page, .note, .surface, .frame, .paragraph, .list, .code, .divider, .image, .embed, .database]

/-- The flavour of a tag; any other text is an unknown flavour. -/
def ofTag (tag : String) : Flavour := (known.find? fun f => f.tag = tag).getD .unknown

def name : Flavour → String
  | .page => "page"
  | .note => "note"
  | .surface => "surface"
  | .frame => "frame"
  | .paragraph => "paragraph"
  | .list => "list"
  | .code => "code"
  | .divider => "divider"
  | .image => "image"
  | .embed => "embed"
  | .database => "database"
  | .unknown => "unknown"

/-- Flavours that only hold other blocks. -/
def isContainer : Flavour → Bool
  | .note | .surface | .frame => true
  | _ => false

theorem ofTag_tag (f : Flavour) : ofTag f.tag = f := by cases f <;> decide

end Flavour

structure Block where
  id : String
  tag : String
  props : Members
  children : List Block
  deriving Inhabited

namespace Block

def flavour (b : Block) : Flavour := Flavour.ofTag b.tag

def prop (b : Block) (key : String) : Value := (b.props.lookup key).getD .null

def readProps : Value → Reading Members
  | .null => .ok []
  | .object ms => .ok ms
  | _ => .wrong

/-- The members that a block has; it may have others. -/
def memberNames : List String := ["id", "flavour", "props", "children"]

/-- No further member has a name with half of a surrogate pair. -/
def hasTextNames (ms : Members) : Bool :=
  ms.all fun (key, _) => memberNames.contains key || Unicode.isEncodable key.toList

mutual

/-- Reads a block with the blocks below it, of which `depth` levels are allowed. A block that is too
deep, or has a member without a proper name, is one fault whatever else is wrong in it. -/
def readTo (depth : Nat) : Value → Reading Block
  | .object ms =>
    match depth with
    | 0 => .wrong
    | depth + 1 =>
      let read := mk <$> .required ms "id" .string <*> .required ms "flavour" .string
        <*> .field ms "props" [] readProps <*> readChildren depth ms
      if hasTextNames ms then read else .wrong
  | _ => .wrong

def readChildren (depth : Nat) : Members → Reading (List Block)
  | [] => .ok []
  | (key, v) :: ms =>
    if key = "children" then (readSiblings depth v).under (.key "children")
    else readChildren depth ms

def readSiblings (depth : Nat) : Value → Reading (List Block)
  | .null => .ok []
  | .array vs => readEach depth 0 vs
  | _ => .wrong

def readEach (depth index : Nat) : List Value → Reading (List Block)
  | [] => .ok []
  | v :: vs => List.cons <$> (readTo depth v).under (.index index) <*> readEach depth (index + 1) vs

end

/-- Block trees have at most so many levels. -/
def maxLevels : Nat := 255

def read (v : Value) : Reading Block := readTo maxLevels v

end Block

/-- Why a value or a file is no snapshot. -/
inductive SnapshotFault where
  | notAnObject (typeName : String)
  | invalidTree (faults : Nat)
  deriving DecidableEq, Repr

def SnapshotFault.message : SnapshotFault → String
  | .notAnObject typeName => s!"Expected a block object, got {typeName}"
  | .invalidTree faults => s!"Invalid block tree: {faults} error(s)"

/-- Takes the envelope off a page snapshot. -/
def openEnvelope (v : Value) : Value :=
  match v with
  | .object ms =>
    match ms.lookup "type" with
    | some (.string "page") => (ms.lookup "blocks").getD .null
    | _ => v
  | _ => v

def Block.parse (v : Value) : Except SnapshotFault Block :=
  let v := openEnvelope v
  if v.isObject then
    match Block.read v with
    | .ok b => .ok b
    | .faulty fs => .error (.invalidTree fs.length)
  else .error (.notAnObject v.typeName)

end PageExport
