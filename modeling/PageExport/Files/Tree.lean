import PageExport.Files.Path
import PageExport.Text.Quoted

/-!
Trees of files and directories. A place is a list of names from the root of all files; a path leads to
a place by way of existing directories. Names and paths have a greatest length in bytes. An operation
that fails leaves the tree as it was.
-/
namespace PageExport

inductive Entry where
  | file (data : ByteArray)
  | directory
  deriving BEq

abbrev Place := List String

/-- The entries below the root, one for each place, and the working directory. -/
structure FileTree where
  entries : List (Place × Entry) := []
  home : Place := []

inductive FileFault where
  | notFound | isDirectory | notADirectory | alreadyExists | nameTooLong
  /-- The path has a zero character, which no path has. -/
  | zeroCharacter
  /-- The path has half of a surrogate pair and so no form in bytes. -/
  | notEncodable
  deriving DecidableEq, Repr

/-- An operation that failed, and on which path. -/
structure FileError where
  fault : FileFault
  path : Path
  deriving DecidableEq, Repr

namespace FileError

/-- The number of the fault; a path that no file can have is refused before there is one. -/
def code? (e : FileError) : Option Nat :=
  match e.fault with
  | .notFound => some 2
  | .alreadyExists => some 17
  | .notADirectory => some 20
  | .isDirectory => some 21
  | .nameTooLong => some 36
  | .zeroCharacter | .notEncodable => none

def description (e : FileError) : String :=
  match e.fault with
  | .notFound => "No such file or directory"
  | .alreadyExists => "File exists"
  | .notADirectory => "Not a directory"
  | .isDirectory => "Is a directory"
  | .nameTooLong => "File name too long"
  | .zeroCharacter => "embedded null byte"
  | .notEncodable => "surrogates not allowed"

def message (e : FileError) : String :=
  match e.code? with
  | some code =>
    "[Errno " ++ String.ofList (Text.ofNat code) ++ "] " ++ e.description ++ ": "
      ++ quotedName e.path.toString
  | none => e.description

end FileError

namespace FileTree

def get? (t : FileTree) (p : Place) : Option Entry :=
  if p = [] then some .directory else t.entries.lookup p

def setEntry (p : Place) (e : Entry) : List (Place × Entry) → List (Place × Entry)
  | [] => [(p, e)]
  | (q, f) :: es => if q = p then (q, e) :: es else (q, f) :: setEntry p e es

def set (t : FileTree) (p : Place) (e : Entry) : FileTree :=
  { t with entries := setEntry p e t.entries }

theorem lookup_setEntry (p q : Place) (e : Entry) (es : List (Place × Entry)) :
    (setEntry p e es).lookup q = if q = p then some e else es.lookup q := by
  induction es with
  | nil => grind [setEntry]
  | cons f es ih => grind [setEntry]

theorem get?_set (t : FileTree) (p q : Place) (e : Entry) (h : q ≠ []) :
    (t.set p e).get? q = if q = p then some e else t.get? q := by
  simp [get?, set, h, lookup_setEntry]

@[simp] theorem home_set (t : FileTree) (p : Place) (e : Entry) : (t.set p e).home = t.home := rfl

def erase (t : FileTree) (p : Place) : FileTree :=
  { t with entries := t.entries.filter fun (q, _) => q ≠ p }

/-- The greatest length of a name, in bytes. -/
def maxNameBytes : Nat := 255

/-- The greatest length of a written path, in bytes. -/
def maxPathBytes : Nat := 4095

/-- Halves of surrogate pairs have no form in bytes, but for those that mean bytes of their own. -/
def isFileCharacter (c : Char) : Bool :=
  !Unicode.isHalf c || (0xDC80 ≤ Unicode.codePointOf c && Unicode.codePointOf c < 0xDD00)

/-- What is wrong with a path, whatever files there are. -/
def pathFault? (p : Path) : Option FileFault :=
  let s := p.toString
  if !s.toList.all isFileCharacter then some .notEncodable
  else if s.toList.contains '\x00' then some .zeroCharacter
  else if maxPathBytes < s.utf8ByteSize then some .nameTooLong
  else none

def isTooLong (name : String) : Bool := maxNameBytes < name.utf8ByteSize

/-- Where a path starts. -/
def start (t : FileTree) (p : Path) : Place := if p.rooted then [] else t.home

/-- Follows names from a place; each of them is sought in an existing directory. The directory around
the root is the root. -/
def follow (t : FileTree) (place : Place) : List String → Except FileFault Place
  | [] => .ok place
  | name :: names =>
    match t.get? place with
    | none => .error .notFound
    | some (.file _) => .error .notADirectory
    | some .directory =>
      if isTooLong name then .error .nameTooLong
      else follow t (if name = ".." then place.dropLast else place ++ [name]) names

/-- The place that a path leads to. -/
def locate (t : FileTree) (p : Path) : Except FileFault Place :=
  match pathFault? p with
  | some f => .error f
  | none => t.follow (t.start p) p.names

/-- What a path leads to, if there is anything. Only a name that is too long is a fault. -/
def find? (t : FileTree) (p : Path) : Except FileError (Option Entry) :=
  match t.locate p with
  | .ok place => .ok (t.get? place)
  | .error .nameTooLong => .error ⟨.nameTooLong, p⟩
  | .error _ => .ok none

def exists? (t : FileTree) (p : Path) : Except FileError Bool := return (← t.find? p).isSome

def isFile (t : FileTree) (p : Path) : Except FileError Bool := do
  match ← t.find? p with
  | some (.file _) => return true
  | _ => return false

def isDirectory (t : FileTree) (p : Path) : Except FileError Bool := do
  match ← t.find? p with
  | some .directory => return true
  | _ => return false

def read (t : FileTree) (p : Path) : Except FileError ByteArray :=
  match t.locate p with
  | .error f => .error ⟨f, p⟩
  | .ok place =>
    match t.get? place with
    | none => .error ⟨.notFound, p⟩
    | some .directory => .error ⟨.isDirectory, p⟩
    | some (.file data) => .ok data

/-- Writes a file in an existing directory, over the file that is there. -/
def write (t : FileTree) (p : Path) (data : ByteArray) : Except FileError FileTree :=
  match t.locate p with
  | .error f => .error ⟨f, p⟩
  | .ok place =>
    match t.get? place, t.get? place.dropLast with
    | some .directory, _ => .error ⟨.isDirectory, p⟩
    | _, some .directory => .ok (t.set place (.file data))
    | _, some (.file _) => .error ⟨.notADirectory, p⟩
    | _, none => .error ⟨.notFound, p⟩

/-- Makes the directories on the way along `names` from a place where they are missing. -/
def makeFrom (t : FileTree) (place : Place) : List String → Except FileFault FileTree
  | [] => .ok t
  | name :: names =>
    let inner := if name = ".." then place.dropLast else place ++ [name]
    if isTooLong name then .error .nameTooLong
    else
      match t.get? inner with
      | none => makeFrom (t.set inner .directory) inner names
      | some .directory => makeFrom t inner names
      | some (.file _) => .error (if names.isEmpty then .alreadyExists else .notADirectory)

/-- Makes a directory and those around it where they are missing. -/
def makeDirectories (t : FileTree) (p : Path) : Except FileError FileTree :=
  match pathFault? p, t.makeFrom (t.start p) p.names with
  | some f, _ => .error ⟨f, p⟩
  | none, .ok t => .ok t
  | none, .error f => .error ⟨f, p⟩

/-- Puts an entry where a path leads, with directories around it. -/
def put (t : FileTree) (p : Path) (e : Entry) : FileTree :=
  match t.makeFrom (t.start p) p.names.dropLast with
  | .ok t => if p.names = [] then t else t.set (t.start p ++ p.names) e
  | .error _ => t

/-- The names in a directory with what they name, in order. -/
def children (t : FileTree) (p : Place) : List (String × Entry) :=
  let inside := t.entries.filterMap fun (q, e) =>
    match q.getLast? with
    | some name => if q.dropLast = p then some (name, e) else none
    | none => none
  inside.mergeSort fun a b => a.1 ≤ b.1

/-- The ways from a directory to all that is below it, in order. -/
def below (t : FileTree) (p : Place) : List (List String) :=
  let inside := t.entries.filterMap fun (q, _) =>
    if p.isPrefixOf q && p.length < q.length then some (q.drop p.length) else none
  inside.mergeSort fun a b => !(b < a)

end FileTree
end PageExport
