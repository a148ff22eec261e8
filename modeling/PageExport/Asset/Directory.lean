import PageExport.Asset.Basic
import PageExport.Asset.ContentType
import PageExport.Files.Glob
import PageExport.Files.Tree

/-!
Assets in a directory. A reference names a file, or the part of a file name before one of its dots.
Answers are remembered, so a reference that was answered keeps its asset.
-/
namespace PageExport

structure AssetDirectory where
  root : Path
  remembered : List (String × Asset) := []

namespace AssetDirectory

/-- References that could lead out of the directory, or to the directory itself. -/
def isForbidden (ref : String) : Bool :=
  ref.isEmpty || ref = "." || ref = ".." || ref.toList.any fun c => c = '/' || c = '\\'

def fileNames (t : FileTree) (root : Path) : List String :=
  match t.locate root with
  | .error _ => []
  | .ok place =>
    match t.get? place with
    | some .directory => (t.children place).filterMap fun (name, e) =>
        match e with
        | .file _ => some name
        | .directory => none
    | _ => []

/-- The name of the file that a reference stands for: its own name, else the first name that extends
it, where the reference counts as a pattern. -/
def findName (t : FileTree) (root : Path) (ref : String) : Except ResolveFault (Option String) :=
  if isForbidden ref then .ok none
  else
    match t.isFile (root.child ref) with
    | .error e => .error (.file e)
    | .ok true => .ok (some ref)
    | .ok false =>
      if Glob.hasDoubleStar ref.toList then .error (.badPattern ref)
      else
        let pattern := Glob.read (ref.toList ++ ['.', '*'])
        .ok ((fileNames t root).find? fun name => Glob.admits pattern name.toList)

/-- The asset in a file; only a name that differs from the reference is shown. -/
def assetOf (ref name : String) (data : ByteArray) : Asset :=
  ⟨data, if name = ref then none else some name, ContentType.ofName name⟩

/-- Answers a reference from the files as they are. -/
def lookUp (t : FileTree) (root : Path) (ref : String) : Except ResolveFault (Option Asset) := do
  match ← findName t root ref with
  | none => return none
  | some name =>
    match t.read (root.child name) with
    | .ok data => return some (assetOf ref name data)
    | .error e =>
      .error (.unreadable
        ("Cannot read asset " ++ quotedName ref ++ " at " ++ e.path.toString ++ ": " ++ e.message))

/-- Answers a reference, from memory if it was answered before. A reference without an asset is
noted. -/
def resolve (d : AssetDirectory) (t : FileTree) : Resolver := fun ref =>
  match d.remembered.lookup ref with
  | some a => pure (.ok (some a))
  | none =>
    match lookUp t d.root ref with
    | .ok none => do
      .note .debug ("Asset " ++ quotedName ref ++ " not found under " ++ d.root.toString)
      return .ok none
    | r => pure r

/-- The directory after a reference was resolved. -/
def remember (d : AssetDirectory) (t : FileTree) (ref : String) : AssetDirectory :=
  if (d.remembered.lookup ref).isSome then d
  else
    match lookUp t d.root ref with
    | .ok (some a) => { d with remembered := (ref, a) :: d.remembered }
    | _ => d

end AssetDirectory
end PageExport
