import PageExport.Asset.Directory

/-!
Copying assets beside the documents that link to them. References are taken one after the other,
each of them once; a fault leaves what was copied before.
-/
namespace PageExport

inductive StoreFault where
  | resolve (fault : ResolveFault)
  | file (error : FileError)
  deriving DecidableEq, Repr

/-- Copying changes the files, and what the source of the assets remembers. -/
structure StoreState (σ : Type) where
  files : FileTree
  source : σ
  log : Log := []

abbrev Storing (σ : Type) := EStateM StoreFault (StoreState σ)

def Resolver.answer (r : Resolver) (ref : String) : Storing Unit (Option Asset) := fun s =>
  let answer := r ref
  let s := { s with log := s.log ++ answer.log }
  match answer.value with
  | .ok a => .ok a s
  | .error e => .error (.resolve e) s

/-- Answers references from a directory that remembers its answers. -/
def AssetDirectory.answer (ref : String) : Storing AssetDirectory (Option Asset) := fun s =>
  let answer := s.source.resolve s.files ref
  let s := { s with source := s.source.remember s.files ref, log := s.log ++ answer.log }
  match answer.value with
  | .ok a => .ok a s
  | .error e => .error (.resolve e) s

namespace Asset

variable {σ : Type}

/-- A step on the files that leaves them as they are if it fails. -/
def onFiles (f : FileTree → Except FileError FileTree) : Storing σ Unit := fun s =>
  match f s.files with
  | .ok t => .ok () { s with files := t }
  | .error e => .error (.file e) s

def target (a : Asset) (dest : Path) (ref : String) : Path :=
  (dest.child directory).child (a.fileName ref)

/-- Copies the asset of a reference, if there is one, and answers its path. -/
def store (answer : String → Storing σ (Option Asset)) (dest : Path) (ref : String) :
    Storing σ (Option Path) := do
  match ← answer ref with
  | none => return none
  | some a =>
    onFiles (·.makeDirectories (dest.child directory))
    onFiles (·.write (a.target dest ref) a.data)
    return some (a.target dest ref)

def storeEach (answer : String → Storing σ (Option Asset)) (dest : Path) :
    List String → Storing σ (List Path)
  | [] => return []
  | ref :: refs => do
    let path ← store answer dest ref
    return path.toList ++ (← storeEach answer dest refs)

/-- Copies the assets of all references, each of them once, and answers the paths. -/
def storeAll (answer : String → Storing σ (Option Asset)) (refs : List String) (dest : Path) :
    Storing σ (List Path) :=
  storeEach answer dest refs.eraseDups

end Asset
end PageExport
