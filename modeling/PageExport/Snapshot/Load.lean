import PageExport.Files.Read
import PageExport.Snapshot.Block
import PageExport.Value.Parser

/-!
Snapshot files: where they are found, and the block trees in them.
-/
namespace PageExport

inductive LoadFault where
  | read (fault : ReadFault)
  | json (path : Path) (text : Text) (refusal : JsonRefusal)
  | snapshot (path : Path) (fault : SnapshotFault)
  deriving DecidableEq, Repr

/-- A file holds JSON that is not valid, or not a snapshot. -/
def LoadFault.message : LoadFault → String
  | .read f => f.message
  | .json p text r => "Invalid JSON in " ++ p.toString ++ ": " ++ r.message text
  | .snapshot p f => p.toString ++ ": " ++ f.message

def Block.load (t : FileTree) (p : Path) : Except LoadFault Block :=
  match t.readText p with
  | .error f => .error (.read f)
  | .ok text =>
    match Value.parse text with
    | .error r => .error (.json p text r)
    | .ok v =>
      match Block.parse v with
      | .error f => .error (.snapshot p f)
      | .ok b => .ok b

def Path.isSnapshot (p : Path) : Bool := p.extension = ".json".toList

/-- The snapshots that a path stands for: itself if it is a file, or all that a directory holds at
any depth under the name of a snapshot, in order. -/
def FileTree.snapshots (t : FileTree) (p : Path) : Except FileError (List Path) := do
  match ← t.find? p, t.locate p with
  | some (.file _), _ => return if p.isSnapshot then [p] else []
  | some .directory, .ok place =>
    return ((t.below place).map fun names => { p with names := p.names ++ names }).filter
      Path.isSnapshot
  | _, _ => return []

end PageExport
