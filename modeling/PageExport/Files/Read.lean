import PageExport.Files.Tree
import PageExport.Unicode.Utf8

/-!
Files as texts in UTF-8, with every line break read as a line feed.
-/
namespace PageExport

inductive ReadFault where
  | file (error : FileError)
  | notUtf8 (path : Path) (fault : Option Utf8.Fault)
  deriving DecidableEq, Repr

def ReadFault.message : ReadFault → String
  | .file e => e.message
  | .notUtf8 _ (some f) => f.message
  | .notUtf8 p none => p.toString ++ " is not encoded in UTF-8"

def FileTree.readText (t : FileTree) (p : Path) : Except ReadFault Text :=
  match t.read p with
  | .error e => .error (.file e)
  | .ok data =>
    match String.fromUTF8? data with
    | some s => .ok (Text.unifyNewlines s.toList)
    | none => .error (.notUtf8 p (Utf8.fault? data))

end PageExport
