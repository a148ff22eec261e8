import PageExport.Files.Tree
import PageExport.Log

/-!
Assets that documents refer to, and the names of their files.
-/
namespace PageExport

structure Asset where
  data : ByteArray
  /-- The name to show, such as that of the uploaded file. -/
  name : Option String := none
  contentType : String := ""

/-- Why a reference has no answer. A resolver may fail in any way, also as a malformed block does;
`raised` stands for the faults that have no form of their own here. -/
inductive ResolveFault where
  | unreadable (message : String)
  | malformed (message : String)
  | badPattern (ref : String)
  | file (error : FileError)
  | raised (name message : String)
  deriving DecidableEq, Repr

/-- Answers a reference with its asset, or with nothing if there is none. -/
abbrev Resolver := String → Logged (Except ResolveFault (Option Asset))

/-- Answers references in turn, where an answer may hang on the references before it, the latest of
them first. Whatever a resolver keeps from one reference to the next, and whatever changes beside it
in the meantime, its answers in one walk are those of such a function. -/
abbrev AssetSource := List String → Resolver

/-- A resolver whose answers do not hang on what was asked before. -/
def Resolver.steady (r : Resolver) : AssetSource := fun _ => r

/-- The asset that a resolver has for a reference. -/
def Resolver.asset? (r : Resolver) (ref : String) : Option Asset :=
  match (r ref).value with
  | .ok a => a
  | .error _ => none

namespace Asset

def beforeFirst (c : Char) (t : Text) : Text := t.takeWhile (· ≠ c)

def afterLast (c : Char) (t : Text) : Text := (t.reverse.takeWhile (· ≠ c)).reverse

/-- The extension of the display name if it has one, else the subtype of the content. -/
def extension (a : Asset) : Text :=
  let ofContent :=
    if a.contentType.isEmpty then ['b', 'l', 'o', 'b'] else afterLast '/' a.contentType.toList
  match a.name with
  | some name => if name.toList.contains '.' then afterLast '.' name.toList else ofContent
  | none => ofContent

/-- The display name up to its first dot, or the reference if there is no display name. -/
def stem (ref : String) (a : Asset) : Text :=
  match a.name with
  | some name => beforeFirst '.' name.toList
  | none => ref.toList

def fileName (ref : String) (a : Asset) : String :=
  String.ofList (a.stem ref ++ '.' :: a.extension)

/-- The directory of copied assets below the output directory. -/
def directory : String := "assets"

def url (ref : String) (a : Asset) : String := directory ++ "/" ++ a.fileName ref

end Asset
end PageExport
