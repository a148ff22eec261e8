import PageExport.Text.Basic

/-!
Paths as lists of names. Doubled slashes and single dots leave no name; two dots stay, since what
they mean depends on the tree of files.
-/
namespace PageExport

/-- A way from the working directory or, if it is rooted, from the root of all files. -/
structure Path where
  rooted : Bool
  names : List String
  deriving DecidableEq, Repr, Inhabited

namespace Path

def ofString (s : String) : Path :=
  let parts := (Text.split '/' s.toList).filter fun p => p ≠ [] && p ≠ ['.']
  ⟨s.toList.head? = some '/', parts.map String.ofList⟩

/-- The written form; the working directory is a dot. -/
def toString (p : Path) : String :=
  let body := String.ofList (Text.join ['/'] (p.names.map String.toList))
  if p.rooted then "/" ++ body else if p.names.isEmpty then "." else body

/-- The path `q` seen from `p`. -/
def append (p q : Path) : Path := if q.rooted then q else { p with names := p.names ++ q.names }

/-- The path of `name`, which may be a path of its own, seen from `p`. -/
def child (p : Path) (name : String) : Path := p.append (ofString name)

def name (p : Path) : String := p.names.getLast?.getD ""

/-- A name as its stem and its extension, which starts with the last dot. A dot at either end of the
name starts no extension. -/
def splitName (name : Text) : Text × Text :=
  let after := (name.reverse.takeWhile (· ≠ '.')).reverse
  let before := name.take (name.length - after.length - 1)
  if after.isEmpty || before.isEmpty || after.length = name.length then (name, [])
  else (before, '.' :: after)

def stem (p : Path) : Text := (splitName p.name.toList).1

def extension (p : Path) : Text := (splitName p.name.toList).2

end Path
end PageExport
