import PageExport.Markdown.Document
import PageExport.Walk.Visit

/-!
Pages: the Markdown of a block tree with the references of its assets. Only reading a snapshot or a
configuration has limits to the depth of nesting and to the digits of a number; the walk and the writing
have none of their own.
-/
namespace PageExport

open Markdown (Misplaced Options)

structure Page where
  markdown : String
  assetIds : List String
  deriving DecidableEq, Repr

inductive PageFault where
  | walk (fault : WalkFault)
  | misplaced (fault : Misplaced)
  deriving DecidableEq, Repr

/-- The page of a block tree, by way of its syntax tree. -/
def Block.toPage (assets : Option Resolver) (o : Options) (b : Block) :
    Logged (Except PageFault Page) := do
  match ← b.walk assets (.root []) with
  | .error e => return .error (.walk e)
  | .ok r =>
    match Markdown.markdown o r.tree with
    | .ok s => return .ok ⟨s, r.assetIds⟩
    | .error e => return .error (.misplaced e)

end PageExport
