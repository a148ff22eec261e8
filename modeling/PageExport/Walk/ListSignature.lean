import PageExport.Props
import PageExport.Walk.Context

/-!
Which list a list block belongs to: one that a sibling started and that has the same signature.
-/
namespace PageExport

open Markdown (Node)

structure ListSignature where
  ordered : Bool
  todo : Bool
  deriving DecidableEq, Repr

/-- The state of the checkbox, which only a to-do item has. -/
def ListProps.checkState (p : ListProps) : Option Bool :=
  if p.type = some "todo" then some (p.checked.getD false) else none

def ListProps.signature (p : ListProps) : ListSignature :=
  ⟨p.type = some "numbered", p.type = some "todo"⟩

/-- The signature of a list, which its first item tells; other nodes have none. -/
def ListSignature.ofNode : Node → Except ContextFault (Option ListSignature)
  | .list ordered _ _ [] => .ok (some ⟨ordered, false⟩)
  | .list ordered _ _ (.listItem checked _ _ :: _) => .ok (some ⟨ordered, checked.isSome⟩)
  | .list _ _ _ (n :: _) => .error (.itemExpected n.type)
  | _ => .ok none

/-- A list block under `parent` goes on with the open list that `owner` started. -/
def ListSignature.continues (candidate : ListSignature) (parent owner : Option String)
    (prior : Option ListSignature) : Bool :=
  owner.isSome && owner == parent && prior == some candidate

end PageExport
