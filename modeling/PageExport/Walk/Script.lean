import PageExport.Value.Basic
import PageExport.Walk.Context

/-!
Scripts of context operations over scopes that hold values by key.
-/
namespace PageExport

open Markdown (Node)

/-- A context whose scopes hold values by key. -/
abbrev KeyContext := Context Members Members

inductive Action where
  | openNode (n : Node)
  | append (n : Node)
  | closeNode
  | setGlobal (key : String) (v : Value)
  | getGlobal (key : String) (default : Value)
  | setLocal (key : String) (v : Value)
  | getLocal (key : String) (default : Value)
  /-- Keeps a node open for the inner actions and closes it however they end. -/
  | opened (n : Node) (inner : List Action)

instance : Inhabited Action := ⟨.closeNode⟩

namespace KeyContext

/-- What an action answers, null unless it reads a scope, and the context it leaves. -/
abbrev Outcome := Except ContextFault Value × KeyContext

/-- The outcome of an operation that leaves the context as it was if it fails. -/
def settle (c : KeyContext) : Except ContextFault KeyContext → Outcome
  | .ok d => (.ok .null, d)
  | .error e => (.error e, c)

/-- Closes the current node after an outcome; a failure to close is the failure reported. -/
def closeAfter (r : Outcome) : Outcome :=
  match r.2.closeNode with
  | .ok c => (r.1, c)
  | .error e => (.error e, r.2)

mutual

def perform (c : KeyContext) : Action → Outcome
  | .openNode n => settle c (c.openNode n)
  | .append n => settle c (c.append n)
  | .closeNode => settle c c.closeNode
  | .setGlobal key v => (.ok .null, { c with global := c.global.insert key v })
  | .getGlobal key default => (.ok ((c.global.lookup key).getD default), c)
  | .setLocal key v => (.ok .null, c.setScope (c.current.scope.insert key v))
  | .getLocal key default => (.ok ((c.current.scope.lookup key).getD default), c)
  | .opened n inner =>
    match c.openNode n with
    | .ok d => closeAfter (performAll d inner)
    | .error e => (.error e, c)

def performAll (c : KeyContext) : List Action → Outcome
  | [] => (.ok .null, c)
  | a :: as =>
    match perform c a with
    | (.ok _, d) => performAll d as
    | (.error e, d) => (.error e, d)

end

end KeyContext
end PageExport
