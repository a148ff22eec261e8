import PageExport.Walk.Script

/-!
Trees under construction as they are stored. A node refers to its children, so the list of the open
nodes and the tree share them, and the scopes are in a list of their own. An operation changes these one
after the other; what it changed before it failed stays changed.
-/
namespace PageExport

open Markdown (Node)

/-- A node by its place among the stored ones. -/
abbrev NodeId := Nat

/-- A node without its children, and where those are stored if it can have any. -/
structure StoredNode where
  label : Node
  children : Option (List NodeId)

namespace Markdown

mutual

/-- The nodes of a tree to be stored from `first` on, each of them before those below it. -/
def Node.store (first : NodeId) (n : Node) : List StoredNode :=
  match n with
  | .strong cs | .emphasis cs | .delete cs | .link _ _ cs | .paragraph cs | .heading _ cs
  | .blockquote cs | .listItem _ _ cs | .list _ _ _ cs | .tableCell cs | .tableRow cs
  | .table _ cs | .root cs =>
    let below := storeAll (first + 1) cs
    ⟨n.withChildren [], some below.1⟩ :: below.2
  | .text _ | .inlineCode _ | .image _ _ _ | .code _ _ _ | .thematicBreak => [⟨n, none⟩]

/-- Trees one behind the other, and where each of them starts. -/
def storeAll (first : NodeId) : List Node → List NodeId × List StoredNode
  | [] => ([], [])
  | n :: ns =>
    let stored := n.store first
    let others := storeAll (first + stored.length) ns
    (first :: others.1, stored ++ others.2)

end

end Markdown

/-- The nodes stored so far, the open ones and their scopes from the root on, and the values that last
for the whole construction. -/
structure SharedContext where
  nodes : List StoredNode
  stack : List NodeId
  locals : List Members
  globals : Members := []

inductive SharedFault where
  | context (fault : ContextFault)
  /-- There is no last element to look at or to drop, or nothing is stored at a place. -/
  | missing
  deriving DecidableEq, Repr

/-- Operations on the shared state; after a fault it is as the fault left it. -/
abbrev Building := EStateM SharedFault SharedContext

namespace SharedContext

/-- Nothing is open but the root. -/
def start (root : Node) : SharedContext := ⟨root.store 0, [0], [[]], []⟩

def depth (s : SharedContext) : Nat := s.stack.length - 1

/-- The tree stored at a place, if it is no higher than `height`. -/
def readNode (nodes : List StoredNode) : Nat → NodeId → Option Node
  | 0, _ => none
  | height + 1, id => do
    let node ← nodes[id]?
    match node.children with
    | none => return node.label
    | some ids => return node.label.withChildren (← ids.mapM (readNode nodes height))

/-- The tree below the first of the open nodes. -/
def tree? (s : SharedContext) : Option Node :=
  s.stack.head?.bind (readNode s.nodes s.nodes.length)

def fail {α : Type} (fault : ContextFault) : Building α := fun s => .error (.context fault) s

/-- Looks at what must be there. -/
def look {α : Type} (f : SharedContext → Option α) : Building α := fun s =>
  match f s with
  | some a => .ok a s
  | none => .error .missing s

def change (f : SharedContext → SharedContext) : Building Unit := fun s => .ok () (f s)

/-- Stores a tree that is not part of another one. -/
def store (n : Node) : Building NodeId := fun s =>
  .ok s.nodes.length { s with nodes := s.nodes ++ n.store s.nodes.length }

/-- Opens a stored node as the last child of the current one. -/
def openNode (id : NodeId) : Building Unit := do
  let parent ← look (·.stack.getLast?)
  let node ← look (·.nodes[parent]?)
  match node.children with
  | none => fail (.childless (← look (·.nodes[id]?)).label.type node.label.type)
  | some ids =>
    change fun s =>
      { s with nodes := s.nodes.set parent { node with children := some (ids ++ [id]) } }
    change fun s => { s with stack := s.stack ++ [id] }
    change fun s => { s with locals := s.locals ++ [[]] }

def popStack : Building Unit := do
  let _ ← look (·.stack.getLast?)
  change fun s => { s with stack := s.stack.dropLast }

def popLocals : Building Unit := do
  let _ ← look (·.locals.getLast?)
  change fun s => { s with locals := s.locals.dropLast }

/-- Closes the current node. -/
def closeNode : Building Unit := do
  if (← look fun s => some s.stack.length) = 1 then fail .closesRoot
  else
    popStack
    popLocals

/-- Opens a stored node and closes it at once. -/
def append (id : NodeId) : Building Unit := do
  openNode id
  closeNode

/-- Closes the current node after `body`, however `body` ends; a fault of closing it is the one reported. -/
def closing (body : Building Value) : Building Value := fun s =>
  match body s with
  | .ok v s =>
    match closeNode s with
    | .ok _ s => .ok v s
    | .error e s => .error e s
  | .error e s =>
    match closeNode s with
    | .ok _ s => .error e s
    | .error e s => .error e s

mutual

/-- Performs an action on nodes that are not yet in the tree. -/
def perform : Action → Building Value
  | .openNode n => do
    openNode (← store n)
    return .null
  | .append n => do
    append (← store n)
    return .null
  | .closeNode => do
    closeNode
    return .null
  | .setGlobal key v => do
    change fun s => { s with globals := s.globals.insert key v }
    return .null
  | .getGlobal key default => do
    return ((← look fun s => some s.globals).lookup key).getD default
  | .setLocal key v => do
    let scope ← look (·.locals.getLast?)
    change fun s => { s with locals := s.locals.dropLast ++ [scope.insert key v] }
    return .null
  | .getLocal key default => do
    return ((← look (·.locals.getLast?)).lookup key).getD default
  | .opened n inner => do
    openNode (← store n)
    closing (performAll inner)

def performAll : List Action → Building Value
  | [] => return .null
  | a :: as => do
    let _ ← perform a
    performAll as

end

/-- The state after an action, whether or not it failed. -/
def after (s : SharedContext) (a : Action) : SharedContext :=
  match perform a s with
  | .ok _ t => t
  | .error _ t => t

end SharedContext
end PageExport
