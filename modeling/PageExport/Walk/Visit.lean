import PageExport.Asset.Basic
import PageExport.Database.Grid
import PageExport.Snapshot.Blank
import PageExport.Walk.ListSignature

/-!
From block trees to syntax trees: a walk in pre-order that enters each block, visits its children
and leaves it. Two things cross the boundaries of blocks. The depth of nested paragraphs indents
their text, and the list that a block has open takes in its further list children.
-/
namespace PageExport

open Markdown (Node nodesOfInlines)

inductive WalkFault where
  | context (fault : ContextFault)
  | resolver (fault : ResolveFault)
  deriving DecidableEq, Repr

/-- The depth of nested paragraphs, and for each open list the block that started it. -/
abbrev WalkContext := Context Nat (Option String)

structure WalkState where
  context : WalkContext
  assetIds : List String := []
  log : Log := []
  /-- The references that the assets were asked for, the latest first. -/
  asked : List String := []

abbrev Walk := EStateM WalkFault WalkState

namespace Walk

/-- A step of the open nodes. -/
def onContext (f : WalkContext → Except ContextFault WalkContext) : Walk Unit := fun s =>
  match f s.context with
  | .ok c => .ok () { s with context := c }
  | .error e => .error (.context e) s

def append (n : Node) : Walk Unit := onContext (·.append n)

def openNode (n : Node) : Walk Unit := onContext (·.openNode n)

def closeNode : Walk Unit := onContext (·.closeNode)

def logged {α : Type} (x : Logged α) : Walk α := fun s =>
  .ok x.value { s with log := s.log ++ x.log }

def note (level : Level) (message : String) : Walk Unit := logged (.note level message)

/-- Runs `leave` after `body`, however `body` ends; a fault of `leave` is the one reported. -/
def withLeave (body leave : Walk Unit) : Walk Unit := fun s =>
  match body s with
  | .ok _ s => leave s
  | .error e s =>
    match leave s with
    | .ok _ s => .error e s
    | .error e s => .error e s

/-- Appends a child to a node that is open for it alone. -/
def appendInside (n child : Node) : Walk Unit := do
  openNode n
  withLeave (append child) closeNode

/-- What is undone when a block is left. -/
inductive Leave where
  | nothing | closeItem | leaveParagraph
  deriving DecidableEq, Repr

/-- The outcome of entering a block. -/
structure Entry where
  descend : Bool := true
  leave : Leave := .nothing

def paragraphDepth : Walk Nat := fun s => .ok s.context.global s

def setParagraphDepth (depth : Nat) : Walk Unit := fun s =>
  .ok () { s with context := { s.context with global := depth } }

def undo : Leave → Walk Unit
  | .nothing => pure ()
  | .closeItem => closeNode
  | .leaveParagraph => do setParagraphDepth ((← paragraphDepth) - 1)

/-- Closes the current node if it is a list that `parent` started. -/
def closeList (parent : Option String) : Walk Unit := fun s =>
  match s.context.current.node with
  | .list _ _ _ _ => if s.context.current.scope = parent then closeNode s else .ok () s
  | _ => .ok () s

/-- Reads the props of a block; a malformed block is noted and entered without effect. -/
def withProps {α : Type} (read : Members → Logged (Reading α)) (b : Block)
    (enter : α → Walk Entry) : Walk Entry := do
  match ← logged (b.readAs read) with
  | .ok props => enter props
  | .error m =>
    note .warning (m.message ++ "; skipping block")
    return {}

def enterCode (b : Block) : Walk Entry :=
  withProps CodeProps.read b fun p => do
    append (.code p.language none (Delta.plainText "" p.text))
    return {}

def headingDepth? : String → Option Nat
  | "h1" => some 1
  | "h2" => some 2
  | "h3" => some 3
  | "h4" => some 4
  | "h5" => some 5
  | "h6" => some 6
  | _ => none

def appendParagraph (b : Block) (p : ParagraphProps) (depth : Nat) : Walk Unit :=
  match p.type.bind headingDepth?, p.type with
  | some h, _ => append (.heading h (nodesOfInlines (Delta.content depth p.text)))
  | none, some "text" => append (.paragraph (nodesOfInlines (Delta.content depth p.text)))
  | none, some "quote" =>
    appendInside (.blockquote []) (.paragraph (nodesOfInlines (Delta.content 0 p.text)))
  | none, type =>
    let shown := match type with
      | some t => quotedName t
      | none => "None"
    note .debug s!"No Markdown for paragraph type {shown} (block {quotedName b.id})"

def enterParagraph (b : Block) : Walk Entry :=
  withProps ParagraphProps.read b fun p => do
    let depth ← paragraphDepth
    appendParagraph b p depth
    setParagraphDepth (depth + 1)
    return { leave := .leaveParagraph }

/-- The signature of the current node, if it is a list. -/
def currentSignature : Walk (Option ListSignature) := fun s =>
  match ListSignature.ofNode s.context.current.node with
  | .ok signature => .ok signature s
  | .error e => .error (.context e) s

def openList (ordered : Bool) (parent : Option String) : Walk Unit := do
  openNode (.list ordered none false [])
  onContext fun c => .ok (c.setScope parent)

def enterList (b : Block) (parent : Option String) : Walk Entry :=
  withProps ListProps.read b fun p => do
    let prior ← currentSignature
    let owner ← fun s => .ok (if prior.isSome then s.context.current.scope else none) s
    unless p.signature.continues parent owner prior do
      closeList parent
      openList p.signature.ordered parent
    openNode (.listItem p.checkState false [])
    append (.paragraph (nodesOfInlines (Delta.content 0 p.text)))
    return { leave := .closeItem }

/-- Ends the walk with a fault of the assets. -/
def failWith {α : Type} (fault : ResolveFault) : Walk α := fun s => .error (.resolver fault) s

/-- What the assets answer to a reference after those they were asked for before. -/
def ask (source : AssetSource) (ref : String) : Walk (Except ResolveFault (Option Asset)) := fun s =>
  let answer := source s.asked ref
  .ok answer.value { s with log := s.log ++ answer.log, asked := ref :: s.asked }

/-- What is noted of a fault of the assets that costs its block only. -/
def caught? (b : Block) : ResolveFault → Option String
  | .unreadable message => some s!"Image block {quotedName b.id} dropped: {message}"
  | .malformed message => some (message ++ "; skipping block")
  | _ => none

/-- Answers a reference. A fault that costs the block only is noted and counts as a missing asset. -/
def resolve (source : AssetSource) (b : Block) (ref : String) : Walk (Option Asset) := do
  match ← ask source ref with
  | .ok (some a) => return some a
  | .ok none =>
    note .warning s!"Image block {quotedName b.id}: asset {quotedName ref} not found"
    return none
  | .error fault =>
    match caught? b fault with
    | some message =>
      note .warning message
      return none
    | none => failWith fault

def addAssetId (ref : String) : Walk Unit := fun s =>
  .ok () { s with assetIds := s.assetIds ++ [ref] }

def enterImage (assets : Option AssetSource) (b : Block) : Walk Entry :=
  match assets with
  | none => return {}
  | some source =>
    withProps ImageProps.read b fun p => do
      match ← resolve source b p.sourceId with
      | none => return {}
      | some a =>
        addAssetId p.sourceId
        appendInside (.paragraph []) (.image (a.url p.sourceId) none a.name)
        return {}

def enterPage (b : Block) : Walk Entry :=
  withProps PageProps.read b fun p => do
    unless p.title.isEmpty do
      append (.paragraph (nodesOfInlines (Delta.content 0 p.title)))
    return {}

def enterDatabase (b : Block) : Walk Entry :=
  withProps DatabaseProps.read b fun p => do
    let grid ← logged (p.grid b)
    append grid.toNode
    return { descend := false }

def enterOther (b : Block) : Walk Entry := do
  unless b.flavour.isContainer do
    note .debug s!"No Markdown for flavour {quotedName b.tag} (block {quotedName b.id})"
  return {}

/-- Enters a block below `parent`: appends what it contributes before its children. -/
def enter (assets : Option AssetSource) (b : Block) (parent : Option String) : Walk Entry :=
  match b.flavour with
  | .code => enterCode b
  | .paragraph => enterParagraph b
  | .list => enterList b parent
  | .divider => do
    append .thematicBreak
    return {}
  | .image => enterImage assets b
  | .page => enterPage b
  | .database => enterDatabase b
  | .note | .surface | .frame | .embed | .unknown => enterOther b

mutual

/-- Visits a block below `parent`. Any block but a list ends the list that its parent has open. -/
def visit (assets : Option AssetSource) (parent : Option String) : Block → Walk Unit
  | ⟨id, tag, props, children⟩ => do
    let b : Block := ⟨id, tag, props, children⟩
    unless b.flavour = .list do closeList parent
    let entry ← enter assets b parent
    withLeave
      (if entry.descend then do
        visitAll assets (some id) children
        closeList (some id)
      else pure ())
      (undo entry.leave)

def visitAll (assets : Option AssetSource) (parent : Option String) : List Block → Walk Unit
  | [] => pure ()
  | b :: bs => do
    visit assets parent b
    visitAll assets parent bs

end

end Walk

/-- A syntax tree and the references of the images in it, in order. -/
structure WalkResult where
  tree : Node
  assetIds : List String

/-- Walks a block tree below a root. The log is there also if the walk fails. -/
def Block.walkFrom (assets : Option AssetSource) (root : Node) (b : Block) :
    Logged (Except WalkFault WalkResult) :=
  match Walk.visit assets none b { context := .start root 0 } with
  | .ok _ s => ⟨.ok ⟨s.context.tree, s.assetIds⟩, s.log⟩
  | .error e s => ⟨.error e, s.log⟩

/-- Walks a block tree with a resolver whose answers are always the same. -/
def Block.walk (assets : Option Resolver) (root : Node) (b : Block) :
    Logged (Except WalkFault WalkResult) :=
  b.walkFrom (assets.map .steady) root

end PageExport
