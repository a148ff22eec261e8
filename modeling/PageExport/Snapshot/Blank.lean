import PageExport.Delta
import PageExport.Snapshot.Block

/-!
Blank paragraphs at the start of a page or of one of its containers, and trees without them.
-/
namespace PageExport.Block

def title (b : Block) : Logged Text := do
  let runs ← Delta.readText (b.prop "title")
  return Text.strip (Delta.plainText "" runs).toList

/-- A paragraph without children whose type is the plain one. -/
def mayBeBlank (b : Block) : Bool :=
  b.flavour = .paragraph && b.children.isEmpty &&
    match b.props.lookup "type" with
    | none => true
    | some (.string t) => t = "text"
    | some _ => false

/-- A childless plain paragraph whose text is blank. -/
def isBlank (b : Block) : Logged Bool :=
  if b.mayBeBlank then do
    let runs ← Delta.readText (b.prop "text")
    return (Text.strip (Delta.plainText "" runs).toList).isEmpty
  else pure false

/-- The blocks from the first one on that is not blank. -/
def dropBlank : List Block → Logged (List Block)
  | [] => pure []
  | b :: bs => do if (← b.isBlank) then dropBlank bs else return b :: bs

/-- The blocks from a place on without the blank ones there. A negative place counts from the
end; one before the first block is out of range. A run of blank blocks that reaches the end goes on
with the first block. -/
def dropBlankFrom (start : Int) (bs : List Block) : Logged (Option (List Block)) :=
  if 0 ≤ start then some <$> dropBlank (bs.drop start.toNat)
  else if (-start).toNat ≤ bs.length then do
    let tail := bs.drop (bs.length - (-start).toNat)
    match ← dropBlank tail with
    | [] => some <$> dropBlank bs
    | rest => return some rest
  else pure none

/-- Blocks whose blank first children are dropped. -/
def isTrimmed (b : Block) : Bool := b.flavour = .page || b.flavour.isContainer

mutual

/-- The tree without the blank paragraphs that its page and containers start with. -/
def trim : Block → Logged Block
  | ⟨id, tag, props, children⟩ =>
    let b : Block := ⟨id, tag, props, children⟩
    if b.isTrimmed then do
      let children ← trimAfterBlank children
      return ⟨id, tag, props, children⟩
    else pure b

/-- Trims the blocks from the first one on that is not blank. -/
def trimAfterBlank : List Block → Logged (List Block)
  | [] => pure []
  | b :: bs => do
    if (← b.isBlank) then trimAfterBlank bs
    else return (← trim b) :: (← trimEach bs)

def trimEach : List Block → Logged (List Block)
  | [] => pure []
  | b :: bs => return (← trim b) :: (← trimEach bs)

end

end PageExport.Block
