import PageExport.Delta
import PageExport.Snapshot.Block

/-!
The props of each flavour of block. Absent props have their defaults, other props are ignored, and
a block with a prop of the wrong form is malformed.
-/
namespace PageExport

structure ParagraphProps where
  text : List Delta := []
  type : Option String := some "text"
  deriving Repr

structure ListProps where
  text : List Delta := []
  type : Option String := some "bulleted"
  checked : Option Bool := none
  deriving Repr

structure CodeProps where
  text : List Delta := []
  language : Option String := none
  deriving Repr

structure ImageProps where
  sourceId : String := ""
  width : Option Binary64 := none
  height : Option Binary64 := none
  caption : Option String := none
  deriving Repr

structure EmbedProps where
  image : ImageProps := {}
  type : String := ""
  deriving Repr

structure PageProps where
  title : List Delta := []
  deriving Repr

structure SelectOption where
  id : String
  value : String := ""
  color : Option String := none
  deriving Repr

structure Column where
  id : String
  name : String := ""
  type : String := "rich-text"
  options : List SelectOption := []
  deriving Repr

structure Cell where
  columnId : Option String := none
  value : Value := .null

structure DatabaseProps where
  title : List Delta := []
  columns : List Column := []
  cells : List (String × List (String × Cell)) := []

def Members.text (ms : Members) (key : String) : Logged (List Delta) :=
  Delta.readText ((ms.lookup key).getD .null)

def ParagraphProps.read (ms : Members) : Logged (Reading ParagraphProps) := do
  let text ← ms.text "text"
  return ParagraphProps.mk text <$> .field ms "type" (some "text") (.optional .string)

def ListProps.read (ms : Members) : Logged (Reading ListProps) := do
  let text ← ms.text "text"
  return ListProps.mk text <$> .field ms "type" (some "bulleted") (.optional .string)
    <*> .field ms "checked" none (.optional .truth)

def CodeProps.read (ms : Members) : Logged (Reading CodeProps) := do
  let text ← ms.text "text"
  return CodeProps.mk text <$> .field ms "language" none (.optional .string)

def ImageProps.readMembers (ms : Members) : Reading ImageProps :=
  ImageProps.mk <$> .field₂ ms "sourceId" "source_id" "" .string
    <*> .field ms "width" none (.optional .number)
    <*> .field ms "height" none (.optional .number)
    <*> .field ms "caption" none (.optional .string)

def ImageProps.read (ms : Members) : Logged (Reading ImageProps) := pure (readMembers ms)

def EmbedProps.read (ms : Members) : Logged (Reading EmbedProps) :=
  pure (EmbedProps.mk <$> ImageProps.readMembers ms <*> .field ms "type" "" .string)

def PageProps.read (ms : Members) : Logged (Reading PageProps) := do
  return .ok ⟨← ms.text "title"⟩

def SelectOption.read : Value → Reading SelectOption :=
  .record fun ms =>
    SelectOption.mk <$> .required ms "id" .string <*> .field ms "value" "" .string
      <*> .field ms "color" none (.optional .string)

def Column.read : Value → Reading Column :=
  .record fun ms =>
    Column.mk <$> .required ms "id" .string <*> .field ms "name" "" .string
      <*> .field ms "type" "rich-text" .string
      <*> .field ms "data" []
        (.recordOrNull fun data => .field data "options" [] (.list SelectOption.read))

def Cell.read : Value → Reading Cell :=
  .record fun ms =>
    Cell.mk <$> .field₂ ms "columnId" "column_id" none (.optional .string)
      <*> .field ms "value" .null .ok

def DatabaseProps.read (ms : Members) : Logged (Reading DatabaseProps) := do
  let title ← ms.text "title"
  return DatabaseProps.mk title <$> .field ms "columns" [] (.list Column.read)
    <*> .field ms "cells" [] (.table (.table Cell.read))

/-- A block whose props cannot be read, with the number of props at fault. -/
structure MalformedBlock where
  id : String
  tag : String
  faults : Nat
  deriving DecidableEq, Repr

def MalformedBlock.message (m : MalformedBlock) : String :=
  s!"Malformed {m.tag} block {quotedName m.id}: {m.faults} invalid prop(s)"

/-- Reads the props of a block in one of the forms above. -/
def Block.readAs {α : Type} (read : Members → Logged (Reading α)) (b : Block) :
    Logged (Except MalformedBlock α) := do
  match ← read b.props with
  | .ok props => return .ok props
  | .faulty fs => return .error ⟨b.id, b.tag, fs.length⟩

end PageExport
