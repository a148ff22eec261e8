import PageExport.Calendar
import PageExport.Props

/-!
What the cells of a database show. A column decides how its cells are read; a cell that is not
stored shows nothing, but titles come from the row itself.
-/
namespace PageExport

/-- The ways to read a cell. -/
inductive ColumnKind where
  | plain | richText | title | date | select | multiSelect | other
  deriving DecidableEq, Repr

def Column.kind (c : Column) : ColumnKind :=
  match c.type with
  | "link" | "progress" | "number" | "checkbox" => .plain
  | "rich-text" => .richText
  | "title" => .title
  | "date" => .date
  | "select" => .select
  | "multi-select" => .multiSelect
  | _ => .other

/-- A stored value as its editor shows it: whole numbers without a point, nothing for null. -/
def Value.shown : Value → Option String
  | .null => none
  | .bool b => some (if b then "true" else "false")
  | .string s => some s
  | .float x =>
    some (String.ofList (match x.toInt? with
      | some i => Text.ofInt i
      | none => x.text))
  | v => some (String.ofList v.display)

/-- The number that a value stands for as an instant. -/
def Value.instant? : Value → Option Binary64
  | .float x => some x
  | .int i => Binary64.ofInt? i
  | .bool b => some (.ofBool b)
  | .string s => Binary64.readLoose s.toList
  | _ => none

/-- The text of the option that a value names. -/
def Column.option? (c : Column) (v : Value) : Option String :=
  match v with
  | .string id => (c.options.find? fun o => o.id = id).map (·.value)
  | _ => none

/-- The texts of the options that the items of a value name, without the empty ones. -/
def Column.optionTexts (c : Column) (v : Value) : List String :=
  match v with
  | .array vs => (vs.filterMap c.option?).filter fun s => !s.isEmpty
  | _ => []

/-- The day of an instant in milliseconds; what is no instant is noted and shows nothing. -/
def dateText (column row : String) (v : Value) : Logged String :=
  match v with
  | .null => pure ""
  | v =>
    match v.instant?.bind Date.ofMilliseconds? with
    | some d => pure (String.ofList d.text)
    | none => do
      Logged.note .warning <|
        "Unreadable date " ++ String.ofList v.display ++ " in row " ++ quotedName row
          ++ ", column " ++ quotedName column
      return ""

/-- What a column shows for a row with the stored cell `cell`, if there is one. -/
def Column.show (c : Column) (cell : Option Cell) (row : Block) : Logged (Option String) :=
  match c.kind, cell with
  | .title, _ => do return some (Delta.plainText "" (← Delta.readText (row.prop "text")))
  | _, none => pure (some "")
  | .plain, some cell => pure cell.value.shown
  | .richText, some cell => do return some (Delta.plainText "" (← Delta.readText cell.value))
  | .date, some cell => do return some (← dateText c.id row.id cell.value)
  | .select, some cell => pure (some ((c.option? cell.value).getD ""))
  | .multiSelect, some cell => pure (some (",".intercalate (c.optionTexts cell.value)))
  | .other, some _ => pure (some "")

end PageExport
