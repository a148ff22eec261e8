import PageExport.Database.Cell
import PageExport.Markdown.Document

/-!
Databases as grids: a row of column names, and a row of cell texts for each child of the database.
-/
namespace PageExport

open Markdown (Node)

/-- The texts of the cells, row by row, `none` for a cell whose value is null. -/
abbrev Grid := List (List (Option String))

def DatabaseProps.cell? (p : DatabaseProps) (row column : String) : Option Cell :=
  (p.cells.lookup row).bind fun cells => cells.lookup column

def DatabaseProps.header (p : DatabaseProps) : List (Option String) :=
  p.columns.map fun c => some c.name

def DatabaseProps.rowTexts (p : DatabaseProps) (row : Block) : Logged (List (Option String)) :=
  p.columns.mapM fun c => c.show (p.cell? row.id c.id) row

/-- The grid of a database block with readable props. -/
def DatabaseProps.grid (p : DatabaseProps) (b : Block) : Logged Grid := do
  return p.header :: (← b.children.mapM p.rowTexts)

def Grid.toNode (g : Grid) : Node :=
  .table none (g.map fun row => .tableRow (row.map fun t => .tableCell [.text t]))

end PageExport
