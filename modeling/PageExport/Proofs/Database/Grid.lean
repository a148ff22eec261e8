import PageExport.Proofs.Markdown.TableCells
import PageExport.Database.Grid

/-!
The table of a database. It has a line for its column names, one for each of its rows in order, and the
line of marks between them; each line has one cell for each column, and each cell reads as the text that
its column shows.
-/
namespace PageExport

open Markdown

/-- The content of the cells in a row. -/
def rowContent (row : List (Option String)) : List (List Inline) :=
  row.map fun t => [.text (t.getD "")]

/-- The document of a grid is one table. -/
theorem ofNode_grid (g : Grid) :
    Document.ofNode (.root [g.toNode]) = .ok ⟨[.table [] (g.map rowContent)]⟩ := by
  have hcells (row : List (Option String)) :
      cellsOfNodes (row.map fun t => Node.tableCell [.text t]) = .ok (rowContent row) := by
    induction row with
    | nil => rfl
    | cons t row ih =>
      simp [cellsOfNodes, inlinesOfNodes, Inline.ofNode, rowContent, ih, bind, Except.bind]
  have hrows : rowsOfNodes (g.map fun row => Node.tableRow (row.map fun t => .tableCell [.text t])) =
      .ok (g.map rowContent) := by
    induction g with
    | nil => rfl
    | cons row g ih => simp [rowsOfNodes, hcells, ih, bind, Except.bind]
  simp [Document.ofNode, flowOfNodes, Grid.toNode, Flow.ofNode, hrows, bind, Except.bind, Except.map]

theorem cellTexts_rowContent (o : Options) (row : List (Option String)) :
    cellTexts o (rowContent row) = row.map fun t => cellText (escape (t.getD "").toList) := by
  rw [cellTexts, rowContent, List.map_map]
  refine List.map_congr_left fun t _ => ?_
  simp [phrasing, renderEach, renderAmong, Inline.render, Inline.isDelimited]

/-- The line of a row. -/
def gridLine (width : Nat) (row : List (Option String)) : Text :=
  rowLine width (row.map fun t => cellText (escape (t.getD "").toList))

section
variable {width : Nat} (hwidth : 0 < width)
include hwidth

theorem markdown_toNode (o : Options) {head : List (Option String)} {body : Grid}
    (h : ∀ row ∈ head :: body, row.length = width) :
    ∃ t, markdown o (.root [Grid.toNode (head :: body)]) = .ok t ∧ Text.lines t.toList =
      gridLine width head :: rowLine width (alignMarks [] width) :: body.map (gridLine width) ++
        [[]] := by
  refine ⟨_, by rw [markdown, ofNode_grid]; rfl, ?_⟩
  have hlength : ∀ row ∈ (head :: body).map rowContent, row.length = width :=
    List.forall_mem_map.2 fun row hrow => (List.length_map _).trans (h row hrow)
  have hlines := lines_text_table o [] hwidth hlength
  rw [List.map_map] at hlines
  rw [String.toList_ofList, List.map_cons, hlines, tableLines, List.map_map, cellTexts_rowContent]
  simp [gridLine, Function.comp_def, cellTexts_rowContent]

theorem cellsOf_gridLine {row : List (Option String)} (h : row.length = width) :
    cellsOf (gridLine width row) = row.map fun t => padded (cellText (escape (t.getD "").toList)) := by
  rw [gridLine, cellsOf_rowLine hwidth ((List.length_map _).trans h), List.map_map]
  · rfl
  · exact List.forall_mem_map.2 fun t _ => whole_cellText _

/-- The cells in the line of a row read as what the row shows. -/
theorem readCells_gridLine {row : List (Option String)} (h : row.length = width) :
    (cellsOf (gridLine width row)).map readCell = row.map fun t => shownInCell (t.getD "").toList := by
  rw [cellsOf_gridLine hwidth h, List.map_map]
  refine List.map_congr_left fun t _ => ?_
  rw [Function.comp_apply, readCell_padded]

end

namespace DatabaseProps

theorem value_rowTexts (p : DatabaseProps) (row : Block) :
    (p.rowTexts row).value = p.columns.map fun c => (c.show (p.cell? row.id c.id) row).value :=
  Logged.value_mapM _ _

theorem value_grid (p : DatabaseProps) (b : Block) :
    (p.grid b).value = p.header :: b.children.map fun row => (p.rowTexts row).value := by
  rw [grid, Logged.value_bind, Logged.value_mapM]
  rfl

/-- The table of a database with columns has one line for the names of its columns, one of marks, and one
for each of its rows in order. Each line has a cell for each column, and a cell reads as the name of its
column, or as what its column shows for its row. -/
theorem markdown_grid (o : Options) {p : DatabaseProps} (h : p.columns ≠ []) (b : Block) :
    ∃ t head marks body, markdown o (.root [(p.grid b).value.toNode]) = .ok t ∧
      Text.lines t.toList = head :: marks :: body ++ [[]] ∧ body.length = b.children.length ∧
      (∀ line ∈ head :: marks :: body, (cellsOf line).length = p.columns.length) ∧
      (cellsOf head).map readCell = p.columns.map (fun c => shownInCell c.name.toList) ∧
      body.map (fun line => (cellsOf line).map readCell) = b.children.map fun row =>
        p.columns.map fun c =>
          shownInCell ((c.show (p.cell? row.id c.id) row).value.getD "").toList := by
  have hwidth : 0 < p.columns.length := List.length_pos_iff.2 h
  have hheader : p.header.length = p.columns.length := List.length_map _
  have hrow (row : Block) : (p.rowTexts row).value.length = p.columns.length := by
    rw [value_rowTexts, List.length_map]
  have hrows : ∀ row ∈ p.header :: b.children.map fun row => (p.rowTexts row).value,
      row.length = p.columns.length :=
    List.forall_mem_cons.2 ⟨hheader, List.forall_mem_map.2 fun row _ => hrow row⟩
  obtain ⟨t, hmarkdown, hlines⟩ := markdown_toNode hwidth o hrows
  have hcount {row : List (Option String)} (h : row.length = p.columns.length) :
      (cellsOf (gridLine p.columns.length row)).length = p.columns.length := by
    rw [cellsOf_gridLine hwidth h, List.length_map, h]
  refine ⟨t, _, _, _, by rw [value_grid, hmarkdown], hlines, by simp, ?_, ?_, ?_⟩
  · refine List.forall_mem_cons.2 ⟨hcount hheader, List.forall_mem_cons.2 ⟨?_, ?_⟩⟩
    · rw [cellsOf_rowLine hwidth (length_alignMarks _ _), List.length_map, length_alignMarks]
      exact List.forall_mem_map.2 fun a _ => whole_alignMark a
    · rw [List.map_map]
      exact List.forall_mem_map.2 fun row _ => hcount (hrow row)
  · rw [readCells_gridLine hwidth hheader, header, List.map_map]
    rfl
  · rw [List.map_map, List.map_map]
    refine List.map_congr_left fun row _ => ?_
    rw [Function.comp_apply, Function.comp_apply, readCells_gridLine hwidth (hrow row),
      value_rowTexts, List.map_map]
    rfl

/-- Bars, backslashes and line breaks in the name of a column, in a title and in a stored cell. -/
def awkward : DatabaseProps where
  columns := [{ id := "t", name := "a|b\\", type := "title" }, { id := "n", name := " *n*" }]
  cells := [("r", [("n", { value := .string "\\|\n`x` " })])]

theorem markdown_grid_awkward : awkward.columns ≠ [] ∧
    ∃ t head marks body,
      markdown {} (.root [(awkward.grid ⟨"d", "affine:database", [], [⟨"r", "affine:paragraph",
        [("text", .string "|")], []⟩]⟩).value.toNode]) = .ok t ∧
      Text.lines t.toList = head :: marks :: body ++ [[]] ∧
      (cellsOf head).map readCell = ["a|b\\".toList, "*n*".toList] ∧
      body.map (fun line => (cellsOf line).map readCell) = [["|".toList, "\\| `x`".toList]] := by
  have hcolumns : awkward.columns ≠ [] := by simp [awkward]
  obtain ⟨t, head, marks, body, ht, hlines, -, -, hhead, hbody⟩ := markdown_grid {} hcolumns
    ⟨"d", "affine:database", [], [⟨"r", "affine:paragraph", [("text", .string "|")], []⟩]⟩
  exact ⟨hcolumns, t, head, marks, body, ht, hlines, hhead.trans (by decide +kernel),
    hbody.trans (by decide +kernel)⟩

end DatabaseProps
end PageExport
