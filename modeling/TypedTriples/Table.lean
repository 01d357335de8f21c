import TypedTriples.Text.Width

/-!
# Tables

A table is drawn with plain characters. Every column is as wide as its widest
cell, with a space on both sides; a cell with line feeds takes several lines.
-/

namespace TypedTriples

/-- A header and rows, each with a cell for every column. -/
structure Table where
  header : List Text
  rows : List (List Text)

namespace Table

/-- The lines of a cell. -/
def cellLines (cell : Text) : List Text := cell.splitOn '\n'

/-- The width of the widest line of a cell. -/
def cellWidth (cell : Text) : Nat := ((cellLines cell).map Text.width).foldl max 0

/-- The widths of the columns. -/
def columnWidths (table : Table) : List Nat :=
  table.rows.foldl (fun widths row => List.zipWith max widths (row.map cellWidth))
    (table.header.map cellWidth)

/-- A line of a cell with spaces up to the width of its column and one on both
    sides. -/
def pad (width : Nat) (line : Text) : Text :=
  ' ' :: line ++ List.replicate (width - line.width) ' ' ++ [' ']

/-- A row as lines. -/
def rowLines (widths : List Nat) (row : List Text) : List Text :=
  let cells := row.map cellLines
  let height := (cells.map List.length).foldl max 0
  (List.range height).map fun index =>
    '|' :: List.intercalate ['|']
      (List.zipWith (fun width cell => pad width (cell.getD index [])) widths cells) ++ ['|']

/-- A ruled line: `edge` at the two ends, `cross` between the columns. -/
def rule (edge stroke cross : Char) (widths : List Nat) : Text :=
  edge :: List.intercalate [cross] (widths.map fun width => List.replicate (width + 2) stroke) ++
    [edge]

/-- The lines of a table. -/
def lines (table : Table) : List Text :=
  let widths := table.columnWidths
  let border := rule '+' '-' '+' widths
  let rows := List.intercalate [rule '|' '-' '+' widths] (table.rows.map (rowLines widths))
  [border] ++ rowLines widths table.header ++ [rule '+' '=' '=' widths] ++ rows ++ [border]

/-- A table as text, every line ended. -/
def text (table : Table) : Text := table.lines.flatMap (· ++ ['\n'])

end Table

end TypedTriples
