import Vendoring.Path
import Vendoring.Text.Width

/-!
# Grids

A grid shows cells in columns, between lines with rounded corners; the first row stands above a line
of its own. A column is as wide as its widest line, and cells are aligned to the left. A cell of
several lines makes its row as high.
-/

namespace Vendoring.Cli

/-- Cells in rows, of which the first is set apart. All rows have the same number of cells. -/
structure Grid where
  header : List String
  rows : List (List String)

namespace Grid

/-- The lines of a cell. -/
def cellLines (cell : String) : List (List Char) :=
  Path.splitAt '\n' cell.toList

/-- The width of a cell's widest line. -/
def cellWidth (cell : String) : Nat :=
  (cellLines cell).foldl (fun w line => max w (Text.width line)) 0

/-- The widths of the columns. -/
def columnWidths (grid : Grid) : List Nat :=
  grid.rows.foldl (fun widths row => List.zipWith max widths (row.map cellWidth))
    (grid.header.map cellWidth)

/-- A horizontal line from its left corner over the crossings to its right corner. -/
def ruler (widths : List Nat) (left crossing right : Char) : List Char :=
  left :: [crossing].intercalate (widths.map fun w => List.replicate (w + 2) '─') ++ [right, '\n']

/-- A line of a cell, filled up to the width of its column. -/
def filled (width : Nat) (line : List Char) : List Char :=
  ' ' :: line ++ List.replicate (width - Text.width line) ' ' ++ [' ']

/-- One line of a row. -/
def rowLine (widths : List Nat) (cells : List (List (List Char))) (index : Nat) : List Char :=
  '│' :: ['│'].intercalate
    (List.zipWith (fun w lines => filled w (lines.getD index [])) widths cells) ++ ['│', '\n']

/-- The lines of a row. -/
def rowLines (widths : List Nat) (row : List String) : List Char :=
  let cells := row.map cellLines
  let height := cells.foldl (fun h lines => max h lines.length) 0
  (List.range height).flatMap (rowLine widths cells)

/-- The grid as text, each line with its line feed. -/
def render (grid : Grid) : String :=
  let widths := grid.columnWidths
  String.ofList (
    ruler widths '╭' '┬' '╮' ++ rowLines widths grid.header ++
    ruler widths '├' '┼' '┤' ++ grid.rows.flatMap (rowLines widths) ++
    ruler widths '╰' '┴' '╯')

end Grid

end Vendoring.Cli
