import ChatArchive.Text.Width

/-!
# Grids

Rows of cells under a header, drawn with lines around them. A column is as wide as its widest line,
and a row as high as its highest cell.
-/

namespace ChatArchive.Command

open Text

/-- A header and rows of the same number of cells. -/
structure Grid where
  header : List String
  rows : List (List String)

namespace Grid

/-- The lines of a cell. -/
def cellLines : List Char → List (List Char)
  | [] => [[]]
  | c :: rest =>
    match cellLines rest with
    | [] => [[c]]
    | first :: more => if c = '\n' then [] :: first :: more else (c :: first) :: more

/-- The lines of the cells of a row. -/
def rowLines (row : List String) : List (List (List Char)) :=
  row.map fun cell => cellLines cell.toList

/-- The width of the widest line of a cell. -/
def cellWidth (lines : List (List Char)) : Nat := (lines.map displayWidth).foldl max 0

/-- The widths of columns, each the larger of two. -/
def widen : List Nat → List Nat → List Nat
  | a :: as, b :: bs => max a b :: widen as bs
  | as, [] => as
  | [], bs => bs

/-- The widths of the columns. -/
def widths (g : Grid) : List Nat :=
  (g.header :: g.rows).foldl (fun ws row => widen ws ((rowLines row).map cellWidth)) []

/-- A line across the grid: its two ends, its crossings and what it is made of. -/
def rule (left cross right stroke : Char) (widths : List Nat) : List Char :=
  let parts := widths.map fun w => List.replicate (w + 2) stroke
  left :: (parts.intersperse [cross]).flatten ++ [right]

/-- A line of a cell, filled up to the width of its column, with a blank on either side. -/
def padded (width : Nat) (line : List Char) : List Char :=
  ' ' :: line ++ List.replicate (width - displayWidth line) ' ' ++ [' ']

/-- One of the lines of a row, its cells divided by a lighter line. -/
def rowLine (widths : List Nat) (cells : List (List (List Char))) (index : Nat) : List Char :=
  let parts := (widths.zip cells).map fun (w, lines) => padded w (lines.getD index [])
  '│' :: (parts.intersperse ['┆']).flatten ++ ['│']

/-- The lines of a row. -/
def drawnRow (widths : List Nat) (row : List String) : List (List Char) :=
  let cells := rowLines row
  let height := (cells.map List.length).foldl max 0
  (List.range height).map (rowLine widths cells)

/-- The lines of a grid. -/
def lines (g : Grid) : List (List Char) :=
  let ws := g.widths
  [rule '┌' '┬' '┐' '─' ws] ++ drawnRow ws g.header ++ [rule '╞' '╪' '╡' '═' ws]
    ++ g.rows.flatMap (drawnRow ws) ++ [rule '└' '┴' '┘' '─' ws]

end Grid

end ChatArchive.Command
