/-
  ShiftReduce.Text.Grid
  ────────────────────────────────
  **TABLES DRAWN WITH CHARACTERS.**

  Every row is closed by a line, the titles by a double one.  Cells are aligned
  at the left, with a blank on both sides, and are as wide as the widest cell
  of their column.  A cell may have several lines; its neighbours are then
  blank below their own.
-/
import ShiftReduce.Text.Styled

namespace ShiftReduce

/-! ## §1. Lines of a cell. -/

/-- Splits a text into its lines.  A line ends with a line feed, which a
carriage return may precede; after the last one nothing needs to follow. -/
def textLines (text : List Char) : List (List Char) :=
  collect [] text
where
  /-- The lines of the rest of the text, the first of which begins with the
  reverse of `line`. -/
  collect (line : List Char) : List Char → List (List Char)
    | [] => if line.isEmpty then [] else [line.reverse]
    | '\n' :: rest =>
      (match line with
        | '\r' :: before => before.reverse
        | _ => line.reverse) :: collect [] rest
    | c :: rest => collect (c :: line) rest

namespace Grid

/-- A cell, as the lines of its text. -/
abbrev Cell := List (List Char)

/-- The width of the widest line of a cell. -/
def cellWidth (cell : Cell) : Nat :=
  (cell.map shownWidth).foldr max 0

/-! ## §2. Drawing. -/

/-- The width that each column needs to hold the cells of all the rows. -/
def columnWidths (columns : Nat) (rows : List (List Cell)) : List Nat :=
  (List.range columns).map fun column =>
    (rows.map fun row => (row[column]?.map cellWidth).getD 0).foldr max 0

/-- The line between two rows, drawn with `stroke`. -/
def separator (stroke : Char) (widths : List Nat) : List Char :=
  '+' :: widths.flatMap (fun width => List.replicate (width + 2) stroke ++ ['+']) ++ ['\n']

/-- One line of a cell, filled up with blanks. -/
def padded (width : Nat) (line : List Char) : List Char :=
  ' ' :: line ++ List.replicate (width - shownWidth line) ' ' ++ [' ', '|']

/-- The lines of a row, at least one. -/
def drawRow (widths : List Nat) (row : List Cell) : List Char :=
  let height := (row.map List.length).foldr max 1
  (List.range height).flatMap fun line =>
    '|' :: (widths.zip row).flatMap (fun cell => padded cell.1 ((cell.2[line]?).getD [])) ++ ['\n']

/-- The table with the given titles and rows. -/
def draw (titles : List String) (rows : List (List String)) : String :=
  let cells (row : List String) : List Cell := row.map fun text => textLines text.toList
  let titleCells := cells titles
  let rowCells := rows.map cells
  let widths := columnWidths titles.length (titleCells :: rowCells)
  String.ofList
    (separator '-' widths ++ drawRow widths titleCells ++ separator '=' widths
      ++ rowCells.flatMap fun row => drawRow widths row ++ separator '-' widths)

end Grid

end ShiftReduce
