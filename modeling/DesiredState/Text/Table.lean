/-!
# Tables

Rows of cells in a frame with rounded corners, with a rule under the header. A column is as wide
as its widest cell, a row as high as its highest; cells begin at the left and at the top.
-/

set_option autoImplicit false

namespace DesiredState

namespace Table

/-- The number of columns that a line takes: every character takes one, a control character
too. -/
def lineWidth (line : String) : Nat := line.length

def cellLines (cell : String) : List String := cell.splitOn "\n"

def cellWidth (cell : String) : Nat :=
  (cellLines cell).foldl (fun width line => max width (lineWidth line)) 0

def repeated (count : Nat) (c : Char) : String := String.ofList (List.replicate count c)

def widen (widths : List Nat) (row : List String) : List Nat :=
  List.zipWith (fun width cell => max width (cellWidth cell)) widths row

def rule (widths : List Nat) (left middle right : String) : String :=
  left ++ middle.intercalate (widths.map fun width => repeated (width + 2) '─') ++ right

def filled (width : Nat) (line : String) : String :=
  " " ++ line ++ repeated (width - lineWidth line) ' ' ++ " "

def rowLine (widths : List Nat) (row : List String) (index : Nat) : String :=
  let parts := List.zipWith (fun width cell =>
    filled width (((cellLines cell)[index]?).getD "")) widths row
  "│" ++ "│".intercalate parts ++ "│"

def rowLines (widths : List Nat) (row : List String) : List String :=
  let height := row.foldl (fun height cell => max height (cellLines cell).length) 1
  (List.range height).map (rowLine widths row)

def rounded (header : List String) (rows : List (List String)) : String :=
  let widths := (header :: rows).foldl widen (header.map fun _ => 0)
  "\n".intercalate
    ([rule widths "╭" "┬" "╮"] ++ rowLines widths header ++ [rule widths "├" "┼" "┤"] ++
      rows.flatMap (rowLines widths) ++ [rule widths "╰" "┴" "╯"])

end Table

end DesiredState
