import Outreach.Text.Basic
import Outreach.Text.Width

/-! Tables drawn with box characters: a header, a double line, and rows; each column is as wide as its widest
cell. -/
namespace Outreach.Text

structure Grid where
  header : List String
  rows : List (List String)
  deriving DecidableEq, Repr

namespace Grid

def cellLines (cell : String) : List (List Char) := splitAt '\n' cell.toList

def cellWidth (cell : String) : Nat := (cellLines cell).foldl (fun w l => max w (columns l)) 0

def widen (widths : List Nat) (row : List String) : List Nat := widths.zipWith max (row.map cellWidth)

def widths (g : Grid) : List Nat := g.rows.foldl widen (g.header.map cellWidth)

def rule (left fill cross right : String) (widths : List Nat) : String :=
  left ++ cross.intercalate (widths.map fun w => String.join (List.replicate (w + 2) fill)) ++ right

def paddedTo (width : Nat) (line : List Char) : String :=
  " " ++ String.ofList line ++ String.ofList (List.replicate (width - columns line + 1) ' ')

def rowLine (widths : List Nat) (cells : List (List (List Char))) (n : Nat) : String :=
  "│" ++ "┆".intercalate (widths.zipWith (fun w ls => paddedTo w (ls[n]?.getD [])) cells) ++ "│"

def rowLines (widths : List Nat) (row : List String) : List String :=
  let cells := row.map cellLines
  let height := cells.foldl (fun h ls => max h ls.length) 0
  (List.range height).map (rowLine widths cells)

def text (g : Grid) : String :=
  let ws := g.widths
  let lines := rule "┌" "─" "┬" "┐" ws :: rowLines ws g.header ++ rule "╞" "═" "╪" "╡" ws ::
    g.rows.flatMap (rowLines ws) ++ [rule "└" "─" "┴" "┘" ws]
  String.join (lines.map (· ++ "\n"))

end Grid
end Outreach.Text
