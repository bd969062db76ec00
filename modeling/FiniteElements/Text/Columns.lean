/-!
# Aligned columns

Tables are written as lines of cells, each cell ended by a tab; the text after a line's last tab
ends the line and belongs to no column. `alignColumns` pads the cells with spaces so that columns
line up, column block by column block:

* a column block is a maximal run of consecutive lines that all have a cell in column `k`, taken
  within a block of column `k - 1`;
* the width of a column in a block is the widest of its cells (counted in characters) plus the
  padding, and at least the minimum width;
* every cell of the block is padded to that width; the text ending a line is not padded.

So a column may have different widths in different parts of a table: a line with fewer cells
ends the blocks of the columns it does not reach.

## Main definitions

* `FiniteElements.Text.ColumnStyle`, `FiniteElements.Text.alignColumns`
-/

namespace FiniteElements.Text

/-- The minimum width of a column and the padding added to its widest cell. -/
structure ColumnStyle where
  minWidth : Nat
  padding : Nat
deriving Repr, Inhabited

/-- `n` spaces. -/
def spaces (n : Nat) : String := String.ofList (List.replicate n ' ')

/-- Whether a line has a cell in column `k`: its last cell ends the line and is in no column. -/
def hasColumn (k : Nat) (line : List String) : Bool := k + 1 < line.length

/-- A line with its cells padded to the given column widths; cells past them are not padded. -/
def renderLine (widths : List Nat) (line : List String) : String :=
  String.join (line.zipIdx.map fun (c, j) =>
    match widths[j]? with
    | some w => c ++ spaces (w - c.length)
    | none => c)

/-- The maximal runs of consecutive lines that do or do not have a cell in column `k`. -/
def columnRuns (k : Nat) : List (List String) → List (Bool × List (List String))
  | [] => []
  | line :: rest =>
    let has := hasColumn k line
    match columnRuns k rest with
    | (h, run) :: runs => if h == has then (has, line :: run) :: runs else (has, [line]) :: (h, run) :: runs
    | [] => [(has, [line])]

/-- Lays out lines whose columns before `widths.length` have the given widths; `fuel` bounds the
number of further columns. -/
def layoutColumns (style : ColumnStyle) : Nat → List Nat → List (List String) → List String
  | 0, widths, lines => lines.map (renderLine widths)
  | fuel + 1, widths, lines =>
    let k := widths.length
    (columnRuns k lines).flatMap fun (has, run) =>
      if has then
        let w := run.foldl (fun m line => max m ((line.getD k "").length + style.padding))
          style.minWidth
        layoutColumns style fuel (widths ++ [w]) run
      else run.map (renderLine widths)

/-- Aligns the tab-separated cells of a text's lines. Every line ended by a line feed keeps it. -/
def alignColumns (style : ColumnStyle) (text : String) : String :=
  let lines := (text.splitOn "\n").map (·.splitOn "\t")
  let fuel := lines.foldl (fun m l => max m l.length) 0
  let rendered := layoutColumns style fuel [] lines
  String.intercalate "\n" rendered

end FiniteElements.Text
