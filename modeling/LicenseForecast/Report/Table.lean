import LicenseForecast.Forecast
import LicenseForecast.Report.Style

namespace LicenseForecast.Report

/-!
# The licence table

One line for each row of a forecast below a header.  The first three columns are aligned on the
left and the figures on the right; a column is as wide as its longest cell has bytes.
-/

/-- The titles of the columns. -/
def headers : List String := ["PRODUCT", "TAG", "METRIC", "OLD", "NEW", "DELTA"]

/-- The number of columns that hold texts; figures are in the others. -/
def textColumns : Nat := 3

/-- An integer with its sign, which zero has too. -/
def withSign (n : Int) : String := if n < 0 then toString n else "+" ++ toString n

/-- The texts of a row. -/
def cells (row : Row) : List String :=
  [row.product.name, row.product.tag, row.metricName, toString row.oldLicenses,
    toString row.newLicenses, withSign row.delta]

/-- The wider of two widths, column by column. -/
def widen (widths : List Nat) (cells : List String) : List Nat :=
  List.zipWith (fun width cell => max width cell.utf8ByteSize) widths cells

/-- The widths of the columns. -/
def widths (rows : List Row) : List Nat :=
  (rows.map cells).foldl widen (headers.map String.utf8ByteSize)

/-- The blanks that a cell lacks, counted in characters. -/
def padding (width : Nat) (cell : String) : String :=
  String.ofList (List.replicate (width - cell.length) ' ')

/-- A cell of a text column. -/
def padRight (width : Nat) (cell : String) : String := cell ++ padding width cell

/-- A cell of a column of figures. -/
def padLeft (width : Nat) (cell : String) : String := padding width cell ++ cell

/-- The style of a difference: more licences are red and fewer are green. -/
def deltaStyle (delta : Int) : Style :=
  if 0 < delta then .red else if delta < 0 then .green else .dimmed

/-- The cells of one line: texts to the left and figures to the right. -/
def alignedCells (widths : List Nat) (cells : List String) : List String :=
  List.zipWith padRight (widths.take textColumns) (cells.take textColumns)
    ++ List.zipWith padLeft (widths.drop textColumns) (cells.drop textColumns)

/-- Applies `f` to the last item of a list. -/
def mapLast (f : String → String) : List String → List String
  | [] => []
  | [s] => [f s]
  | s :: rest => s :: mapLast f rest

/-- The line of titles. -/
def headerLine (color : Bool) (widths : List Nat) : String :=
  styled color .bold ("  ".intercalate (List.zipWith padRight widths headers)) ++ "\n"

/-- The line of a row. -/
def rowLine (color : Bool) (widths : List Nat) (row : Row) : String :=
  "  ".intercalate
    (mapLast (styled color (deltaStyle row.delta)) (alignedCells widths (cells row))) ++ "\n"

/-- The table of a forecast. -/
def table (color : Bool) (forecast : Forecast) : String :=
  let widths := widths forecast.rows
  headerLine color widths ++ String.join (forecast.rows.map (rowLine color widths))

end LicenseForecast.Report
