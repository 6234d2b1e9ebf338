import DbClient.Number.Binary64
import DbClient.Text.NameMap
import DbClient.Text.Quoted

/-!
# Query results

A query result is a matrix of cells under a list of column names. Every row has one
cell for each column; names may repeat. Rows can be taken by their index, by walking
from both ends, or column by column.
-/

namespace DbClient

/-- The rows returned by a read. -/
structure QueryResult where
  columns : List String
  rows : List (List String)
  recordsRead : UInt64
  time : Binary64
  /-- Every row has exactly one cell per column. -/
  rectangular : ∀ row ∈ rows, row.length = columns.length
  deriving DecidableEq

/-- One row, its cells under the names of their columns. -/
structure Row where
  columns : List String
  cells : List String
  deriving DecidableEq, Repr

namespace Row

/-- The cell under a column. Of repeated names the first one counts. -/
def get? (r : Row) (name : String) : Option String :=
  (r.columns.idxOf? name).bind (r.cells[·]?)

/-- The columns with their cells, in column order. -/
def pairs (r : Row) : List (String × String) :=
  r.columns.zip r.cells

/-- The cells by column name, in the order of the names. Of repeated names the last
one counts. -/
def toMap (r : Row) : List (String × String) :=
  NameMap.ofNewest r.pairs.reverse

/-- The row as it is shown: names and cells quoted, between braces. -/
def display (r : Row) : String :=
  let entry (p : String × String) := Text.quote p.1 ++ ": " ++ Text.quote p.2
  "\x7b" ++ ", ".intercalate (r.pairs.map entry) ++ "\x7d"

end Row

/-! ## Walking the rows -/

/-- A walk over rows that may be continued from either end. -/
structure Rows where
  columns : List String
  remaining : List (List String)
  deriving DecidableEq, Repr

namespace Rows

/-- How many rows have not been returned. -/
def length (w : Rows) : Nat :=
  w.remaining.length

/-- The first row not yet returned. -/
def next (w : Rows) : Option Row × Rows :=
  match w.remaining with
  | [] => (none, w)
  | cells :: rest => (some ⟨w.columns, cells⟩, { w with remaining := rest })

/-- The last row not yet returned. -/
def nextBack (w : Rows) : Option Row × Rows :=
  match w.remaining.getLast? with
  | none => (none, w)
  | some cells => (some ⟨w.columns, cells⟩, { w with remaining := w.remaining.dropLast })

/-- The rows that walking forward to the end returns. -/
def toList (w : Rows) : List Row :=
  w.remaining.map (⟨w.columns, ·⟩)

end Rows

namespace QueryResult

/-- The number of rows. -/
def length (q : QueryResult) : Nat :=
  q.rows.length

def isEmpty (q : QueryResult) : Bool :=
  q.rows.isEmpty

/-- The row with an index. -/
def row? (q : QueryResult) (index : Nat) : Option Row :=
  q.rows[index]?.map (⟨q.columns, ·⟩)

/-- A new walk over all rows. -/
def walk (q : QueryResult) : Rows :=
  ⟨q.columns, q.rows⟩

/-- The cells of one column, top to bottom. Of repeated names the first one counts.
The index is in range because the result is rectangular. -/
def column? (q : QueryResult) (name : String) : Option (List String) :=
  (q.columns.finIdxOf? name).map fun i =>
    q.rows.attach.map fun ⟨row, h⟩ => row.get (i.cast (q.rectangular row h).symm)

/-- The first cell of every row that has one. -/
def firstCells (q : QueryResult) : List String :=
  q.rows.filterMap List.head?

end QueryResult
end DbClient
