import DbClient.Proofs.Reply.Cells
import DbClient.Proofs.Reply.Walked

/-!
# Views of a result

A result is seen as a matrix, row by row, as a walk, and column by column. All views show the same
cells in the same places. A column is read by the position of its name, which is in range in every
row because no row has fewer cells than there are columns.
-/

namespace DbClient

/-- The column of a matrix with rows of any length, read by the position of its name. It cannot be
read if a row is too short. -/
def indexedColumn? (columns : List String) (rows : List (List String)) (name : String) :
    Option (Option (List String)) :=
  (columns.idxOf? name).map fun i => rows.mapM (·[i]?)

namespace QueryResult

variable {q : QueryResult} {name : String} {cells : List String}

theorem columns_of_toResult {p : QueryPayload} {command : String}
    (h : p.toResult command = .ok q) :
    q.columns = p.columns.getD [] ∧ q.rows = p.data.getD [] := by
  unfold QueryPayload.toResult at h
  dsimp only at h
  split at h
  · cases h
    exact ⟨rfl, rfl⟩
  · cases h

/-! ## Rows -/

theorem getElem?_walk (q : QueryResult) (i : Nat) : q.walk.toList[i]? = q.row? i :=
  List.getElem?_map

theorem row?_eq_none_iff {i : Nat} : q.row? i = none ↔ q.length ≤ i := by
  rw [row?, Option.map_eq_none_iff, List.getElem?_eq_none_iff, length]

theorem cells_row? (q : QueryResult) (i : Nat) : (q.row? i).map Row.cells = q.rows[i]? := by
  rw [row?, Option.map_map]
  exact congrFun Option.map_id _

/-! ## Columns -/

theorem column?_isSome_iff : (q.column? name).isSome ↔ name ∈ q.columns := by
  rw [column?, Option.isSome_map, List.isSome_finIdxOf?]
  simp

/-- The position of a column is in range in every row. -/
theorem lt_length_of_idxOf? {i : Nat} (h : q.columns.idxOf? name = some i) :
    ∀ row ∈ q.rows, i < row.length := by
  intro row hrow
  rw [q.rectangular row hrow]
  exact (List.idxOf?_eq_some_iff.1 h).1

/-- A column has one cell for each row, the one that the row has under the column's name. -/
theorem getElem?_column (h : q.column? name = some cells) (i : Nat) :
    cells[i]? = (q.row? i).bind (·.get? name) := by
  obtain ⟨k, hk, rfl⟩ := Option.map_eq_some_iff.1 h
  have hposition : q.columns.idxOf? name = some k.val := by
    rw [List.idxOf?_eq_map_finIdxOf?_val, hk]
    rfl
  by_cases hi : i < q.rows.length
  · have hlt : k.val < q.rows[i].length := lt_length_of_idxOf? hposition _ (List.getElem_mem hi)
    have hget : Row.get? ⟨q.columns, q.rows[i]⟩ name = q.rows[i][k.val]? :=
      Row.get?_of_idxOf? hposition
    simp [row?, hget, hi, hlt]
  · rw [row?_eq_none_iff.2 (Nat.le_of_not_lt hi)]
    simpa using hi

theorem length_column (h : q.column? name = some cells) : cells.length = q.length := by
  obtain ⟨k, -, rfl⟩ := Option.map_eq_some_iff.1 h
  rw [List.length_map, List.length_attach, length]

/-- Reading a column by the position of its name is never out of range. -/
theorem indexedColumn?_eq (q : QueryResult) (name : String) :
    indexedColumn? q.columns q.rows name = (q.column? name).map some := by
  rw [indexedColumn?, List.idxOf?_eq_map_finIdxOf?_val, column?, Option.map_map, Option.map_map]
  congr 1
  funext k
  have hread : ∀ r : { row // row ∈ q.rows },
      r.val[k.val]? = pure (r.val.get (k.cast (q.rectangular r.val r.property).symm)) := by
    intro r
    exact List.getElem?_eq_getElem _
  calc q.rows.mapM (·[k.val]?)
      = (q.rows.attach.map Subtype.val).mapM (·[k.val]?) := by rw [List.attach_map_subtype_val]
    _ = q.rows.attach.mapM fun r => r.val[k.val]? := List.mapM_map
    _ = _ := by simp only [hread, List.mapM_pure]; rfl

end QueryResult

open Rows (takeAll)

/-- All views of a decoded result agree. The row that a walk forward comes to, the row with its
index, and the line of the matrix are one row, and there is none from the number of rows on; the
pairs of a row are its cells under the columns in order; a column is there exactly if its name is
one of the columns, its entries are what the rows give under the name, and reading it by position
is never out of range. -/
theorem views_show_same_cells {p : QueryPayload} {command : String} {q : QueryResult}
    (h : p.toResult command = .ok q) :
    (q.columns = p.columns.getD [] ∧ q.rows = p.data.getD []) ∧
      (∀ i, (takeAll (List.replicate i .front) q.walk).2.next.1 = q.row? i ∧
        q.walk.toList[i]? = q.row? i ∧ (q.row? i).map Row.cells = q.rows[i]? ∧
        (q.row? i = none ↔ q.length ≤ i)) ∧
      (∀ row ∈ q.walk.toList, row.columns = q.columns ∧ row.pairs.length = q.columns.length ∧
        row.pairs.map Prod.fst = q.columns ∧ row.pairs.map Prod.snd = row.cells) ∧
      ∀ name,
        ((q.column? name).isSome ↔ name ∈ q.columns) ∧
        (∀ cells, q.column? name = some cells →
          cells.length = q.length ∧ ∀ i, cells[i]? = (q.row? i).bind (·.get? name)) ∧
        (∀ k, q.columns.idxOf? name = some k → ∀ row ∈ q.rows, k < row.length) ∧
        indexedColumn? q.columns q.rows name = (q.column? name).map some := by
  refine ⟨QueryResult.columns_of_toResult h, fun i => ?_, fun row hrow => ?_, fun name => ?_⟩
  · have hwalk := q.getElem?_walk i
    exact ⟨(Rows.next_after q.walk i).trans hwalk, hwalk, q.cells_row? i,
      QueryResult.row?_eq_none_iff⟩
  · obtain ⟨hcolumns, hlength⟩ := QueryResult.mem_walk hrow
    have hnames := Row.map_fst_pairs hlength
    refine ⟨hcolumns, ?_, hnames.trans hcolumns, Row.map_snd_pairs hlength⟩
    rw [← hcolumns, ← hnames, List.length_map]
  · exact ⟨QueryResult.column?_isSome_iff,
      fun cells hcells => ⟨QueryResult.length_column hcells, QueryResult.getElem?_column hcells⟩,
      fun k hk => QueryResult.lt_length_of_idxOf? hk, q.indexedColumn?_eq name⟩

/-- A payload that gives two rows and one of its columns twice. -/
def twoRows : QueryPayload :=
  ⟨some ["a", "b", "a"], some [["1", "2", "3"], ["4", "5", "6"]], 2, none⟩

/-- The repeated column is read in the first place of both rows. -/
theorem views_show_twoRows :
    ∃ q, twoRows.toResult "SELECT a, b, a FROM app.t" = .ok q ∧ q.column? "a" = some ["1", "4"] ∧
      (q.row? 1).bind (·.get? "a") = some "4" ∧ (q.row? 2 = none ↔ q.length ≤ 2) ∧
      indexedColumn? q.columns q.rows "a" = some (some ["1", "4"]) := by
  let q : QueryResult :=
    ⟨["a", "b", "a"], [["1", "2", "3"], ["4", "5", "6"]], 2, .zero, by decide⟩
  have hresult : twoRows.toResult "SELECT a, b, a FROM app.t" = .ok q := rfl
  have hcolumn : q.column? "a" = some ["1", "4"] := by decide
  obtain ⟨-, hrows, -, hcolumns⟩ := views_show_same_cells hresult
  obtain ⟨-, hentries, -, hindexed⟩ := hcolumns "a"
  exact ⟨q, hresult, hcolumn, ((hentries _ hcolumn).2 1).symm, (hrows 2).2.2.2,
    by rw [hindexed, hcolumn]; rfl⟩

end DbClient
