import DbClient.Proofs.Text.Ordered
import DbClient.Reply.Decode

/-!
# Cells by name

A row gives its cells by the names of their columns in two ways. Looked up in the row, a name gives
the first cell under it; in the map of the row, which is made by putting one cell after another, it
gives the last one. So the two agree exactly where the first and the last cell under a name are the
same, as they are if no column is repeated.
-/

namespace DbClient

namespace Row

variable {row : Row} {name : String}

/-- The cells under the columns of one name, in column order. -/
def cellsUnder (r : Row) (name : String) : List String :=
  r.pairs.filterMap fun p => if name = p.1 then some p.2 else none

theorem get?_of_idxOf? {i : Nat} (h : row.columns.idxOf? name = some i) :
    row.get? name = row.cells[i]? := by
  rw [get?, h]
  rfl

/-- Looking for the position of a name and looking for a pair with it come to the same cell. -/
theorem get?_eq_lookup (r : Row) (name : String) : r.get? name = r.pairs.lookup name := by
  obtain ⟨columns, cells⟩ := r
  simp only [get?, pairs]
  induction columns generalizing cells with
  | nil => rfl
  | cons column columns ih =>
    cases cells with
    | nil => simp -- whatever the position, there is no cell at it
    | cons cell cells =>
      rw [List.idxOf?_cons, List.zip_cons_cons, List.lookup_cons]
      by_cases h : column = name
      · simp [h]
      · have hname : (name == column) = false := beq_false_of_ne (Ne.symm h)
        simp only [beq_false_of_ne h, hname, Bool.false_eq_true, if_false, ← ih]
        cases List.idxOf? name columns <;> rfl

theorem head?_cellsUnder (r : Row) (name : String) : (r.cellsUnder name).head? = r.get? name := by
  simp only [cellsUnder, List.head?_filterMap, get?_eq_lookup, List.lookup_eq_findSome?,
    beq_iff_eq]

/-- The map is made from the first pair to the last, and a later cell replaces an earlier one. -/
theorem getLast?_cellsUnder (r : Row) (name : String) :
    (r.cellsUnder name).getLast? = r.toMap.lookup name := by
  rw [toMap, NameMap.lookup_ofNewest]
  simp only [cellsUnder, List.getLast?_filterMap, List.lookup_eq_findSome?, beq_iff_eq]

section Rectangular

variable (h : row.cells.length = row.columns.length)

include h

theorem map_fst_pairs : row.pairs.map Prod.fst = row.columns :=
  List.map_fst_zip (Nat.le_of_eq h.symm)

theorem map_snd_pairs : row.pairs.map Prod.snd = row.cells :=
  List.map_snd_zip (Nat.le_of_eq h)

/-- A name has as many cells as it has columns. -/
theorem length_cellsUnder (name : String) :
    (row.cellsUnder name).length = row.columns.count name := by
  rw [← map_fst_pairs h, cellsUnder, List.length_filterMap_eq_countP, List.count, List.countP_map]
  congr 1
  funext p
  by_cases hp : name = p.1
  · simp [hp]
  · simp [hp, Ne.symm hp]

/-- A row has a cell under a name exactly if the name is one of its columns. -/
theorem get?_eq_none_iff : row.get? name = none ↔ name ∉ row.columns := by
  rw [← head?_cellsUnder, List.head?_eq_none_iff, ← List.length_eq_zero_iff, length_cellsUnder h,
    List.count_eq_zero]

/-- A row with a column has a first cell. -/
theorem exists_head?_cells (hcolumns : row.columns ≠ []) :
    ∃ cell, row.cells.head? = some cell := by
  cases hcells : row.cells with
  | nil =>
    rw [hcells] at h
    exact absurd (List.length_eq_zero_iff.1 h.symm) hcolumns
  | cons cell rest => exact ⟨cell, rfl⟩

end Rectangular

end Row

/-- The rows of a result have its columns, and a cell for each of them. -/
theorem QueryResult.mem_walk {q : QueryResult} {row : Row} (h : row ∈ q.walk.toList) :
    row.columns = q.columns ∧ row.cells.length = row.columns.length := by
  obtain ⟨cells, hcells, rfl⟩ := List.mem_map.1 h
  exact ⟨rfl, q.rectangular cells hcells⟩

namespace Row

/-- In a row of a result a name gives the first cell under it, and in the map of the row the last
one. They are the same cell exactly if the first and the last cell under the name are equal; so it
is for every name that is not repeated. The map is in the order of the names, and has each column
once. -/
theorem map_agrees_iff_ends_agree {q : QueryResult} (hrow : row ∈ q.walk.toList) (name : String) :
    row.get? name = (row.cellsUnder name).head? ∧
      row.toMap.lookup name = (row.cellsUnder name).getLast? ∧
      (row.toMap.lookup name = row.get? name ↔
        ∀ first last, (row.cellsUnder name).head? = some first →
          (row.cellsUnder name).getLast? = some last → last = first) ∧
      (q.columns.count name ≤ 1 → row.toMap.lookup name = row.get? name) ∧
      NameMap.Ordered row.toMap ∧ (row.toMap.lookup name ≠ none ↔ name ∈ q.columns) := by
  obtain ⟨hcolumns, hlength⟩ := QueryResult.mem_walk hrow
  have hcount := length_cellsUnder hlength name
  rw [← head?_cellsUnder, ← getLast?_cellsUnder, ← hcolumns, ← hcount]
  refine ⟨rfl, rfl, ?_, ?_, NameMap.ordered_ofNewest _, ?_⟩
  · cases hcells : row.cellsUnder name with
    | nil => simp
    | cons first rest => simp [List.getLast?_cons]
  · intro honce
    match hcells : row.cellsUnder name with
    | [] => rfl
    | [_] => rfl
    | _ :: _ :: _ =>
      rw [hcells, List.length_cons, List.length_cons] at honce
      omega
  · rw [← List.count_pos_iff, ← hcount, List.length_pos_iff, ne_eq, List.getLast?_eq_none_iff]

/-- A payload that gives one column twice. -/
def repeatedColumn : QueryPayload :=
  ⟨some ["id", "id"], some [["1", "2"]], 0, none⟩

theorem exists_row_of_repeatedColumn (command : String) :
    ∃ q, repeatedColumn.toResult command = .ok q ∧ ⟨["id", "id"], ["1", "2"]⟩ ∈ q.walk.toList :=
  ⟨⟨["id", "id"], [["1", "2"]], 0, .zero, by decide⟩, rfl, by decide⟩

/-- Its name gives the first cell in the row and the second one in the map. -/
theorem repeatedColumn_ends :
    ∃ q row, repeatedColumn.toResult "SELECT id, id FROM app.t" = .ok q ∧ row ∈ q.walk.toList ∧
      row.get? "id" = some "1" ∧ row.toMap.lookup "id" = some "2" := by
  obtain ⟨q, hresult, hrow⟩ := exists_row_of_repeatedColumn "SELECT id, id FROM app.t"
  obtain ⟨hfirst, hlast, -⟩ := map_agrees_iff_ends_agree hrow "id"
  exact ⟨q, _, hresult, hrow, hfirst, hlast⟩

/-- The map of a row does not always give the cells that the row gives. -/
theorem map_not_always_agrees :
    ¬∀ (p : QueryPayload) (command : String) (q : QueryResult) (row : Row) (name : String),
      p.toResult command = .ok q → row ∈ q.walk.toList →
        row.toMap.lookup name = row.get? name := by
  intro h
  obtain ⟨q, hresult, hrow⟩ := exists_row_of_repeatedColumn "SELECT id, id FROM app.t"
  have heq := h _ _ q _ "id" hresult hrow
  revert heq
  decide

end Row
end DbClient
