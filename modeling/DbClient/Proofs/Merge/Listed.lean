import DbClient.Merge.Listing
import DbClient.Proofs.Except
import DbClient.Proofs.Reply.Cells

/-!
# Listings of conflicts

A listing of conflicts can be read if it has no rows, or if it has the columns of a conflict's
path; otherwise the first of them that it lacks is named. What is read is one conflict for
each row, in the order of the rows.
-/

namespace DbClient

namespace MergeConflict

/-- The columns that hold the path of a conflict, in the order in which they are looked for. -/
def pathColumns : List String :=
  ["Database", "Table", "Key"]

/-- The first column of the path that a listing with these columns lacks. -/
def missingColumn? (columns : List String) : Option String :=
  pathColumns.find? (· ∉ columns)

/-- A conflict as it is listed in a row. -/
structure IsListed (row : Row) (conflict : MergeConflict) : Prop where
  database : row.get? "Database" = some conflict.database
  table : row.get? "Table" = some conflict.table
  key : row.get? "Key" = some conflict.key
  head : row.get? "HEAD" = conflict.head
  source : row.get? "SOURCE" = conflict.source

variable {command : String} {row : Row} {conflict : MergeConflict}

theorem required_eq_ok_iff {name cell : String} :
    required command row name = .ok cell ↔ row.get? name = some cell := by
  unfold required
  split <;> simp_all

theorem ofRow_eq_ok_iff : ofRow command row = .ok conflict ↔ IsListed row conflict := by
  constructor
  · intro h
    obtain ⟨database, hdatabase, h⟩ := exists_of_bind_ok h
    obtain ⟨table, htable, h⟩ := exists_of_bind_ok h
    obtain ⟨key, hkey, h⟩ := exists_of_bind_ok h
    cases h
    exact ⟨required_eq_ok_iff.1 hdatabase, required_eq_ok_iff.1 htable,
      required_eq_ok_iff.1 hkey, rfl, rfl⟩
  · rintro ⟨hdatabase, htable, hkey, hhead, hsource⟩
    rw [ofRow, required_eq_ok_iff.2 hdatabase, required_eq_ok_iff.2 htable,
      required_eq_ok_iff.2 hkey, hhead, hsource]
    rfl

section Rectangular

variable (h : row.cells.length = row.columns.length)

include h

theorem required_of_notMem {name : String} (hname : name ∉ row.columns) :
    required command row name = .error (.protocol command (.missingColumn name)) := by
  simp only [required, (Row.get?_eq_none_iff h).2 hname]

theorem exists_required_of_mem (command : String) {name : String} (hname : name ∈ row.columns) :
    ∃ cell, required command row name = .ok cell := by
  cases hcell : row.get? name with
  | none => exact absurd hname ((Row.get?_eq_none_iff h).1 hcell)
  | some cell => exact ⟨cell, required_eq_ok_iff.2 hcell⟩

theorem exists_ofRow_of_complete (hcomplete : missingColumn? row.columns = none) :
    ∃ conflict, ofRow command row = .ok conflict := by
  have hmem : ∀ name ∈ pathColumns, name ∈ row.columns := by
    simpa [missingColumn?] using hcomplete
  obtain ⟨database, hdatabase⟩ := exists_required_of_mem h command (hmem "Database" (by decide))
  obtain ⟨table, htable⟩ := exists_required_of_mem h command (hmem "Table" (by decide))
  obtain ⟨key, hkey⟩ := exists_required_of_mem h command (hmem "Key" (by decide))
  rw [ofRow, hdatabase, htable, hkey]
  exact ⟨_, rfl⟩

/-- The columns are looked for in the order of the path, and the first one that is missing
decides. -/
theorem ofRow_of_missing {name : String} (hname : missingColumn? row.columns = some name) :
    ofRow command row = .error (.protocol command (.missingColumn name)) := by
  have hnot : name ∉ row.columns := by
    simpa using List.find?_some hname
  -- each column is looked for only after those before it have been found
  by_cases hdatabase : "Database" ∈ row.columns
  · obtain ⟨database, hread⟩ := exists_required_of_mem h command hdatabase
    by_cases htable : "Table" ∈ row.columns
    · obtain ⟨table, hread'⟩ := exists_required_of_mem h command htable
      obtain rfl : name = "Key" := by
        have hpath : name ∈ pathColumns := List.mem_of_find?_eq_some hname
        simp only [pathColumns, List.mem_cons, List.not_mem_nil, or_false] at hpath
        rcases hpath with rfl | rfl | rfl
        · exact absurd hdatabase hnot
        · exact absurd htable hnot
        · rfl
      rw [ofRow, hread, hread', required_of_notMem h hnot]
      rfl
    · obtain rfl : "Table" = name := by
        simpa [missingColumn?, pathColumns, List.find?_cons, hdatabase, htable] using hname
      rw [ofRow, hread, required_of_notMem h hnot]
      rfl
  · obtain rfl : "Database" = name := by
      simpa [missingColumn?, pathColumns, List.find?_cons, hdatabase] using hname
    rw [ofRow, required_of_notMem h hnot]
    rfl

end Rectangular

/-! ## Whole listings -/

variable {q : QueryResult} {conflicts : List MergeConflict}

theorem ofListing_eq_ok_iff :
    ofListing q command = .ok conflicts ↔ List.Forall₂ IsListed q.walk.toList conflicts := by
  simp only [ofListing, mapM_eq_ok_iff, ofRow_eq_ok_iff]

/-- A listing can be read unless it has rows and lacks a column of the path. -/
theorem ofListing_of_missing {name : String} (hrows : q.rows ≠ [])
    (hname : missingColumn? q.columns = some name) :
    ofListing q command = .error (.protocol command (.missingColumn name)) := by
  obtain ⟨cells, rest, hcons⟩ := List.exists_cons_of_ne_nil hrows
  have hfirst : ofRow command ⟨q.columns, cells⟩ =
      .error (.protocol command (.missingColumn name)) :=
    ofRow_of_missing (q.rectangular cells (hcons ▸ List.mem_cons_self)) hname
  rw [ofListing, Rows.toList, QueryResult.walk, hcons, List.map_cons, List.mapM_cons, hfirst]
  rfl

theorem exists_ofListing_of_complete (h : q.rows = [] ∨ missingColumn? q.columns = none) :
    ∃ conflicts, ofListing q command = .ok conflicts := by
  have hrows : ∀ row ∈ q.walk.toList, ∃ conflict, ofRow command row = .ok conflict := by
    intro row hrow
    obtain ⟨hcolumns, hlength⟩ := QueryResult.mem_walk hrow
    rcases h with hnil | hcomplete
    · rw [Rows.toList, QueryResult.walk, hnil] at hrow
      cases hrow
    · exact exists_ofRow_of_complete hlength (hcolumns ▸ hcomplete)
  exact exists_mapM_ok_iff.2 hrows

end MergeConflict
end DbClient
