import DbClient.Proofs.Merge.Listed
import DbClient.Proofs.Session.TypedCall
import DbClient.Transport.Scripted

/-!
# Listings

Names, branches and conflicts are listed by the server as the rows of a result. Nothing is lost
when they are read: each row gives one of them, in the order of the rows. A listing of conflicts
without the columns of their path is an error as soon as it has a row.
-/

namespace DbClient

variable {α β : Type}

/-- If no item is left out, the items that are kept stand in the order of the list. -/
theorem forall₂_filterMap {R : α → β → Prop} {f : α → Option β} {items : List α}
    (h : ∀ a ∈ items, ∃ b, f a = some b ∧ R a b) : List.Forall₂ R items (items.filterMap f) := by
  induction items with
  | nil => exact .nil
  | cons a rest ih =>
    obtain ⟨⟨b, hb, hab⟩, hrest⟩ := List.forall_mem_cons.1 h
    rw [List.filterMap_cons_some hb]
    exact .cons hab (ih hrest)

variable {q : QueryResult} {row : Row}

/-! ## Names -/

theorem QueryResult.firstCells_eq (q : QueryResult) :
    q.firstCells = q.walk.toList.filterMap (·.cells.head?) := by
  rw [firstCells, Rows.toList, List.filterMap_map]
  rfl

/-- The first cells of a result with a column are one for each row. -/
theorem QueryResult.forall₂_firstCells (hcolumns : q.columns ≠ []) :
    List.Forall₂ (fun row name => row.cells.head? = some name) q.walk.toList q.firstCells := by
  rw [firstCells_eq]
  refine forall₂_filterMap fun row hrow => ?_
  obtain ⟨hsame, hlength⟩ := mem_walk hrow
  obtain ⟨cell, hcell⟩ := Row.exists_head?_cells hlength (hsame ▸ hcolumns)
  exact ⟨cell, hcell, hcell⟩

namespace Client

variable {τ : Type} [Transport τ] {c c' : Client τ} {s : Statement}

/-- A call that lists names answers with the first cells of the rows that it gets. -/
theorem listNames_of_rows (h : execute s.text c = (.ok (.query q), c')) :
    listNames s c = (.ok q.firstCells, c') := by
  rw [listNames, Call.map_apply, query_apply, h]
  rfl

end Client

/-! ## Branches -/

namespace Branch

variable {b : Branch}

/-- A branch as it is listed in a row: named by the cell under `Branch`, or by the first cell where
there is no such column, and checked out if the cell under `Current` is an asterisk. -/
structure IsListed (row : Row) (b : Branch) : Prop where
  named : "Branch" ∈ row.columns → row.get? "Branch" = some b.name
  unnamed : "Branch" ∉ row.columns → row.cells.head? = some b.name
  current : b.current = true ↔ ∃ flag, row.get? "Current" = some flag ∧ flag.trimBlank = "*"

theorem current_of_ofRow? (h : ofRow? row = some b) :
    b.current = true ↔ ∃ flag, row.get? "Current" = some flag ∧ flag.trimBlank = "*" := by
  obtain ⟨name, -, rfl⟩ := Option.map_eq_some_iff.1 h
  simp [Option.any_eq_true]

theorem exists_isListed (hlength : row.cells.length = row.columns.length)
    (hcolumns : row.columns ≠ []) : ∃ b, ofRow? row = some b ∧ IsListed row b := by
  by_cases hcolumn : "Branch" ∈ row.columns
  · cases hcell : row.get? "Branch" with
    | none => exact absurd hcolumn ((Row.get?_eq_none_iff hlength).1 hcell)
    | some name =>
      have hrow : ofRow? row = some ⟨name, (row.get? "Current").any (·.trimBlank = "*")⟩ := by
        rw [ofRow?, hcell]
        rfl
      exact ⟨_, hrow, fun _ => hcell, fun hnot => absurd hcolumn hnot, current_of_ofRow? hrow⟩
  · obtain ⟨name, hfirst⟩ := Row.exists_head?_cells hlength hcolumns
    have hrow : ofRow? row = some ⟨name, (row.get? "Current").any (·.trimBlank = "*")⟩ := by
      rw [ofRow?, (Row.get?_eq_none_iff hlength).2 hcolumn, hfirst]
      rfl
    exact ⟨_, hrow, fun hmem => absurd hmem hcolumn, fun _ => hfirst, current_of_ofRow? hrow⟩

/-- A listing with a column lists one branch in each row. -/
theorem forall₂_ofListing (hcolumns : q.columns ≠ []) :
    List.Forall₂ IsListed q.walk.toList (ofListing q) := by
  refine forall₂_filterMap fun row hrow => ?_
  obtain ⟨hsame, hlength⟩ := QueryResult.mem_walk hrow
  exact exists_isListed hlength (hsame ▸ hcolumns)

end Branch

/-! ## Conflicts -/

namespace MergeConflict

variable {command : String} {conflicts : List MergeConflict}

/-- A listing of conflicts cannot be read exactly if it has a row and lacks a column of the path. -/
theorem exists_ofListing_error_iff :
    (∃ e, ofListing q command = .error e) ↔
      q.rows ≠ [] ∧ ∃ name ∈ pathColumns, name ∉ q.columns := by
  have hmissing : (∃ name ∈ pathColumns, name ∉ q.columns) ↔ missingColumn? q.columns ≠ none := by
    simp [missingColumn?]
  rw [hmissing]
  constructor
  · rintro ⟨e, he⟩
    by_contra hnot
    have hcomplete : q.rows = [] ∨ missingColumn? q.columns = none := by
      rw [not_and_or, not_not, not_not] at hnot
      exact hnot
    have hread : ∃ conflicts, ofListing q command = .ok conflicts :=
      exists_ofListing_of_complete hcomplete
    obtain ⟨conflicts, hok⟩ := hread
    rw [he] at hok
    cases hok
  · rintro ⟨hrows, hmissing⟩
    obtain ⟨name, hname⟩ := Option.ne_none_iff_exists'.1 hmissing
    exact ⟨_, ofListing_of_missing hrows hname⟩

/-- A conflict has a value on a side if the listing has a column for the side. -/
theorem IsListed.sides {conflict : MergeConflict} (h : IsListed row conflict)
    (hlength : row.cells.length = row.columns.length) :
    (conflict.head.isSome ↔ "HEAD" ∈ row.columns) ∧
      (conflict.source.isSome ↔ "SOURCE" ∈ row.columns) := by
  have hside : ∀ name, (row.get? name).isSome ↔ name ∈ row.columns := by
    intro name
    rw [Option.isSome_iff_ne_none, ne_eq, Row.get?_eq_none_iff hlength, not_not]
  rw [← h.head, ← h.source]
  exact ⟨hside "HEAD", hside "SOURCE"⟩

end MergeConflict

/-! ## Whole listings -/

namespace Client

variable {τ : Type} [Transport τ]

/-- A result with a column is read as a listing without losing a row. It lists one branch in each
row, and a name in each, which is what the calls that list names answer. As conflicts it cannot be
read exactly if it has a row and lacks a column of the path; otherwise each row lists a conflict,
with a value on a side if there is a column for the side. -/
theorem listings_keep_rows (hcolumns : q.columns ≠ []) :
    List.Forall₂ Branch.IsListed q.walk.toList (Branch.ofListing q) ∧
      (List.Forall₂ (fun row name => row.cells.head? = some name) q.walk.toList q.firstCells ∧
        ∀ c c' : Client τ,
          (execute Statement.showDatabases.text c = (.ok (.query q), c') →
            showDatabases c = (.ok q.firstCells, c')) ∧
          ∀ database, execute (Statement.showTables database).text c = (.ok (.query q), c') →
            showTables database c = (.ok q.firstCells, c')) ∧
      ∀ command,
        ((∃ e, MergeConflict.ofListing q command = .error e) ↔
          q.rows ≠ [] ∧ ∃ name ∈ ["Database", "Table", "Key"], name ∉ q.columns) ∧
        ∀ conflicts, MergeConflict.ofListing q command = .ok conflicts →
          List.Forall₂ (fun row conflict => MergeConflict.IsListed row conflict ∧
            (conflict.head.isSome ↔ "HEAD" ∈ q.columns) ∧
              (conflict.source.isSome ↔ "SOURCE" ∈ q.columns)) q.walk.toList conflicts := by
  refine ⟨Branch.forall₂_ofListing hcolumns, ⟨QueryResult.forall₂_firstCells hcolumns,
    fun c c' => ⟨listNames_of_rows, fun _ => listNames_of_rows⟩⟩, fun command =>
    ⟨MergeConflict.exists_ofListing_error_iff, fun conflicts hread => ?_⟩⟩
  have hrows : ∀ row ∈ q.walk.toList,
      row.columns = q.columns ∧ row.cells.length = row.columns.length :=
    fun row hrow => QueryResult.mem_walk hrow
  have hlisted :=
    (List.forall₂_and_left _ _).2 ⟨hrows, MergeConflict.ofListing_eq_ok_iff.1 hread⟩
  refine hlisted.imp fun row conflict hone => ?_
  obtain ⟨⟨hsame, hlength⟩, hone⟩ := hone
  rw [← hsame]
  exact ⟨hone, hone.sides hlength⟩

/-- Two branches, listed without a column `Branch`. -/
def unnamedBranches : QueryResult :=
  ⟨["Name", "Current"], [["main", " * "], ["dev", ""]], 2, .zero, by decide⟩

/-- They are named by their first cells, and they are no conflicts. -/
theorem unnamedBranches_keep_rows :
    List.Forall₂ Branch.IsListed unnamedBranches.walk.toList [⟨"main", true⟩, ⟨"dev", false⟩] ∧
      unnamedBranches.firstCells = ["main", "dev"] ∧
      ∃ e, MergeConflict.ofListing unnamedBranches "SHOW MERGE CONFLICTS" = .error e := by
  obtain ⟨hbranches, -, hconflicts⟩ :=
    listings_keep_rows (τ := Scripted) (q := unnamedBranches) (by decide)
  exact ⟨hbranches, rfl, (hconflicts _).1.2 (by decide)⟩

end Client
end DbClient
