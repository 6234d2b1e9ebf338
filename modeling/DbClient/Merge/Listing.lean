import DbClient.Error
import DbClient.Text.Blank

/-!
# Listings of conflicts and branches

The server lists open conflicts and branches as query results. A conflict needs the
three columns of its path; a branch is named by the column `Branch`, or by the first
cell of its row.
-/

namespace DbClient

/-- A key whose values on the two sides of a merge differ. -/
structure MergeConflict where
  database : String
  table : String
  key : String
  /-- The value on the current branch. -/
  head : Option String
  /-- The value on the branch that is merged in. -/
  source : Option String
  deriving DecidableEq, Repr

namespace MergeConflict

/-- The path that names the conflict in commands. -/
def path (c : MergeConflict) : String :=
  s!"{c.database}.{c.table}.{c.key}"

/-- A cell that every listed conflict must have. -/
def required (command : String) (row : Row) (name : String) : Except ClientError String :=
  match row.get? name with
  | some cell => .ok cell
  | none => .error (.protocol command (.missingColumn name))

/-- The conflict of a listed row. -/
def ofRow (command : String) (row : Row) : Except ClientError MergeConflict := do
  let database ← required command row "Database"
  let table ← required command row "Table"
  let key ← required command row "Key"
  .ok ⟨database, table, key, row.get? "HEAD", row.get? "SOURCE"⟩

/-- The conflicts of a listing, in its order. -/
def ofListing (q : QueryResult) (command : String) : Except ClientError (List MergeConflict) :=
  q.walk.toList.mapM (ofRow command)

end MergeConflict

/-- How a conflict is settled. -/
inductive Resolution where
  | head
  | source
  | value (literal : String)
  deriving DecidableEq, Repr

/-- The resolution as it is written in a command. -/
def Resolution.write : Resolution → String
  | .head => "HEAD"
  | .source => "SOURCE"
  | .value literal => s!"'{literal}'"

/-- A branch, and whether it is checked out. -/
structure Branch where
  name : String
  current : Bool
  deriving DecidableEq, Repr

namespace Branch

/-- The branch of a listed row, unless the row has no cell to name it. -/
def ofRow? (row : Row) : Option Branch :=
  (row.get? "Branch" <|> row.cells.head?).map fun name =>
    ⟨name, (row.get? "Current").any (·.trimBlank = "*")⟩

/-- The branches of a listing, in its order. -/
def ofListing (q : QueryResult) : List Branch :=
  q.walk.toList.filterMap ofRow?

end Branch
end DbClient
