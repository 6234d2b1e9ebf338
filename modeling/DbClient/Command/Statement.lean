import DbClient.Command.Literal
import DbClient.Merge.Listing

/-!
# Statements

The texts of the commands that the client writes itself. Names and values are put
into them as they are.
-/

namespace DbClient

/-- A command that the client writes. -/
inductive Statement where
  | createDatabase (name : String)
  | dropDatabase (name : String)
  /-- `columns` is the whole list of column definitions. -/
  | createTable (database table columns : String)
  | dropTable (database table : String)
  | insert (database table : String) (columns : List String) (values : List Literal)
  | showDatabases
  | showTables (database : String)
  | showBranches
  | authenticate (token : String)
  | createBranch (name : String)
  | checkout (name : String)
  | merge (branch : String)
  | mergeManual (branch : String)
  | showConflicts
  | resolve (conflict : MergeConflict) (resolution : Resolution)
  | commitMerge
  | abortMerge
  deriving DecidableEq, Repr

/-- The text of a statement. -/
def Statement.text : Statement → String
  | .createDatabase name => s!"CREATE DATABASE {name}"
  | .dropDatabase name => s!"DROP DATABASE {name}"
  | .createTable database table columns => s!"CREATE TABLE {database}.{table} ({columns})"
  | .dropTable database table => s!"DROP TABLE {database}.{table}"
  | .insert database table columns values =>
    s!"INSERT INTO {database}.{table} (" ++ ", ".intercalate columns ++ ") VALUES (" ++
      ", ".intercalate (values.map Literal.write) ++ ")"
  | .showDatabases => "SHOW DATABASES"
  | .showTables database => s!"SHOW TABLES IN {database}"
  | .showBranches => "SHOW BRANCHES"
  | .authenticate token => s!"AUTH JWT {token}"
  | .createBranch name => s!"CREATE BRANCH {name}"
  | .checkout name => s!"CHECKOUT {name}"
  | .merge branch => s!"MERGE {branch}"
  | .mergeManual branch => s!"MERGE {branch} WITH MANUAL RESOLUTION"
  | .showConflicts => "SHOW MERGE CONFLICTS"
  | .resolve conflict resolution =>
    s!"RESOLVE CONFLICT {conflict.path} USING {resolution.write}"
  | .commitMerge => "COMMIT MERGE"
  | .abortMerge => "ABORT MERGE"

/-- Refuses a name that is not one word. White space and semicolons end words. -/
def checkOneWord (what name : String) : Except UsageError Unit :=
  if name.isEmpty || name.toList.any (fun c => Text.isBlank c || c == ';') then
    .error (.invalidCommand (.notOneWord what name))
  else .ok ()

/-- The token of a login, white space around it dropped. It must be one word. -/
def checkToken (token : String) : Except UsageError String :=
  let word := Text.trim token.toList
  if word.isEmpty || word.any Text.isBlank then .error (.invalidCommand .tokenNotOneWord)
  else .ok (String.ofList word)

end DbClient
