import DbClient.Command.Statement
import DbClient.Session.Basic

/-!
# Calls with a statement of their own

Each of these writes its command, executes it and takes what the caller wants out of
the result.
-/

namespace DbClient.Client

variable {τ : Type} [Transport τ]

/-- Executes a statement that changes something. -/
def mutate (s : Statement) : Call τ CommitResult :=
  executeMutation s.text

/-- The first cell of every row of a listing. -/
def listNames (s : Statement) : Call τ (List String) := do
  pure (← query s.text).firstCells

def createDatabase (name : String) : Call τ CommitResult :=
  mutate (.createDatabase name)

def dropDatabase (name : String) : Call τ CommitResult :=
  mutate (.dropDatabase name)

def createTable (database table columns : String) : Call τ CommitResult :=
  mutate (.createTable database table columns)

def dropTable (database table : String) : Call τ CommitResult :=
  mutate (.dropTable database table)

/-- Inserts one row. -/
def insert (database table : String) (columns : List String) (values : List Literal) :
    Call τ CommitResult :=
  mutate (.insert database table columns values)

def showDatabases : Call τ (List String) :=
  listNames .showDatabases

def showTables (database : String) : Call τ (List String) :=
  listNames (.showTables database)

def showBranches : Call τ (List Branch) := do
  pure (Branch.ofListing (← query Statement.showBranches.text))

/-- What stands for the login command in errors, so that no token is shown. -/
def authLabel : String := "AUTH JWT <redacted>"

/-- Binds the identity of a token to the connection. -/
def authenticate (token : String) : Call τ AuthInfo := do
  let word ← Call.ofUsage (checkToken token)
  ensureOpen
  let envelope ← roundTrip (Statement.authenticate word).text authLabel
  Call.ofExcept (envelope.toAuth authLabel)

end DbClient.Client
