import DbClient.Session.Statements
import DbClient.Text.Natural

/-!
# Branches and merges

A merge with manual resolution stays open while there are conflicts. They are listed
and settled one by one, and then the merge is committed, or it is aborted. Lists of
conflicts are fetched anew each time.
-/

namespace DbClient

/-- The outcome of a merge with manual resolution. -/
inductive MergeOutcome where
  /-- There was no conflict, and the merge is done. -/
  | merged (r : CommitResult)
  /-- The merge is open, with these conflicts. -/
  | pending (conflicts : List MergeConflict)
  deriving DecidableEq, Repr

/-- The outcome of settling a conflict: its path, and how many are left, if the
server says so. -/
structure ResolveOutcome where
  resolved : String
  remaining : Option Nat
  deriving DecidableEq, Repr

/-- The outcome that a reply to `RESOLVE CONFLICT` reports for a path. -/
def ResolveOutcome.of (path : String) : ExecuteResult → ResolveOutcome
  | .commit _ => ⟨path, none⟩
  | .query q =>
    let row := q.row? 0
    { resolved := (row.bind (·.get? "Resolved")).getD path
      remaining := (row.bind (·.get? "Remaining")).bind fun count =>
        (Text.readNatural maxUnsigned count.trimBlank).toOption }

/-- A session as it is shown by the helpers for branches and merges. -/
def Session.displayWorkflow (s : Session) : String :=
  "MergeWorkflow \x7b session: " ++ s.display ++ " \x7d"

namespace Client

variable {τ : Type} [Transport τ]

/-- Refuses a branch name that is not one word. -/
def checkBranch (name : String) : Call τ Unit :=
  Call.ofUsage (checkOneWord "branch name" name)

/-- Makes a branch from the one that is checked out. -/
def createBranch (name : String) : Call τ CommitResult := do
  checkBranch name
  mutate (.createBranch name)

/-- Checks a branch out, for later reads and writes. -/
def checkout (name : String) : Call τ CommitResult := do
  checkBranch name
  mutate (.checkout name)

/-- Merges a branch with automatic resolution. -/
def merge (branch : String) : Call τ CommitResult := do
  checkBranch branch
  mutate (.merge branch)

/-- Begins a merge with manual resolution. -/
def mergeManual (branch : String) : Call τ MergeOutcome := do
  checkBranch branch
  let command := (Statement.mergeManual branch).text
  match ← execute command with
  | .commit r => pure (.merged r)
  | .query q => pure (.pending (← Call.ofExcept (MergeConflict.ofListing q command)))

/-- The conflicts of the open merge that are not settled. -/
def conflicts : Call τ (List MergeConflict) := do
  let command := Statement.showConflicts.text
  Call.ofExcept (MergeConflict.ofListing (← query command) command)

/-- Settles one conflict. -/
def resolve (conflict : MergeConflict) (resolution : Resolution) : Call τ ResolveOutcome := do
  pure (.of conflict.path (← execute (Statement.resolve conflict resolution).text))

/-- Settles conflicts one after another, up to the first that fails. -/
def resolveEach (resolution : Resolution) : List MergeConflict → Call τ Unit
  | [] => pure ()
  | conflict :: rest => do
    let _ ← resolve conflict resolution
    resolveEach resolution rest

/-- Settles every listed conflict in the same way, and counts them. -/
def resolveAll (resolution : Resolution) : Call τ Nat := do
  let listed ← conflicts
  resolveEach resolution listed
  pure listed.length

def commitMerge : Call τ CommitResult :=
  mutate .commitMerge

def abortMerge : Call τ Unit := do
  let _ ← execute Statement.abortMerge.text
  pure ()

/-- The name of the branch that is checked out. -/
def currentBranch : Call τ (Option String) := do
  pure (((← showBranches).find? (·.current)).map Branch.name)

end Client
end DbClient
