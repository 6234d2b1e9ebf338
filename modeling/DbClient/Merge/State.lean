import DbClient.Command.Class
import DbClient.Error

/-!
# Merge state

The server owns the state of a merge. The client keeps its own view of it for one
purpose: to refuse, before anything is sent, a command that cannot be valid while a
manual merge is open.
-/

namespace DbClient

/-- The client's view of the server's merge state. -/
inductive MergeState where
  | clean
  /-- A manual merge is open and must be committed or aborted. -/
  | pending
  deriving DecidableEq, Repr

/-- What a reply says about the merge state. -/
inductive Reply where
  | failed
  | commit
  | query (rows : Nat)
  deriving DecidableEq, Repr

/-- The reply behind the typed outcome of a command. -/
def Reply.of : Except ClientError ExecuteResult → Reply
  | .ok (.query q) => .query q.length
  | .ok (.commit _) => .commit
  | .error _ => .failed

/-- Whether commands of a class are refused while a merge is open. -/
def CommandClass.isGuarded : CommandClass → Bool
  | .merge | .manualMerge | .checkout | .schemaChange => true
  | _ => false

namespace MergeState

def name : MergeState → String
  | .clean => "Clean"
  | .pending => "Pending"

/-- Refuses a command that cannot be valid in this state. -/
def check (s : MergeState) (cls : CommandClass) (command : String) : Except UsageError Unit :=
  if s = .pending && cls.isGuarded then .error (.mergePending command) else .ok ()

/-- The state after a command of a class got a reply. -/
def after (s : MergeState) : CommandClass → Reply → MergeState
  | .abortMerge, _ => .clean
  | .commitMerge, .commit | .commitMerge, .query _ => .clean
  | .manualMerge, .query _ => .pending
  | .showConflicts, .query rows => if 0 < rows then .pending else s
  | _, _ => s

end MergeState
end DbClient
