import DbClient.Number.Word
import DbClient.Reply.Query

/-!
# What a command yields

A command that succeeds yields rows or a summary of changes; a login yields the
identity that the server bound to the connection.
-/

namespace DbClient

/-- The counters reported by a mutation. -/
structure CommitResult where
  databasesCreated : UInt64
  databasesDeleted : UInt64
  tablesCreated : UInt64
  tablesDeleted : UInt64
  recordsWritten : UInt64
  recordsDeleted : UInt64
  time : Binary64
  deriving DecidableEq, Repr

namespace CommitResult

/-- Nothing changed, in no time. -/
def none : CommitResult :=
  ⟨0, 0, 0, 0, 0, 0, .zero⟩

/-- The sum of two counters, or the largest counter if it does not fit. -/
def saturatingAdd (a b : UInt64) : UInt64 :=
  if a + b < a then UInt64.ofNat maxUnsigned else a + b

/-- The sum of all six counters, as far as it fits. -/
def affectedRows (c : CommitResult) : UInt64 :=
  [c.databasesCreated, c.databasesDeleted, c.tablesCreated, c.tablesDeleted,
    c.recordsWritten, c.recordsDeleted].foldl saturatingAdd 0

end CommitResult

/-- The two kinds of result. -/
inductive ResultKind where
  | query
  | commit
  deriving DecidableEq, Repr

def ResultKind.name : ResultKind → String
  | .query => "query"
  | .commit => "commit"

/-- The result of a command. -/
inductive ExecuteResult where
  | query (q : QueryResult)
  | commit (c : CommitResult)
  deriving DecidableEq

def ExecuteResult.kind : ExecuteResult → ResultKind
  | .query _ => .query
  | .commit _ => .commit

/-- The outcome of a login: who is bound to the connection, and for how many
seconds, if there is an end to it. -/
structure AuthInfo where
  authenticated : Bool
  identity : String
  expiresIn : Option Int
  deriving DecidableEq, Repr

end DbClient
