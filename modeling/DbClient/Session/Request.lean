import DbClient.Session.Raw
import DbClient.Session.Workflow

/-!
# Requests and runs

Every call that can be made on a client, as a value, with the answers they give. A
run makes the calls of a list in order, each on the client that the one before it
has left, whether that one failed or not.
-/

namespace DbClient

/-- A call on a client. -/
inductive Request where
  | connect
  | close
  | execute (command : String)
  | query (command : String)
  | mutation (command : String)
  | raw (command : String)
  | createDatabase (name : String)
  | dropDatabase (name : String)
  | createTable (database table columns : String)
  | dropTable (database table : String)
  | insert (database table : String) (columns : List String) (values : List Literal)
  | showDatabases
  | showTables (database : String)
  | showBranches
  | authenticate (token : String)
  | createBranch (name : String)
  | checkout (name : String)
  | merge (branch : String)
  | mergeManual (branch : String)
  | conflicts
  | resolve (conflict : MergeConflict) (resolution : Resolution)
  | resolveAll (resolution : Resolution)
  | commitMerge
  | abortMerge
  | currentBranch
  deriving DecidableEq, Repr

/-- What a call answers. -/
inductive Answer where
  | done
  | result (r : ExecuteResult)
  | raw (r : RawEnvelope)
  | names (names : List String)
  | branches (branches : List Branch)
  | auth (a : AuthInfo)
  | merge (o : MergeOutcome)
  | conflicts (conflicts : List MergeConflict)
  | resolved (o : ResolveOutcome)
  | count (n : Nat)
  | branch (name : Option String)

/-- Makes a call. -/
def Request.perform {τ : Type} [Endpoint τ] : Request → Call τ Answer
  | connect => do
    Client.connect
    pure .done
  | close => fun c => (.ok .done, c.close)
  | execute command => do pure (.result (← Client.execute command))
  | query command => do pure (.result (.query (← Client.query command)))
  | mutation command => do pure (.result (.commit (← Client.executeMutation command)))
  | raw command => do pure (.raw (← Client.executeRaw command))
  | createDatabase name => do pure (.result (.commit (← Client.createDatabase name)))
  | dropDatabase name => do pure (.result (.commit (← Client.dropDatabase name)))
  | createTable database table columns => do
    pure (.result (.commit (← Client.createTable database table columns)))
  | dropTable database table => do
    pure (.result (.commit (← Client.dropTable database table)))
  | insert database table columns values => do
    pure (.result (.commit (← Client.insert database table columns values)))
  | showDatabases => do pure (.names (← Client.showDatabases))
  | showTables database => do pure (.names (← Client.showTables database))
  | showBranches => do pure (.branches (← Client.showBranches))
  | authenticate token => do pure (.auth (← Client.authenticate token))
  | createBranch name => do pure (.result (.commit (← Client.createBranch name)))
  | checkout name => do pure (.result (.commit (← Client.checkout name)))
  | merge branch => do pure (.result (.commit (← Client.merge branch)))
  | mergeManual branch => do pure (.merge (← Client.mergeManual branch))
  | conflicts => do pure (.conflicts (← Client.conflicts))
  | resolve conflict resolution => do
    pure (.resolved (← Client.resolve conflict resolution))
  | resolveAll resolution => do pure (.count (← Client.resolveAll resolution))
  | commitMerge => do pure (.result (.commit (← Client.commitMerge)))
  | abortMerge => do
    Client.abortMerge
    pure .done
  | currentBranch => do pure (.branch (← Client.currentBranch))

namespace Client

variable {τ : Type} [Endpoint τ]

/-- Makes the calls of a list in order. -/
def run : List Request → Client τ → List (Except ClientError Answer) × Client τ
  | [], c => ([], c)
  | r :: rest, c =>
    let (answer, c) := r.perform c
    let (answers, c) := run rest c
    (answer :: answers, c)

/-- Opens a session, makes a call on it, and closes it whatever the outcome. -/
def withSession {α : Type} (target : Target) (options : ClientOptions) (body : Call τ α) (link : τ) :
    Except ClientError α × τ :=
  match connect (new target options link) with
  | (.error e, c) => (.error e, c.close.link)
  | (.ok (), c) =>
    let (outcome, c) := body c
    (outcome, c.close.link)

/-- Executes commands one after another, up to the first that fails. -/
def executeEach : List String → Call τ (List ExecuteResult)
  | [] => pure []
  | command :: rest => do
    let r ← execute command
    pure (r :: (← executeEach rest))

end Client
end DbClient
