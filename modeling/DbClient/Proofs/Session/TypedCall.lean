import DbClient.Proofs.Session.Exchange
import DbClient.Session.Request

/-!
# Typed calls

All but a few of the calls on a client have one form: a command is written, or its
arguments are refused; it is executed; and the answer is viewed out of the typed
result. The form is what each call does, so that a fact about executing a command
holds of every call that issues one.
-/

namespace DbClient

/-- The rows of a result. -/
def ExecuteResult.asQuery : ExecuteResult → Except ClientError QueryResult
  | .query q => .ok q
  | .commit _ => .error (.usage (.unexpectedResult .query .commit))

/-- The summary of changes in a result. -/
def ExecuteResult.asCommit : ExecuteResult → Except ClientError CommitResult
  | .commit r => .ok r
  | .query _ => .error (.usage (.unexpectedResult .commit .query))

/-- The outcome of a manual merge, of what was replied to its command. -/
def MergeOutcome.of (command : String) : ExecuteResult → Except ClientError MergeOutcome
  | .commit r => .ok (.merged r)
  | .query q => (MergeConflict.ofListing q command).map .pending

/-- The command that a call issues, unless its arguments are refused, and the answer
that the call views out of the result. -/
structure TypedCall (α : Type) where
  command : Except UsageError String
  view : ExecuteResult → Except ClientError α

namespace TypedCall

variable {α β : Type}

/-- The call that issues a command and answers its result. -/
def issue (command : String) : TypedCall ExecuteResult :=
  ⟨.ok command, .ok⟩

/-- The call with its answer read further. -/
def andThen (t : TypedCall α) (g : α → Except ClientError β) : TypedCall β :=
  ⟨t.command, fun r => (t.view r).bind g⟩

def map (f : α → β) (t : TypedCall α) : TypedCall β :=
  ⟨t.command, fun r => (t.view r).map f⟩

/-- The call with a branch name checked before it. -/
def withBranch (name : String) (t : TypedCall α) : TypedCall α :=
  ⟨(checkOneWord "branch name" name).bind fun _ => t.command, t.view⟩

def mutation (command : String) : TypedCall Answer :=
  ((issue command).andThen (·.asCommit)).map (.result ∘ .commit)

def listing (command : String) : TypedCall QueryResult :=
  (issue command).andThen (·.asQuery)

end TypedCall

namespace Request

open TypedCall (issue mutation listing)

/-- The typed call that a request is. The others are opening and closing, the raw
call, the login, and the settling of a whole list of conflicts. -/
def typed? : Request → Option (TypedCall Answer)
  | execute command => some ((issue command).map .result)
  | query command => some ((listing command).map (.result ∘ .query))
  | mutation command => some (TypedCall.mutation command)
  | createDatabase name => some (TypedCall.mutation (Statement.createDatabase name).text)
  | dropDatabase name => some (TypedCall.mutation (Statement.dropDatabase name).text)
  | createTable database table columns =>
    some (TypedCall.mutation (Statement.createTable database table columns).text)
  | dropTable database table =>
    some (TypedCall.mutation (Statement.dropTable database table).text)
  | insert database table columns values =>
    some (TypedCall.mutation (Statement.insert database table columns values).text)
  | showDatabases =>
    some ((listing Statement.showDatabases.text).map (.names ∘ QueryResult.firstCells))
  | showTables database =>
    some ((listing (Statement.showTables database).text).map (.names ∘ QueryResult.firstCells))
  | showBranches =>
    some ((listing Statement.showBranches.text).map (.branches ∘ Branch.ofListing))
  | createBranch name =>
    some ((TypedCall.mutation (Statement.createBranch name).text).withBranch name)
  | checkout name => some ((TypedCall.mutation (Statement.checkout name).text).withBranch name)
  | merge branch => some ((TypedCall.mutation (Statement.merge branch).text).withBranch branch)
  | mergeManual branch =>
    let command := (Statement.mergeManual branch).text
    some ((((issue command).andThen (MergeOutcome.of command)).map .merge).withBranch branch)
  | conflicts =>
    let command := Statement.showConflicts.text
    some (((listing command).andThen (MergeConflict.ofListing · command)).map .conflicts)
  | resolve conflict resolution =>
    some ((issue (Statement.resolve conflict resolution).text).map
      (.resolved ∘ ResolveOutcome.of conflict.path))
  | commitMerge => some (TypedCall.mutation Statement.commitMerge.text)
  | abortMerge => some ((issue Statement.abortMerge.text).map fun _ => .done)
  | currentBranch =>
    some ((listing Statement.showBranches.text).map fun q =>
      .branch (((Branch.ofListing q).find? (·.current)).map Branch.name))
  | connect | close | raw _ | authenticate _ | resolveAll _ => none

end Request

namespace TypedCall

variable {τ α β : Type} [Transport τ] {command : String}

/-- What a typed call does. -/
def perform (t : TypedCall α) : Call τ α := fun c =>
  match t.command with
  | .error e => (.error (.usage e), c)
  | .ok command =>
    let reply := Client.execute command c
    (reply.1.bind t.view, reply.2)

theorem perform_issue : (issue command).perform (τ := τ) = Client.execute command := by
  funext c
  simp only [perform, issue]
  rcases Client.execute command c with ⟨_ | _, c'⟩ <;> rfl

theorem perform_andThen (t : TypedCall α) (g : α → Except ClientError β) :
    (t.andThen g).perform (τ := τ) = (t.perform >>= fun a => Call.ofExcept (g a)) := by
  funext c
  rw [Call.bind_ofExcept_apply]
  cases h : t.command with
  | error e => simp only [perform, andThen, h]; rfl
  | ok command =>
    simp only [perform, andThen, h]
    rcases Client.execute command c with ⟨_ | _, c'⟩ <;> rfl

theorem perform_map (f : α → β) (t : TypedCall α) :
    (t.map f).perform (τ := τ) = (t.perform >>= fun a => pure (f a)) := by
  funext c
  rw [Call.map_apply]
  cases h : t.command with
  | error e => simp only [perform, map, h]; rfl
  | ok command =>
    simp only [perform, map, h]
    rcases Client.execute command c with ⟨_ | _, c'⟩ <;> rfl

theorem perform_withBranch (name : String) (t : TypedCall α) :
    (t.withBranch name).perform (τ := τ) =
      (Client.checkBranch name >>= fun _ => t.perform) := by
  funext c
  cases h : checkOneWord "branch name" name with
  | error e =>
    have hcheck : Client.checkBranch name c = (.error (.usage e), c) := by
      simp only [Client.checkBranch, Call.ofUsage, h]
    rw [Call.bind_apply_error hcheck]
    simp only [perform, withBranch, h, Except.bind]
  | ok =>
    have hcheck : Client.checkBranch name c = (.ok (), c) := by
      simp only [Client.checkBranch, Call.ofUsage, h]
    rw [Call.bind_apply_ok hcheck]
    simp only [perform, withBranch, h, Except.bind]

theorem perform_listing :
    (listing command).perform (τ := τ) = Client.query command := by
  rw [listing, perform_andThen, perform_issue]
  show (_ >>= _) = (_ >>= _)
  congr 1
  funext r
  cases r <;> rfl

theorem perform_mutation :
    (mutation command).perform (τ := τ) =
      (Client.executeMutation command >>= fun r => pure (.result (.commit r))) := by
  rw [mutation, perform_map, perform_andThen, perform_issue]
  show (_ >>= _) = (_ >>= _)
  congr 1
  show (_ >>= _) = (_ >>= _)
  congr 1
  funext r
  cases r <;> rfl

end TypedCall

/-- A read is answered by the rows of its result. -/
theorem Client.query_apply {τ : Type} [Transport τ] (command : String) (c : Client τ) :
    query command c = ((execute command c).1.bind (·.asQuery), (execute command c).2) := by
  rw [← TypedCall.perform_listing]
  rfl

/-- Opening is answered by nothing but that it has succeeded. -/
theorem Request.perform_connect {τ : Type} [Endpoint τ] (c : Client τ) :
    connect.perform c = ((Client.connect c).1.map fun _ => .done, (Client.connect c).2) := by
  rw [perform, Call.map_apply]

/-- A request that is a typed call does what that call does. -/
theorem Request.perform_typed {τ : Type} [Endpoint τ] {r : Request} {t : TypedCall Answer}
    (h : r.typed? = some t) : r.perform (τ := τ) = t.perform := by
  open TypedCall in
  cases r with
  | connect | close | raw | authenticate | resolveAll => cases h
  | execute =>
    cases h
    rw [perform_map, perform_issue]
    rfl
  | query =>
    cases h
    rw [perform_map, perform_listing]
    rfl
  | mutation | createDatabase | dropDatabase | createTable | dropTable | insert | commitMerge =>
    cases h
    exact perform_mutation.symm
  | showDatabases | showTables =>
    cases h
    rw [perform_map, perform_listing]
    simp only [Request.perform, Client.showDatabases, Client.showTables, Client.listNames,
      bind_assoc, pure_bind, Function.comp_apply]
  | showBranches | currentBranch =>
    cases h
    rw [perform_map, perform_listing]
    simp only [Request.perform, Client.currentBranch, Client.showBranches, bind_assoc, pure_bind,
      Function.comp_apply]
  | createBranch | checkout | merge =>
    cases h
    rw [perform_withBranch, perform_mutation]
    simp only [Request.perform, Client.createBranch, Client.checkout, Client.merge,
      Client.mutate, bind_assoc]
  | mergeManual branch =>
    cases h
    rw [perform_withBranch, perform_map, perform_andThen, perform_issue]
    simp only [Request.perform, Client.mergeManual, bind_assoc]
    congr 1
    funext _
    congr 1
    funext r
    cases r with
    | commit => rfl
    | query q => simp only [MergeOutcome.of, Call.ofExcept_map]
  | conflicts =>
    cases h
    rw [perform_map, perform_andThen, perform_listing]
    simp only [Request.perform, Client.conflicts]
  | resolve =>
    cases h
    rw [perform_map, perform_issue]
    simp only [Request.perform, Client.resolve, bind_assoc, pure_bind, Function.comp_apply]
  | abortMerge =>
    cases h
    rw [perform_map, perform_issue]
    simp only [Request.perform, Client.abortMerge, bind_assoc, pure_bind]

end DbClient
