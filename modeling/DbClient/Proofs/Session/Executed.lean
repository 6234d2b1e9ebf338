import DbClient.Proofs.Merge.After
import DbClient.Proofs.Reply.Faults
import DbClient.Proofs.Session.Single

/-!
# Executed commands

How executing a command can go: it is refused, it cannot be framed, the channel fails,
or a reply line comes and is read. The errors of these four are of different kinds, so
that the outcome of a call tells what has happened to the session.
-/

namespace DbClient

open ClientError (IsReplyFault)
open FrameBuffer (IsChannelFailure)

/-! ## Kinds of errors -/

theorem readResult_fails (command : String) (line : Bytes) :
    FailsOnly (IsReplyFault command) (readResult command line) :=
  .bind ((Envelope.decode_fails line).mono fun _ h => h.isReplyFault) fun e => e.toResult_fails

theorem readAuth_fails (label : String) (line : Bytes) :
    FailsOnly (IsReplyFault label) (readAuth label line) :=
  .bind ((Envelope.decode_fails line).mono fun _ h => h.isReplyFault) fun e => e.toAuth_fails

/-- How a call can fail whose command has succeeded: the result is of the other kind, or
it does not hold what the call looks for. -/
inductive ClientError.IsViewFault : ClientError → Prop
  | unexpected (expected actual : ResultKind) :
    IsViewFault (.usage (.unexpectedResult expected actual))
  | reply {command : String} {e : ClientError} (h : IsReplyFault command e) : IsViewFault e

open ClientError (IsViewFault)

theorem ClientError.IsReplyFault.not_isChannelFailure {command label : String} {e : ClientError}
    (h : IsReplyFault command e) : ¬IsChannelFailure label e := by
  intro hfailure
  cases h <;> cases hfailure

theorem ClientError.IsViewFault.not_isChannelFailure {label : String} {e : ClientError}
    (h : IsViewFault e) : ¬IsChannelFailure label e := by
  cases h with
  | unexpected =>
    intro hfailure
    cases hfailure
  | reply h => exact h.not_isChannelFailure

/-- A typed call whose view of the result fails in no other way. -/
def TypedCall.FailsOnView {α : Type} (t : TypedCall α) : Prop :=
  ∀ r, FailsOnly IsViewFault (t.view r)

namespace TypedCall.FailsOnView

variable {α β : Type} {t : TypedCall α} {command : String}

theorem issue : (TypedCall.issue command).FailsOnView := by
  intro r
  exact .ok r

theorem andThen {g : α → Except ClientError β} (ht : t.FailsOnView)
    (hg : ∀ a, FailsOnly IsViewFault (g a)) : (t.andThen g).FailsOnView := by
  intro r
  exact (ht r).bind hg

theorem map (f : α → β) (ht : t.FailsOnView) : (t.map f).FailsOnView := by
  intro r
  exact (ht r).map f

theorem withBranch (name : String) (ht : t.FailsOnView) : (t.withBranch name).FailsOnView :=
  ht

theorem mutation : (TypedCall.mutation command).FailsOnView := by
  refine map _ (andThen issue fun r => ?_)
  cases r with
  | query => exact .error (.unexpected _ _)
  | commit => exact .ok _

theorem listing : (TypedCall.listing command).FailsOnView := by
  refine andThen issue fun r => ?_
  cases r with
  | query => exact .ok _
  | commit => exact .error (.unexpected _ _)

end TypedCall.FailsOnView

theorem MergeConflict.ofListing_failsOnView (q : QueryResult) (command : String) :
    FailsOnly IsViewFault (MergeConflict.ofListing q command) :=
  (MergeConflict.ofListing_fails q).mono fun _ h => .reply h.isReplyFault

theorem Request.failsOnView {r : Request} {t : TypedCall Answer} (h : r.typed? = some t) :
    t.FailsOnView := by
  open TypedCall.FailsOnView in
  cases r with
  | connect | close | raw | authenticate | resolveAll => cases h
  | execute | resolve | abortMerge =>
    cases h
    exact issue.map _
  | query | showDatabases | showTables | showBranches | currentBranch =>
    cases h
    exact listing.map _
  | mutation | createDatabase | dropDatabase | createTable | dropTable | insert | commitMerge =>
    cases h
    exact TypedCall.FailsOnView.mutation
  | createBranch | checkout | merge =>
    cases h
    exact TypedCall.FailsOnView.mutation.withBranch _
  | mergeManual branch =>
    cases h
    refine .withBranch _ (.map _ (.andThen .issue fun result => ?_))
    cases result with
    | query q => exact (MergeConflict.ofListing_failsOnView q _).map _
    | commit => exact .ok _
  | conflicts =>
    cases h
    exact .map _ (.andThen .listing fun q => MergeConflict.ofListing_failsOnView q _)

/-! ## Executing -/

namespace Client

variable {τ : Type} {c : Client τ} {command label : String}

/-- A failed reply is no news for a session without a merge. -/
theorem track_failed_of_clean (h : c.session.merge = .clean) (cls : CommandClass) :
    c.track cls .failed = c := by
  rw [track, h, MergeState.clean_after_failed, ← h]

theorem permit_eq_ok_iff {cls : CommandClass} :
    permit command c = (.ok cls, c) ↔
      c.refusal? command = none ∧ CommandClass.of command = cls := by
  cases hr : c.refusal? command with
  | some misuse =>
    rw [permit_of_refused hr]
    simp
  | none =>
    rw [permit_of_admitted hr]
    simp

variable [Transport τ]

/-- An exchange on an open channel that brings no line: the command has no frame, or the
channel has failed. -/
theorem exchange_error_of_open {e : ClientError} {c' : Client τ}
    (h : exchange command label c = (.error e, c')) (hopen : c.session.isOpen = true) :
    delimiter ∈ Utf8.encode command ∧ e = .usage (.invalidCommand .newline) ∧ c' = c ∨
      delimiter ∉ Utf8.encode command ∧ IsChannelFailure label e ∧
        c'.session.isOpen = false ∧ c'.session.merge = .clean := by
  have hcases := exchange_exchanged command label c
  rw [h] at hcases
  cases hcases with
  | newline hmem => exact .inl ⟨hmem, rfl, rfl⟩
  | closed _ hclosed =>
    rw [hopen] at hclosed
    cases hclosed
  | unsent hmem => exact .inr ⟨hmem, .transport _, rfl, rfl⟩
  | lost hmem _ _ hread =>
    exact .inr ⟨hmem, FrameBuffer.isChannelFailure_readFrame hread, rfl, rfl⟩

theorem notMem_of_exchange_ok {line : Bytes} {c' : Client τ}
    (h : exchange command label c = (.ok line, c')) :
    delimiter ∉ Utf8.encode command ∧ c'.session.isOpen = true ∧
      c'.session.merge = c.session.merge := by
  have hcases := exchange_exchanged command label c
  rw [h] at hcases
  cases hcases with
  | answered hmem hopen => exact ⟨hmem, hopen, rfl⟩

/-- Every way in which executing a command can go, with the client that it leaves. -/
inductive Executed (command : String) (c : Client τ) :
    Except ClientError ExecuteResult × Client τ → Prop where
  | refused {e : UsageError} (h : c.refusal? command = some e) :
    Executed command c (.error (.usage e), c)
  | unframed (h : c.refusal? command = none) (hmem : delimiter ∈ Utf8.encode command) :
    Executed command c
      (.error (.usage (.invalidCommand .newline)), c.track (.of command) .failed)
  | lost {e : ClientError} {c' : Client τ} (h : c.refusal? command = none)
    (he : IsChannelFailure command e) (hclosed : c'.session.isOpen = false)
    (hclean : c'.session.merge = .clean) : Executed command c (.error e, c')
  | answered {line : Bytes} {c' : Client τ} (h : c.refusal? command = none)
    (hx : exchange command command c = (.ok line, c')) :
    Executed command c
      (readResult command line, c'.track (.of command) (.of (readResult command line)))

theorem execute_executed (command : String) (c : Client τ) :
    Executed command c (execute command c) := by
  cases hr : c.refusal? command with
  | some misuse =>
    rw [execute_of_refused hr]
    exact .refused hr
  | none =>
    rw [execute_of_admitted hr]
    rcases hx : exchange command command c with ⟨e | line, c'⟩
    · rcases exchange_error_of_open hx (isOpen_of_admitted hr) with
        ⟨hmem, rfl, rfl⟩ | ⟨-, he, hclosed, hclean⟩
      · exact .unframed hr hmem
      · -- the connection has been given up before the failure is followed
        have hsame : c'.track (.of command) .failed = c' := track_failed_of_clean hclean _
        simp only [Except.bind, Reply.of, hsame]
        exact .lost hr he hclosed hclean
    · exact .answered hr hx

/-- A command that has been answered has had a frame, and the session is still open. -/
theorem isOpen_of_execute_ok {c' : Client τ} {r : ExecuteResult}
    (h : execute command c = (.ok r, c')) :
    c'.session.isOpen = true ∧ encodeCommand command = .ok (frameOf command) := by
  have hexecuted := execute_executed command c
  rw [h] at hexecuted
  generalize hr : (.ok r : Except ClientError ExecuteResult) = reply at hexecuted
  cases hexecuted with
  | refused | unframed | lost => cases hr
  | answered _ hx =>
    obtain ⟨hmem, hopen, -⟩ := notMem_of_exchange_ok hx
    exact ⟨hopen, encodeCommand_of_notMem hmem⟩

/-- A command of a class that neither asks for its reply nor aborts leaves the merge as it is,
as long as the connection lasts. -/
theorem merge_execute_of_inert (h : c.refusal? command = none)
    (hask : (CommandClass.of command).asksReply = false)
    (habort : CommandClass.of command ≠ .abortMerge) :
    (execute command c).2.session.merge =
      if (execute command c).2.session.isOpen then c.session.merge else .clean := by
  have hexecuted := execute_executed command c
  generalize execute command c = reply at hexecuted ⊢
  cases hexecuted with
  | refused hr =>
    rw [h] at hr
    cases hr
  | unframed =>
    rw [merge_track, isOpen_track, isOpen_of_admitted h, MergeState.after_of_inert hask habort]
    rfl
  | lost _ _ hclosed hclean => simp [hclosed, hclean]
  | answered _ hx =>
    obtain ⟨-, hopen, hmerge⟩ := notMem_of_exchange_ok hx
    rw [merge_track, isOpen_track, hopen, MergeState.after_of_inert hask habort, hmerge]
    rfl

end Client
end DbClient
