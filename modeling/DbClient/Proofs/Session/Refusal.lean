import DbClient.Proofs.Session.Executed
import DbClient.Transport.Scripted

/-!
# Refused calls

A call that is refused locally has not reached the transport, and it leaves the
session as it was. There is one exception. An abort that cannot be framed is refused
like any other such command, but the merge state follows it as if a reply had come.
-/

namespace DbClient

/-! ## Refusals -/

/-- Whether an error is a misuse that is refused before anything is sent. -/
def ClientError.refuses : ClientError → Bool
  | usage e => e.refuses
  | connection _ _ | load _ _ | connectionClosed _ | transport _ _ | protocol _ _ | server _ _ =>
    false

/-- An outcome that is an answer, or an error that is no refusal. -/
def NotRefused {α : Type} (x : Except ClientError α) : Prop :=
  ∀ e, x = .error e → e.refuses = false

namespace NotRefused

variable {α β : Type} {x : Except ClientError α}

theorem of_map {f : α → β} {e : ClientError} (h : x.map f = .error e) : x = .error e := by
  cases x with
  | error e' =>
    cases h
    rfl
  | ok a => cases h

/-- A refusal at the end of a chain comes from its first link. -/
theorem of_bind {f : α → Except ClientError β} {e : ClientError} (hf : ∀ a, NotRefused (f a))
    (h : x.bind f = .error e) (he : e.refuses = true) : x = .error e := by
  cases x with
  | error e' =>
    cases h
    rfl
  | ok a =>
    have hnot := hf a e h
    rw [he] at hnot
    cases hnot

end NotRefused

/-! ## Replies refuse nothing -/

open ClientError (IsReplyFault IsViewFault)

theorem ClientError.IsReplyFault.refuses {command : String} {e : ClientError}
    (h : IsReplyFault command e) : e.refuses = false := by
  cases h <;> rfl

theorem ClientError.IsViewFault.refuses {e : ClientError} (h : IsViewFault e) :
    e.refuses = false := by
  cases h with
  | unexpected => rfl
  | reply h => exact h.refuses

theorem notRefused_readResult {command : String} (line : Bytes) :
    NotRefused (readResult command line) := by
  intro e he
  exact (readResult_fails command line e he).refuses

theorem notRefused_readAuth {label : String} (line : Bytes) : NotRefused (readAuth label line) := by
  intro e he
  exact (readAuth_fails label line e he).refuses

/-- A typed call whose view of the result refuses nothing. -/
def TypedCall.ViewsOnly {α : Type} (t : TypedCall α) : Prop :=
  ∀ r, NotRefused (t.view r)

namespace Request

theorem viewsOnly_typed {r : Request} {t : TypedCall Answer} (h : r.typed? = some t) :
    t.ViewsOnly := by
  intro result e he
  exact (failsOnView h result e he).refuses

/-- The command that a typed call takes from its caller as it is. The other calls
write a statement of their own. -/
def text? : Request → Option String
  | execute command | query command | mutation command => some command
  | _ => none

theorem command_typed {r : Request} {t : TypedCall Answer} {command : String}
    (h : r.typed? = some t) (hcommand : t.command = .ok command) :
    r.text? = some command ∨ r.text? = none ∧ ∃ s : Statement, command = s.text := by
  have branch : ∀ {name : String} {u : TypedCall Answer} {text : String},
      u.command = .ok text → (u.withBranch name).command = .ok command → command = text := by
    intro name u text hu hw
    simp only [TypedCall.withBranch, hu] at hw
    cases hone : checkOneWord "branch name" name <;> rw [hone] at hw <;> cases hw
    rfl
  cases r with
  | connect | close | raw | authenticate | resolveAll => cases h
  | execute | query | mutation =>
    cases h
    cases hcommand
    exact .inl rfl
  | createBranch | checkout | merge | mergeManual =>
    cases h
    exact .inr ⟨rfl, _, branch rfl hcommand⟩
  | _ =>
    cases h
    cases hcommand
    exact .inr ⟨rfl, _, rfl⟩

end Request

namespace Client

variable {τ : Type} {command label : String} {c : Client τ} {e : ClientError}

/-- The client with no merge open in its view. -/
def forgetMerge (c : Client τ) : Client τ :=
  { c with session := { c.session with merge := .clean } }

/-- Whether a command is an abort of the open merge that cannot be framed. -/
structure IsUnframedAbort (command : String) (c : Client τ) : Prop where
  isOpen : c.session.isOpen = true
  pending : c.session.merge = .pending
  abort : CommandClass.of command = .abortMerge
  unframed : delimiter ∈ Utf8.encode command

theorem track_failed_of_ne (h : CommandClass.of command ≠ .abortMerge) :
    c.track (.of command) .failed = c := by
  rw [track, MergeState.after_failed h]

theorem track_failed_of_abort (h : CommandClass.of command = .abortMerge) :
    c.track (.of command) .failed = c.forgetMerge := by
  rw [track, h]
  rfl

variable [Transport τ]

/-! ## Refusals of an exchange -/

/-- An exchange refuses only what has not been sent. -/
theorem exchange_of_refuses (h : (exchange command label c).1 = .error e)
    (he : e.refuses = true) :
    (exchange command label c).2 = c ∧
      (delimiter ∈ Utf8.encode command ∨ c.session.isOpen = false) := by
  rcases exchange_error h with hsame | ⟨hfailure, -⟩
  · exact hsame
  · -- a failure of the channel is no refusal
    cases hfailure <;> cases he

/-! ## Refusals of a call -/

theorem IsUnframedAbort.execute (h : IsUnframedAbort command c) :
    execute command c = (.error (.usage (.invalidCommand .newline)), c.forgetMerge) := by
  have hadmitted : c.refusal? command = none := by
    simp [refusal?_of_open h.isOpen, h.abort, CommandClass.isGuarded]
  rw [execute_of_admitted hadmitted, exchange_of_newline h.unframed]
  show (_, c.track _ .failed) = _
  rw [track_failed_of_abort h.abort]
  rfl

/-- A refused command changes nothing, unless it is an abort that cannot be framed. -/
theorem execute_of_refuses (h : (execute command c).1 = .error e) (he : e.refuses = true)
    (hnot : ¬IsUnframedAbort command c) : (execute command c).2 = c := by
  cases hr : c.refusal? command with
  | some misuse => rw [execute_of_refused hr]
  | none =>
    rw [execute_of_admitted hr] at h ⊢
    dsimp only at h ⊢
    have hopen := isOpen_of_admitted hr
    have hx := NotRefused.of_bind notRefused_readResult h he
    obtain ⟨hsame, hwhy⟩ := exchange_of_refuses hx he
    have hmem : delimiter ∈ Utf8.encode command := by
      rcases hwhy with hmem | hclosed
      · exact hmem
      · rw [hopen] at hclosed
        cases hclosed
    rw [h, hsame, Reply.of]
    -- nothing was sent, yet the merge state follows the refusal as a failed reply
    by_cases hcls : CommandClass.of command = .abortMerge
    · cases hm : c.session.merge with
      | pending => exact absurd ⟨hopen, hm, hcls, hmem⟩ hnot
      | clean =>
        rw [track_failed_of_abort hcls, forgetMerge, ← hm]
    · exact track_failed_of_ne hcls

theorem executeRaw_of_refuses (h : (executeRaw command c).1 = .error e)
    (he : e.refuses = true) : (executeRaw command c).2 = c := by
  cases hr : c.refusal? command with
  | some misuse => rw [executeRaw_of_refused hr]
  | none =>
    rw [executeRaw_of_admitted hr] at h ⊢
    rcases hx : exchange command command c with ⟨e' | line, c'⟩
    · simp only [hx] at h ⊢
      cases h
      have hsame := (exchange_of_refuses (by rw [hx]) he).1
      rwa [hx] at hsame
    · -- a reply has come, and what it says is no refusal
      simp only [hx, acceptRaw] at h
      have hread : FailsOnly (IsReplyFault command)
          ((Envelope.decode line command).bind (·.ensureSuccess command)) :=
        .bind ((Envelope.decode_fails line).mono fun _ h => h.isReplyFault)
          Envelope.ensureSuccess_fails
      split at h
      · rename_i e' he'
        cases h
        rw [(hread _ he').refuses] at he
        cases he
      · split at h <;> cases h
        cases he

theorem authenticate_of_refuses {token : String} (h : (authenticate token c).1 = .error e)
    (he : e.refuses = true) : (authenticate token c).2 = c := by
  cases hcheck : checkToken token with
  | error misuse => rw [authenticate_of_refused hcheck]
  | ok word =>
    cases hopen : c.session.isOpen with
    | false => rw [authenticate_of_closed hcheck hopen]
    | true =>
      rw [authenticate_of_admitted hcheck hopen] at h ⊢
      exact (exchange_of_refuses (NotRefused.of_bind notRefused_readAuth h he) he).1

end Client

namespace Request

variable {τ : Type}

/-- Whether a call passes on an abort of the open merge that cannot be framed. -/
def ForgetsMerge (r : Request) (c : Client τ) : Prop :=
  ∃ command, r.text? = some command ∧ c.IsUnframedAbort command

/-- No statement is an abort that cannot be framed. -/
theorem not_isUnframedAbort_text (s : Statement) (c : Client τ) : ¬c.IsUnframedAbort s.text := by
  intro h
  by_cases hs : s = .abortMerge
  · subst hs
    exact absurd h.unframed (by decide)
  · exact Statement.class_text_ne_abortMerge hs h.abort

/-- A call that passes such an abort on is refused for it, and forgets the merge. -/
theorem ForgetsMerge.perform [Endpoint τ] {r : Request} {c : Client τ} (h : r.ForgetsMerge c) :
    r.perform c = (.error (.usage (.invalidCommand .newline)), c.forgetMerge) := by
  obtain ⟨command, htext, habort⟩ := h
  cases r <;> cases htext
  all_goals
    rw [perform_typed rfl]
    show (Except.bind (Client.execute command c).1 _, (Client.execute command c).2) = _
    rw [habort.execute]
    rfl

theorem perform_of_refuses [Endpoint τ] {r : Request} {s : SingleCall} {c : Client τ}
    {e : ClientError} (hsingle : r.single? = some s) (h : (r.perform c).1 = .error e)
    (he : e.refuses = true) (hnot : ¬r.ForgetsMerge c) : (r.perform c).2 = c := by
  rcases single?_cases hsingle with ⟨t, ht⟩ | ⟨command, rfl⟩ | ⟨token, rfl⟩
  · rw [perform_typed ht] at h ⊢
    cases hcommand : t.command with
    | error misuse => simp only [TypedCall.perform, hcommand]
    | ok command =>
      simp only [TypedCall.perform, hcommand] at h ⊢
      refine Client.execute_of_refuses (NotRefused.of_bind (viewsOnly_typed ht) h he) he ?_
      rcases command_typed ht hcommand with htext | ⟨-, s, rfl⟩
      · exact fun habort => hnot ⟨command, htext, habort⟩
      · exact not_isUnframedAbort_text s c
  · simp only [Request.perform, Call.map_apply] at h ⊢
    exact Client.executeRaw_of_refuses (NotRefused.of_map h) he
  · simp only [Request.perform, Call.map_apply] at h ⊢
    exact Client.authenticate_of_refuses (NotRefused.of_map h) he

/-! ## The law of refusals -/

/-- A call that issues one command and is refused has not used the transport, and it
leaves the client as it was unless it passes on an abort that cannot be framed. Then
it forgets the merge that is open, and changes nothing else. -/
theorem unchanged_iff_of_refused [Endpoint τ] {r : Request} {s : SingleCall}
    {c : Client (Recorder τ)} {e : UsageError} (hsingle : r.single? = some s)
    (h : (r.perform c).1 = .error (.usage e)) (he : e.refuses = true) :
    (r.perform c).2.link = c.link ∧
      ((r.perform c).2 = c ↔ ¬r.ForgetsMerge c) ∧
      (r.ForgetsMerge c →
        r.perform c = (.error (.usage (.invalidCommand .newline)), c.forgetMerge)) := by
  refine ⟨?_, ⟨?_, perform_of_refuses hsingle h he⟩, ForgetsMerge.perform⟩
  · by_cases hforgets : r.ForgetsMerge c
    · rw [hforgets.perform]
      rfl
    · rw [perform_of_refuses hsingle h he hforgets]
  · intro hsame hforgets
    obtain ⟨command, -, habort⟩ := id hforgets
    have hclean : (r.perform c).2.session.merge = .clean := by
      rw [hforgets.perform]
      rfl
    rw [hsame, habort.pending] at hclean
    cases hclean

/-- A client with a merge open in its view, over a script. -/
def midMerge : Client (Recorder Scripted) :=
  let c := Client.attach .default (Recorder.start (Scripted.start [] []))
  { c with session := { c.session with merge := .pending } }

/-- A checkout is refused while a merge is open, and changes nothing. -/
theorem checkout_midMerge_unchanged :
    ((checkout "b").perform midMerge).2.link = midMerge.link ∧
      (((checkout "b").perform midMerge).2 = midMerge ↔ ¬(checkout "b").ForgetsMerge midMerge) ∧
      ((checkout "b").ForgetsMerge midMerge →
        (checkout "b").perform midMerge =
          (.error (.usage (.invalidCommand .newline)), midMerge.forgetMerge)) :=
  unchanged_iff_of_refused (e := .mergePending "CHECKOUT b") rfl (by rfl) rfl

/-- Refused calls do not always leave the session as it was. -/
theorem refused_not_always_unchanged :
    ¬∀ (r : Request) (s : SingleCall) (c : Client (Recorder Scripted)) (e : UsageError),
      r.single? = some s → (r.perform c).1 = .error (.usage e) → e.refuses = true →
        (r.perform c).2.session.merge = c.session.merge := by
  intro h
  have hsame := h (execute "ABORT MERGE\n") _ midMerge (.invalidCommand .newline) rfl (by rfl) rfl
  have hclean : ((execute "ABORT MERGE\n").perform midMerge).2.session.merge = .clean := by rfl
  rw [hclean] at hsame
  cases hsame

end Request
end DbClient
