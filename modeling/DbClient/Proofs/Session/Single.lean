import DbClient.Proofs.Command.Opening
import DbClient.Proofs.Except
import DbClient.Proofs.Merge.After
import DbClient.Proofs.Session.TypedCall

/-!
# Calls of one command

Whatever call issues a single command, it is refused before anything is sent, or it is
one exchange on the channel: its answer is what it makes of the reply line, and it
leaves the channel as the exchange does. Only the merge state may differ from what the
exchange leaves.
-/

namespace DbClient

/-- Whether a misuse is refused before anything is sent: there is no connection, the
merge state forbids the command, or the command is none. -/
def UsageError.refuses : UsageError → Bool
  | notConnected | mergePending _ | invalidCommand _ => true
  | alreadyOpen | unexpectedResult _ _ => false

namespace Client

variable {τ : Type} {command : String} {c d : Client τ}

/-! ## What the merge state forbids -/

/-- Whether a command is one that the merge state forbids. -/
def forbids (c : Client τ) (command : String) : Bool :=
  c.session.merge = .pending && (CommandClass.of command).isGuarded

theorem forbids_of_admitted (h : c.refusal? command = none) : c.forbids command = false := by
  cases hf : c.forbids command with
  | false => rfl
  | true =>
    rw [refusal?_of_open (isOpen_of_admitted h)] at h
    rw [forbids] at hf
    rw [if_pos hf] at h
    cases h

theorem not_forbids_of_unguarded (h : (CommandClass.of command).isGuarded = false)
    (c : Client τ) : c.forbids command = false := by
  simp [forbids, h]

theorem not_forbids_of_class_other (c : Client τ) (h : CommandClass.of command = .other) :
    c.forbids command = false :=
  not_forbids_of_unguarded (by rw [h]; rfl) c

theorem refusal?_of_forbids (hopen : c.session.isOpen = true) (h : c.forbids command = true) :
    c.refusal? command = some (.mergePending command) := by
  rw [refusal?_of_open hopen]
  exact if_pos h

theorem admitted_of_not_forbids (hopen : c.session.isOpen = true)
    (h : c.forbids command = false) : c.refusal? command = none := by
  rw [refusal?_of_open hopen]
  rw [forbids] at h
  exact if_neg (by simp [h])

theorem refuses_of_refusal? {e : UsageError} (h : c.refusal? command = some e) :
    e.refuses = true := by
  unfold refusal? at h
  split at h
  · cases h
    rfl
  · split at h <;> cases h
    rfl

/-! ## The channel -/

/-- Two clients that differ in nothing but what they are for, their settings and their
merge states: the transport, the open status and the buffer are the same. -/
structure SameChannel (c d : Client τ) : Prop where
  link : c.link = d.link
  isOpen : c.session.isOpen = d.session.isOpen
  buffer : c.session.buffer = d.session.buffer

/-- The client in a merge state. -/
def withMerge (m : MergeState) (c : Client τ) : Client τ :=
  { c with session := { c.session with merge := m } }

@[simp] theorem merge_withMerge (m : MergeState) (c : Client τ) :
    (c.withMerge m).session.merge = m := rfl

namespace SameChannel

theorem refl (c : Client τ) : SameChannel c c :=
  ⟨rfl, rfl, rfl⟩

theorem track (cls : CommandClass) (reply : Reply) (c : Client τ) :
    SameChannel (c.track cls reply) c :=
  ⟨rfl, rfl, rfl⟩

theorem withMerge (m : MergeState) (c : Client τ) : SameChannel (c.withMerge m) c :=
  ⟨rfl, rfl, rfl⟩

end SameChannel

/-- What a raw reply line gives to a command. -/
def readRaw (command : String) (line : Bytes) : Except ClientError RawEnvelope :=
  ((Envelope.decode line command).bind (·.ensureSuccess command)).bind fun _ =>
    match Json.read line with
    | .error fault => .error (.protocol command (.noValue fault))
    | .ok v => .ok ⟨v⟩

/-- The merge state after a raw reply line. It is not followed when the line is accepted
as an envelope and cannot be read as a value. -/
def mergeAfterRaw (command : String) (line : Bytes) (m : MergeState) : MergeState :=
  match (Envelope.decode line command).bind (·.ensureSuccess command) with
  | .error _ => m.after (.of command) .failed
  | .ok _ =>
    match Json.read line with
    | .error _ => m
    | .ok v => m.after (.of command) (RawEnvelope.reply ⟨v⟩)

theorem acceptRaw_apply (command : String) (line : Bytes) (c : Client τ) :
    acceptRaw (.of command) command line c =
      (readRaw command line, c.withMerge (mergeAfterRaw command line c.session.merge)) := by
  rw [acceptRaw, readRaw, mergeAfterRaw]
  rcases (Envelope.decode line command).bind (·.ensureSuccess command) with e | reply
  · rfl
  · rcases Json.read line with fault | v <;> rfl

theorem acceptRaw_outcome (command : String) (line : Bytes) (c : Client τ) :
    (acceptRaw (.of command) command line c).1 = readRaw command line := by
  rw [acceptRaw_apply]

theorem acceptRaw_channel (command : String) (line : Bytes) (c : Client τ) :
    SameChannel (acceptRaw (.of command) command line c).2 c := by
  rw [acceptRaw_apply]
  exact .withMerge _ c

variable [Transport τ]

theorem execute_channel (h : c.refusal? command = none) :
    SameChannel (execute command c).2 (exchange command command c).2 := by
  rw [execute_of_admitted h]
  exact .track _ _ _

theorem executeRaw_channel (h : c.refusal? command = none) :
    SameChannel (executeRaw command c).2 (exchange command command c).2 := by
  rw [executeRaw_of_admitted h]
  rcases exchange command command c with ⟨e | line, c'⟩
  · exact .refl c'
  · exact acceptRaw_channel _ line c'

theorem executeRaw_outcome (h : c.refusal? command = none) :
    (executeRaw command c).1 = (exchange command command c).1.bind (readRaw command) := by
  rw [executeRaw_of_admitted h]
  rcases exchange command command c with ⟨e | line, c'⟩
  · rfl
  · exact acceptRaw_outcome _ line c'

end Client

/-- A call of one command: the command, unless the arguments are refused, what stands
for it in errors, and what is made of the reply line to it. -/
structure SingleCall where
  command : Except UsageError String
  label : String → String
  read : String → Bytes → Except ClientError Answer

namespace SingleCall

/-- A typed call as a call of one command. -/
def typed (t : TypedCall Answer) : SingleCall where
  command := t.command
  label := id
  read command line := (readResult command line).bind t.view

/-- A command whose reply is taken raw. -/
def raw (command : String) : SingleCall where
  command := .ok command
  label := id
  read command line := (Client.readRaw command line).map .raw

/-- A login with a token. -/
def login (token : String) : SingleCall where
  command := (checkToken token).map fun word => (Statement.authenticate word).text
  label _ := Client.authLabel
  read _ line := (readAuth Client.authLabel line).map .auth

end SingleCall

namespace Request

/-- The call of one command that a request is. Opening and closing issue none, and
settling a whole list of conflicts issues many. -/
def single? : Request → Option SingleCall
  | raw command => some (.raw command)
  | authenticate token => some (.login token)
  | r => r.typed?.map .typed

theorem single?_of_typed {r : Request} {t : TypedCall Answer} (h : r.typed? = some t) :
    r.single? = some (.typed t) := by
  cases r <;> cases h <;> rfl

/-- A request that is no typed call, and a call of one command, is one of two. -/
theorem single?_cases {r : Request} {s : SingleCall} (h : r.single? = some s) :
    (∃ t, r.typed? = some t) ∨ (∃ command, r = raw command) ∨ ∃ token, r = authenticate token := by
  cases r with
  | connect | close | resolveAll => cases h
  | raw command => exact .inr (.inl ⟨command, rfl⟩)
  | authenticate token => exact .inr (.inr ⟨token, rfl⟩)
  | _ => exact .inl ⟨_, rfl⟩

/-- What a call of one command does: it is refused before anything is sent, or it is
one exchange on an open channel, of a command that the merge state does not forbid. -/
inductive Performed {τ : Type} [Endpoint τ] (r : Request) (s : SingleCall) (c : Client τ) : Prop
  | refused {e : UsageError} (he : e.refuses = true)
    (h : r.perform c = (.error (.usage e), c))
  | exchanged {text : String} (hcommand : s.command = .ok text)
    (hopen : c.session.isOpen = true) (hmay : c.forbids text = false)
    (hchannel : Client.SameChannel (r.perform c).2 (Client.exchange text (s.label text) c).2)
    (houtcome : (r.perform c).1 = (Client.exchange text (s.label text) c).1.bind (s.read text))

theorem refuses_of_checkOneWord {what name : String} {e : UsageError}
    (h : checkOneWord what name = .error e) : e.refuses = true := by
  unfold checkOneWord at h
  split at h <;> cases h
  rfl

theorem refuses_of_checkToken {token : String} {e : UsageError}
    (h : checkToken token = .error e) : e.refuses = true := by
  unfold checkToken at h
  dsimp only at h
  split at h <;> cases h
  rfl

/-- The arguments of a typed call are refused for a name that is not one word. -/
theorem refuses_of_typed {r : Request} {t : TypedCall Answer} {e : UsageError}
    (h : r.typed? = some t) (hcommand : t.command = .error e) : e.refuses = true := by
  have branch : ∀ {name : String} {u : TypedCall Answer} {text : String},
      u.command = .ok text → (u.withBranch name).command = .error e → e.refuses = true := by
    intro name u text hu hw
    simp only [TypedCall.withBranch, hu] at hw
    cases hone : checkOneWord "branch name" name <;> rw [hone] at hw <;> cases hw
    exact refuses_of_checkOneWord hone
  cases r with
  | connect | close | raw | authenticate | resolveAll => cases h
  | createBranch | checkout | merge | mergeManual =>
    cases h
    exact branch rfl hcommand
  | _ =>
    cases h
    cases hcommand

/-- The merge state after a call whose exchange has had the outcome `reply`, from the one
that the exchange leaves. A login is not followed. -/
def follow (r : Request) (text : String) (reply : Except ClientError Bytes) (m : MergeState) :
    MergeState :=
  match r, reply with
  | authenticate _, _ => m
  | raw _, .error _ => m
  | raw _, .ok line => Client.mergeAfterRaw text line m
  | _, reply => m.after (.of text) (.of (reply.bind (readResult text)))

theorem follow_typed {r : Request} {t : TypedCall Answer} (h : r.typed? = some t) (text : String)
    (reply : Except ClientError Bytes) (m : MergeState) :
    r.follow text reply m = m.after (.of text) (.of (reply.bind (readResult text))) := by
  cases r with
  | connect | close | raw | authenticate | resolveAll => cases h
  | _ => rfl

/-- A missing reply is no news, except that an abort ends an open merge even so. -/
theorem follow_error {text : String} {m : MergeState}
    (h : CommandClass.of text ≠ .abortMerge ∨ m = .clean) (r : Request) (e : ClientError) :
    r.follow text (.error e) m = m := by
  have hafter : m.after (.of text) .failed = m := by
    rcases h with habort | rfl
    · exact MergeState.after_failed habort m
    · exact MergeState.clean_after_failed _
  unfold follow
  split
  · rfl
  · rfl
  · next heq => cases heq
  · exact hafter

variable {τ : Type} [Endpoint τ] {c : Client τ} {r : Request} {s : SingleCall} {text : String}
  {e : UsageError}

theorem error_of_login {token : String} (h : (SingleCall.login token).command = .error e) :
    checkToken token = .error e := by
  cases hcheck : checkToken token <;> simp only [SingleCall.login, hcheck] at h <;> cases h
  rfl

theorem token_of_login {token : String} (h : (SingleCall.login token).command = .ok text) :
    ∃ word, checkToken token = .ok word ∧ text = (Statement.authenticate word).text := by
  obtain ⟨word, hcheck, htext⟩ := exists_of_map_ok h
  exact ⟨word, hcheck, htext.symm⟩

/-! ## What a call does -/

/-- The arguments of a call are refused, whatever the state of the session is. -/
theorem perform_of_misuse (h : r.single? = some s) (hcommand : s.command = .error e)
    (c : Client τ) : r.perform c = (.error (.usage e), c) := by
  rcases single?_cases h with ⟨t, ht⟩ | ⟨command, rfl⟩ | ⟨token, rfl⟩
  · rw [single?_of_typed ht] at h
    cases h
    rw [perform_typed ht]
    simp only [TypedCall.perform, show t.command = .error e from hcommand]
  · cases h
    cases hcommand
  · cases h
    rw [perform, Call.map_apply, Client.authenticate_of_refused (error_of_login hcommand)]
    rfl

/-- The command is refused in the state that the session is in. -/
theorem perform_of_refused (h : r.single? = some s) (hcommand : s.command = .ok text)
    (hr : c.refusal? text = some e) : r.perform c = (.error (.usage e), c) := by
  rcases single?_cases h with ⟨t, ht⟩ | ⟨command, rfl⟩ | ⟨token, rfl⟩
  · rw [single?_of_typed ht] at h
    cases h
    rw [perform_typed ht]
    simp only [TypedCall.perform, show t.command = .ok text from hcommand,
      Client.execute_of_refused hr]
    rfl
  · cases h
    cases hcommand
    rw [perform, Call.map_apply, Client.executeRaw_of_refused hr]
    rfl
  · cases h
    obtain ⟨word, hcheck, rfl⟩ := token_of_login hcommand
    cases hopen : c.session.isOpen with
    | false =>
      have hclosed : c.refusal? (Statement.authenticate word).text = some .notConnected := by
        simp [Client.refusal?, hopen]
      rw [hclosed] at hr
      cases hr
      rw [perform, Call.map_apply, Client.authenticate_of_closed hcheck hopen]
      rfl
    | true =>
      -- a login passes no guard, and needs none
      have hmay := Client.admitted_of_not_forbids hopen
        (c.not_forbids_of_class_other (Statement.class_text_authenticate word))
      rw [hmay] at hr
      cases hr

/-- Otherwise the call is one exchange: it answers what it makes of the reply line, and
follows the merge state. -/
theorem perform_of_admitted (h : r.single? = some s) (hcommand : s.command = .ok text)
    (hr : c.refusal? text = none) :
    r.perform c =
      let reply := Client.exchange text (s.label text) c
      (reply.1.bind (s.read text),
        reply.2.withMerge (r.follow text reply.1 reply.2.session.merge)) := by
  rcases single?_cases h with ⟨t, ht⟩ | ⟨command, rfl⟩ | ⟨token, rfl⟩
  · rw [single?_of_typed ht] at h
    cases h
    simp only [perform_typed ht, TypedCall.perform, show t.command = .ok text from hcommand,
      Client.execute_of_admitted hr, follow_typed ht, SingleCall.typed, id]
    rcases Client.exchange text text c with ⟨_ | line, c'⟩ <;> rfl
  · cases h
    cases hcommand
    rw [perform, Call.map_apply, Client.executeRaw_of_admitted hr]
    simp only [SingleCall.raw, id]
    rcases Client.exchange text text c with ⟨_ | line, c'⟩
    · rfl
    · dsimp only
      rw [Client.acceptRaw_apply]
      rfl
  · cases h
    obtain ⟨word, hcheck, rfl⟩ := token_of_login hcommand
    rw [perform, Call.map_apply,
      Client.authenticate_of_admitted hcheck (Client.isOpen_of_admitted hr)]
    simp only [SingleCall.login]
    rcases Client.exchange (Statement.authenticate word).text Client.authLabel c with
      ⟨_ | line, c'⟩ <;> rfl

theorem refuses_of_misuse (h : r.single? = some s) (hcommand : s.command = .error e) :
    e.refuses = true := by
  rcases single?_cases h with ⟨t, ht⟩ | ⟨command, rfl⟩ | ⟨token, rfl⟩
  · rw [single?_of_typed ht] at h
    cases h
    exact refuses_of_typed ht hcommand
  · cases h
    cases hcommand
  · cases h
    exact refuses_of_checkToken (error_of_login hcommand)

/-- Every call of one command is refused, or is one exchange. -/
theorem performed (h : r.single? = some s) (c : Client τ) : r.Performed s c := by
  cases hcommand : s.command with
  | error e => exact .refused (refuses_of_misuse h hcommand) (perform_of_misuse h hcommand c)
  | ok text =>
    cases hr : c.refusal? text with
    | some e =>
      exact .refused (Client.refuses_of_refusal? hr) (perform_of_refused h hcommand hr)
    | none =>
      have hperform := perform_of_admitted h hcommand hr
      refine .exchanged hcommand (Client.isOpen_of_admitted hr) (Client.forbids_of_admitted hr)
        ?_ ?_
      · rw [hperform]
        exact .withMerge _ _
      · rw [hperform]

end Request
end DbClient
