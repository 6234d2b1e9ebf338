import DbClient.Environment
import DbClient.Merge.State
import DbClient.Reply.Decode
import DbClient.Transport.Basic

/-!
# Sessions

A session is one logical connection. It is made closed, opened, used for one request
at a time, and closed. It holds the bytes that have arrived ahead of their request
and a view of the server's merge state. After a failure of the channel requests and
replies would be out of step, so the transport is released at once.
-/

namespace DbClient

/-- The state of a session. -/
structure Session where
  target : Target
  options : ClientOptions
  isOpen : Bool
  buffer : FrameBuffer
  merge : MergeState
  deriving DecidableEq, Repr

namespace Session

/-- A closed session. -/
def new (target : Target) (options : ClientOptions) : Session :=
  ⟨target, options, false, .empty, .clean⟩

/-- A closed session to the target that the environment names. -/
def ofEnvironment (env : Environment) : Except EnvironmentError Session :=
  env.target.map (new · .default)

/-- The session with nothing received and no merge open. -/
def reset (s : Session) : Session :=
  { s with buffer := .empty, merge := .clean }

/-- The session as it is shown. -/
def display (s : Session) : String :=
  "Session \x7b target: " ++ Text.quote s.target.describe ++ ", options: " ++
    s.options.display ++ s!", open: {s.isOpen}, buffered: {s.buffer.bytes.length}, " ++
    "merge_state: " ++ s.merge.name ++ " \x7d"

end Session

/-- A session with the place from which its transport is opened. -/
structure Client (τ : Type) where
  session : Session
  link : τ

/-- A call on a client: an answer or an error, and the client after it. -/
def Call (τ α : Type) : Type :=
  Client τ → Except ClientError α × Client τ

namespace Call

variable {τ α β : Type}

/-- Answers without touching the client. -/
def ofExcept (r : Except ClientError α) : Call τ α :=
  fun c => (r, c)

/-- Fails on a misuse without touching the client. -/
def ofUsage (r : Except UsageError α) : Call τ α :=
  fun c =>
    match r with
    | .ok a => (.ok a, c)
    | .error e => (.error (.usage e), c)

/-- Goes on with the answer of a call, if it has one. -/
def bind (x : Call τ α) (f : α → Call τ β) : Call τ β :=
  fun c =>
    match x c with
    | (.ok a, c) => f a c
    | (.error e, c) => (.error e, c)

instance : Monad (Call τ) where
  pure a := ofExcept (.ok a)
  bind := bind

theorem pure_apply (a : α) (c : Client τ) : (pure a : Call τ α) c = (.ok a, c) := rfl

theorem bind_apply_ok {x : Call τ α} {f : α → Call τ β} {c c' : Client τ} {a : α}
    (h : x c = (.ok a, c')) : (x >>= f) c = f a c' := by
  show bind x f c = f a c'
  rw [bind, h]

theorem bind_apply_error {x : Call τ α} {f : α → Call τ β} {c c' : Client τ} {e : ClientError}
    (h : x c = (.error e, c')) : (x >>= f) c = (.error e, c') := by
  show bind x f c = (.error e, c')
  rw [bind, h]

end Call

namespace Client

variable {τ : Type}

/-- A client with a closed session. -/
def new (target : Target) (options : ClientOptions) (link : τ) : Client τ :=
  ⟨.new target options, link⟩

/-- A client whose session is open over a transport that is there already. -/
def attach (options : ClientOptions) (link : τ) : Client τ :=
  ⟨{ Session.new .default options with isOpen := true }, link⟩

/-! ## Opening and closing -/

/-- Opens the session. A failure leaves it closed. -/
def connect [Endpoint τ] : Call τ Unit := fun c =>
  if c.session.isOpen then (.error (.usage .alreadyOpen), c)
  else match Endpoint.connect c.session.target c.session.options c.link with
    | (.error e, link) => (.error e, { c with link := link })
    | (.ok (), link) => (.ok (), ⟨{ c.session.reset with isOpen := true }, link⟩)

/-- Announces the end of the conversation, whether or not that works, and releases
the transport. Does nothing to a closed session. -/
def close [Transport τ] (c : Client τ) : Client τ :=
  if c.session.isOpen then
    ⟨{ c.session.reset with isOpen := false },
      Transport.close (Transport.terminate c.link).2⟩
  else c

/-- Releases the transport without announcing it. -/
def abandon [Transport τ] (c : Client τ) : Client τ :=
  ⟨{ c.session.reset with isOpen := false },
    if c.session.isOpen then Transport.close c.link else c.link⟩

/-! ## One request -/

/-- Refuses a request on a closed session. -/
def ensureOpen : Call τ Unit := fun c =>
  if c.session.isOpen then (.ok (), c) else (.error (.usage .notConnected), c)

/-- Refuses a command that cannot be valid in the session's merge state. -/
def ensureMergeAllows (cls : CommandClass) (command : String) : Call τ Unit := fun c =>
  Call.ofUsage (c.session.merge.check cls command) c

/-- The class of a command that may be sent now. -/
def permit (command : String) : Call τ CommandClass := do
  ensureOpen
  let cls := CommandClass.of command
  ensureMergeAllows cls command
  pure cls

/-- The client after a reply to a command of a class. -/
def track (cls : CommandClass) (reply : Reply) (c : Client τ) : Client τ :=
  { c with session := { c.session with merge := c.session.merge.after cls reply } }

/-- Sends one frame and reads one reply line. Errors name `label` in place of the
command. -/
def exchange [Transport τ] (command label : String) : Call τ Bytes := fun c =>
  match encodeCommand command with
  | .error e => (.error (.usage e), c)
  | .ok frame =>
    if !c.session.isOpen then (.error (.usage .notConnected), c)
    else match Transport.send frame c.link with
      | (.error e, link) => (.error (.transport label e), abandon { c with link := link })
      | (.ok (), link) =>
        match c.session.buffer.readFrame label link with
        | (.ok line, buffer, link) => (.ok line, ⟨{ c.session with buffer := buffer }, link⟩)
        | (.error e, buffer, link) =>
          (.error e, abandon ⟨{ c.session with buffer := buffer }, link⟩)

/-- Sends one command and reads the envelope of its reply. -/
def roundTrip [Transport τ] (command label : String) : Call τ Envelope := do
  Call.ofExcept (Envelope.decode (← exchange command label) label)

/-- Follows the merge state by the outcome of a command. -/
def tracked (cls : CommandClass) (body : Call τ ExecuteResult) : Call τ ExecuteResult :=
  fun c =>
    let (outcome, c) := body c
    (outcome, c.track cls (.of outcome))

/-- Executes one command. -/
def execute [Transport τ] (command : String) : Call τ ExecuteResult := do
  let cls ← permit command
  tracked cls do
    Call.ofExcept ((← roundTrip command command).toResult command)

/-- Executes a read. A summary of changes is an error. -/
def query [Transport τ] (command : String) : Call τ QueryResult := do
  match ← execute command with
  | .query q => pure q
  | .commit _ => Call.ofUsage (.error (.unexpectedResult .query .commit))

/-- Executes a mutation. Rows are an error. -/
def executeMutation [Transport τ] (command : String) : Call τ CommitResult := do
  match ← execute command with
  | .commit r => pure r
  | .query _ => Call.ofUsage (.error (.unexpectedResult .commit .query))

end Client
end DbClient
