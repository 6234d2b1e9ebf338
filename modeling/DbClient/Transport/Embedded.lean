import DbClient.Text.Quoted
import DbClient.Transport.Basic
import DbClient.Transport.Engine

/-!
# Embedded transports

A transport into a library of this process. Each request is one call, and its reply
is handed over as a line, so that sessions read replies of a library and of a server
alike. The library's own end takes the place of the `quit` frame.
-/

namespace DbClient

/-- A library that has been loaded, with a database open in it. -/
structure Embedded where
  path : String
  handle : Int
  /-- Replies that have not been received. -/
  pending : Bytes
  isOpen : Bool
  engine : Engine
  deriving DecidableEq, Repr

namespace Embedded

/-- The first function that the library lacks. -/
def missing? (e : Engine) : Option Symbol :=
  Symbol.lookupOrder.find? (· ∈ e.absent)

/-- Opens a database in a loaded library: its handle, or a negative code. -/
def openDatabase (database : Database) (e : Engine) : Except LoadFault Int × Engine :=
  match database with
  | .memory => let (code, e) := e.openMemory; (.ok code, e)
  | .directory path =>
    if 0 ∈ Utf8.encode path then (.error .nulInDirectory, e)
    else let (code, e) := e.openFile path; (.ok code, e)

/-- Loads a library and opens a database in it. On failure the library is left as it
is then. -/
def load (path : String) (database : Database) (e : Engine) :
    Except ClientError Embedded × Engine :=
  let fail (fault : LoadFault) (e : Engine) : Except ClientError Embedded × Engine :=
    (.error (.load path fault), e)
  if path ≠ e.path || e.file = .missing then fail .missingFile e
  else if e.file = .garbage then fail (.unloadable e.loader) e
  else match missing? e with
    | some s => fail (.missingSymbol s.name e.loader) e
    | none =>
      match openDatabase database e with
      | (.error fault, e) => fail fault e
      | (.ok handle, e) =>
        if handle < 0 then fail (.refused handle) e
        else (.ok ⟨path, handle, [], true, e⟩, e)

/-- The command in a frame. -/
def commandOf (frame : Bytes) : Bytes :=
  if frame.getLast? = some delimiter then frame.dropLast else frame

/-- Executes the command of a frame. Its reply is kept until it is received. -/
def send (frame : Bytes) (t : Embedded) : Except IoError Unit × Embedded :=
  let command := commandOf frame
  if 0 ∈ command then (.error ⟨.invalidInput, "command contains a NUL byte"⟩, t)
  else if !t.isOpen then (.error ⟨.notConnected, "library has been unloaded"⟩, t)
  else match t.engine.execute t.handle command with
    | (none, engine) =>
      (.error ⟨.invalidData, "commitdb_execute returned a null reply"⟩,
        { t with engine := engine })
    | (some reply, engine) =>
      (.ok (), { t with
        pending := t.pending ++ (reply.bytes ++ [delimiter])
        engine := engine.free reply })

/-- All replies that have not been received. -/
def receive (t : Embedded) : Except IoError Bytes × Embedded :=
  if t.isOpen then (.ok t.pending, { t with pending := [] }) else (.ok [], t)

/-- Closes the database and unloads the library, once. -/
def close (t : Embedded) : Embedded :=
  if t.isOpen then
    { t with isOpen := false, pending := [], engine := t.engine.close t.handle }
  else t

/-- The transport as it is shown. -/
def display (t : Embedded) : String :=
  "EmbeddedTransport \x7b path: " ++ Text.quote t.path ++
    s!", handle: {t.handle}, open: {t.isOpen} \x7d"

/-- One chunk is due while there are replies, and none afterwards. -/
def backlog (t : Embedded) : Nat :=
  if t.pending = [] then 0 else 1

theorem backlog_receive (t t' : Embedded) (chunk : Bytes) (h : t.receive = (.ok chunk, t'))
    (hne : chunk ≠ []) : t'.backlog < t.backlog := by
  unfold receive at h
  split at h
  · obtain ⟨hc, rfl⟩ := Prod.mk.inj h
    have : t.pending = chunk := Except.ok.inj hc
    simp [backlog, this, hne]
  · obtain ⟨hc, -⟩ := Prod.mk.inj h
    exact absurd (Except.ok.inj hc).symm hne

instance : Transport Embedded where
  send := send
  receive := receive
  terminate t := (.ok (), t)
  close := close
  backlog := backlog
  backlog_receive := backlog_receive

end Embedded
end DbClient
