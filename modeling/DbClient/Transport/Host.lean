import DbClient.Transport.Embedded
import DbClient.Transport.Remote

/-!
# Hosts

The machine on which a client runs: what it can reach over the network, the library
that is installed on it, and the transport that is open, if one is. Closing the
transport gives the connection back to the network, or the library to the machine.
-/

namespace DbClient

/-- A machine with at most one open transport. -/
inductive Host where
  | idle (network : Network) (engine : Engine)
  | remote (transport : Remote) (network : Network) (engine : Engine)
  | embedded (transport : Embedded) (network : Network)

namespace Host

/-- The network and the library, after closing what is open. -/
def release : Host → Network × Engine
  | idle network engine => (network, engine)
  | remote t network engine => (network.finish t.close.connection, engine)
  | embedded t network => (network, t.close.engine)

def close (h : Host) : Host :=
  idle h.release.1 h.release.2

/-- The calls made into the library. -/
def engineEvents : Host → List EngineEvent
  | idle _ engine | remote _ _ engine => engine.events
  | embedded t _ => t.engine.events

/-- What the peers have heard on connections that are over. -/
def heard (h : Host) : List (List Bytes) :=
  h.release.1.finished.map Connection.lines

def noTransport : IoError :=
  ⟨.notConnected, "transport is closed"⟩

def send (frame : Bytes) : Host → Except IoError Unit × Host
  | idle network engine => (.error noTransport, idle network engine)
  | remote t network engine =>
    let (r, t) := t.send frame
    (r, remote t network engine)
  | embedded t network =>
    let (r, t) := t.send frame
    (r, embedded t network)

def receive : Host → Except IoError Bytes × Host
  | idle network engine => (.error noTransport, idle network engine)
  | remote t network engine =>
    let (r, t) := t.receive
    (r, remote t network engine)
  | embedded t network =>
    let (r, t) := t.receive
    (r, embedded t network)

def terminate : Host → Except IoError Unit × Host
  | remote t network engine =>
    let (r, t) := Transport.terminate t
    (r, remote t network engine)
  | h => (.ok (), h)

def backlog : Host → Nat
  | idle _ _ => 0
  | remote t _ _ => Transport.backlog t
  | embedded t _ => Transport.backlog t

theorem backlog_receive (h h' : Host) (chunk : Bytes) (eq : h.receive = (.ok chunk, h'))
    (hne : chunk ≠ []) : h'.backlog < h.backlog := by
  cases h with
  | idle => simp [receive] at eq
  | remote t network engine =>
    obtain ⟨hr, rfl⟩ := Prod.mk.inj eq
    exact Remote.receive_shortens t _ chunk (Prod.ext hr rfl) hne
  | embedded t network =>
    obtain ⟨hr, rfl⟩ := Prod.mk.inj eq
    exact Embedded.backlog_receive t _ chunk (Prod.ext hr rfl) hne

/-- Opens the transport that a target asks for. -/
def connect (target : Target) (options : ClientOptions) (h : Host) :
    Except ClientError Unit × Host :=
  let (network, engine) := h.release
  match target with
  | .remote host port =>
    match Remote.connect host port options network with
    | (.error e, network) => (.error e, idle network engine)
    | (.ok t, network) => (.ok (), remote t network engine)
  | .embedded library database =>
    match Embedded.load library database engine with
    | (.error e, engine) => (.error e, idle network engine)
    | (.ok t, _) => (.ok (), embedded t network)

instance : Endpoint Host where
  send := send
  receive := receive
  terminate := terminate
  close := close
  backlog := backlog
  backlog_receive := backlog_receive
  connect := connect

end Host
end DbClient
