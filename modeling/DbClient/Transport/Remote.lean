import DbClient.Transport.Peer

/-!
# Remote transports

A transport over a network connection. One read takes what has arrived, up to the
chunk size; a read for which nothing comes fails when its time is up.
-/

namespace DbClient

/-- A network connection, seen from the client. -/
structure Remote where
  host : String
  port : Nat
  chunkSize : Nat
  isOpen : Bool
  connection : Connection
  chunkSize_pos : 0 < chunkSize
  deriving DecidableEq

namespace Remote

/-- Connects to a server. A chunk size of zero counts as one, so that an empty read
is always the end of the stream. -/
def connect (host : String) (port : Nat) (options : ClientOptions) (n : Network) :
    Except ClientError Remote × Network :=
  match n.accept with
  | (.error e, n) => (.error (.connection s!"{host}:{port}" e), n)
  | (.ok c, n) => (.ok ⟨host, port, max options.chunkSize 1, true, c, by omega⟩, n)

def closedError : IoError :=
  ⟨.notConnected, "transport is closed"⟩

def timeUp : IoError :=
  ⟨.wouldBlock, "Resource temporarily unavailable (os error 11)"⟩

def send (frame : Bytes) (t : Remote) : Except IoError Unit × Remote :=
  if t.isOpen then (.ok (), { t with connection := t.connection.hear frame })
  else (.error closedError, t)

def receive (t : Remote) : Except IoError Bytes × Remote :=
  if !t.isOpen then (.error closedError, t)
  else if t.connection.inFlight ≠ [] then
    (.ok (t.connection.inFlight.take t.chunkSize),
      { t with connection :=
        { t.connection with inFlight := t.connection.inFlight.drop t.chunkSize } })
  else if t.connection.ended then (.ok [], t)
  else (.error timeUp, t)

def close (t : Remote) : Remote :=
  { t with isOpen := false }

/-- The transport as it is shown. -/
def display (t : Remote) : String :=
  s!"RemoteTransport \x7b peer: {t.host}:{t.port}, open: {t.isOpen} \x7d"

theorem receive_shortens (t t' : Remote) (chunk : Bytes) (h : t.receive = (.ok chunk, t'))
    (hne : chunk ≠ []) :
    t'.connection.inFlight.length < t.connection.inFlight.length := by
  unfold receive at h
  split at h
  · simp at h
  split at h
  · rename_i hflight
    obtain ⟨-, rfl⟩ := Prod.mk.inj h
    have := List.length_pos_iff.2 hflight
    have := t.chunkSize_pos
    simp only [List.length_drop]
    omega
  split at h
  · obtain ⟨hc, -⟩ := Prod.mk.inj h
    exact absurd (Except.ok.inj hc).symm hne
  · simp at h

instance : Transport Remote where
  send := send
  receive := receive
  terminate := send quitFrame
  close := close
  backlog t := t.connection.inFlight.length
  backlog_receive := receive_shortens

end Remote
end DbClient
