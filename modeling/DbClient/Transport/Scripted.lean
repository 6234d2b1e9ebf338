import DbClient.Transport.Basic

/-!
# Scripted transports

A transport that plays a script: a list of receipts, and the numbers of the sends
that fail. It notes what is sent and that it is closed.
-/

namespace DbClient

/-- What a script notes. -/
inductive ScriptEvent where
  | sent (frame : Bytes)
  | sendFailed (frame : Bytes)
  | closed
  deriving DecidableEq, Repr

/-- A transport that plays a script. After the last receipt the stream is at its
end. -/
structure Scripted where
  receipts : List (Except IoError Bytes)
  /-- The sends that fail, counted from zero. -/
  failing : List Nat
  /-- How many sends have been tried. -/
  sends : Nat
  events : List ScriptEvent

namespace Scripted

def start (receipts : List (Except IoError Bytes)) (failing : List Nat) : Scripted :=
  ⟨receipts, failing, 0, []⟩

def sendFailure : IoError :=
  ⟨.brokenPipe, "scripted send failure"⟩

def send (frame : Bytes) (t : Scripted) : Except IoError Unit × Scripted :=
  if t.sends ∈ t.failing then
    (.error sendFailure,
      { t with sends := t.sends + 1, events := t.events ++ [.sendFailed frame] })
  else (.ok (), { t with sends := t.sends + 1, events := t.events ++ [.sent frame] })

def receive (t : Scripted) : Except IoError Bytes × Scripted :=
  match t.receipts with
  | [] => (.ok [], t)
  | r :: rest => (r, { t with receipts := rest })

def close (t : Scripted) : Scripted :=
  { t with events := t.events ++ [.closed] }

theorem receive_shortens (t t' : Scripted) (chunk : Bytes) (h : t.receive = (.ok chunk, t'))
    (hne : chunk ≠ []) : t'.receipts.length < t.receipts.length := by
  unfold receive at h
  split at h
  · simp_all
  · rename_i hr
    obtain ⟨-, rfl⟩ := Prod.mk.inj h
    simp [hr]

/-- Nothing listens where a script is played: once closed it stays closed. -/
instance : Endpoint Scripted where
  send := send
  receive := receive
  terminate := send quitFrame
  close := close
  backlog t := t.receipts.length
  backlog_receive := receive_shortens
  connect target _ t := (.error (.connection target.describe .networkUnreachable), t)

end Scripted
end DbClient
