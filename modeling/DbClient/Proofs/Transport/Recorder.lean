import DbClient.Transport.Basic

/-!
# Recorded transports

A transport with the record of what was asked of it and what it answered. The record
is what statements about frames handed over and chunks taken speak of: a session over
a recorded transport drives the transport itself, so whatever holds of every recorded
transport holds of the transport that it records.
-/

namespace DbClient

/-- One use of a transport, with its answer. -/
inductive ChannelEvent where
  | sent (frame : Bytes) (result : Except IoError Unit)
  | received (result : Except IoError Bytes)
  | terminated (result : Except IoError Unit)
  | closed
  | connected (result : Except ClientError Unit)

/-- The frame that a use hands to the transport, whether or not the transport can
write it. Announcing the end of the conversation counts as handing over the `quit`
frame. -/
def ChannelEvent.frame? : ChannelEvent → Option Bytes
  | sent frame _ => some frame
  | terminated _ => some quitFrame
  | received _ | closed | connected _ => none

/-- A transport and the record of its uses, oldest first. -/
structure Recorder (τ : Type) where
  inner : τ
  events : List ChannelEvent

namespace Recorder

variable {τ : Type}

/-- A transport that has not been used. -/
def start (inner : τ) : Recorder τ :=
  ⟨inner, []⟩

/-- The frames handed over, in order. -/
def frames (t : Recorder τ) : List Bytes :=
  t.events.filterMap ChannelEvent.frame?

/-- The transport after a use that left it in the state `inner`. -/
def note (t : Recorder τ) (inner : τ) (event : ChannelEvent) : Recorder τ :=
  ⟨inner, t.events ++ [event]⟩

@[simp] theorem frames_start (inner : τ) : (start inner).frames = [] := rfl

@[simp] theorem frames_note (t : Recorder τ) (inner : τ) (event : ChannelEvent) :
    (t.note inner event).frames = t.frames ++ event.frame?.toList := by
  cases h : event.frame? <;> simp [frames, note, List.filterMap_append, h]

section Uses

variable [Transport τ]

def send (frame : Bytes) (t : Recorder τ) : Except IoError Unit × Recorder τ :=
  let r := Transport.send frame t.inner
  (r.1, t.note r.2 (.sent frame r.1))

def receive (t : Recorder τ) : Except IoError Bytes × Recorder τ :=
  let r := Transport.receive t.inner
  (r.1, t.note r.2 (.received r.1))

def terminate (t : Recorder τ) : Except IoError Unit × Recorder τ :=
  let r := Transport.terminate t.inner
  (r.1, t.note r.2 (.terminated r.1))

def close (t : Recorder τ) : Recorder τ :=
  t.note (Transport.close t.inner) .closed

theorem backlog_receive (t t' : Recorder τ) (chunk : Bytes) (h : t.receive = (.ok chunk, t'))
    (hne : chunk ≠ []) : Transport.backlog t'.inner < Transport.backlog t.inner := by
  obtain ⟨hr, rfl⟩ := Prod.mk.inj h
  exact Transport.backlog_receive t.inner _ chunk (Prod.ext hr rfl) hne

instance : Transport (Recorder τ) where
  send := send
  receive := receive
  terminate := terminate
  close := close
  backlog t := Transport.backlog t.inner
  backlog_receive := backlog_receive

variable {t t' : Recorder τ}

theorem events_of_send {frame : Bytes} {r : Except IoError Unit}
    (h : Transport.send frame t = (r, t')) : t'.events = t.events ++ [.sent frame r] := by
  obtain ⟨rfl, rfl⟩ := Prod.mk.inj h
  rfl

theorem events_of_receive {r : Except IoError Bytes} (h : Transport.receive t = (r, t')) :
    t'.events = t.events ++ [.received r] := by
  obtain ⟨rfl, rfl⟩ := Prod.mk.inj h
  rfl

end Uses

/-- Opening is recorded too, so that a record spans the connections of a run. -/
instance [Endpoint τ] : Endpoint (Recorder τ) where
  connect target options t :=
    let r := Endpoint.connect target options t.inner
    (r.1, t.note r.2 (.connected r.1))

end Recorder
end DbClient
