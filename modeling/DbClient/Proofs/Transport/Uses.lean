import DbClient.Proofs.Transport.Awaited

/-!
# Uses of a transport

The record of a transport, use by use. While uses succeed the transport is used further,
and after one that fails it is given up. What has arrived on a connection is what has been
received since it was opened, and waiting for a frame takes its line from there.
-/

namespace DbClient

namespace ChannelEvent

/-- A use of an open transport that has gone well: a frame has been written, or something
has arrived. -/
def succeeds : ChannelEvent → Bool
  | sent _ (.ok _) => true
  | received (.ok chunk) => !chunk.isEmpty
  | sent _ (.error _) | received (.error _) | terminated _ | closed | connected _ => false

/-- A use of an open transport that has failed: a frame has not been written, or what was
waited for has not come. The end of the stream is an empty chunk. -/
def fails : ChannelEvent → Bool
  | sent _ (.error _) | received (.error _) => true
  | received (.ok chunk) => chunk.isEmpty
  | sent _ (.ok _) | terminated _ | closed | connected _ => false

/-- What has arrived since a transport was last opened, after one more use. -/
def arrive (sofar : Bytes) : ChannelEvent → Bytes
  | connected (.ok _) => []
  | received (.ok chunk) => sofar ++ chunk
  | sent _ _ | received (.error _) | terminated _ | closed | connected (.error _) => sofar

end ChannelEvent

/-- The receipts of chunks. -/
def receipts (chunks : List Bytes) : List ChannelEvent :=
  chunks.map fun chunk => .received (.ok chunk)

theorem succeeds_receipts {chunks : List Bytes} (h : ∀ chunk ∈ chunks, chunk ≠ []) :
    ∀ use ∈ receipts chunks, use.succeeds = true := by
  intro use huse
  obtain ⟨chunk, hchunk, rfl⟩ := List.mem_map.1 huse
  simp [ChannelEvent.succeeds, h chunk hchunk]

theorem sent_notMem_receipts (chunks : List Bytes) (frame : Bytes) (r : Except IoError Unit) :
    .sent frame r ∉ receipts chunks := by
  simp [receipts]

theorem foldl_arrive_receipts (sofar : Bytes) (chunks : List Bytes) :
    (receipts chunks).foldl ChannelEvent.arrive sofar = sofar ++ chunks.flatten := by
  induction chunks generalizing sofar with
  | nil => simp [receipts]
  | cons chunk chunks ih =>
    have hrest := ih (sofar ++ chunk)
    rw [List.append_assoc] at hrest
    exact hrest

namespace Recorder

variable {τ : Type} {t t' : Recorder τ}

/-- What has been received since the transport was last opened. -/
def arrived (t : Recorder τ) : Bytes :=
  t.events.foldl ChannelEvent.arrive []

theorem arrived_of_events {events : List ChannelEvent} (h : t'.events = t.events ++ events) :
    t'.arrived = events.foldl ChannelEvent.arrive t.arrived := by
  rw [arrived, h, List.foldl_append, arrived]

end Recorder

theorem Recorder.events_of_connect {τ : Type} [Endpoint τ] {t t' : Recorder τ} {target : Target}
    {options : ClientOptions} {r : Except ClientError Unit}
    (h : Endpoint.connect target options t = (r, t')) :
    t'.events = t.events ++ [.connected r] := by
  obtain ⟨rfl, rfl⟩ := Prod.mk.inj h
  rfl

namespace FrameBuffer

variable {τ : Type} [Transport τ]

/-- What waiting for a frame does, by the chunks that are received: with them a line is
complete, or the stream ends or fails before that. -/
inductive FrameRead (b : FrameBuffer) (t : Recorder τ) :
    Except ClientError Bytes × FrameBuffer × Recorder τ → Prop
  | complete {chunks : List Bytes} {line : Bytes} {left : FrameBuffer} {t' : Recorder τ}
    (hchunks : ∀ chunk ∈ chunks, chunk ≠ [])
    (hevents : t'.events = t.events ++ receipts chunks)
    (hbytes : b.bytes ++ chunks.flatten = line ++ delimiter :: left.bytes) :
    FrameRead b t (.ok line, left, t')
  | cut {chunks : List Bytes} {last : Except IoError Bytes} {e : ClientError}
    {left : FrameBuffer} {t' : Recorder τ} (hchunks : ∀ chunk ∈ chunks, chunk ≠ [])
    (hlast : (ChannelEvent.received last).fails = true)
    (hevents : t'.events = t.events ++ receipts chunks ++ [.received last]) :
    FrameRead b t (.error e, left, t')

theorem readFrame_frameRead (command : String) (b : FrameBuffer) (t : Recorder τ) :
    FrameRead b t (b.readFrame command t) := by
  obtain ⟨outcomes, r, left, t', hread, hevents, hawaited⟩ := exists_awaited command b t
  rw [hread]
  have cut : ∀ {chunks : List Bytes} {last : Except IoError Bytes},
      t'.events = t.events ++ (chunks.map Except.ok ++ [last]).map .received →
      t'.events = t.events ++ receipts chunks ++ [.received last] := by
    intro chunks last h
    rw [h, receipts, List.map_append, List.map_map, ← List.append_assoc]
    rfl
  cases hawaited with
  | complete hchunks _ hbytes =>
    refine .complete hchunks ?_ hbytes
    rw [hevents, receipts, List.map_map]
    rfl
  | ended hchunks =>
    have hlast : (ChannelEvent.received (.ok [])).fails = true := rfl
    exact .cut hchunks hlast (cut hevents)
  | @failed _ e hchunks =>
    have hlast : (ChannelEvent.received (.error e)).fails = true := rfl
    exact .cut hchunks hlast (cut hevents)

end FrameBuffer
end DbClient
