import DbClient.Proofs.Transport.ReadFrame
import DbClient.Transport.Scripted

/-!
# Peers that answer

A transport whose peer has one reply line for every frame: the lines, each followed by
a newline, make up one stream, and the stream comes in chunks that are cut anywhere.
Reading a frame takes exactly the line that is due, and keeps what has come after it.
-/

namespace DbClient

/-- Reply lines as they are on the channel. -/
def replyStream (replies : List Bytes) : Bytes :=
  replies.flatMap (· ++ [delimiter])

@[simp] theorem replyStream_nil : replyStream [] = [] := rfl

theorem replyStream_cons (line : Bytes) (replies : List Bytes) :
    replyStream (line :: replies) = line ++ delimiter :: replyStream replies := by
  simp [replyStream]

theorem replyStream_append (before after : List Bytes) :
    replyStream (before ++ after) = replyStream before ++ replyStream after := by
  simp [replyStream]

/-- The stream of the replies before an index, and of those from it on. -/
theorem replyStream_take_drop (replies : List Bytes) (k : Nat) :
    replyStream replies = replyStream (replies.take k) ++ replyStream (replies.drop k) := by
  rw [← replyStream_append, List.take_append_drop]

section Index

variable {replies : List Bytes} {k : Nat} (hk : k < replies.length)

include hk

theorem replyStream_drop :
    replyStream (replies.drop k) =
      replies[k] ++ delimiter :: replyStream (replies.drop (k + 1)) := by
  rw [List.drop_eq_getElem_cons hk, replyStream_cons]

theorem replyStream_take_succ :
    replyStream (replies.take (k + 1)) =
      replyStream (replies.take k) ++ (replies[k] ++ [delimiter]) := by
  rw [List.take_succ_eq_append_getElem hk, replyStream_append, replyStream_cons, replyStream_nil]

end Index

/-- What is known of a transport whose peer answers: after `k` frames have been sent and
the bytes `taken` received, its state `t` has `S k taken t`. A frame can be sent for as
long as there is a reply to it. While the replies to the frames sent have not all been
received there is a chunk to receive, and the stream is never left. Nothing is said of
how long chunks are, nor of what happens when the replies have run out. -/
structure Supplies {τ : Type} [Transport τ] (replies : List Bytes) (S : Nat → Bytes → τ → Prop) :
    Prop where
  newlineFree : ∀ line ∈ replies, delimiter ∉ line
  send : ∀ {k taken t} (frame : Bytes), S k taken t → k < replies.length →
    ∃ t', Transport.send frame t = (.ok (), t') ∧ S (k + 1) taken t'
  receive : ∀ {k taken t}, S k taken t →
    taken.length < (replyStream (replies.take k)).length →
    ∃ chunk t', Transport.receive t = (.ok chunk, t') ∧ chunk ≠ [] ∧
      taken ++ chunk <+: replyStream replies ∧ S k (taken ++ chunk) t'

/-- A line and what follows its newline are told from the bytes. -/
theorem line_unique {line frame rest left : Bytes} (hline : delimiter ∉ line)
    (hframe : delimiter ∉ frame) (h : frame ++ delimiter :: left = line ++ delimiter :: rest) :
    frame = line ∧ left = rest := by
  have hsplit : FrameBuffer.split? (frame ++ delimiter :: left) = some (frame, left) :=
    FrameBuffer.split?_eq_some_iff.2 ⟨rfl, hframe⟩
  rw [h, FrameBuffer.split?_eq_some_iff.2 ⟨rfl, hline⟩] at hsplit
  simp only [Option.some.injEq, Prod.mk.injEq] at hsplit
  exact ⟨hsplit.1.symm, hsplit.2.symm⟩

/-- Bytes without a newline that begin a stream are no longer than its first line. -/
theorem length_le_of_prefix {line rest bytes : Bytes} (h : bytes <+: line ++ delimiter :: rest)
    (hfree : delimiter ∉ bytes) : bytes.length ≤ line.length := by
  rcases Nat.lt_or_ge line.length bytes.length with hlt | hge
  · have hline : line ++ [delimiter] <+: line ++ delimiter :: rest := ⟨rest, by simp⟩
    have hle : (line ++ [delimiter]).length ≤ bytes.length := by
      rw [List.length_append, List.length_singleton]
      omega
    have hpre := List.prefix_of_prefix_length_le hline h hle
    exact absurd (hpre.subset (by simp)) hfree
  · exact hge

namespace Supplies

variable {τ : Type} [Transport τ] {replies : List Bytes} {S : Nat → Bytes → τ → Prop} {k : Nat}

/-- Once the frame after `k` others has been sent, reading takes the reply to it and
keeps what has come of the replies after that. -/
theorem readFrame (hs : Supplies replies S) (hk : k < replies.length) (label : String)
    {b : FrameBuffer} {t : τ} (ht : S (k + 1) (replyStream (replies.take k) ++ b.bytes) t)
    (hb : b.bytes <+: replyStream (replies.drop k)) :
    ∃ left t', b.readFrame label t = (.ok replies[k], left, t') ∧
      S (k + 1) (replyStream (replies.take (k + 1)) ++ left.bytes) t' ∧
      left.bytes <+: replyStream (replies.drop (k + 1)) := by
  have hline : delimiter ∉ replies[k] := hs.newlineFree _ (List.getElem_mem hk)
  -- a chunk is there, for what is buffered without a newline is not the whole line
  have more : ∀ {b : FrameBuffer} {t : τ}, S (k + 1) (replyStream (replies.take k) ++ b.bytes) t →
      b.bytes <+: replyStream (replies.drop k) → b.next? = none →
      ∃ chunk t', Transport.receive t = (.ok chunk, t') ∧ chunk ≠ [] ∧
        S (k + 1) (replyStream (replies.take k) ++ (b.push chunk).bytes) t' ∧
        (b.push chunk).bytes <+: replyStream (replies.drop k) := by
    intro b t ht hb hnext
    rw [replyStream_drop hk] at hb
    have hlen := length_le_of_prefix hb (FrameBuffer.next?_eq_none_iff.1 hnext)
    have hdue : (replyStream (replies.take k) ++ b.bytes).length <
        (replyStream (replies.take (k + 1))).length := by
      rw [replyStream_take_succ hk]
      simp only [List.length_append, List.length_singleton]
      omega
    obtain ⟨chunk, t', hr, hne, hpre, ht'⟩ := hs.receive ht hdue
    rw [List.append_assoc] at hpre ht'
    rw [replyStream_take_drop replies k, List.prefix_append_right_inj] at hpre
    exact ⟨chunk, t', hr, hne, ht', hpre⟩
  refine FrameBuffer.readFrame_induction
    (P := fun b t => S (k + 1) (replyStream (replies.take k) ++ b.bytes) t ∧
      b.bytes <+: replyStream (replies.drop k))
    (Q := fun r => ∃ left t', r = (.ok replies[k], left, t') ∧
      S (k + 1) (replyStream (replies.take (k + 1)) ++ left.bytes) t' ∧
      left.bytes <+: replyStream (replies.drop (k + 1))) ?_ ?_ ?_ ?_ ⟨ht, hb⟩
  · -- the buffer holds a whole line: it is the one that is due
    intro b t frame left ⟨ht, hb⟩ hnext
    obtain ⟨hbytes, hframe⟩ := FrameBuffer.next?_eq_some_iff.1 hnext
    rw [replyStream_drop hk, hbytes] at hb
    obtain ⟨later, hlater⟩ := hb
    rw [List.append_assoc, List.cons_append] at hlater
    obtain ⟨rfl, hleft⟩ := line_unique hline hframe hlater
    refine ⟨left, t, rfl, ?_, ⟨later, hleft⟩⟩
    rw [hbytes] at ht
    rw [replyStream_take_succ hk]
    simpa using ht
  · -- the stream does not end before the line does
    intro b t t' ⟨ht, hb⟩ hnext hr
    obtain ⟨chunk, t'', hr', hne, -⟩ := more ht hb hnext
    rw [hr'] at hr
    cases hr
    exact absurd rfl hne
  · -- nor does the channel fail
    intro b t t' e ⟨ht, hb⟩ hnext hr
    obtain ⟨chunk, t'', hr', -⟩ := more ht hb hnext
    rw [hr'] at hr
    cases hr
  · intro b t t' bytes ⟨ht, hb⟩ hnext hr _
    obtain ⟨chunk, t'', hr', -, hnext'⟩ := more ht hb hnext
    rw [hr'] at hr
    cases hr
    exact hnext'

/-- A record of the transport knows besides how many frames have been sent. -/
def Recorded (S : Nat → Bytes → τ → Prop) (k : Nat) (taken : Bytes) (t : Recorder τ) : Prop :=
  t.frames.length = k ∧ S k taken t.inner

theorem recorded (hs : Supplies replies S) : Supplies replies (Recorded S) where
  newlineFree := hs.newlineFree
  send := by
    intro k taken t frame ⟨hframes, ht⟩ hk
    obtain ⟨t', hsend, ht'⟩ := hs.send frame ht hk
    refine ⟨t.note t' (.sent frame (.ok ())), ?_, ?_, ht'⟩
    · simp only [Transport.send, Recorder.send, hsend]
    · simp [ChannelEvent.frame?, hframes]
  receive := by
    intro k taken t ⟨hframes, ht⟩ hdue
    obtain ⟨chunk, t', hr, hne, hpre, ht'⟩ := hs.receive ht hdue
    refine ⟨chunk, t.note t' (.received (.ok chunk)), ?_, hne, hpre, ?_, ht'⟩
    · simp only [Transport.receive, Recorder.receive, hr]
    · simp [ChannelEvent.frame?, hframes]

end Supplies

/-! ## Scripts -/

/-- A script that plays the rest of a stream, cut into chunks in some way. -/
def Scripted.Plays (replies : List Bytes) (_ : Nat) (taken : Bytes) (t : Scripted) : Prop :=
  t.failing = [] ∧ ∃ chunks : List Bytes, t.receipts = chunks.map .ok ∧ (∀ c ∈ chunks, c ≠ []) ∧
    taken ++ chunks.flatten = replyStream replies

/-- Every way of cutting the stream into chunks is played by a script. -/
theorem Scripted.supplies {replies : List Bytes} (h : ∀ line ∈ replies, delimiter ∉ line) :
    Supplies replies (Scripted.Plays replies) where
  newlineFree := h
  send := by
    intro k taken t frame ⟨hfailing, hplays⟩ _
    refine ⟨{ t with sends := t.sends + 1, events := t.events ++ [.sent frame] }, ?_, hfailing,
      hplays⟩
    simp [Transport.send, Scripted.send, hfailing]
  receive := by
    intro k taken t ⟨hfailing, chunks, hreceipts, hne, hstream⟩ hdue
    cases chunks with
    | nil =>
      -- the whole stream has been taken, so nothing is due
      rw [List.flatten_nil, List.append_nil] at hstream
      rw [hstream, replyStream_take_drop replies k, List.length_append] at hdue
      omega
    | cons chunk chunks =>
      obtain ⟨hchunk, hchunks⟩ := List.forall_mem_cons.1 hne
      rw [List.flatten_cons, ← List.append_assoc] at hstream
      refine ⟨chunk, { t with receipts := chunks.map .ok }, ?_, hchunk, ⟨_, hstream⟩, hfailing,
        chunks, rfl, hchunks, hstream⟩
      simp [Transport.receive, Scripted.receive, hreceipts]

end DbClient
