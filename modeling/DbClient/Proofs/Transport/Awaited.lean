import DbClient.Proofs.Transport.ReadFrame
import DbClient.Transport.Scripted

/-!
# How long a frame is awaited

What comes of waiting for a frame is told from the buffer and from the outcomes of the receives.
Chunks are received until a newline has come and not once more. A stream that ends or fails before
that is an error, and what has come of the frame stays in the buffer.
-/

namespace DbClient.FrameBuffer

variable {τ : Type} [Transport τ] {command : String} {b left : FrameBuffer} {t t' : τ}
  {chunks : List Bytes} {outcomes : List (Except IoError Bytes)} {r : Except ClientError Bytes}

/-! ## The outcomes of receives -/

/-- Before the last of the chunks no newline has come, so that every one of them is needed. -/
def EachNeeded (b : FrameBuffer) (chunks : List Bytes) : Prop :=
  ∀ k < chunks.length, delimiter ∉ b.bytes ++ (chunks.take k).flatten

/-- What waiting for a frame makes of the outcomes of its receives. With the chunks a newline has
come: what stands before it is the frame, and what stands after it is left. Or the stream has
ended, or has failed, before one came. -/
inductive Awaited (command : String) (b : FrameBuffer) :
    List (Except IoError Bytes) → Except ClientError Bytes → FrameBuffer → Prop
  | complete {chunks : List Bytes} {frame : Bytes} {left : FrameBuffer}
    (hchunks : ∀ chunk ∈ chunks, chunk ≠ []) (hneeded : b.EachNeeded chunks)
    (hbytes : b.bytes ++ chunks.flatten = frame ++ delimiter :: left.bytes)
    (hframe : delimiter ∉ frame) : Awaited command b (chunks.map .ok) (.ok frame) left
  | ended {chunks : List Bytes} (hchunks : ∀ chunk ∈ chunks, chunk ≠ [])
    (hnone : delimiter ∉ b.bytes ++ chunks.flatten) :
    Awaited command b (chunks.map .ok ++ [.ok []]) (.error (.connectionClosed command))
      ⟨b.bytes ++ chunks.flatten⟩
  | failed {chunks : List Bytes} {e : IoError} (hchunks : ∀ chunk ∈ chunks, chunk ≠ [])
    (hnone : delimiter ∉ b.bytes ++ chunks.flatten) :
    Awaited command b (chunks.map .ok ++ [.error e]) (.error (.transport command e))
      ⟨b.bytes ++ chunks.flatten⟩

/-- Nothing is received if the buffer holds a newline. -/
theorem Awaited.eq_nil (h : Awaited command b outcomes r left) (hmem : delimiter ∈ b.bytes) :
    outcomes = [] := by
  cases h with
  | @complete chunks _ _ _ hneeded =>
    cases chunks with
    | nil => rfl
    | cons chunk chunks => exact absurd (List.mem_append_left _ hmem) (hneeded 0 (by simp))
  | ended _ hnone | failed _ hnone => exact absurd (List.mem_append_left _ hmem) hnone

theorem Awaited.exists_nil (command : String) (hmem : delimiter ∈ b.bytes) :
    ∃ r left, Awaited command b [] r left := by
  cases hnext : b.next? with
  | none => exact absurd hmem (next?_eq_none_iff.1 hnext)
  | some found =>
    obtain ⟨hbytes, hframe⟩ := next?_eq_some_iff.1 hnext
    exact ⟨_, _, @Awaited.complete _ _ [] _ _ nofun nofun (by simpa using hbytes) hframe⟩

theorem push_append_flatten (b : FrameBuffer) (chunk : Bytes) (chunks : List Bytes) :
    (b.push chunk).bytes ++ chunks.flatten = b.bytes ++ (chunk :: chunks).flatten :=
  List.append_assoc b.bytes chunk chunks.flatten

/-- A chunk that is needed comes before what the frame is awaited for after it. -/
theorem Awaited.cons {chunk : Bytes} (hnone : delimiter ∉ b.bytes) (hne : chunk ≠ [])
    (h : Awaited command (b.push chunk) outcomes r left) :
    Awaited command b (.ok chunk :: outcomes) r left := by
  cases h with
  | @complete chunks _ _ hchunks hneeded hsplit hframe =>
    rw [push_append_flatten] at hsplit
    refine .complete (List.forall_mem_cons.2 ⟨hne, hchunks⟩) (fun k hk => ?_) hsplit hframe
    cases k with
    | zero => simpa using hnone
    | succ k =>
      rw [List.take_succ_cons, ← push_append_flatten]
      exact hneeded k (by simpa using hk)
  | @ended chunks hchunks hlate =>
    rw [push_append_flatten] at hlate ⊢
    exact .ended (List.forall_mem_cons.2 ⟨hne, hchunks⟩) hlate
  | @failed chunks _ hchunks hlate =>
    rw [push_append_flatten] at hlate ⊢
    exact .failed (List.forall_mem_cons.2 ⟨hne, hchunks⟩) hlate

/-- Outcomes start with those that a frame is awaited for, unless they are chunks and a newline is
still to come. -/
theorem awaited_or_waits (command : String) (b : FrameBuffer)
    (outcomes : List (Except IoError Bytes)) :
    (∃ taken rest r left, outcomes = taken ++ rest ∧ Awaited command b taken r left) ∨
      ∃ chunks : List Bytes, outcomes = chunks.map .ok ∧ (∀ chunk ∈ chunks, chunk ≠ []) ∧
        delimiter ∉ b.bytes ++ chunks.flatten := by
  induction outcomes generalizing b with
  | nil =>
    by_cases hmem : delimiter ∈ b.bytes
    · obtain ⟨r, left, h⟩ := Awaited.exists_nil command hmem
      exact .inl ⟨[], [], r, left, rfl, h⟩
    · exact .inr ⟨[], rfl, nofun, by simpa using hmem⟩
  | cons outcome rest ih =>
    by_cases hmem : delimiter ∈ b.bytes
    · obtain ⟨r, left, h⟩ := Awaited.exists_nil command hmem
      exact .inl ⟨[], outcome :: rest, r, left, rfl, h⟩
    have hnone : delimiter ∉ b.bytes ++ ([] : List Bytes).flatten := by simpa using hmem
    rcases outcome with e | chunk
    · exact .inl ⟨[.error e], rest, _, _, rfl, @Awaited.failed _ _ [] _ nofun hnone⟩
    by_cases hne : chunk = []
    · subst hne
      exact .inl ⟨[.ok []], rest, _, _, rfl, @Awaited.ended _ _ [] nofun hnone⟩
    rcases ih (b.push chunk) with ⟨taken, rest, r, left, rfl, h⟩ | ⟨chunks, rfl, hchunks, hlate⟩
    · exact .inl ⟨.ok chunk :: taken, rest, r, left, rfl, h.cons hmem hne⟩
    · refine .inr ⟨chunk :: chunks, rfl, List.forall_mem_cons.2 ⟨hne, hchunks⟩, ?_⟩
      rw [← push_append_flatten]
      exact hlate

/-! ## What is received -/

/-- What has no newline had none before. -/
theorem notMem_take (h : delimiter ∉ b.bytes ++ chunks.flatten) (k : Nat) :
    delimiter ∉ b.bytes ++ (chunks.take k).flatten := by
  intro hmem
  refine h (List.mem_append.2 ((List.mem_append.1 hmem).imp_right fun hearly => ?_))
  obtain ⟨chunk, hchunk, hmem⟩ := List.mem_flatten.1 hearly
  exact List.mem_flatten.2 ⟨chunk, List.mem_of_mem_take hchunk, hmem⟩

theorem eachNeeded_of_notMem (h : delimiter ∉ b.bytes ++ chunks.flatten) : b.EachNeeded chunks :=
  fun k _ => notMem_take h k

/-- As long as no newline has come, one more chunk is needed. -/
theorem eachNeeded_concat (h : delimiter ∉ b.bytes ++ chunks.flatten) (chunk : Bytes) :
    b.EachNeeded (chunks ++ [chunk]) := by
  intro k hk
  have hle : k ≤ chunks.length := by simpa [Nat.lt_succ_iff] using hk
  rw [List.take_append_of_le_length hle]
  exact notMem_take h k

/-- A transport is asked for what the frame is awaited for, and for nothing else. -/
theorem exists_awaited (command : String) (b : FrameBuffer) (t : Recorder τ) :
    ∃ outcomes r left t', b.readFrame command t = (r, left, t') ∧
      t'.events = t.events ++ outcomes.map .received ∧ Awaited command b outcomes r left := by
  have received : ∀ {u u' : Recorder τ} {outcomes r}, Transport.receive u = (r, u') →
      u.events = t.events ++ outcomes.map .received →
      u'.events = t.events ++ (outcomes ++ [r]).map .received := by
    intro u u' outcomes r hr hevents
    rw [Recorder.events_of_receive hr, hevents, List.map_append, List.append_assoc]
    rfl
  -- what is buffered is what was, and then chunks that are all needed
  refine readFrame_induction
    (P := fun left (u : Recorder τ) => ∃ chunks : List Bytes, (∀ chunk ∈ chunks, chunk ≠ []) ∧
      b.EachNeeded chunks ∧ left = ⟨b.bytes ++ chunks.flatten⟩ ∧
      u.events = t.events ++ (chunks.map Except.ok).map .received)
    (Q := fun result => ∃ outcomes r left, ∃ t' : Recorder τ, result = (r, left, t') ∧
      t'.events = t.events ++ outcomes.map .received ∧ Awaited command b outcomes r left)
    ?_ ?_ ?_ ?_ ⟨[], nofun, nofun, by simp, by simp⟩
  · rintro _ u frame left ⟨chunks, hchunks, hneeded, rfl, hevents⟩ hnext
    obtain ⟨hbytes, hframe⟩ := next?_eq_some_iff.1 hnext
    exact ⟨_, _, _, _, rfl, hevents, .complete hchunks hneeded hbytes hframe⟩
  · rintro _ u u' ⟨chunks, hchunks, -, rfl, hevents⟩ hnext hr
    exact ⟨_, _, _, _, rfl, received hr hevents, .ended hchunks (next?_eq_none_iff.1 hnext)⟩
  · rintro _ u u' e ⟨chunks, hchunks, -, rfl, hevents⟩ hnext hr
    exact ⟨_, _, _, _, rfl, received hr hevents, .failed hchunks (next?_eq_none_iff.1 hnext)⟩
  · rintro _ u u' chunk ⟨chunks, hchunks, -, rfl, hevents⟩ hnext hr hne
    have hlast : ∀ other ∈ chunks ++ [chunk], other ≠ [] := by
      simpa [or_imp, forall_and] using ⟨hchunks, hne⟩
    refine ⟨chunks ++ [chunk], hlast, eachNeeded_concat (next?_eq_none_iff.1 hnext) chunk, ?_, ?_⟩
    · simp [push]
    · simpa using received hr hevents

/-! ## Scripts -/

/-- Chunks that are needed are received, one after another. -/
theorem readFrame_of_eachNeeded (h : Delivers t chunks t') (hneeded : b.EachNeeded chunks) :
    readFrame command b t = readFrame command ⟨b.bytes ++ chunks.flatten⟩ t' := by
  induction h generalizing b with
  | done t => simp
  | @chunk t t' t'' bytes chunks hr hne _ ih =>
    have hnone : b.next? = none := by
      rw [next?_eq_none_iff]
      simpa using hneeded 0 (by simp)
    have hlater : (b.push bytes).EachNeeded chunks := by
      intro k hk
      have hsucc := hneeded (k + 1) (by simpa using hk)
      rw [List.take_succ_cons, ← push_append_flatten] at hsucc
      exact hsucc
    rw [readFrame_of_chunk hnone hr hne, ih hlater, push_append_flatten]

theorem delivers_script (h : ∀ chunk ∈ chunks, chunk ≠ []) (script : List (Except IoError Bytes)) :
    Delivers (Scripted.start (chunks.map .ok ++ script) []) chunks (Scripted.start script []) := by
  induction chunks with
  | nil => exact .done _
  | cons chunk chunks ih =>
    obtain ⟨hne, hchunks⟩ := List.forall_mem_cons.1 h
    exact .chunk rfl hne (ih hchunks)

/-- Waiting for a frame of a script takes the outcomes that it is awaited for, and leaves the rest
of the script. -/
theorem readFrame_of_awaited (h : Awaited command b outcomes r left)
    (script : List (Except IoError Bytes)) :
    b.readFrame command (Scripted.start (outcomes ++ script) []) =
      (r, left, Scripted.start script []) := by
  cases h with
  | complete hchunks hneeded hbytes hframe =>
    rw [readFrame_of_eachNeeded (delivers_script hchunks script) hneeded]
    exact readFrame_of_next (next?_eq_some_iff.2 ⟨hbytes, hframe⟩)
  | ended hchunks hnone =>
    rw [List.append_assoc,
      readFrame_of_eachNeeded (delivers_script hchunks _) (eachNeeded_of_notMem hnone)]
    exact readFrame_of_end (next?_eq_none_iff.2 hnone) rfl
  | failed hchunks hnone =>
    rw [List.append_assoc,
      readFrame_of_eachNeeded (delivers_script hchunks _) (eachNeeded_of_notMem hnone)]
    exact readFrame_of_failure (next?_eq_none_iff.2 hnone) rfl

/-- Waiting for a frame takes outcomes from any transport until the frame is complete or the stream
has ended or failed, and none if the buffer holds a newline. Of outcomes that are played by a
script those that come later are left, and any outcomes are enough unless they are chunks and a
newline is still to come. -/
theorem outcomes_taken_as_needed (command : String) (b : FrameBuffer) :
    (∀ t : Recorder τ, ∃ outcomes r left t', b.readFrame command t = (r, left, t') ∧
        t'.events = t.events ++ outcomes.map .received ∧ Awaited command b outcomes r left ∧
          (delimiter ∈ b.bytes → outcomes = [])) ∧
      (∀ outcomes rest r left, Awaited command b outcomes r left →
        b.readFrame command (Scripted.start (outcomes ++ rest) []) =
          (r, left, Scripted.start rest [])) ∧
      ∀ script : List (Except IoError Bytes),
        (∃ outcomes rest r left, script = outcomes ++ rest ∧ Awaited command b outcomes r left) ∨
          ∃ chunks : List Bytes, script = chunks.map .ok ∧ (∀ chunk ∈ chunks, chunk ≠ []) ∧
            delimiter ∉ b.bytes ++ chunks.flatten := by
  refine ⟨fun t => ?_, fun outcomes rest r left h => readFrame_of_awaited h rest,
    awaited_or_waits command b⟩
  obtain ⟨outcomes, r, left, t', hread, hevents, hawaited⟩ := exists_awaited command b t
  exact ⟨outcomes, r, left, t', hread, hevents, hawaited, hawaited.eq_nil⟩

/-- The newline comes with the second chunk, and the failure after it is not met; a failure that
comes before it leaves what has arrived. -/
theorem outcomes_taken_of_cut :
    let e : IoError := ⟨.other, "deadline"⟩
    FrameBuffer.readFrame "SELECT 1" ⟨[0x61]⟩
        (Scripted.start [.ok [0x62], .ok [0x63, 0x0A, 0x64], .error e] []) =
      (.ok [0x61, 0x62, 0x63], ⟨[0x64]⟩, Scripted.start [.error e] []) ∧
    FrameBuffer.readFrame "SELECT 1" ⟨[0x61]⟩ (Scripted.start [.ok [0x62], .error e, .ok []] []) =
      (.error (.transport "SELECT 1" e), ⟨[0x61, 0x62]⟩, Scripted.start [.ok []] []) := by
  intro e
  have htaken := (outcomes_taken_as_needed (τ := Scripted) "SELECT 1" ⟨[0x61]⟩).2.1
  have hneeded : EachNeeded ⟨[0x61]⟩ ([[0x62]] ++ [[0x63, 0x0A, 0x64]]) :=
    eachNeeded_concat (by decide) _
  have hcomplete : Awaited "SELECT 1" ⟨[0x61]⟩
      ([[0x62], [0x63, 0x0A, 0x64]].map .ok) (.ok [0x61, 0x62, 0x63]) ⟨[0x64]⟩ :=
    .complete (by decide) hneeded rfl (by decide)
  have hfailed : Awaited "SELECT 1" ⟨[0x61]⟩ ([[0x62]].map .ok ++ [.error e])
      (.error (.transport "SELECT 1" e)) ⟨[0x61, 0x62]⟩ :=
    .failed (by decide) (by decide)
  exact ⟨htaken _ [.error e] _ _ hcomplete, htaken _ [.ok []] _ _ hfailed⟩

end DbClient.FrameBuffer
