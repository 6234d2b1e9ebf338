import DbClient.Proofs.Except
import DbClient.Proofs.Session.Exchange
import DbClient.Proofs.Text.RoundTrip
import DbClient.Proofs.Transport.Supplied

/-!
# Calls on a frame buffer

Chunks are put into a buffer and frames are taken out of it, in any order. No byte is lost and
none comes twice: what has been put in is what has been taken out, each frame with its newline,
and then what is still there. So the frames of commands, cut into chunks anywhere, come out as
the commands.
-/

namespace DbClient

/-- A call on a frame buffer. -/
inductive FrameCall where
  | push (chunk : Bytes)
  | next
  deriving DecidableEq, Repr

namespace FrameCall

/-- What a call returns, and the buffer after it. Without a frame to take the buffer stays as it
is. -/
def perform : FrameCall → FrameBuffer → Option Bytes × FrameBuffer
  | push chunk, b => (none, b.push chunk)
  | next, b =>
    match b.next? with
    | some (frame, left) => (some frame, left)
    | none => (none, b)

/-- The frames that calls return, one after another, and the buffer after the last call. -/
def performAll : List FrameCall → FrameBuffer → List Bytes × FrameBuffer
  | [], b => ([], b)
  | call :: rest, b =>
    let (frame?, b) := call.perform b
    let (frames, b) := performAll rest b
    (frame?.toList ++ frames, b)

/-- The bytes that a call puts into the buffer. -/
def bytes : FrameCall → Bytes
  | push chunk => chunk
  | next => []

/-- The bytes that calls put into the buffer, in order. -/
def pushed (calls : List FrameCall) : Bytes :=
  calls.flatMap bytes

/-! ## One call -/

section Call

variable {call : FrameCall} {b b' : FrameBuffer} {frame? : Option Bytes}

/-- A frame is taken if the buffer holds a newline. -/
theorem perform_next_eq_none_iff : (perform next b).1 = none ↔ delimiter ∉ b.bytes := by
  rw [← FrameBuffer.next?_eq_none_iff, perform]
  cases b.next? <;> simp

theorem perform_next_of_none (h : (perform next b).1 = none) : perform next b = (none, b) := by
  have hnone : b.next? = none :=
    FrameBuffer.next?_eq_none_iff.2 (perform_next_eq_none_iff.1 h)
  rw [perform, hnone]

/-- A call moves bytes from the chunk to the buffer, and from there to the frame. -/
theorem conserves_of_perform (h : call.perform b = (frame?, b')) :
    b.bytes ++ call.bytes = replyStream frame?.toList ++ b'.bytes ∧
      ∀ frame ∈ frame?, delimiter ∉ frame := by
  cases call with
  | push chunk =>
    cases h
    exact ⟨rfl, nofun⟩
  | next =>
    cases hnext : b.next? with
    | none =>
      rw [perform, hnext] at h
      cases h
      exact ⟨List.append_nil _, nofun⟩
    | some found =>
      obtain ⟨frame, left⟩ := found
      rw [perform, hnext] at h
      cases h
      obtain ⟨hbytes, hframe⟩ := FrameBuffer.next?_eq_some_iff.1 hnext
      refine ⟨?_, ?_⟩
      · rw [bytes, List.append_nil, hbytes, Option.toList_some, replyStream_cons, replyStream_nil,
          List.append_assoc]
        rfl
      · rintro _ ⟨⟩
        exact hframe

end Call

/-! ## Many calls -/

/-- What was in the buffer and what calls have put into it are the frames that they have returned,
each with its newline, and what is left. -/
theorem conserves_of_performAll {calls : List FrameCall} {b b' : FrameBuffer} {frames : List Bytes}
    (h : performAll calls b = (frames, b')) :
    b.bytes ++ pushed calls = replyStream frames ++ b'.bytes ∧
      ∀ frame ∈ frames, delimiter ∉ frame := by
  induction calls generalizing b frames with
  | nil =>
    cases h
    exact ⟨List.append_nil _, nofun⟩
  | cons call rest ih =>
    rcases hfirst : call.perform b with ⟨frame?, b₁⟩
    rcases hrest : performAll rest b₁ with ⟨frames', b₂⟩
    rw [performAll, hfirst] at h
    simp only [hrest] at h
    cases h
    obtain ⟨hbytes, hframe⟩ := conserves_of_perform hfirst
    obtain ⟨hbytes', hframes⟩ := ih hrest
    constructor
    · calc b.bytes ++ pushed (call :: rest)
          = b.bytes ++ call.bytes ++ pushed rest := (List.append_assoc _ _ _).symm
        _ = replyStream frame?.toList ++ (b₁.bytes ++ pushed rest) := by
          rw [hbytes, List.append_assoc]
        _ = replyStream (frame?.toList ++ frames') ++ b'.bytes := by
          rw [hbytes', replyStream_append, List.append_assoc]
    · intro frame hmem
      rcases List.mem_append.1 hmem with hmem | hmem
      · exact hframe frame (Option.mem_toList.1 hmem)
      · exact hframes frame hmem

/-- Whatever calls are made on a new buffer, the bytes that have been put in are the frames that
have been returned, each with its newline, and then what is left; no frame holds a newline; and
the next frame is missing exactly if no newline is left, the buffer staying as it is then. -/
theorem bytes_conserved (calls : List FrameCall) :
    let (frames, left) := performAll calls .empty
    pushed calls = replyStream frames ++ left.bytes ∧
      (∀ frame ∈ frames, delimiter ∉ frame) ∧
      ((perform next left).1 = none ↔ delimiter ∉ left.bytes) ∧
      ((perform next left).1 = none → (perform next left).2 = left) := by
  rcases h : performAll calls .empty with ⟨frames, left⟩
  obtain ⟨hbytes, hframes⟩ := conserves_of_performAll h
  refine ⟨hbytes, hframes, perform_next_eq_none_iff, fun hnone => ?_⟩
  rw [perform_next_of_none hnone]

end FrameCall

/-! ## Draining -/

namespace FrameBuffer

theorem length_of_next? {b left : FrameBuffer} {frame : Bytes} (h : b.next? = some (frame, left)) :
    left.bytes.length < b.bytes.length := by
  rw [(next?_eq_some_iff.1 h).1, List.length_append, List.length_cons]
  omega

/-- All frames that are complete, and the buffer without them. -/
def drain (b : FrameBuffer) : List Bytes × FrameBuffer :=
  match _h : b.next? with
  | none => ([], b)
  | some (frame, left) =>
    let (frames, last) := drain left
    (frame :: frames, last)
termination_by b.bytes.length
decreasing_by exact length_of_next? _h

/-- Draining takes what is there up to the last newline. -/
theorem conserves_of_drain {b b' : FrameBuffer} {frames : List Bytes} (h : b.drain = (frames, b')) :
    b.bytes = replyStream frames ++ b'.bytes ∧ (∀ frame ∈ frames, delimiter ∉ frame) ∧
      delimiter ∉ b'.bytes := by
  induction hn : b.bytes.length using Nat.strongRecOn generalizing b frames with
  | ind n ih =>
    rw [drain] at h
    split at h
    · rename_i hnone
      cases h
      exact ⟨rfl, nofun, next?_eq_none_iff.1 hnone⟩
    · rename_i frame left hsome
      rcases hrest : left.drain with ⟨frames', last⟩
      simp only [hrest] at h
      cases h
      obtain ⟨hbytes, hframe⟩ := next?_eq_some_iff.1 hsome
      obtain ⟨hleft, hframes, hlast⟩ := ih _ (hn ▸ length_of_next? hsome) hrest rfl
      refine ⟨?_, List.forall_mem_cons.2 ⟨hframe, hframes⟩, hlast⟩
      rw [hbytes, hleft, replyStream_cons, List.append_assoc, List.cons_append]

end FrameBuffer

/-! ## Commands -/

/-- Lines are told from their stream, and nothing without a newline follows it. -/
theorem replyStream_unique {frames lines : List Bytes} {rest : Bytes}
    (hframes : ∀ frame ∈ frames, delimiter ∉ frame) (hlines : ∀ line ∈ lines, delimiter ∉ line)
    (hrest : delimiter ∉ rest) (h : replyStream frames ++ rest = replyStream lines) :
    frames = lines ∧ rest = [] := by
  induction lines generalizing frames with
  | nil =>
    cases frames with
    | nil => exact ⟨rfl, h⟩
    | cons frame frames => simp [replyStream_cons] at h
  | cons line lines ih =>
    obtain ⟨hline, hlater⟩ := List.forall_mem_cons.1 hlines
    cases frames with
    | nil =>
      -- the newline of the line would be in the rest
      rw [replyStream_nil, List.nil_append, replyStream_cons] at h
      exact absurd (by simp [h]) hrest
    | cons frame frames =>
      obtain ⟨hframe, hframes⟩ := List.forall_mem_cons.1 hframes
      rw [replyStream_cons, replyStream_cons, List.append_assoc, List.cons_append] at h
      obtain ⟨rfl, hmore⟩ := line_unique hline hframe h
      obtain ⟨rfl, rfl⟩ := ih hframes hlater hmore
      exact ⟨rfl, rfl⟩

/-- The bytes of a text hold a newline if the text does. -/
theorem delimiter_mem_encode_iff {s : String} : delimiter ∈ Utf8.encode s ↔ '\n' ∈ s.toList := by
  constructor
  · exact Utf8.ofNat_mem_of_mem_encode (by decide)
  · intro h
    exact List.mem_flatMap.2 ⟨'\n', h, by decide⟩

/-- A command has a frame if its bytes hold no newline. -/
theorem encodeCommand_eq_ok_iff {command : String} {frame : Bytes} :
    encodeCommand command = .ok frame ↔
      delimiter ∉ Utf8.encode command ∧ frameOf command = frame := by
  by_cases h : delimiter ∈ Utf8.encode command
  · simp [encodeCommand_of_mem h, h]
  · simp [encodeCommand_of_notMem h, h]

theorem mapM_encodeCommand_eq_ok_iff {commands : List String} {frames : List Bytes} :
    commands.mapM encodeCommand = .ok frames ↔
      (∀ command ∈ commands, delimiter ∉ Utf8.encode command) ∧ commands.map frameOf = frames := by
  simp only [mapM_eq_ok_iff, encodeCommand_eq_ok_iff]
  rw [List.forall₂_and_left, ← List.forall₂_map_left_iff, List.forall₂_eq_eq_eq]

/-- Frames of commands, one after another, are a stream of lines. -/
theorem flatten_map_frameOf (commands : List String) :
    (commands.map frameOf).flatten = replyStream (commands.map Utf8.encode) := by
  rw [replyStream, List.flatMap_map]
  rfl

/-- A command is framed if its bytes hold no newline, which is to say that the command holds none.
The frames of commands may be cut into chunks anywhere and put into a new buffer with frames taken
out in between: when the buffer is drained in the end, what has come out is the commands, in order
and each once, and nothing is left. -/
theorem commands_unframed (commands : List String) :
    (∀ command frame, encodeCommand command = .ok frame ↔
        delimiter ∉ Utf8.encode command ∧ Utf8.encode command ++ [delimiter] = frame) ∧
      (∀ command : String, delimiter ∈ Utf8.encode command ↔ '\n' ∈ command.toList) ∧
      ∀ frames, commands.mapM encodeCommand = .ok frames →
        ∀ calls, FrameCall.pushed calls = frames.flatten →
          let (taken, b) := FrameCall.performAll calls .empty
          let (rest, left) := b.drain
          taken ++ rest = commands.map Utf8.encode ∧ left = .empty := by
  refine ⟨fun _ _ => encodeCommand_eq_ok_iff, fun _ => delimiter_mem_encode_iff, ?_⟩
  intro frames hframes calls hpushed
  obtain ⟨hfree, rfl⟩ := mapM_encodeCommand_eq_ok_iff.1 hframes
  have hlines : ∀ line ∈ commands.map Utf8.encode, delimiter ∉ line := by
    simpa using hfree
  rcases htaken : FrameCall.performAll calls .empty with ⟨taken, b⟩
  dsimp only
  rcases hrest : b.drain with ⟨rest, left⟩
  obtain ⟨hbytes, htaken⟩ := FrameCall.conserves_of_performAll htaken
  obtain ⟨hdrained, hrest, hleft⟩ := FrameBuffer.conserves_of_drain hrest
  have hstream : replyStream (taken ++ rest) ++ left.bytes =
      replyStream (commands.map Utf8.encode) :=
    calc replyStream (taken ++ rest) ++ left.bytes
        = replyStream taken ++ b.bytes := by rw [replyStream_append, List.append_assoc, hdrained]
      _ = FrameCall.pushed calls := hbytes.symm
      _ = replyStream (commands.map Utf8.encode) := by rw [hpushed, flatten_map_frameOf]
  have hout : ∀ line ∈ taken ++ rest, delimiter ∉ line := fun line hmem =>
    (List.mem_append.1 hmem).elim (htaken line) (hrest line)
  obtain ⟨hlines, hempty⟩ := replyStream_unique hout hlines hleft hstream
  exact ⟨hlines, congrArg FrameBuffer.mk hempty⟩

/-- Two commands, one of them empty, come out of chunks that cut a character. -/
theorem commands_unframed_of_cut :
    let (taken, b) := FrameCall.performAll
      [.next, .push [0x0A, 0xC3], .next, .push [], .next, .push [0xA9, 0x0A]] .empty
    let (rest, left) := b.drain
    taken ++ rest = ["", "é"].map Utf8.encode ∧ left = .empty :=
  (commands_unframed ["", "é"]).2.2 _ rfl
    [.next, .push [0x0A, 0xC3], .next, .push [], .next, .push [0xA9, 0x0A]] rfl

end DbClient
