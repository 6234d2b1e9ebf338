import DbClient.Error

/-!
# Frames

Both directions are cut into frames by newlines. A request is a command and a
newline. Replies may arrive in chunks of any size; what has arrived after a newline
is kept for the next frame.
-/

namespace DbClient

/-- The byte that ends a frame. -/
def delimiter : UInt8 := 0x0A

/-- The frame that asks the server to end the connection. -/
def quitFrame : Bytes := Utf8.encode "quit" ++ [delimiter]

/-- The frame of a command. A command with a newline has none, for there is no
escape for it. -/
def encodeCommand (command : String) : Except UsageError Bytes :=
  let bytes := Utf8.encode command
  if delimiter ∈ bytes then .error (.invalidCommand .newline)
  else .ok (bytes ++ [delimiter])

/-- Bytes that have been received and not yet returned in a frame. -/
structure FrameBuffer where
  bytes : Bytes
  deriving DecidableEq, Repr

namespace FrameBuffer

def empty : FrameBuffer := ⟨[]⟩

/-- The buffer with a chunk at its end. -/
def push (b : FrameBuffer) (chunk : Bytes) : FrameBuffer :=
  ⟨b.bytes ++ chunk⟩

/-- The bytes before the first newline and those after it. -/
def split? : Bytes → Option (Bytes × Bytes)
  | [] => none
  | c :: rest =>
    if c = delimiter then some ([], rest)
    else (split? rest).map fun (frame, left) => (c :: frame, left)

/-- A newline splits the bytes where it first stands. -/
theorem split?_eq_some_iff {bytes frame left : Bytes} :
    split? bytes = some (frame, left) ↔
      bytes = frame ++ delimiter :: left ∧ delimiter ∉ frame := by
  induction bytes generalizing frame with
  | nil => simp [split?]
  | cons c rest ih =>
    by_cases hc : c = delimiter
    · constructor
      · intro h
        obtain ⟨rfl, rfl⟩ : [] = frame ∧ rest = left := by simpa [split?, hc] using h
        simp [hc]
      · rintro ⟨h, hfree⟩
        cases frame with
        | nil => simp_all [split?]
        | cons d frame =>
          -- the first byte of the frame would be the newline
          obtain ⟨rfl, -⟩ := List.cons.inj h
          exact absurd (List.mem_cons.2 (.inl hc.symm)) hfree
    · constructor
      · intro h
        obtain ⟨frame', hsplit, rfl⟩ :
            ∃ frame', split? rest = some (frame', left) ∧ c :: frame' = frame := by
          simpa [split?, hc] using h
        obtain ⟨rfl, hfree⟩ := ih.1 hsplit
        exact ⟨rfl, by simp [hfree, Ne.symm hc]⟩
      · rintro ⟨h, hfree⟩
        cases frame with
        | nil => exact absurd (List.cons.inj h).1 hc
        | cons d frame =>
          obtain ⟨rfl, hrest⟩ := List.cons.inj h
          have hfree' : delimiter ∉ frame := fun hm => hfree (List.mem_cons_of_mem _ hm)
          simp [split?, hc, ih.2 ⟨hrest, hfree'⟩]

/-- Without a newline there is nothing to split. -/
theorem split?_eq_none_iff {bytes : Bytes} : split? bytes = none ↔ delimiter ∉ bytes := by
  induction bytes with
  | nil => simp [split?]
  | cons c rest ih =>
    by_cases hc : c = delimiter
    · simp [split?, hc]
    · simp [split?, hc, ih, Ne.symm hc]

/-- The first complete frame, without its newline, and the buffer after it. -/
def next? (b : FrameBuffer) : Option (Bytes × FrameBuffer) :=
  (split? b.bytes).map fun (frame, left) => (frame, ⟨left⟩)

end FrameBuffer
end DbClient
