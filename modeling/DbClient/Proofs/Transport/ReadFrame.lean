import DbClient.Proofs.Transport.Recorder

/-!
# Waiting for a frame

What reading a frame does, without the bound that makes it terminate: the frame is
taken if it is there, and otherwise one more chunk is received. The bound is never
met, because every chunk uses up some of the transport's backlog.
-/

namespace DbClient.FrameBuffer

variable {τ : Type} [Transport τ] {command : String} {b : FrameBuffer} {t t' : τ}

theorem next?_eq_some_iff {frame : Bytes} {left : FrameBuffer} :
    b.next? = some (frame, left) ↔
      b.bytes = frame ++ delimiter :: left.bytes ∧ delimiter ∉ frame := by
  rw [← split?_eq_some_iff, next?]
  rcases split? b.bytes with _ | ⟨frame', bytes⟩
  · simp
  · cases left
    simp

theorem next?_eq_none_iff : b.next? = none ↔ delimiter ∉ b.bytes := by
  rw [← split?_eq_none_iff, next?, Option.map_eq_none_iff]

/-- With more fuel than backlog the amount of fuel does not matter. -/
theorem readFrameWithin_enough {n m : Nat} (hn : Transport.backlog t < n)
    (hm : Transport.backlog t < m) :
    readFrameWithin command n b t = readFrameWithin command m b t := by
  induction n generalizing m b t with
  | zero => omega
  | succ n ih =>
    cases m with
    | zero => omega
    | succ m =>
      cases hnext : b.next? with
      | some found => simp only [readFrameWithin, hnext]
      | none =>
        simp only [readFrameWithin, hnext]
        rcases hr : Transport.receive t with ⟨_ | _ | ⟨c, cs⟩, t'⟩
        · rfl
        · rfl
        · have hless := Transport.backlog_receive t t' (c :: cs) hr (by simp)
          exact ih (by omega) (by omega)

theorem readFrame_of_next {frame : Bytes} {left : FrameBuffer}
    (h : b.next? = some (frame, left)) : readFrame command b t = (.ok frame, left, t) := by
  simp only [readFrame, readFrameWithin, h]

theorem readFrame_of_chunk {chunk : Bytes} (h : b.next? = none)
    (hr : Transport.receive t = (.ok chunk, t')) (hne : chunk ≠ []) :
    readFrame command b t = readFrame command (b.push chunk) t' := by
  have hless := Transport.backlog_receive t t' chunk hr hne
  obtain ⟨c, cs, rfl⟩ := List.exists_cons_of_ne_nil hne
  rw [readFrame, readFrameWithin]
  simp only [h, hr]
  exact readFrameWithin_enough hless (Nat.lt_succ_self _)

theorem readFrame_of_end (h : b.next? = none) (hr : Transport.receive t = (.ok [], t')) :
    readFrame command b t = (.error (.connectionClosed command), b, t') := by
  simp only [readFrame, readFrameWithin, h, hr]

theorem readFrame_of_failure {e : IoError} (h : b.next? = none)
    (hr : Transport.receive t = (.error e, t')) :
    readFrame command b t = (.error (.transport command e), b, t') := by
  simp only [readFrame, readFrameWithin, h, hr]

/-- What holds of what is buffered and of the transport whenever one more chunk is
received, for as long as no frame is complete, holds of them in the end. -/
theorem readFrame_induction {P : FrameBuffer → τ → Prop}
    {Q : Except ClientError Bytes × FrameBuffer × τ → Prop}
    (next : ∀ b t frame left, P b t → b.next? = some (frame, left) → Q (.ok frame, left, t))
    (ended : ∀ b t t', P b t → b.next? = none → Transport.receive t = (.ok [], t') →
      Q (.error (.connectionClosed command), b, t'))
    (failed : ∀ b t t' e, P b t → b.next? = none → Transport.receive t = (.error e, t') →
      Q (.error (.transport command e), b, t'))
    (chunk : ∀ b t t' bytes, P b t → b.next? = none → Transport.receive t = (.ok bytes, t') →
      bytes ≠ [] → P (b.push bytes) t')
    (start : P b t) : Q (readFrame command b t) := by
  -- every chunk shortens the backlog, however much is in it
  induction hn : Transport.backlog t using Nat.strongRecOn generalizing b t with
  | ind n ih =>
    cases hnext : b.next? with
    | some found =>
      rw [readFrame_of_next hnext]
      exact next b t found.1 found.2 start hnext
    | none =>
      rcases hr : Transport.receive t with ⟨_ | bytes, t'⟩
      · rw [readFrame_of_failure hnext hr]
        exact failed b t t' _ start hnext hr
      · by_cases hne : bytes = []
        · subst hne
          rw [readFrame_of_end hnext hr]
          exact ended b t t' start hnext hr
        · rw [readFrame_of_chunk hnext hr hne]
          have hless := Transport.backlog_receive t t' bytes hr hne
          exact ih _ (hn ▸ hless) (chunk b t t' bytes start hnext hr hne) rfl

/-- The transport hands over these chunks, one after another, and none of them is empty. -/
inductive Delivers : τ → List Bytes → τ → Prop where
  | done (t : τ) : Delivers t [] t
  | chunk {t t' t'' : τ} {bytes : Bytes} {chunks : List Bytes}
    (hr : Transport.receive t = (.ok bytes, t')) (hne : bytes ≠ [])
    (h : Delivers t' chunks t'') : Delivers t (bytes :: chunks) t''

/-- A line that arrives with its newline is taken whole, however it is cut into chunks, and
nothing is left. -/
theorem readFrame_of_delivers {chunks : List Bytes} {line : Bytes} (h : Delivers t chunks t')
    (hbytes : b.bytes ++ chunks.flatten = line ++ [delimiter]) (hline : delimiter ∉ line) :
    readFrame command b t = (.ok line, .empty, t') := by
  induction h generalizing b with
  | done t =>
    rw [List.flatten_nil, List.append_nil] at hbytes
    exact readFrame_of_next (next?_eq_some_iff.2 ⟨hbytes, hline⟩)
  | @chunk t t' t'' bytes chunks hr hne _ ih =>
    -- the newline is in what is still to come, for that is not empty
    have hmore : bytes ++ chunks.flatten ≠ [] := by simp [hne]
    have hwaits : b.next? = none := by
      rw [next?_eq_none_iff]
      intro hmem
      have hstart := congrArg List.dropLast hbytes
      rw [List.flatten_cons, List.dropLast_append_of_ne_nil hmore,
        List.dropLast_concat] at hstart
      exact hline (hstart ▸ List.mem_append_left _ hmem)
    rw [readFrame_of_chunk hwaits hr hne]
    refine ih ?_
    rw [← hbytes, List.flatten_cons]
    exact List.append_assoc _ _ _

/-- How waiting for a frame can fail. -/
inductive IsChannelFailure (label : String) : ClientError → Prop where
  | closed : IsChannelFailure label (.connectionClosed label)
  | transport (e : IoError) : IsChannelFailure label (.transport label e)

theorem isChannelFailure_readFrame {e : ClientError} {b' : FrameBuffer}
    (h : readFrame command b t = (.error e, b', t')) : IsChannelFailure command e := by
  have key : ∀ e, (readFrame command b t).1 = .error e → IsChannelFailure command e := by
    refine readFrame_induction (P := fun _ _ => True)
      (Q := fun r => ∀ e, r.1 = .error e → IsChannelFailure command e) ?_ ?_ ?_ ?_ trivial
    · intro b t frame left _ _ e h
      cases h
    · intro b t t' _ _ _ e h
      cases h
      exact .closed
    · intro b t t' io _ _ _ e h
      cases h
      exact .transport io
    · intro _ _ _ _ _ _ _ _
      trivial
  exact key e (by rw [h])

/-- Waiting for a frame hands nothing over. -/
theorem frames_readFrame (command : String) (b : FrameBuffer) (t : Recorder τ) :
    (readFrame command b t).2.2.frames = t.frames := by
  have received : ∀ {u u' : Recorder τ} {r}, Transport.receive u = (r, u') →
      u'.frames = u.frames := by
    intro u u' r h
    obtain ⟨-, rfl⟩ := Prod.mk.inj h
    simp [ChannelEvent.frame?]
  refine readFrame_induction (P := fun _ (u : Recorder τ) => u.frames = t.frames)
    (Q := fun r => Recorder.frames r.2.2 = t.frames) ?_ ?_ ?_ ?_ rfl
  · intro _ _ _ _ h _
    exact h
  · intro _ _ _ h _ hr
    exact (received hr).trans h
  · intro _ _ _ _ h _ hr
    exact (received hr).trans h
  · intro _ _ _ _ h _ hr _
    exact (received hr).trans h

end DbClient.FrameBuffer
