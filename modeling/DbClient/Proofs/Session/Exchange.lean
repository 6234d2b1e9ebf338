import DbClient.Proofs.Transport.ReadFrame
import DbClient.Session.Raw
import DbClient.Session.Statements

/-!
# One exchange

What a single request does, said once. A command is refused before it is framed, or
its frame is handed over and one reply line is read, and the three calls that issue a
command differ only in what they make of that line. What opening the session can do is
said here too, once for every later argument about it.
-/

namespace DbClient

variable {command : String}

/-- The bytes of a command on the channel. -/
def frameOf (command : String) : Bytes :=
  Utf8.encode command ++ [delimiter]

theorem encodeCommand_of_mem (h : delimiter ∈ Utf8.encode command) :
    encodeCommand command = .error (.invalidCommand .newline) := by
  simp [encodeCommand, h]

theorem encodeCommand_of_notMem (h : delimiter ∉ Utf8.encode command) :
    encodeCommand command = .ok (frameOf command) := by
  simp [encodeCommand, frameOf, h]

/-- The frame of a command, if it has one. -/
theorem toList_encodeCommand (command : String) :
    (encodeCommand command).toOption.toList =
      if delimiter ∈ Utf8.encode command then [] else [frameOf command] := by
  split
  · next h =>
    rw [encodeCommand_of_mem h]
    rfl
  · next h =>
    rw [encodeCommand_of_notMem h]
    rfl

theorem Utf8.encode_injective {s t : String} (h : Utf8.encode s = Utf8.encode t) : s = t := by
  have bytes : ∀ u : String, u.toByteArray = (Utf8.encode u).toByteArray := by
    intro u
    rw [← String.ofList_toList (s := u), String.toByteArray_ofList]
    simp [Utf8.encode, List.utf8Encode]
  rw [← String.toByteArray_inj, bytes s, bytes t, h]

theorem frameOf_injective {s t : String} (h : frameOf s = frameOf t) : s = t :=
  Utf8.encode_injective (List.append_cancel_right h)

/-- The typed result that a reply line gives to a command. -/
def readResult (command : String) (line : Bytes) : Except ClientError ExecuteResult :=
  (Envelope.decode line command).bind (·.toResult command)

/-- The login that a reply line reports. -/
def readAuth (label : String) (line : Bytes) : Except ClientError AuthInfo :=
  (Envelope.decode line label).bind (·.toAuth label)

namespace Call

variable {τ α β : Type}

/-- A call whose answer is read further, without touching the client again. -/
theorem bind_ofExcept_apply (x : Call τ α) (g : α → Except ClientError β) (c : Client τ) :
    (x >>= fun a => ofExcept (g a)) c = ((x c).1.bind g, (x c).2) := by
  rcases hx : x c with ⟨_ | a, c'⟩
  · exact bind_apply_error hx
  · exact bind_apply_ok hx

theorem map_apply (x : Call τ α) (f : α → β) (c : Client τ) :
    (x >>= fun a => pure (f a)) c = ((x c).1.map f, (x c).2) := by
  rcases hx : x c with ⟨_ | a, c'⟩
  · exact bind_apply_error hx
  · exact bind_apply_ok hx

theorem ofExcept_map (r : Except ClientError α) (f : α → β) :
    (ofExcept r >>= fun a => pure (f a) : Call τ β) = ofExcept (r.map f) := by
  cases r <;> rfl

instance : LawfulMonad (Call τ) := by
  refine LawfulMonad.mk' _ ?_ (fun _ _ => rfl) ?_
  · intro α x
    funext c
    show bind x (fun a => ofExcept (.ok a)) c = x c
    rw [bind]
    rcases x c with ⟨_ | _, c'⟩ <;> rfl
  · intro α β γ x f g
    funext c
    show bind (bind x f) g c = bind x (fun a => bind (f a) g) c
    simp only [bind]
    rcases x c with ⟨_ | _, c'⟩ <;> rfl

end Call

namespace Client

variable {τ : Type} {c : Client τ} {label : String}

/-! ## Admission -/

/-- Why a command is refused before it is framed, if it is. -/
def refusal? (command : String) (c : Client τ) : Option UsageError :=
  if !c.session.isOpen then some .notConnected
  else if c.session.merge = .pending && (CommandClass.of command).isGuarded then
    some (.mergePending command)
  else none

theorem permit_of_refused {e : UsageError} (h : c.refusal? command = some e) :
    permit command c = (.error (.usage e), c) := by
  unfold refusal? at h
  split at h
  · rename_i hopen
    cases h
    exact Call.bind_apply_error (by simp_all [ensureOpen])
  · rename_i hopen
    split at h
    · rename_i hguard
      cases h
      have hensure : ensureOpen c = (.ok (), c) := by simp_all [ensureOpen]
      rw [permit, Call.bind_apply_ok hensure]
      apply Call.bind_apply_error
      simp [ensureMergeAllows, MergeState.check, hguard, Call.ofUsage]
    · cases h

theorem permit_of_admitted (h : c.refusal? command = none) :
    permit command c = (.ok (CommandClass.of command), c) := by
  unfold refusal? at h
  split at h
  · cases h
  · rename_i hopen
    split at h
    · cases h
    · rename_i hguard
      have hensure : ensureOpen c = (.ok (), c) := by simp_all [ensureOpen]
      have hallow : ensureMergeAllows (CommandClass.of command) command c = (.ok (), c) := by
        simp [ensureMergeAllows, MergeState.check, hguard, Call.ofUsage]
      rw [permit, Call.bind_apply_ok hensure, Call.bind_apply_ok hallow, Call.pure_apply]

theorem isOpen_of_admitted (h : c.refusal? command = none) : c.session.isOpen = true := by
  cases hopen : c.session.isOpen with
  | true => rfl
  | false => simp [refusal?, hopen] at h

/-- An open client refuses exactly the guarded classes, while a merge is open. -/
theorem refusal?_of_open (h : c.session.isOpen = true) :
    c.refusal? command =
      if c.session.merge = .pending && (CommandClass.of command).isGuarded then
        some (.mergePending command)
      else none := by
  simp [refusal?, h]

/-! ## Opening the session -/

/-- Every way in which opening the session can go, with the client that it leaves. -/
inductive Opening [Endpoint τ] (c : Client τ) : Except ClientError Unit × Client τ → Prop where
  | already (hopen : c.session.isOpen = true) :
    Opening c (.error (.usage .alreadyOpen), c)
  | failed {e : ClientError} {link : τ} (hclosed : c.session.isOpen = false)
    (hconnect : Endpoint.connect c.session.target c.session.options c.link = (.error e, link)) :
    Opening c (.error e, { c with link := link })
  | opened {link : τ} (hclosed : c.session.isOpen = false)
    (hconnect : Endpoint.connect c.session.target c.session.options c.link = (.ok (), link)) :
    Opening c (.ok (), ⟨{ c.session.reset with isOpen := true }, link⟩)

theorem connect_opening [Endpoint τ] (c : Client τ) : Opening c (connect c) := by
  cases hopen : c.session.isOpen with
  | true =>
    rw [connect, if_pos hopen]
    exact .already hopen
  | false =>
    rw [connect, if_neg (by simp [hopen])]
    rcases hconnect : Endpoint.connect c.session.target c.session.options c.link with
      ⟨_ | ⟨⟩, link⟩
    · exact .failed hopen hconnect
    · exact .opened hopen hconnect

/-! ## Frame lemmas -/

@[simp] theorem merge_track (cls : CommandClass) (reply : Reply) (c : Client τ) :
    (c.track cls reply).session.merge = c.session.merge.after cls reply := rfl

@[simp] theorem isOpen_track (cls : CommandClass) (reply : Reply) (c : Client τ) :
    (c.track cls reply).session.isOpen = c.session.isOpen := rfl

variable [Transport τ]

@[simp] theorem isOpen_abandon (c : Client τ) : c.abandon.session.isOpen = false := rfl

@[simp] theorem merge_abandon (c : Client τ) : c.abandon.session.merge = .clean := rfl

/-- Giving up a connection does not announce it. -/
@[simp] theorem frames_abandon (c : Client (Recorder τ)) :
    c.abandon.link.frames = c.link.frames := by
  cases h : c.session.isOpen
  · simp [abandon, h]
  · simp [abandon, h, Transport.close, Recorder.close, ChannelEvent.frame?]

/-! ## The exchange -/

/-- Every way in which an exchange can go, with the client that it leaves. -/
inductive Exchanged (command label : String) (c : Client τ) :
    Except ClientError Bytes × Client τ → Prop where
  | newline (h : delimiter ∈ Utf8.encode command) :
    Exchanged command label c (.error (.usage (.invalidCommand .newline)), c)
  | closed (h : delimiter ∉ Utf8.encode command) (hclosed : c.session.isOpen = false) :
    Exchanged command label c (.error (.usage .notConnected), c)
  | unsent {e : IoError} {link : τ} (h : delimiter ∉ Utf8.encode command)
    (hopen : c.session.isOpen = true)
    (hsend : Transport.send (frameOf command) c.link = (.error e, link)) :
    Exchanged command label c (.error (.transport label e), abandon { c with link := link })
  | lost {e : ClientError} {link link' : τ} {buffer : FrameBuffer}
    (h : delimiter ∉ Utf8.encode command) (hopen : c.session.isOpen = true)
    (hsend : Transport.send (frameOf command) c.link = (.ok (), link))
    (hread : c.session.buffer.readFrame label link = (.error e, buffer, link')) :
    Exchanged command label c
      (.error e, abandon ⟨{ c.session with buffer := buffer }, link'⟩)
  | answered {line : Bytes} {link link' : τ} {buffer : FrameBuffer}
    (h : delimiter ∉ Utf8.encode command) (hopen : c.session.isOpen = true)
    (hsend : Transport.send (frameOf command) c.link = (.ok (), link))
    (hread : c.session.buffer.readFrame label link = (.ok line, buffer, link')) :
    Exchanged command label c (.ok line, ⟨{ c.session with buffer := buffer }, link'⟩)

theorem exchange_of_newline (h : delimiter ∈ Utf8.encode command) :
    exchange command label c = (.error (.usage (.invalidCommand .newline)), c) := by
  simp only [exchange, encodeCommand_of_mem h]

theorem exchange_of_closed (h : delimiter ∉ Utf8.encode command)
    (hclosed : c.session.isOpen = false) :
    exchange command label c = (.error (.usage .notConnected), c) := by
  simp [exchange, encodeCommand_of_notMem h, hclosed]

section Open

variable (h : delimiter ∉ Utf8.encode command) (hopen : c.session.isOpen = true)

include h hopen

theorem exchange_of_unsent {e : IoError} {link : τ}
    (hsend : Transport.send (frameOf command) c.link = (.error e, link)) :
    exchange command label c = (.error (.transport label e), abandon { c with link := link }) := by
  simp [exchange, encodeCommand_of_notMem h, hopen, hsend]

theorem exchange_of_lost {e : ClientError} {link link' : τ} {buffer : FrameBuffer}
    (hsend : Transport.send (frameOf command) c.link = (.ok (), link))
    (hread : c.session.buffer.readFrame label link = (.error e, buffer, link')) :
    exchange command label c =
      (.error e, abandon ⟨{ c.session with buffer := buffer }, link'⟩) := by
  simp [exchange, encodeCommand_of_notMem h, hopen, hsend, hread]

theorem exchange_of_answered {line : Bytes} {link link' : τ} {buffer : FrameBuffer}
    (hsend : Transport.send (frameOf command) c.link = (.ok (), link))
    (hread : c.session.buffer.readFrame label link = (.ok line, buffer, link')) :
    exchange command label c = (.ok line, ⟨{ c.session with buffer := buffer }, link'⟩) := by
  simp [exchange, encodeCommand_of_notMem h, hopen, hsend, hread]

end Open

theorem exchange_exchanged (command label : String) (c : Client τ) :
    Exchanged command label c (exchange command label c) := by
  by_cases hmem : delimiter ∈ Utf8.encode command
  · rw [exchange_of_newline hmem]
    exact .newline hmem
  cases hopen : c.session.isOpen with
  | false =>
    rw [exchange_of_closed hmem hopen]
    exact .closed hmem hopen
  | true =>
    rcases hsend : Transport.send (frameOf command) c.link with ⟨_ | ⟨⟩, link⟩
    · rw [exchange_of_unsent hmem hopen hsend]
      exact .unsent hmem hopen hsend
    · rcases hread : c.session.buffer.readFrame label link with ⟨_ | line, buffer, link'⟩
      · rw [exchange_of_lost hmem hopen hsend hread]
        exact .lost hmem hopen hsend hread
      · rw [exchange_of_answered hmem hopen hsend hread]
        exact .answered hmem hopen hsend hread

theorem merge_exchange_ok {line : Bytes} (h : (exchange command label c).1 = .ok line) :
    (exchange command label c).2.session.merge = c.session.merge := by
  have hcases := exchange_exchanged command label c
  generalize exchange command label c = reply at h hcases ⊢
  cases hcases with
  | answered => rfl
  | newline | closed | unsent | lost => cases h

/-- Without a reply line the client is as it was, because the command cannot be framed
or the session is closed, or the channel has failed and been given up. -/
theorem exchange_error {e : ClientError} (h : (exchange command label c).1 = .error e) :
    (exchange command label c).2 = c ∧
        (delimiter ∈ Utf8.encode command ∨ c.session.isOpen = false) ∨
      FrameBuffer.IsChannelFailure label e ∧
        (exchange command label c).2.session.merge = .clean := by
  have hcases := exchange_exchanged command label c
  generalize exchange command label c = reply at h hcases ⊢
  cases hcases with
  | newline hmem => exact .inl ⟨rfl, .inl hmem⟩
  | closed _ hclosed => exact .inl ⟨rfl, .inr hclosed⟩
  | unsent =>
    cases h
    exact .inr ⟨.transport _, merge_abandon _⟩
  | lost _ _ _ hread =>
    cases h
    exact .inr ⟨FrameBuffer.isChannelFailure_readFrame hread, merge_abandon _⟩
  | answered => cases h

/-- Frames are handed over by an exchange only: once, if the client is open and the
command can be framed. -/
theorem frames_exchange (c : Client (Recorder τ)) :
    (exchange command label c).2.link.frames =
      if c.session.isOpen ∧ delimiter ∉ Utf8.encode command then
        c.link.frames ++ [frameOf command]
      else c.link.frames := by
  have sent : ∀ {r link}, Transport.send (frameOf command) c.link = (r, link) →
      link.frames = c.link.frames ++ [frameOf command] := by
    intro r link hsend
    obtain ⟨-, rfl⟩ := Prod.mk.inj hsend
    simp [ChannelEvent.frame?]
  have read : ∀ {r buffer} {link link' : Recorder τ},
      c.session.buffer.readFrame label link = (r, buffer, link') → link'.frames = link.frames := by
    intro r buffer link link' hread
    have := FrameBuffer.frames_readFrame label c.session.buffer link
    rwa [hread] at this
  have hcases := exchange_exchanged command label c
  generalize exchange command label c = reply at hcases ⊢
  cases hcases with
  | newline h => simp [h]
  | closed h hclosed => simp [hclosed]
  | unsent h hopen hsend => simp [h, hopen, sent hsend]
  | lost h hopen hsend hread => simp [h, hopen, read hread, sent hsend]
  | answered h hopen hsend hread => simp [h, hopen, read hread, sent hsend]

/-- An open client hands the frame of a command over, if it has one. -/
theorem frames_exchange_of_open {c : Client (Recorder τ)} (hopen : c.session.isOpen = true) :
    (exchange command label c).2.link.frames =
      c.link.frames ++ if delimiter ∈ Utf8.encode command then [] else [frameOf command] := by
  rw [frames_exchange]
  by_cases hmem : delimiter ∈ Utf8.encode command
  · simp [hmem]
  · simp [hmem, hopen]

theorem roundTrip_apply (command label : String) (c : Client τ) :
    roundTrip command label c =
      ((exchange command label c).1.bind (Envelope.decode · label),
        (exchange command label c).2) := by
  rw [roundTrip, Call.bind_ofExcept_apply]

/-! ## The calls that issue a command -/

theorem execute_of_refused {e : UsageError} (h : c.refusal? command = some e) :
    execute command c = (.error (.usage e), c) := by
  rw [execute, Call.bind_apply_error (permit_of_refused h)]

/-- An admitted command: the reply line is read as a typed result, and the merge state
follows what was read, also when that is an error. -/
theorem execute_of_admitted (h : c.refusal? command = none) :
    execute command c =
      let reply := exchange command command c
      let outcome := reply.1.bind (readResult command)
      (outcome, reply.2.track (.of command) (.of outcome)) := by
  rw [execute, Call.bind_apply_ok (permit_of_admitted h)]
  simp only [tracked, Call.bind_ofExcept_apply, roundTrip_apply]
  cases (exchange command command c).1 <;> rfl

theorem executeRaw_of_refused {e : UsageError} (h : c.refusal? command = some e) :
    executeRaw command c = (.error (.usage e), c) := by
  rw [executeRaw, Call.bind_apply_error (permit_of_refused h)]

/-- An admitted command whose reply is taken raw. Without a reply line the merge state
is not followed. -/
theorem executeRaw_of_admitted (h : c.refusal? command = none) :
    executeRaw command c =
      match exchange command command c with
      | (.ok line, c') => acceptRaw (.of command) command line c'
      | (.error e, c') => (.error e, c') := by
  rw [executeRaw, Call.bind_apply_ok (permit_of_admitted h)]
  rcases hx : exchange command command c with ⟨_ | line, c'⟩
  · exact Call.bind_apply_error hx
  · exact Call.bind_apply_ok hx

theorem authenticate_of_refused {token : String} {e : UsageError}
    (h : checkToken token = .error e) : authenticate token c = (.error (.usage e), c) := by
  have hcheck : Call.ofUsage (checkToken token) c = (.error (.usage e), c) := by
    simp only [Call.ofUsage, h]
  rw [authenticate, Call.bind_apply_error hcheck]

theorem authenticate_of_closed {token word : String} (h : checkToken token = .ok word)
    (hclosed : c.session.isOpen = false) :
    authenticate token c = (.error (.usage .notConnected), c) := by
  have hcheck : Call.ofUsage (checkToken token) c = (.ok word, c) := by
    simp only [Call.ofUsage, h]
  have hensure : ensureOpen c = (.error (.usage .notConnected), c) := by
    simp [ensureOpen, hclosed]
  rw [authenticate, Call.bind_apply_ok hcheck, Call.bind_apply_error hensure]

theorem authenticate_of_admitted {token word : String} (h : checkToken token = .ok word)
    (hopen : c.session.isOpen = true) :
    authenticate token c =
      let reply := exchange (Statement.authenticate word).text authLabel c
      (reply.1.bind (readAuth authLabel), reply.2) := by
  have hcheck : Call.ofUsage (checkToken token) c = (.ok word, c) := by
    simp only [Call.ofUsage, h]
  have hensure : ensureOpen c = (.ok (), c) := by simp [ensureOpen, hopen]
  rw [authenticate, Call.bind_apply_ok hcheck, Call.bind_apply_ok hensure,
    Call.bind_ofExcept_apply, roundTrip_apply]
  dsimp only
  cases (exchange (Statement.authenticate word).text authLabel c).1 <;> rfl

end Client
end DbClient
