import DbClient.Proofs.Session.Executed
import DbClient.Proofs.Session.Steps
import DbClient.Transport.Scripted

/-!
# Giving up a connection

A session gives up its connection when a call fails with the channel, and keeps it through
every other call: a refusal, a reply that breaks the protocol, a rejection by the server, a
result of the wrong kind. So the error that is returned tells whether the session is still open.
-/

namespace DbClient

open ClientError (IsReplyFault IsViewFault)
open FrameBuffer (IsChannelFailure)

variable {τ α β : Type}

/-! ## Errors of the channel -/

/-- Whether an error means that the connection is lost. -/
def ClientError.losesConnection : ClientError → Bool
  | connectionClosed _ | transport _ _ => true
  | connection _ _ | load _ _ | protocol _ _ | server _ _ | usage _ => false

theorem ClientError.losesConnection_iff {e : ClientError} :
    e.losesConnection = true ↔ ∃ label, IsChannelFailure label e := by
  constructor
  · intro h
    cases e with
    | connectionClosed label => exact ⟨label, .closed⟩
    | transport label io => exact ⟨label, .transport io⟩
    | connection | load | protocol | server | usage => cases h
  · rintro ⟨label, h⟩
    cases h <;> rfl

theorem FrameBuffer.IsChannelFailure.command? {command : String} {e : ClientError}
    (h : IsChannelFailure command e) : e.command? = some command := by
  cases h <;> rfl

theorem ClientError.IsReplyFault.command? {command : String} {e : ClientError}
    (h : IsReplyFault command e) : e.command? = some command := by
  cases h <;> rfl

theorem ClientError.IsReplyFault.keepsConnection {command : String} {e : ClientError}
    (h : IsReplyFault command e) : e.losesConnection = false := by
  cases h <;> rfl

theorem ClientError.IsViewFault.keepsConnection {e : ClientError} (h : IsViewFault e) :
    e.losesConnection = false := by
  cases h with
  | unexpected => rfl
  | reply h => exact h.keepsConnection

/-! ## Replies -/

theorem readRaw_fails (command : String) (line : Bytes) :
    FailsOnly (IsReplyFault command) (Client.readRaw command line) := by
  refine .bind (.bind ?_ fun e => e.ensureSuccess_fails) fun _ => ?_
  · exact (Envelope.decode_fails line).mono fun _ h => h.isReplyFault
  · split
    · exact .error (.protocol _)
    · exact .ok _

/-- A call of one command makes of a reply line an answer, or an error that is no failure
of the channel. -/
theorem Request.read_fails {r : Request} {s : SingleCall} (h : r.single? = some s) (text : String)
    (line : Bytes) : FailsOnly IsViewFault (s.read text line) := by
  rcases single?_cases h with ⟨t, ht⟩ | ⟨command, rfl⟩ | ⟨token, rfl⟩
  · rw [single?_of_typed ht] at h
    cases h
    exact ((readResult_fails text line).mono fun _ he => .reply he).bind (failsOnView ht)
  · cases h
    exact ((readRaw_fails text line).mono fun _ he => .reply he).map _
  · cases h
    exact ((readAuth_fails _ line).mono fun _ he => .reply he).map _

/-! ## Calls that give a connection up -/

/-- A call that closes an open session exactly when it fails with the channel, and opens none
that is closed. -/
structure Call.TearsDown (x : Call τ α) : Prop where
  closed_iff : ∀ c : Client τ, c.session.isOpen = true →
    ((x c).2.session.isOpen = false ↔ ∃ e, (x c).1 = .error e ∧ e.losesConnection = true)
  stays_closed : ∀ c : Client τ, c.session.isOpen = false → (x c).2.session.isOpen = false

namespace Call.TearsDown

variable {x : Call τ α}

theorem pure (a : α) : (Pure.pure a : Call τ α).TearsDown where
  closed_iff c hopen := by
    rw [pure_apply]
    simp [hopen]
  stays_closed _ hclosed := hclosed

/-- A call that goes on with the answer of another. -/
theorem bind {f : α → Call τ β} (hx : x.TearsDown) (hf : ∀ a, (f a).TearsDown) :
    (x >>= f).TearsDown where
  closed_iff c hopen := by
    have hiff := hx.closed_iff c hopen
    rcases hc : x c with ⟨e | a, d⟩ <;> rw [hc] at hiff
    · rw [bind_apply_error hc, hiff]
      simp
    · -- the first call has not failed, and so it has left the session open
      have hd : d.session.isOpen = true := by simpa using hiff
      rw [bind_apply_ok hc]
      exact (hf a).closed_iff d hd
  stays_closed c hclosed := by
    have hd := hx.stays_closed c hclosed
    rcases hc : x c with ⟨e | a, d⟩ <;> rw [hc] at hd
    · rw [bind_apply_error hc]
      exact hd
    · rw [bind_apply_ok hc]
      exact (hf a).stays_closed d hd

theorem map (f : α → β) (hx : x.TearsDown) : (x >>= fun a => Pure.pure (f a)).TearsDown :=
  hx.bind fun a => .pure (f a)

/-- What becomes of the answer makes no difference. -/
theorem of_map {f : α → β} (h : (x >>= fun a => Pure.pure (f a)).TearsDown) : x.TearsDown where
  closed_iff c hopen := by
    have hiff := h.closed_iff c hopen
    rw [map_apply] at hiff
    rw [hiff]
    cases (x c).1 <;> simp [Except.map]
  stays_closed c hclosed := by
    have hclosed' := h.stays_closed c hclosed
    rwa [map_apply] at hclosed'

end Call.TearsDown

namespace Request

variable [Endpoint τ]

theorem tearsDown_single {r : Request} {s : SingleCall} (h : r.single? = some s) :
    (r.perform (τ := τ)).TearsDown where
  closed_iff c hopen := by
    cases performed h c with
    | refused _ hperform =>
      rw [hperform]
      simp [hopen, ClientError.losesConnection]
    | @exchanged text _ _ _ hchannel hread =>
      rw [hread, hchannel.isOpen]
      rcases hx : Client.exchange text (s.label text) c with ⟨e | line, d⟩
      · rcases Client.exchange_error_of_open hx hopen with ⟨-, rfl, rfl⟩ | ⟨-, he, hclosed, -⟩
        · simp [hopen, Except.bind, ClientError.losesConnection]
        · simp [hclosed, Except.bind, ClientError.losesConnection_iff.2 ⟨_, he⟩]
      · -- what is made of a line is never a failure of the channel
        have hd := (Client.notMem_of_exchange_ok hx).2.1
        have hkeeps : ∀ e, s.read text line = .error e → e.losesConnection = false :=
          fun e he => (read_fails h text line e he).keepsConnection
        simp only [Except.bind, hd]
        constructor
        · intro hclosed
          cases hclosed
        · rintro ⟨e, he, hloses⟩
          rw [hkeeps e he] at hloses
          cases hloses
  stays_closed c hclosed := by
    cases performed h c with
    | refused _ hperform =>
      rw [hperform]
      exact hclosed
    | exchanged _ hopen =>
      rw [hclosed] at hopen
      cases hopen

theorem tearsDown_resolveEach (resolution : Resolution) (listed : List MergeConflict) :
    (Client.resolveEach (τ := τ) resolution listed).TearsDown := by
  induction listed with
  | nil => exact .pure ()
  | cons conflict rest ih =>
    have hresolve : (Client.resolve (τ := τ) conflict resolution).TearsDown :=
      .of_map (tearsDown_single (r := resolve conflict resolution) rfl)
    exact hresolve.bind fun _ => ih

/-- So does every call but the one that opens the session and the one that closes it. -/
theorem tearsDown {r : Request} (hconnect : r ≠ connect) (hclose : r ≠ close) :
    (r.perform (τ := τ)).TearsDown := by
  cases r with
  | connect => exact absurd rfl hconnect
  | close => exact absurd rfl hclose
  | resolveAll resolution =>
    have hlist : (Client.conflicts (τ := τ)).TearsDown :=
      .of_map (tearsDown_single (r := conflicts) rfl)
    refine .map _ (hlist.bind fun listed => ?_)
    exact (tearsDown_resolveEach resolution listed).bind fun _ => .pure _
  | _ => exact tearsDown_single rfl

/-- Opening fails on an open session, or it leaves the session closed. -/
theorem alreadyOpen_or_closed_of_connect {c d : Client τ} {e : ClientError}
    (h : Client.connect c = (.error e, d)) :
    e = .usage .alreadyOpen ∨ d.session.isOpen = false := by
  have hcases := Client.connect_opening c
  rw [h] at hcases
  cases hcases with
  | already => exact .inl rfl
  | failed hclosed => exact .inr hclosed

/-- After a call that fails with the channel the session is closed. -/
theorem closed_of_channelFailure {r : Request} {c : Client τ} {label : String} {e : ClientError}
    (houtcome : (r.perform c).1 = .error e) (he : IsChannelFailure label e) :
    (r.perform c).2.session.isOpen = false := by
  have hloses := ClientError.losesConnection_iff.2 ⟨label, he⟩
  by_cases hclose : r = close
  · subst hclose
    cases houtcome
  by_cases hconnect : r = connect
  · subst hconnect
    rw [perform_connect] at houtcome ⊢
    rcases hperform : Client.connect c with ⟨e' | ⟨⟩, d⟩ <;> rw [hperform] at houtcome <;>
      cases houtcome
    rcases alreadyOpen_or_closed_of_connect hperform with rfl | hclosed
    · cases hloses
    · exact hclosed
  · have hteardown : (r.perform (τ := τ)).TearsDown := tearsDown hconnect hclose
    cases hopen : c.session.isOpen with
    | true => exact (hteardown.closed_iff c hopen).2 ⟨e, houtcome, hloses⟩
    | false => exact hteardown.stays_closed c hopen

/-! ## Errors after a command has been handed over -/

/-- What is made of the reply to a command that is given as a text. -/
theorem read_fails_of_command {r : Request} {command : String}
    (hr : r = execute command ∨ r = raw command) :
    ∃ s, r.single? = some s ∧ s.command = .ok command ∧ s.label command = command ∧
      ∀ line, FailsOnly (IsReplyFault command) (s.read command line) := by
  rcases hr with rfl | rfl
  · refine ⟨_, rfl, rfl, rfl, fun line => ?_⟩
    exact (readResult_fails command line).bind fun r => .ok _
  · exact ⟨_, rfl, rfl, rfl, fun line => (readRaw_fails command line).map _⟩

/-- Once a command has been handed over, the call fails with the channel or by the reply. -/
theorem fails_of_handed {r : Request} {command : String} {c : Client (Recorder τ)}
    (hr : r = execute command ∨ r = raw command)
    (hhanded : frameOf command ∈ Step.handed ⟨r, c⟩) :
    FailsOnly (fun e => IsChannelFailure command e ∨ IsReplyFault command e) (r.perform c).1 := by
  obtain ⟨s, hsingle, hcommand, hlabel, hread⟩ := read_fails_of_command hr
  -- a call that leaves the channel alone hands nothing over
  have idle : ¬(r.perform c).2.link = c.link := by
    intro hlink
    rw [Step.handed, Step.left, hlink, List.drop_length] at hhanded
    cases hhanded
  cases performed hsingle c with
  | refused _ hperform => exact absurd (by rw [hperform]) idle
  | @exchanged text htext _ _ hchannel houtcome =>
    rw [hcommand] at htext
    cases htext
    rw [houtcome, hlabel]
    rw [hchannel.link, hlabel] at idle
    have hcases := Client.exchange_exchanged command command c
    generalize Client.exchange command command c = reply at hcases idle ⊢
    cases hcases with
    | newline | closed => exact absurd rfl idle
    | unsent => exact .error (.inl (.transport _))
    | lost _ _ _ hlost => exact .error (.inl (FrameBuffer.isChannelFailure_readFrame hlost))
    | @answered line => exact (hread line).mono fun _ he => .inr he

end Request

namespace Client

/-- On an open session a call other than opening and closing leaves the session closed if and
only if it fails with the channel. A command that has been handed over, typed or raw, fails with
the channel, breaks the protocol or is rejected by the server, and the error names it. -/
theorem closed_iff_losesConnection [Endpoint τ] {c : Client (Recorder τ)}
    (hopen : c.session.isOpen = true) :
    (∀ r : Request, r ≠ .connect → r ≠ .close →
      ((r.perform c).2.session.isOpen = false ↔
        ∃ e, (r.perform c).1 = .error e ∧ e.losesConnection = true)) ∧
      ∀ (command : String) (r : Request), r = .execute command ∨ r = .raw command →
        frameOf command ∈ Step.handed ⟨r, c⟩ → ∀ e, (r.perform c).1 = .error e →
          (IsChannelFailure command e ∨ IsReplyFault command e) ∧ e.command? = some command := by
  constructor
  · intro r hconnect hclose
    exact (Request.tearsDown hconnect hclose).closed_iff c hopen
  · intro command r hr hhanded e he
    have hfault := Request.fails_of_handed hr hhanded e he
    refine ⟨hfault, ?_⟩
    rcases hfault with h | h
    · exact h.command?
    · exact h.command?

/-- An open client whose server sends these chunks and ends the stream. -/
def receiving (chunks : List String) : Client (Recorder Scripted) :=
  attach .default (.start (Scripted.start (chunks.map fun chunk => .ok (Utf8.encode chunk)) []))

/-- One conflict, as the server lists it. -/
def oneConflict : String :=
  "\x7b\"success\":true,\"type\":\"query\",\"result\":\x7b\"columns\":" ++
    "[\"Database\",\"Table\",\"Key\"],\"data\":[[\"d\",\"t\",\"1\"]]\x7d\x7d\n"

/-- Settling conflicts is cut off after the listing, and the session is closed; a command that
is rejected leaves it open; one whose reply is cut off is named by the error. -/
theorem closed_after_listing :
    (∃ e, ((Request.resolveAll .head).perform (receiving [oneConflict])).1 = .error e ∧
        e.losesConnection = true) ∧
      (¬∃ e, ((Request.raw "SELECT 1").perform (receiving ["\x7b\x7d\n"])).1 = .error e ∧
        e.losesConnection = true) ∧
      ∃ e, ((Request.raw "SELECT 1").perform (receiving ["\x7b"])).1 = .error e ∧
        e.command? = some "SELECT 1" := by
  have hsettled :
      ((Request.resolveAll .head).perform (receiving [oneConflict])).2.session.isOpen = false := by
    decide +kernel
  have hrejected :
      ((Request.raw "SELECT 1").perform (receiving ["\x7b\x7d\n"])).2.session.isOpen = true := by
    decide +kernel
  have hcut : ((Request.raw "SELECT 1").perform (receiving ["\x7b"])).2.session.isOpen = false := by
    decide +kernel
  have hhanded : frameOf "SELECT 1" ∈ Step.handed ⟨.raw "SELECT 1", receiving ["\x7b"]⟩ := by
    decide +kernel
  have hlost := ((closed_iff_losesConnection (c := receiving [oneConflict]) rfl).1
    (.resolveAll .head) (by simp) (by simp)).1 hsettled
  have hkept := (closed_iff_losesConnection (c := receiving ["\x7b\x7d\n"]) rfl).1
    (.raw "SELECT 1") (by simp) (by simp)
  obtain ⟨hcutIff, hnamed⟩ := closed_iff_losesConnection (c := receiving ["\x7b"]) rfl
  obtain ⟨e, he, -⟩ := (hcutIff (.raw "SELECT 1") (by simp) (by simp)).1 hcut
  refine ⟨hlost, fun hloses => ?_, e, he, ?_⟩
  · rw [hkept.2 hloses] at hrejected
    cases hrejected
  · exact (hnamed "SELECT 1" (.raw "SELECT 1") (.inr rfl) hhanded e he).2

end Client

end DbClient
