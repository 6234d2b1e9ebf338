import DbClient.Proofs.Session.Effect
import DbClient.Proofs.Session.Teardown
import DbClient.Transport.Host

/-!
# Connections

A session that is not open holds nothing of the connections before: nothing that has
arrived, and no merge. So each reply comes from the connection on which its command was
sent, and once the channel has failed nothing is sent until the session is opened again.
-/

namespace DbClient

open FrameBuffer (IsChannelFailure)

variable {τ : Type}

/-! ## Closed sessions -/

namespace Client

/-- A client that holds nothing while its session is closed: no bytes that have arrived,
and no merge. -/
def Settled (c : Client τ) : Prop :=
  c.session.isOpen = false → c.session.buffer = .empty ∧ c.session.merge = .clean

variable {c : Client τ}

theorem settled_of_open (h : c.session.isOpen = true) : c.Settled := by
  intro hclosed
  rw [h] at hclosed
  cases hclosed

/-- A merge is open in an open session only. -/
theorem Settled.isOpen_of_pending (h : c.Settled) (hpending : c.session.merge = .pending) :
    c.session.isOpen = true := by
  cases hopen : c.session.isOpen with
  | true => rfl
  | false =>
    rw [(h hopen).2] at hpending
    cases hpending

section Calls

variable [Transport τ]

theorem settled_abandon (c : Client τ) : c.abandon.Settled :=
  fun _ => ⟨rfl, rfl⟩

theorem settled_close (h : c.Settled) : c.close.Settled := by
  unfold close
  split
  · exact fun _ => ⟨rfl, rfl⟩
  · exact h

theorem settled_exchange (h : c.Settled) (command label : String) :
    (exchange command label c).2.Settled := by
  have hcases := exchange_exchanged command label c
  generalize exchange command label c = reply at hcases ⊢
  cases hcases with
  | newline | closed => exact h
  | unsent | lost => exact settled_abandon _
  | answered _ hopen => exact settled_of_open hopen

end Calls

theorem settled_connect [Endpoint τ] (h : c.Settled) : (connect c).2.Settled := by
  have hcases := connect_opening c
  generalize connect c = reply at hcases ⊢
  cases hcases with
  | already | failed => exact h
  | opened => exact settled_of_open rfl

end Client

section Steps

variable [Endpoint τ]

namespace Request

variable {r : Request} {c : Client τ}

/-- Without a line the state is followed after the connection has been given up. -/
theorem settled_single {s : SingleCall} (hsingle : r.single? = some s) (h : c.Settled) :
    (r.perform c).2.Settled := by
  cases hcommand : s.command with
  | error e =>
    rw [perform_of_misuse hsingle hcommand]
    exact h
  | ok text =>
    cases hr : c.refusal? text with
    | some e =>
      rw [perform_of_refused hsingle hcommand hr]
      exact h
    | none =>
      rw [perform_of_admitted hsingle hcommand hr]
      have hx := Client.settled_exchange h text (s.label text)
      rcases hreply : Client.exchange text (s.label text) c with ⟨e | line, c'⟩ <;>
        rw [hreply] at hx
      · intro hclosed
        obtain ⟨hbuffer, hclean⟩ := hx hclosed
        refine ⟨hbuffer, ?_⟩
        show r.follow text (.error e) c'.session.merge = .clean
        rw [hclean]
        exact follow_error (.inr rfl) r e
      · exact Client.settled_of_open (Client.notMem_of_exchange_ok hreply).2.1

theorem settled_perform (hstep : ∀ resolution, r ≠ .resolveAll resolution) (h : c.Settled) :
    (r.perform c).2.Settled := by
  cases r with
  | connect =>
    rw [perform, Call.map_apply]
    exact Client.settled_connect h
  | close => exact Client.settled_close h
  | resolveAll resolution => exact absurd rfl (hstep resolution)
  | _ => exact settled_single rfl h

end Request

namespace Step

/-! ## One connection -/

/-- Where the answer of a step comes from: from no reply, because the call was refused or
the channel failed; or from a line of what has arrived on the connection, just after what
was taken from it before. -/
inductive OnConnection (p : Step (Recorder τ)) (s : SingleCall) : Prop
  | refused {e : UsageError} (he : e.refuses = true) (houtcome : p.outcome = .error (.usage e))
  | lost {label : String} {e : ClientError} (he : IsChannelFailure label e)
    (houtcome : p.outcome = .error e)
  | answered {text : String} {line taken received : Bytes} (hcommand : s.command = .ok text)
    (houtcome : p.outcome = s.read text line)
    (hbefore : p.client.link.arrived = taken ++ p.client.session.buffer.bytes)
    (hreceived : p.left.link.arrived = p.client.link.arrived ++ received)
    (hafter : p.left.link.arrived =
      taken ++ (line ++ delimiter :: p.left.session.buffer.bytes))

/-- An open client that has buffered the end of what has arrived on its connection. -/
def BuffersArrived (c : Client (Recorder τ)) : Prop :=
  c.session.isOpen = true → ∃ taken, c.link.arrived = taken ++ c.session.buffer.bytes

variable {p : Step (Recorder τ)}

theorem arrived_of_answered {text : String} {chunks : List Bytes}
    (hevents : p.left.link.events =
      p.client.link.events ++ (.sent (frameOf text) (.ok ()) :: receipts chunks)) :
    p.left.link.arrived = p.client.link.arrived ++ chunks.flatten := by
  rw [Recorder.arrived_of_events hevents, List.foldl_cons, foldl_arrive_receipts]
  rfl

theorem onConnection_of_effect {events : List ChannelEvent} {s : SingleCall}
    (hsingle : p.request.single? = some s)
    (hevents : p.left.link.events = p.client.link.events ++ events) (h : p.Effect events)
    (hp : BuffersArrived p.client) : p.OnConnection s := by
  cases h with
  | idle _ houtcome =>
    obtain ⟨e, he, hrefused⟩ := houtcome s hsingle
    exact .refused he hrefused
  | lost _ _ _ _ _ _ _ he houtcome => exact .lost he houtcome
  | @answered s' _ _ chunks hsingle' hcommand hopen _ _ hbytes houtcome =>
    rw [hsingle] at hsingle'
    cases hsingle'
    obtain ⟨taken, htaken⟩ := hp hopen
    have harrived := arrived_of_answered hevents
    refine .answered hcommand houtcome htaken harrived ?_
    rw [harrived, htaken, List.append_assoc, hbytes]
  | announced hrequest | opened hrequest | unopened hrequest =>
    rw [hrequest] at hsingle
    cases hsingle

theorem buffersArrived_of_effect {events : List ChannelEvent}
    (hevents : p.left.link.events = p.client.link.events ++ events) (h : p.Effect events)
    (hp : BuffersArrived p.client) : BuffersArrived p.left := by
  intro hleft
  cases h with
  | idle hchannel =>
    rw [hchannel.link, hchannel.buffer]
    exact hp (hchannel.isOpen.symm.trans hleft)
  | @answered s text line chunks _ _ hopen _ _ hbytes =>
    obtain ⟨taken, htaken⟩ := hp hopen
    refine ⟨taken ++ (line ++ [delimiter]), ?_⟩
    rw [arrived_of_answered hevents, htaken, List.append_assoc, hbytes]
    simp
  | opened _ _ _ hempty =>
    -- nothing has arrived on a connection that has just been opened
    refine ⟨[], ?_⟩
    rw [Recorder.arrived_of_events hevents, hempty]
    rfl
  | lost _ _ _ hclosed | announced _ _ hclosed | unopened _ _ hclosed =>
    rw [hleft] at hclosed
    cases hclosed

/-- A closed session stays closed unless it is opened. -/
theorem closed_left (hstep : ∀ resolution, p.request ≠ .resolveAll resolution)
    (hclosed : p.client.session.isOpen = false)
    (hconnect : p.request = .connect → p.outcome ≠ .ok .done) :
    p.left.session.isOpen = false := by
  obtain ⟨events, -, heffect⟩ := effect hstep
  cases heffect with
  | idle hchannel => exact hchannel.isOpen.trans hclosed
  | unopened _ _ hleft => exact hleft
  | opened hrequest _ _ _ houtcome => exact absurd houtcome (hconnect hrequest)
  | answered _ _ hopen | lost _ _ hopen | announced _ hopen =>
    rw [hclosed] at hopen
    cases hopen

end Step

/-! ## Runs -/

namespace Client

theorem closed_run {c : Client (Recorder τ)} {rs : List Request}
    (hclosed : c.session.isOpen = false)
    (hrs : ∀ p ∈ steps rs c, p.request = .connect → p.outcome ≠ .ok .done) :
    (run rs c).2.session.isOpen = false := by
  have hstep : ∀ p ∈ steps rs c, p.client.session.isOpen = false →
      p.left.session.isOpen = false :=
    fun p hp hp' => Step.closed_left (isStep_of_mem_steps p hp) hp' (hrs p hp)
  have hchain := chain_steps rs c
  exact (hchain.induction (P := fun d => d.session.isOpen = false) hstep hclosed).1

/-- On a closed client a command is refused, and the transport is not touched. -/
theorem perform_of_closed {c : Client τ} {r : Request} {command : String}
    (hr : r = .execute command ∨ r = .raw command) (hclosed : c.session.isOpen = false) :
    r.perform c = (.error (.usage .notConnected), c) := by
  have hrefused : c.refusal? command = some .notConnected := by simp [refusal?, hclosed]
  rcases hr with rfl | rfl
  · rw [Request.perform, Call.map_apply, execute_of_refused hrefused]
    rfl
  · rw [Request.perform, Call.map_apply, executeRaw_of_refused hrefused]
    rfl

/-- In every run of a session its client holds nothing while it is closed, and each step
that issues a command answers with a line that has arrived on the connection of that step,
if it answers with a line at all. After a call that fails with the channel every command
is refused and nothing is touched, whatever is called in between, as long as no call has
opened the session again. -/
theorem closed_session_holds_nothing (target : Target) (options : ClientOptions) (inner : τ)
    (rs : List Request) :
    let c := new target options (.start inner)
    let d := (run rs c).2
    Step.Chain c (steps rs c) d ∧ d.Settled ∧
      (d.session.merge = .pending → d.session.isOpen = true) ∧
      (∀ p ∈ steps rs c, p.client.Settled ∧
        ∀ s, p.request.single? = some s → p.OnConnection s) ∧
      ∀ (r : Request) (label : String) (e : ClientError), (r.perform d).1 = .error e →
        IsChannelFailure label e → ∀ later : List Request,
          (∀ p ∈ steps later (r.perform d).2, p.request = .connect → p.outcome ≠ .ok .done) →
          let f := (run later (r.perform d).2).2
          ∀ (command : String) (q : Request), q = .execute command ∨ q = .raw command →
            q.perform f = (.error (.usage .notConnected), f) := by
  intro c d
  have hchain := chain_steps rs c
  have heffect : ∀ p ∈ steps rs c, ∃ events,
      p.left.link.events = p.client.link.events ++ events ∧ p.Effect events :=
    fun p hp => Step.effect (isStep_of_mem_steps p hp)
  have hstart : c.Settled := fun _ => ⟨rfl, rfl⟩
  obtain ⟨hend, hsettled⟩ := hchain.induction
    (fun p hp => Request.settled_perform (isStep_of_mem_steps p hp)) hstart
  have hfresh : Step.BuffersArrived c := by
    intro hopen
    cases hopen
  have hbuffers : ∀ p ∈ steps rs c, Step.BuffersArrived p.client →
      Step.BuffersArrived p.left := by
    intro p hp h
    obtain ⟨events, hevents, heff⟩ := heffect p hp
    exact Step.buffersArrived_of_effect hevents heff h
  obtain ⟨-, harrived⟩ := hchain.induction hbuffers hfresh
  refine ⟨hchain, hend, hend.isOpen_of_pending, ?_, ?_⟩
  · intro p hp
    obtain ⟨events, hevents, heff⟩ := heffect p hp
    exact ⟨hsettled p hp, fun s hs => Step.onConnection_of_effect hs hevents heff (harrived p hp)⟩
  · intro r label e houtcome he later hlater f command q hq
    have hclosed := Request.closed_of_channelFailure houtcome he
    exact perform_of_closed hq (closed_run hclosed hlater)

end Client

end Steps

namespace Client

/-- A client whose server says nothing on the first connection, and answers on the next. -/
def toSilentServer : Client (Recorder Host) :=
  let reply := Utf8.encode "\x7b\"success\":true\x7d\n"
  let network : Network := ⟨true, some [[.silence], [.say reply]], []⟩
  new (.remote "127.0.0.1" 3306) .default
    (.start (.idle network ⟨"library", .missing, [], "", [], [], []⟩))

/-- Once the time for a reply is up every command is refused. -/
theorem refused_after_time_is_up :
    let d := (run [.connect] toSilentServer).2
    let lost := (Request.execute "SELECT 1").perform d
    let f := (run [.raw "SELECT 2"] lost.2).2
    lost.1 = .error (.transport "SELECT 1" Remote.timeUp) ∧
      (Request.execute "SELECT 3").perform f = (.error (.usage .notConnected), f) := by
  intro d lost f
  have hlost : lost.1 = .error (.transport "SELECT 1" Remote.timeUp) := by rfl
  obtain ⟨-, -, -, -, hrefused⟩ := closed_session_holds_nothing (.remote "127.0.0.1" 3306) .default
    toSilentServer.link.inner [.connect]
  have hlater : ∀ p ∈ steps [.raw "SELECT 2"] lost.2,
      p.request = .connect → p.outcome ≠ .ok .done := by
    intro p hp hconnect
    rw [List.mem_singleton.1 hp] at hconnect
    cases hconnect
  exact ⟨hlost, hrefused (.execute "SELECT 1") _ _ hlost (.transport _) _ hlater "SELECT 3" _
    (.inl rfl)⟩

end Client
end DbClient
