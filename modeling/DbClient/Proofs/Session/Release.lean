import DbClient.Proofs.Session.Connections
import DbClient.Proofs.Session.Guard
import DbClient.Proofs.Session.Refusal

/-!
# Releasing transports

Whatever is called on a session and whatever its transports do, each transport that it has
opened is closed once and not used after that. The end of a conversation is announced only
on closing a session whose channel has not failed. The record of a session that has been
dropped is therefore a row of episodes, one for each attempt to open a transport.
-/

namespace DbClient

variable {τ : Type}

/-! ## Episodes -/

/-- What comes of one attempt to open a transport: there is none; or it is used until the
session is closed, its end announced just before that; or it is used until a use fails,
and closed at once. -/
inductive Episode : List ChannelEvent → Prop
  | unopened (e : ClientError) : Episode [.connected (.error e)]
  | announced {uses : List ChannelEvent} (r : Except IoError Unit)
    (huses : ∀ use ∈ uses, use.succeeds = true) :
    Episode ((.connected (.ok ()) :: uses) ++ [.terminated r, .closed])
  | lost {uses : List ChannelEvent} {failure : ChannelEvent}
    (huses : ∀ use ∈ uses, use.succeeds = true) (hfailure : failure.fails = true) :
    Episode ((.connected (.ok ()) :: uses) ++ [failure, .closed])

/-- The uses of the transport that is open, if one is: so far they have succeeded. -/
inductive Underway : Bool → List ChannelEvent → Prop
  | nothing : Underway false []
  | talking {uses : List ChannelEvent} (huses : ∀ use ∈ uses, use.succeeds = true) :
    Underway true (.connected (.ok ()) :: uses)

theorem Underway.uses_of_open {isOpen : Bool} {current : List ChannelEvent}
    (h : Underway isOpen current) (hopen : isOpen = true) :
    ∃ uses, current = .connected (.ok ()) :: uses ∧ ∀ use ∈ uses, use.succeeds = true := by
  cases h with
  | nothing => cases hopen
  | talking huses => exact ⟨_, rfl, huses⟩

/-- A client whose record is episodes, and what is under way. -/
def Accounted (c : Client (Recorder τ)) : Prop :=
  ∃ (episodes : List (List ChannelEvent)) (current : List ChannelEvent),
    c.link.events = episodes.flatten ++ current ∧
    (∀ episode ∈ episodes, Episode episode) ∧ Underway c.session.isOpen current

theorem accounted_of_episode {c d : Client (Recorder τ)} {events : List ChannelEvent}
    (hc : Accounted c) (hevents : d.link.events = c.link.events ++ events)
    (hclosed : d.session.isOpen = false)
    (h : ∀ current, Underway c.session.isOpen current → Episode (current ++ events)) :
    Accounted d := by
  obtain ⟨episodes, current, hrecord, hepisodes, hcurrent⟩ := hc
  refine ⟨episodes ++ [current ++ events], [], ?_, ?_, ?_⟩
  · rw [hevents, hrecord]
    simp
  · intro episode hmem
    rcases List.mem_append.1 hmem with hmem | hmem
    · exact hepisodes episode hmem
    · rw [List.mem_singleton.1 hmem]
      exact h current hcurrent
  · rw [hclosed]
    exact .nothing

theorem accounted_of_effect [Endpoint τ] {p : Step (Recorder τ)} {events : List ChannelEvent}
    (hp : Accounted p.client) (hevents : p.left.link.events = p.client.link.events ++ events)
    (h : p.Effect events) : Accounted p.left := by
  cases h with
  | idle hchannel =>
    obtain ⟨episodes, current, hrecord, hepisodes, hcurrent⟩ := hp
    refine ⟨episodes, current, ?_, hepisodes, ?_⟩
    · rw [hchannel.link, hrecord]
    · rwa [hchannel.isOpen]
  | @answered _ text _ chunks _ _ hopen hleft hchunks =>
    obtain ⟨episodes, current, hrecord, hepisodes, hcurrent⟩ := hp
    obtain ⟨before, rfl, hbefore⟩ := hcurrent.uses_of_open hopen
    refine ⟨episodes, _, by rw [hevents, hrecord, List.append_assoc], hepisodes, ?_⟩
    rw [hleft, List.cons_append]
    refine .talking (List.forall_mem_append.2 ⟨hbefore, ?_⟩)
    exact List.forall_mem_cons.2 ⟨rfl, succeeds_receipts hchunks⟩
  | @lost _ _ uses failure _ _ _ hopen hleft huses hfailure =>
    refine accounted_of_episode hp hevents hleft ?_
    intro current hcurrent
    obtain ⟨before, rfl, hbefore⟩ := hcurrent.uses_of_open hopen
    have hepisode := Episode.lost (List.forall_mem_append.2 ⟨hbefore, huses⟩) hfailure
    rwa [← List.cons_append, List.append_assoc] at hepisode
  | announced _ hopen hleft =>
    refine accounted_of_episode hp hevents hleft ?_
    intro current hcurrent
    obtain ⟨before, rfl, hbefore⟩ := hcurrent.uses_of_open hopen
    exact .announced _ hbefore
  | unopened _ hclosed hleft =>
    refine accounted_of_episode hp hevents hleft ?_
    intro current hcurrent
    rw [hclosed] at hcurrent
    cases hcurrent
    exact .unopened _
  | opened _ hclosed hleft =>
    obtain ⟨episodes, current, hrecord, hepisodes, hcurrent⟩ := hp
    rw [hclosed] at hcurrent
    cases hcurrent
    refine ⟨episodes, [.connected (.ok ())], ?_, hepisodes, ?_⟩
    · rw [hevents, hrecord, List.append_nil]
    · rw [hleft]
      exact .talking (by simp)

/-! ## The announcement of the end -/

/-- The uses of the transport that a step makes. -/
def Step.uses [Endpoint τ] (p : Step (Recorder τ)) : List ChannelEvent :=
  p.left.link.events.drop p.client.link.events.length

theorem Step.uses_eq [Endpoint τ] {p : Step (Recorder τ)} {events : List ChannelEvent}
    (h : p.left.link.events = p.client.link.events ++ events) : p.uses = events := by
  rw [uses, h, List.drop_left]

theorem ChannelEvent.not_fails_of_succeeds {use : ChannelEvent} (h : use.succeeds = true) :
    use.fails = false := by
  cases use with
  | sent _ r | received r => cases r <;> simp_all [succeeds, fails]
  | terminated | closed | connected => cases h

theorem ChannelEvent.terminated_notMem_of_succeeds {uses : List ChannelEvent}
    (h : ∀ use ∈ uses, use.succeeds = true) (r : Except IoError Unit) :
    .terminated r ∉ uses := by
  intro hmem
  cases h _ hmem

/-- Only closing the session announces the end. -/
theorem Step.request_of_terminated [Endpoint τ] {p : Step (Recorder τ)}
    {events : List ChannelEvent} (h : p.Effect events) {r : Except IoError Unit}
    (hmem : .terminated r ∈ events) : p.request = .close := by
  cases h with
  | announced hrequest => exact hrequest
  | answered _ _ _ _ hchunks =>
    refine absurd hmem (ChannelEvent.terminated_notMem_of_succeeds ?_ r)
    exact List.forall_mem_cons.2 ⟨rfl, succeeds_receipts hchunks⟩
  | @lost _ _ uses failure _ _ _ _ _ huses hfailure =>
    rcases List.mem_append.1 hmem with hmem | hmem
    · exact absurd hmem (ChannelEvent.terminated_notMem_of_succeeds huses r)
    · rcases List.mem_cons.1 hmem with rfl | hmem
      · cases hfailure
      · simp at hmem
  | idle | opened | unopened => simp at hmem

/-! ## The quit frame -/

theorem Statement.text_ne_quit (s : Statement) : s.text ≠ "quit" := by
  intro h
  obtain ⟨rest, htext, -⟩ := s.toList_text
  rw [h] at htext
  -- no statement begins with a small letter
  cases s <;> simp [opening] at htext

/-- A call by which the caller sends a `quit` of their own. -/
def Request.SaysQuit (r : Request) : Prop :=
  r.text? = some "quit" ∨ r = .raw "quit"

theorem Request.saysQuit_of_command {r : Request} {s : SingleCall} (h : r.single? = some s)
    (hcommand : s.command = .ok "quit") : r.SaysQuit := by
  rcases single?_cases h with ⟨t, ht⟩ | ⟨command, rfl⟩ | ⟨token, rfl⟩
  · rw [single?_of_typed ht] at h
    cases h
    rcases command_typed ht hcommand with htext | ⟨-, statement, hstatement⟩
    · exact .inl htext
    · exact absurd hstatement.symm statement.text_ne_quit
  · cases h
    cases hcommand
    exact .inr rfl
  · cases h
    simp only [SingleCall.login] at hcommand
    obtain ⟨word, -, hword⟩ := exists_of_map_ok hcommand
    exact absurd hword (Statement.text_ne_quit _)

/-- A client that has sent no `quit` as a command. -/
def SentNoQuit (c : Client (Recorder τ)) : Prop :=
  ∀ frame r, .sent frame r ∈ c.link.events → frame ≠ quitFrame

theorem sentNoQuit_of_effect [Endpoint τ] {p : Step (Recorder τ)} {events : List ChannelEvent}
    (hp : SentNoQuit p.client) (hquit : ¬p.request.SaysQuit)
    (hevents : p.left.link.events = p.client.link.events ++ events) (h : p.Effect events) :
    SentNoQuit p.left := by
  have command : ∀ {s : SingleCall} {text : String}, p.request.single? = some s →
      s.command = .ok text → frameOf text ≠ quitFrame := by
    intro s text hsingle hcommand heq
    rw [Client.quitFrame_eq] at heq
    cases frameOf_injective heq
    exact hquit (Request.saysQuit_of_command hsingle hcommand)
  intro frame r hmem
  rw [hevents] at hmem
  rcases List.mem_append.1 hmem with hmem | hmem
  · exact hp frame r hmem
  · cases h with
    | idle | announced | opened | unopened => simp at hmem
    | @answered _ text _ _ hsingle hcommand =>
      have hsame : frame = frameOf text ∧ r = .ok () := by
        simpa [sent_notMem_receipts] using hmem
      rw [hsame.1]
      exact command hsingle hcommand
    | @lost _ _ uses failure _ hsingle hcommand _ _ _ _ hsent =>
      have hmem' : ChannelEvent.sent frame r ∈ uses ++ [failure] := by simpa using hmem
      rw [hsent frame r hmem']
      exact command hsingle hcommand

/-- The frames that are handed to a transport in a part of its record. A byte transport is
handed the `quit` frame to announce the end. -/
def framesIn (part : List ChannelEvent) : List Bytes :=
  part.filterMap ChannelEvent.frame?

/-- Whether the `quit` frame, if it is handed over at all, is handed over once, as the last
frame, and on a channel that has not failed. -/
structure QuitsLast (part : List ChannelEvent) : Prop where
  last : ∀ before after, framesIn part = before ++ quitFrame :: after →
    quitFrame ∉ before ∧ after = []
  sound : (∃ use ∈ part, use.fails = true) → quitFrame ∉ framesIn part

theorem quitFrame_notMem_framesIn {part : List ChannelEvent}
    (hsent : ∀ frame r, .sent frame r ∈ part → frame ≠ quitFrame)
    (hterminated : ∀ r, .terminated r ∉ part) : quitFrame ∉ framesIn part := by
  intro hmem
  obtain ⟨event, hevent, hframe⟩ := List.mem_filterMap.1 hmem
  cases event with
  | sent frame r =>
    cases hframe
    exact hsent _ r hevent rfl
  | terminated r => exact hterminated r hevent
  | received | closed | connected => cases hframe

theorem quitsLast_of_notMem {part : List ChannelEvent} (h : quitFrame ∉ framesIn part) :
    QuitsLast part where
  last := by
    intro before after heq
    rw [heq] at h
    simp at h
  sound := fun _ => h

theorem Episode.quitsLast {part : List ChannelEvent} (h : Episode part)
    (hsent : ∀ frame r, .sent frame r ∈ part → frame ≠ quitFrame) : QuitsLast part := by
  cases h with
  | unopened e =>
    refine quitsLast_of_notMem ?_
    simp [framesIn, ChannelEvent.frame?]
  | @lost uses failure huses hfailure =>
    refine quitsLast_of_notMem (quitFrame_notMem_framesIn hsent ?_)
    intro r hmem
    rcases List.mem_append.1 hmem with hmem | hmem
    · have huse := (List.mem_cons.1 hmem).resolve_left (by simp)
      exact ChannelEvent.terminated_notMem_of_succeeds huses r huse
    · rcases List.mem_cons.1 hmem with rfl | hmem
      · cases hfailure
      · simp at hmem
  | @announced uses r huses =>
    have hframes : framesIn ((.connected (.ok ()) :: uses) ++ [.terminated r, .closed]) =
        framesIn uses ++ [quitFrame] := by
      simp only [framesIn, List.filterMap_append]
      rfl
    have hnone : quitFrame ∉ framesIn uses := by
      refine quitFrame_notMem_framesIn ?_ (ChannelEvent.terminated_notMem_of_succeeds huses)
      intro frame r' hmem
      exact hsent frame r' (by simp [hmem])
    constructor
    · intro before after heq
      rw [hframes] at heq
      rcases List.eq_nil_or_concat after with rfl | ⟨init, other, rfl⟩
      · obtain rfl := List.append_cancel_right heq
        exact ⟨hnone, rfl⟩
      · -- a frame after the `quit` frame would make that one a command
        rw [List.concat_eq_append, ← List.cons_append, ← List.append_assoc] at heq
        have hinit := (List.append_inj' heq rfl).1
        rw [hinit] at hnone
        simp at hnone
    · rintro ⟨use, hmem, hfails⟩
      rcases List.mem_append.1 hmem with hmem | hmem
      · rcases List.mem_cons.1 hmem with rfl | hmem
        · cases hfails
        · rw [ChannelEvent.not_fails_of_succeeds (huses use hmem)] at hfails
          cases hfails
      · have hlast : use = .terminated r ∨ use = .closed := by simpa using hmem
        rcases hlast with rfl | rfl <;> cases hfails

/-! ## Dropped sessions -/

/-- A record that is a row of episodes, all of them with a property. -/
def Recorder.Episodic (P : List ChannelEvent → Prop) (t : Recorder τ) : Prop :=
  ∃ episodes : List (List ChannelEvent), t.events = episodes.flatten ∧
    ∀ episode ∈ episodes, Episode episode ∧ P episode

namespace Client

variable [Endpoint τ] {c : Client (Recorder τ)} {rs : List Request}

theorem accounted_run (h : Accounted c) (rs : List Request) : Accounted (run rs c).2 := by
  refine ((chain_steps rs c).induction ?_ h).1
  intro p hp hp'
  obtain ⟨events, hevents, heffect⟩ := Step.effect (isStep_of_mem_steps p hp)
  exact accounted_of_effect hp' hevents heffect

theorem sentNoQuit_run (h : SentNoQuit c) (hrs : ∀ r ∈ rs, ¬r.SaysQuit) :
    SentNoQuit (run rs c).2 := by
  have hsteps : ∀ p ∈ steps rs c, ¬p.request.SaysQuit :=
    forall_mem_steps (Q := fun r => ¬r.SaysQuit) (by simp [Request.SaysQuit, Request.text?])
      (by simp [Request.SaysQuit, Request.text?]) fun r hr _ => hrs r hr
  refine ((chain_steps rs c).induction ?_ h).1
  intro p hp hp'
  obtain ⟨events, hevents, heffect⟩ := Step.effect (isStep_of_mem_steps p hp)
  exact sentNoQuit_of_effect hp' (hsteps p hp) hevents heffect

/-- Dropping a client closes it, and that leaves nothing under way. -/
theorem episodic_close (h : Accounted c) :
    c.close.link.Episodic fun episode => SentNoQuit c → QuitsLast episode := by
  obtain ⟨events, hevents, heffect⟩ := Step.effect_close (p := ⟨.close, c⟩) rfl
  obtain ⟨episodes, current, hrecord, hepisodes, hcurrent⟩ :=
    accounted_of_effect h hevents heffect
  have hclosed : c.close.session.isOpen = false := by
    cases hopen : c.session.isOpen with
    | true => rw [close, if_pos hopen]
    | false => rw [close, if_neg (by simp [hopen]), hopen]
  have hleft : (Step.left ⟨.close, c⟩ : Client (Recorder τ)) = c.close := rfl
  rw [hleft] at hrecord hcurrent
  rw [hclosed] at hcurrent
  cases hcurrent
  rw [List.append_nil] at hrecord
  refine ⟨episodes, hrecord, fun episode hmem => ⟨hepisodes episode hmem, fun hnone => ?_⟩⟩
  refine (hepisodes episode hmem).quitsLast ?_
  intro frame r hsent
  have hquiet := sentNoQuit_of_effect hnone (by simp [Request.SaysQuit, Request.text?])
    hevents heffect
  refine hquiet frame r ?_
  rw [hleft, hrecord]
  exact List.mem_flatten_of_mem hmem hsent

theorem episodic_run_close (target : Target) (options : ClientOptions) (inner : τ)
    (rs : List Request) :
    (run rs (new target options (Recorder.start inner))).2.close.link.Episodic fun episode =>
      (∀ r ∈ rs, ¬r.SaysQuit) → QuitsLast episode := by
  have hstart : Accounted (new target options (Recorder.start inner)) :=
    ⟨[], [], rfl, by simp, .nothing⟩
  have hnone : SentNoQuit (new target options (Recorder.start inner)) := by
    intro frame r hmem
    cases hmem
  obtain ⟨episodes, hrecord, hepisodes⟩ := episodic_close (accounted_run hstart rs)
  refine ⟨episodes, hrecord, fun episode hmem => ?_⟩
  obtain ⟨hepisode, hquits⟩ := hepisodes episode hmem
  exact ⟨hepisode, fun hrs => hquits (sentNoQuit_run hnone hrs)⟩

/-- A session that is opened for a while is a run that is dropped: it is opened, makes its
calls if that works, and is closed. -/
theorem withSession_of_run {target : Target} {options : ClientOptions} {link : τ} {α : Type}
    {body : Call τ α}
    (hbody : (body (connect (new target options link)).2).2 =
      (run rs (connect (new target options link)).2).2) :
    ∃ calls, (∀ r ∈ calls, r = .connect ∨ r ∈ rs) ∧
      (withSession target options body link).2 =
        (run calls (new target options link)).2.close.link := by
  have hrun : ∀ calls, (run (.connect :: calls) (new target options link)).2 =
      (run calls (connect (new target options link)).2).2 := by
    intro calls
    rw [run, Request.perform, Call.map_apply]
  rcases hconnect : connect (new target options link) with ⟨e | ⟨⟩, d⟩
  · refine ⟨[.connect], by simp, ?_⟩
    rw [hrun, hconnect, withSession, hconnect]
    rfl
  · refine ⟨.connect :: rs, by simp, ?_⟩
    rw [hconnect] at hbody
    rw [hrun, hconnect, withSession, hconnect, ← hbody]

/-- Every transport that a session opens is released once, when the session is dropped at
the latest: its record is a row of episodes. Only a call that closes the session announces
the end of a conversation. While no caller sends a `quit` of their own, the `quit` frame is
the last of an episode, and never follows a failure. All this holds as well of a session
that is opened for the calls of `body` only. -/
theorem every_transport_released_once (target : Target) (options : ClientOptions) (inner : τ)
    (rs : List Request) :
    let c := new target options (Recorder.start inner)
    let d := (run rs c).2
    Step.Chain c (steps rs c) d ∧
      (∀ p ∈ steps rs c, ∀ r, .terminated r ∈ p.uses → p.request = .close) ∧
      d.close.link.Episodic (fun episode => (∀ r ∈ rs, ¬r.SaysQuit) → QuitsLast episode) ∧
      ∀ (α : Type) (body : Call (Recorder τ) α),
        (body (connect c).2).2 = (run rs (connect c).2).2 →
        (withSession target options body (.start inner)).2.Episodic fun episode =>
          (∀ r ∈ rs, ¬r.SaysQuit) → QuitsLast episode := by
  intro c d
  refine ⟨chain_steps rs c, ?_, episodic_run_close target options inner rs, ?_⟩
  · intro p hp r hmem
    obtain ⟨events, hevents, heffect⟩ := Step.effect (isStep_of_mem_steps p hp)
    rw [Step.uses_eq hevents] at hmem
    exact Step.request_of_terminated heffect hmem
  · intro α body hbody
    obtain ⟨calls, hcalls, hscope⟩ := withSession_of_run hbody
    rw [hscope]
    obtain ⟨episodes, hrecord, hepisodes⟩ := episodic_run_close target options inner calls
    refine ⟨episodes, hrecord, fun episode hmem => ?_⟩
    obtain ⟨hepisode, hquits⟩ := hepisodes episode hmem
    refine ⟨hepisode, fun hrs => hquits ?_⟩
    intro r hr
    rcases hcalls r hr with rfl | hr
    · simp [Request.SaysQuit, Request.text?]
    · exact hrs r hr

/-- The connection on which the time for a reply was up is not told `quit`, and the next
one is, when the session is dropped. -/
theorem quits_on_live_connection_only :
    let rs : List Request := [.connect, .execute "SELECT 1", .connect, .raw "SELECT 2"]
    let record := (run rs toSilentServer).2.close.link
    record.frames = [frameOf "SELECT 1", frameOf "SELECT 2", quitFrame] ∧
      record.Episodic QuitsLast := by
  intro rs record
  obtain ⟨-, -, ⟨episodes, hrecord, hepisodes⟩, -⟩ := every_transport_released_once
    (.remote "127.0.0.1" 3306) .default toSilentServer.link.inner rs
  have hrs : ∀ r ∈ rs, ¬r.SaysQuit := by simp [rs, Request.SaysQuit, Request.text?]
  refine ⟨by decide +kernel, episodes, hrecord, fun episode hmem => ?_⟩
  obtain ⟨hepisode, hquits⟩ := hepisodes episode hmem
  exact ⟨hepisode, hquits hrs⟩

end Client
end DbClient
