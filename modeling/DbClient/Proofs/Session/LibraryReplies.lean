import DbClient.Proofs.Session.Executed
import DbClient.Proofs.Session.Steps
import DbClient.Proofs.Transport.Lines

/-!
# Replies of a library

Over an embedded library each command has its own reply, but the session reads lines. A
command is answered by its own reply for as long as no reply has had a newline. From the
first reply with a newline on, every command is answered by a line that earlier replies
have left behind, and its own reply has no effect at all.
-/

namespace DbClient

/-- The commands that have reached the library. -/
def Host.reached (h : Host) : List Bytes :=
  h.engineEvents.filterMap EngineEvent.command?

/-- The calls into the library for the command with an index: it is executed, and its reply
is given back. -/
def EngineEvent.ofCommand (handle : Int) (index : Nat) (command : String) : List EngineEvent :=
  [.execute handle (Utf8.encode command), .free index]

theorem Host.reached_of_events {h h' : Host} {handle : Int} {index : Nat} {command : String}
    (heq : h'.engineEvents = h.engineEvents ++ EngineEvent.ofCommand handle index command) :
    h'.reached.length = h.reached.length + 1 := by
  rw [reached, heq, List.filterMap_append, List.length_append]
  rfl

/-! ## The lines to come -/

/-- A client that is open over a library, whose remaining replies are those from the index
`k` on. As many lines have been read as replies have been given, and the rest of the lines
waits in the buffer and in the transport. -/
structure OverLibrary (replies : List Bytes) (k : Nat) (c : Client Host) : Prop where
  isOpen : c.session.isOpen = true
  link : ∃ t network, c.link = .embedded t network ∧ t.isOpen = true ∧
    t.engine.replies = (replies.drop k).map some ∧
    c.session.buffer.bytes ++ t.pending = replyStream ((replyLines (replies.take k)).drop k)

theorem Embedded.openDatabase_replies (database : Database) (e : Engine) :
    (openDatabase database e).2.replies = e.replies := by
  cases database with
  | memory => rfl
  | directory path =>
    unfold openDatabase
    dsimp only
    split <;> rfl

/-- A library that has been loaded has given no reply yet. -/
theorem Embedded.load_ok {path : String} {database : Database} {e e' : Engine} {t : Embedded}
    (h : load path database e = (.ok t, e')) :
    t.isOpen = true ∧ t.pending = [] ∧ t.engine.replies = e.replies := by
  unfold load at h
  dsimp only at h
  split at h
  · cases h
  split at h
  · cases h
  split at h
  · cases h
  have hreplies := openDatabase_replies database e
  rcases hdatabase : openDatabase database e with ⟨_ | handle, opened⟩ <;>
    rw [hdatabase] at h hreplies
  · cases h
  · dsimp only at h
    split at h
    · cases h
    · cases h
      exact ⟨rfl, rfl, hreplies⟩

/-- A client that has been connected to a library is about to get its first reply. -/
theorem overLibrary_of_connect {c c' : Client Host} {path : String} {database : Database}
    {replies : List Bytes} (htarget : c.session.target = .embedded path database)
    (hreplies : c.link.release.2.replies = replies.map some)
    (h : Client.connect c = (.ok (), c')) : OverLibrary replies 0 c' := by
  have hcases := Client.connect_opening c
  rw [h] at hcases
  cases hcases with
  | opened _ hconnect =>
    change Host.connect c.session.target c.session.options c.link = _ at hconnect
    rw [htarget, Host.connect] at hconnect
    dsimp only at hconnect
    rcases hload : Embedded.load path database c.link.release.2 with ⟨_ | t, e⟩ <;>
      rw [hload] at hconnect <;> cases hconnect
    obtain ⟨hopen, hpending, hsame⟩ := Embedded.load_ok hload
    refine ⟨rfl, t, c.link.release.1, rfl, hopen, by rw [hsame, hreplies, List.drop_zero], ?_⟩
    rw [hpending]
    rfl

namespace OverLibrary

variable {replies : List Bytes} {k : Nat} {c : Client Host}

/-- Only the channel decides. -/
theorem congr {d : Client Host} (h : OverLibrary replies k c) (hchannel : Client.SameChannel d c) :
    OverLibrary replies k d := by
  obtain ⟨t, network, hlink, hrest⟩ := h.link
  refine ⟨hchannel.isOpen.trans h.isOpen, t, network, hchannel.link.trans hlink, ?_⟩
  rw [hchannel.buffer]
  exact hrest

/-- An exchange takes the line with the index of the reply. -/
theorem exchange (h : OverLibrary replies k c) (hk : k < replies.length) {command : String}
    (hmem : delimiter ∉ Utf8.encode command) (hnul : 0 ∉ Utf8.encode command) (label : String) :
    ∃ line handle, (replyLines (replies.take (k + 1)))[k]? = some line ∧
      (Client.exchange command label c).1 = .ok line ∧
      OverLibrary replies (k + 1) (Client.exchange command label c).2 ∧
      (Client.exchange command label c).2.link.engineEvents =
        c.link.engineEvents ++ EngineEvent.ofCommand handle c.link.reached.length command := by
  obtain ⟨t, network, hlink, hopen, hreplies, hbytes⟩ := h.link
  obtain ⟨line, hline, hnext⟩ := exists_next_line hk
  rw [List.drop_eq_getElem_cons hk, List.map_cons] at hreplies
  let sent : Embedded := { t with
    pending := t.pending ++ (replies[k] ++ [delimiter])
    engine := ({ t.engine.note (.execute t.handle (Utf8.encode command)) with
      replies := (replies.drop (k + 1)).map some }).free ⟨t.engine.executed.length, replies[k]⟩ }
  have hsend : Transport.send (frameOf command) c.link = (.ok (), Host.embedded sent network) := by
    rw [hlink]
    show Host.send _ _ = _
    rw [Host.send, frameOf, Embedded.send_of_reply hopen hnul hreplies]
  have hwaiting : c.session.buffer.bytes ++ sent.pending =
      line ++ delimiter :: replyStream ((replyLines (replies.take (k + 1))).drop (k + 1)) := by
    rw [← hnext, ← hbytes, List.append_assoc]
  have hfree : delimiter ∉ line :=
    delimiter_notMem_of_mem_replyLines (List.mem_of_getElem? hline)
  obtain ⟨left, pending, hread, hleft⟩ :=
    FrameBuffer.readFrame_embedded label network (t := sent) hopen hfree hwaiting
  rw [Client.exchange_of_answered hmem h.isOpen hsend hread]
  refine ⟨line, t.handle, hline, rfl, ⟨h.isOpen, _, network, rfl, hopen, rfl, hleft⟩, ?_⟩
  rw [hlink]
  simp [Host.reached, Host.engineEvents, sent, Engine.note, Engine.free, Engine.executed,
    EngineEvent.ofCommand]

end OverLibrary

/-! ## Runs -/

/-- What answers the command whose reply has the index `k`: its own reply, up to the first
newline, if no reply before it has a newline; and otherwise a line of those replies. -/
inductive AnsweredOver (replies : List Bytes) (k : Nat) (command : String)
    (outcome : Except ClientError Answer) : Prop
  | own {reply : Bytes} (hreply : replies[k]? = some reply)
    (hbefore : ∀ earlier ∈ replies.take k, delimiter ∉ earlier)
    (houtcome : outcome =
      (readResult command (reply.takeWhile (· ≠ delimiter))).map .result)
  | shifted {earlier line : Bytes} (hearlier : earlier ∈ replies.take k)
    (hnewline : delimiter ∈ earlier) (hline : (replyLines (replies.take k))[k]? = some line)
    (houtcome : outcome = (readResult command line).map .result)

theorem answeredOver_of_line {replies : List Bytes} {k : Nat} {command : String} {line : Bytes}
    (hk : k < replies.length) (hline : (replyLines (replies.take (k + 1)))[k]? = some line) :
    AnsweredOver replies k command ((readResult command line).map .result) := by
  by_cases hbefore : ∀ earlier ∈ replies.take k, delimiter ∉ earlier
  · rw [getElem?_replyLines_of_newlineFree hk hbefore] at hline
    cases hline
    exact .own (List.getElem?_eq_getElem hk) hbefore rfl
  · obtain ⟨earlier, hearlier, hnewline⟩ : ∃ earlier ∈ replies.take k, delimiter ∈ earlier := by
      simpa using hbefore
    rw [getElem?_replyLines_of_newline hk hearlier hnewline] at hline
    exact .shifted hearlier hnewline hline rfl

/-- What executing a command does over a library: the command is refused if an open merge
forbids it, and otherwise it reaches the library, which gets the reply to it back, and is
answered. -/
inductive StepOver (replies : List Bytes) (k : Nat) (p : Step Host) (command : String) : Prop
  | refused (hforbids : p.client.forbids command = true)
    (houtcome : p.outcome = .error (.usage (.mergePending command)))
    (hleft : p.left = p.client)
  | reached {handle : Int} (hallowed : p.client.forbids command = false)
    (hevents : p.left.link.engineEvents =
      p.client.link.engineEvents ++
        EngineEvent.ofCommand handle p.client.link.reached.length command)
    (hanswer : AnsweredOver replies k command p.outcome)

namespace OverLibrary

variable {replies : List Bytes} {k : Nat} {c : Client Host} {command : String}

theorem step (h : OverLibrary replies k c) (hk : k < replies.length)
    (hmem : delimiter ∉ Utf8.encode command) (hnul : 0 ∉ Utf8.encode command) :
    StepOver replies k ⟨.execute command, c⟩ command ∧
      (((Request.execute command).perform c).2 = c ∨
        OverLibrary replies (k + 1) ((Request.execute command).perform c).2 ∧
          ((Request.execute command).perform c).2.link.reached.length =
            c.link.reached.length + 1) := by
  have hperform : (Request.execute command).perform c =
      ((Client.execute command c).1.map .result, (Client.execute command c).2) := by
    rw [Request.perform, Call.map_apply]
  cases hforbids : c.forbids command with
  | true =>
    rw [Client.execute_of_refused (Client.refusal?_of_forbids h.isOpen hforbids)] at hperform
    exact ⟨.refused hforbids (congrArg Prod.fst hperform) (congrArg Prod.snd hperform),
      .inl (congrArg Prod.snd hperform)⟩
  | false =>
    have hr := Client.admitted_of_not_forbids h.isOpen hforbids
    obtain ⟨line, handle, hline, houtcome, hnext, hevents⟩ := h.exchange hk hmem hnul command
    have hchannel := Client.execute_channel hr
    rw [Client.execute_of_admitted hr] at hperform hchannel
    dsimp only at hperform hchannel
    rw [houtcome] at hperform hchannel
    have hleft := congrArg Prod.snd hperform
    dsimp only at hleft
    rw [← hleft] at hchannel
    have hsame : ((Request.execute command).perform c).2.link.engineEvents =
        c.link.engineEvents ++ EngineEvent.ofCommand handle c.link.reached.length command := by
      rw [hchannel.link, hevents]
    refine ⟨.reached hforbids hsame ?_, .inr ⟨hnext.congr hchannel, Host.reached_of_events hsame⟩⟩
    rw [Step.outcome, hperform]
    exact answeredOver_of_line hk hline

/-- Along a run the replies that have been given are counted by the commands that have
reached the library. -/
theorem steps {n : Nat} {commands : List String} (h : OverLibrary replies k c)
    (hcount : c.link.reached.length = n + k)
    (hsound : ∀ command ∈ commands, delimiter ∉ Utf8.encode command ∧ 0 ∉ Utf8.encode command)
    (henough : k + commands.length ≤ replies.length) :
    ∀ p ∈ Client.steps (commands.map .execute) c, ∃ command ∈ commands,
      p.request = .execute command ∧
        ∃ j, p.client.link.reached.length = n + j ∧ StepOver replies j p command := by
  induction commands generalizing k c with
  | nil =>
    intro p hp
    cases hp
  | cons command commands ih =>
    intro p hp
    obtain ⟨⟨hmem, hnul⟩, hrest⟩ := List.forall_mem_cons.1 hsound
    rw [List.length_cons] at henough
    obtain ⟨hstep, hnext⟩ := h.step (by omega) hmem hnul
    rcases List.mem_append.1 hp with hp | hp
    · cases List.mem_singleton.1 hp
      exact ⟨command, List.mem_cons_self, rfl, k, hcount, hstep⟩
    · have htail : ∃ other ∈ commands, p.request = .execute other ∧
          ∃ j, p.client.link.reached.length = n + j ∧ StepOver replies j p other := by
        rcases hnext with hsame | ⟨hover, hreached⟩
        · -- a refused command uses no reply up
          rw [hsame] at hp
          exact ih h hcount hrest (by omega) p hp
        · exact ih hover (by omega) hrest (by omega) p hp
      obtain ⟨other, hother, hreq, hindex⟩ := htail
      exact ⟨other, List.mem_cons_of_mem _ hother, hreq, hindex⟩

end OverLibrary

namespace Client

/-- Over a library that has a reply for every command, the command that is the `k`-th to
reach the library is answered by the `k`-th reply alone as long as no reply before that
has a newline, and by a line of the replies before it otherwise. Commands that an open
merge forbids do not reach the library. -/
theorem steps_answered_over_library {replies : List Bytes} {c : Client Host}
    (h : OverLibrary replies 0 c) {commands : List String}
    (hsound : ∀ command ∈ commands, delimiter ∉ Utf8.encode command ∧ 0 ∉ Utf8.encode command)
    (henough : commands.length ≤ replies.length) :
    Step.Chain c (steps (commands.map .execute) c) (run (commands.map .execute) c).2 ∧
      ∀ p ∈ steps (commands.map .execute) c, ∃ command ∈ commands, p.request = .execute command ∧
        ∃ k, p.client.link.reached.length = c.link.reached.length + k ∧
          StepOver replies k p command :=
  ⟨chain_steps _ c, h.steps rfl hsound (by omega)⟩

/-- A client whose target is a library with these replies, before it is connected. -/
def toLibrary (replies : List Bytes) : Client Host :=
  .new (.embedded "library" .memory) .default
    (.idle ⟨false, none, []⟩ ⟨"library", .library, [], "", [], replies.map some, []⟩)

/-- A client that has been connected to a library with these replies. -/
def overLibrary (replies : List Bytes) : Client Host :=
  (connect (toLibrary replies)).2

def soundReply : Bytes := Utf8.encode "\x7b\"success\":true\x7d"

/-- Two replies, of which the first ends with a newline of its own. -/
def shiftingReplies : List Bytes := [soundReply ++ [delimiter], soundReply]

/-- Two commands get the two lines of the first reply. -/
theorem answered_by_shifting_replies :
    let c := overLibrary shiftingReplies
    let rs := ["SELECT 1", "SELECT 2"].map .execute
    Step.Chain c (steps rs c) (run rs c).2 ∧
      ∀ p ∈ steps rs c, ∃ command ∈ ["SELECT 1", "SELECT 2"], p.request = .execute command ∧
        ∃ k, p.client.link.reached.length = c.link.reached.length + k ∧
          StepOver shiftingReplies k p command := by
  have hover : OverLibrary shiftingReplies 0 (overLibrary shiftingReplies) :=
    overLibrary_of_connect (c := toLibrary shiftingReplies) rfl rfl rfl
  exact steps_answered_over_library hover (by decide) (by decide)

/-- A command is not always answered by its own reply: the second reply is the same in both
libraries, and only one of them gives the second command a result. -/
theorem not_always_answered_by_own_reply :
    ¬∀ (replies replies' : List Bytes) (k : Nat), replies.length = 2 → replies'.length = 2 →
      replies[k]? = replies'[k]? →
        let answers replies := (run [.execute "SELECT 1", .execute "SELECT 2"]
          (overLibrary replies)).1
        (answers replies)[k]?.map Except.isOk = (answers replies')[k]?.map Except.isOk := by
  intro h
  have hsame := h shiftingReplies [soundReply, soundReply] 1 rfl rfl rfl
  revert hsame
  decide +kernel

end Client
end DbClient
