import DbClient.Proofs.Session.LibraryReplies
import DbClient.Proofs.Session.Pairing
import DbClient.Proofs.Session.Refusal
import DbClient.Proofs.Session.Simulation

/-!
# A library as a peer

A session cannot tell an embedded library from a peer that sends the same replies over a
byte channel. The library's transport keeps whole replies and hands over all of them at
once; the peer's stream comes in chunks that are cut anywhere. Both sessions have read as
many lines as commands have been answered, and so they read the same line next.
-/

namespace DbClient

open Client (SameChannel)

variable {σ : Type} {replies : List Bytes} {S : Nat → Bytes → σ → Prop}

/-! ## Sessions just opened -/

/-- A client whose session has just been opened. -/
structure Client.Fresh {τ : Type} (c : Client τ) : Prop where
  isOpen : c.session.isOpen = true
  buffer : c.session.buffer = .empty
  merge : c.session.merge = .clean

theorem Client.fresh_of_connect {τ : Type} [Endpoint τ] {c c' : Client τ}
    (h : Client.connect c = (.ok (), c')) : c'.Fresh := by
  have hcases := Client.connect_opening c
  rw [h] at hcases
  cases hcases with
  | opened => exact ⟨rfl, rfl, rfl⟩

theorem Client.fresh_attach {τ : Type} (options : ClientOptions) (link : τ) :
    (Client.attach options link).Fresh :=
  ⟨rfl, rfl, rfl⟩

/-! ## Lines of the replies -/

/-- The lines of the replies make up the stream of the replies. -/
theorem replyStream_replyLines (replies : List Bytes) :
    replyStream (replyLines replies) = replyStream replies := by
  induction replies with
  | nil => rfl
  | cons reply replies ih =>
    rw [replyLines_cons, replyStream_append, replyStream_splitOn, ih, replyStream_cons]
    simp

/-- A script plays the stream of the replies, cut into chunks in whatever way. -/
theorem Scripted.plays_replies {replies chunks : List Bytes} (hne : ∀ chunk ∈ chunks, chunk ≠ [])
    (hstream : chunks.flatten = replyStream replies) :
    Scripted.Plays (replyLines replies) 0 [] (.start (chunks.map .ok) []) := by
  refine ⟨rfl, chunks, rfl, hne, ?_⟩
  rw [replyStream_replyLines]
  exact hstream

/-- Later replies do not change the lines of the earlier ones. -/
theorem getElem?_replyLines_of_take {k n : Nat} {line : Bytes}
    (h : (replyLines (replies.take n))[k]? = some line) : (replyLines replies)[k]? = some line := by
  obtain ⟨hk, -⟩ := List.getElem?_eq_some_iff.1 h
  have hlines : replyLines replies = replyLines (replies.take n) ++ replyLines (replies.drop n) := by
    rw [replyLines, replyLines, replyLines, ← List.flatMap_append, List.take_append_drop]
  rw [hlines, List.getElem?_append_left hk, h]

/-! ## Commands without replies -/

/-- What sending fails with when the library has no reply. -/
def nullReply : IoError :=
  ⟨.invalidData, "commitdb_execute returned a null reply"⟩

/-- A command also reaches a library that has no reply left. -/
theorem Embedded.send_of_no_reply {t : Embedded} {command : Bytes} (hopen : t.isOpen = true)
    (hnul : 0 ∉ command) (hreplies : t.engine.replies = []) :
    t.send (command ++ [delimiter]) =
      (.error nullReply, { t with
        engine := { t.engine.note (.execute t.handle command) with replies := [] } }) := by
  simp [Embedded.send, commandOf_frame, hnul, hopen, Engine.execute, hreplies, nullReply]

namespace OverLibrary

variable {k : Nat} {c : Client Host} {text label : String}

theorem reached_of_no_reply (h : OverLibrary replies k c) (hk : replies.length ≤ k)
    (hmem : delimiter ∉ Utf8.encode text) (hnul : 0 ∉ Utf8.encode text) :
    (Client.exchange text label c).2.link.reached.length = c.link.reached.length + 1 := by
  obtain ⟨t, network, hlink, hopen, hreplies, -⟩ := h.link
  rw [List.drop_eq_nil_of_le hk, List.map_nil] at hreplies
  let unreplied : Embedded := { t with
    engine := { t.engine.note (.execute t.handle (Utf8.encode text)) with replies := [] } }
  have hsend : Transport.send (frameOf text) c.link =
      (.error nullReply, Host.embedded unreplied network) := by
    rw [hlink]
    show Host.send _ _ = _
    rw [Host.send, frameOf, Embedded.send_of_no_reply hopen hnul hreplies]
  rw [Client.exchange_of_unsent hmem h.isOpen hsend, Client.abandon, if_pos h.isOpen, hlink]
  show (Host.close (.embedded unreplied network)).reached.length = _
  simp [Host.reached, Host.engineEvents, Host.close, Host.release, Embedded.close, unreplied, hopen,
    Engine.close, Engine.note, EngineEvent.command?]

/-- When no more commands reach a library than it has replies, there is one for a command
that reaches it. -/
theorem lt_of_reached (h : OverLibrary replies k c) {n : Nat}
    (hcount : c.link.reached.length = n + k) (hmem : delimiter ∉ Utf8.encode text)
    (hnul : 0 ∉ Utf8.encode text)
    (hreached : (Client.exchange text label c).2.link.reached.length ≤ n + replies.length) :
    k < replies.length := by
  rcases Nat.lt_or_ge k replies.length with hk | hk
  · exact hk
  · rw [h.reached_of_no_reply hk hmem hnul] at hreached
    omega

end OverLibrary

/-! ## Twins -/

/-- A client over a library and a client over a peer with the same lines: both have read
the first `k` lines, or both are closed. From the start, at which `n` commands had reached
the library, it has been reached by `k` more. -/
inductive Twins (replies : List Bytes) (S : Nat → Bytes → σ → Prop) (n : Nat) (c : Client Host)
    (d : Client σ) : Prop
  | talking {k : Nat} (hlibrary : OverLibrary replies k c)
    (hpeer : InStep (replyLines replies) S k d) (hcount : c.link.reached.length = n + k)
    (hmerge : c.session.merge = d.session.merge)
  | closed (hc : c.session.isOpen = false) (hd : d.session.isOpen = false)
    (hmerge : c.session.merge = d.session.merge)

/-- A command without NUL for which the library has a reply, if it reaches the library. -/
structure RepliedTo (replies : List Bytes) (n : Nat) (text label : String) (c : Client Host) :
    Prop where
  nulFree : 0 ∉ Utf8.encode text
  reached : (Client.exchange text label c).2.link.reached.length ≤ n + replies.length

namespace Twins

variable {n : Nat} {c c' : Client Host} {d d' : Client σ}

theorem alike (h : Twins replies S n c d) : c.Alike d := by
  cases h with
  | talking hlibrary hpeer _ hmerge => exact ⟨hlibrary.isOpen.trans hpeer.isOpen.symm, hmerge⟩
  | closed hc hd hmerge => exact ⟨hc.trans hd.symm, hmerge⟩

theorem congr (h : Twins replies S n c d) (hc : SameChannel c' c) (hd : SameChannel d' d)
    (hmerge : c'.session.merge = d'.session.merge) : Twins replies S n c' d' := by
  cases h with
  | talking hlibrary hpeer hcount =>
    exact .talking (hlibrary.congr hc) (hpeer.congr hd) (by rw [hc.link, hcount]) hmerge
  | closed hclosed hclosed' =>
    exact .closed (hc.isOpen.trans hclosed) (hd.isOpen.trans hclosed') hmerge

variable [Transport σ] {text label : String}

/-- Both sides read the line with the same index. -/
theorem exchange (hs : Supplies (replyLines replies) S) (h : Twins replies S n c d)
    (hopen : c.session.isOpen = true) (hreplied : RepliedTo replies n text label c) :
    (Client.exchange text label c).1 = (Client.exchange text label d).1 ∧
      Twins replies S n (Client.exchange text label c).2 (Client.exchange text label d).2 := by
  cases h with
  | closed hclosed =>
    rw [hopen] at hclosed
    cases hclosed
  | @talking k hlibrary hpeer hcount hmerge =>
    by_cases hmem : delimiter ∈ Utf8.encode text
    · rw [Client.exchange_of_newline hmem, Client.exchange_of_newline hmem]
      exact ⟨rfl, .talking hlibrary hpeer hcount hmerge⟩
    · have hk := hlibrary.lt_of_reached hcount hmem hreplied.nulFree hreplied.reached
      obtain ⟨line, handle, hline, houtcome, hnext, hevents⟩ :=
        hlibrary.exchange hk hmem hreplied.nulFree label
      obtain ⟨hk', hsame⟩ := List.getElem?_eq_some_iff.1 (getElem?_replyLines_of_take hline)
      obtain ⟨houtcome', hnext'⟩ := hpeer.exchange hs hk' hmem label
      rw [hsame] at houtcome'
      refine ⟨houtcome.trans houtcome'.symm, .talking hnext hnext' ?_ ?_⟩
      · rw [Host.reached_of_events hevents, hcount, Nat.add_assoc]
      · rw [Client.merge_exchange_ok houtcome, Client.merge_exchange_ok houtcome', hmerge]

theorem close (h : Twins replies S n c d) (hopen : c.session.isOpen = true) :
    Twins replies S n c.close d.close := by
  have hopen' : d.session.isOpen = true := h.alike.isOpen ▸ hopen
  rw [Client.close, if_pos hopen, Client.close, if_pos hopen']
  exact .closed rfl rfl rfl

/-- A library and a peer with the same lines simulate each other. -/
theorem simulation (hs : Supplies (replyLines replies) S) (n : Nat) :
    Simulation (Twins replies S n) (RepliedTo replies n) where
  alike := alike
  congr := congr
  exchange := exchange hs
  close := close

end Twins

/-! ## Runs -/

namespace Client

variable [Endpoint σ]

/-- Over a library with these replies, and over a peer whose stream is the same replies,
in chunks that are cut anywhere, every run of two sessions just opened has the same answers,
and after each call the same open status and merge state. The run may close the sessions but
does not open them again; its commands have no NUL; and no more of them reach the library
than it has replies. -/
theorem library_indistinguishable_from_peer (hs : Supplies (replyLines replies) S)
    {c : Client Host} {d : Client σ} (hlibrary : OverLibrary replies 0 c) (hc : c.Fresh)
    (hpeer : S 0 [] d.link) (hd : d.Fresh) {rs : List Request}
    (hreopen : ∀ p ∈ steps rs c, p.request = .connect → p.client.session.isOpen = true)
    (hnul : ∀ p ∈ steps rs c, ∀ s text, p.request.single? = some s → s.command = .ok text →
      0 ∉ Utf8.encode text)
    (henough : ∀ p ∈ steps rs c,
      p.left.link.reached.length ≤ c.link.reached.length + replies.length) :
    (run rs c).1 = (run rs d).1 ∧
      ∀ n, (run (rs.take n) c).2.Alike (run (rs.take n) d).2 := by
  have htwins : Twins replies S c.link.reached.length c d :=
    .talking hlibrary (inStep_of_opened hd.isOpen hd.buffer hpeer) rfl
      (hc.merge.trans hd.merge.symm)
  have hcovers : ∀ p ∈ steps rs c,
      Simulation.Covers (RepliedTo replies c.link.reached.length) p := by
    intro p hp
    refine ⟨hreopen p hp, fun s text hsingle hcommand hr => ⟨hnul p hp s text hsingle hcommand, ?_⟩⟩
    have hleft := henough p hp
    rw [Step.left, Request.perform_of_admitted hsingle hcommand hr] at hleft
    exact hleft
  have hsim := Twins.simulation hs c.link.reached.length
  exact ⟨(hsim.run htwins hcovers).1, hsim.alike_run htwins hcovers⟩

/-- The stream of two replies of which the first ends with a newline of its own, in chunks
that end in the middle of a line. -/
def shiftingChunks : List Bytes :=
  [Utf8.encode "\x7b\"succ", Utf8.encode "ess\":true\x7d\n\n\x7b\"success\"",
    Utf8.encode ":true\x7d\n"]

/-- The empty line answers the second command on both sides, and what comes after the
sessions have been closed is refused on both sides. -/
theorem indistinguishable_with_shifting_replies :
    let c := overLibrary shiftingReplies
    let d := attach .default (Scripted.start (shiftingChunks.map .ok) [])
    let rs : List Request := [.execute "SELECT 1", .raw "SELECT 2", .close, .query "SELECT 3"]
    (run rs c).1 = (run rs d).1 ∧
      ∀ n, (run (rs.take n) c).2.Alike (run (rs.take n) d).2 := by
  intro c d rs
  have hlibrary : OverLibrary shiftingReplies 0 c :=
    overLibrary_of_connect (c := toLibrary shiftingReplies) rfl rfl rfl
  have hfresh : c.Fresh := fresh_of_connect (c := toLibrary shiftingReplies) rfl
  have hplays : Scripted.Plays (replyLines shiftingReplies) 0 [] d.link :=
    Scripted.plays_replies (by decide) (by decide)
  have hsupplies : Supplies (replyLines shiftingReplies) (Scripted.Plays _) :=
    Scripted.supplies fun _ hline => delimiter_notMem_of_mem_replyLines hline
  have hnul : ∀ p ∈ steps rs c, ∀ s text, p.request.single? = some s → s.command = .ok text →
      0 ∉ Utf8.encode text := by
    intro p hp
    simp only [rs, steps, Request.steps, List.singleton_append, List.mem_cons, List.not_mem_nil,
      or_false] at hp
    rcases hp with rfl | rfl | rfl | rfl <;> rintro s text ⟨⟩ ⟨⟩ <;> decide
  exact library_indistinguishable_from_peer hsupplies hlibrary hfresh hplays (fresh_attach _ _)
    (by decide +kernel) hnul (by decide +kernel)

end Client
end DbClient
