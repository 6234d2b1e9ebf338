import DbClient.Proofs.Session.Single
import DbClient.Proofs.Session.Steps
import DbClient.Proofs.Transport.Supplied

/-!
# Replies and their commands

Over a peer that answers every frame with one line, each command gets the line that
answers it. What carries this is that the session stays in step: what has been received
is the replies to the frames that have been sent, and then what is buffered.
-/

namespace DbClient

variable {τ : Type} {replies : List Bytes} {S : Nat → Bytes → τ → Prop} {k : Nat}

/-! ## In step -/

/-- An open client that has sent `k` frames and taken exactly the replies to them. What
it has buffered begins the replies to come. -/
structure InStep (replies : List Bytes) (S : Nat → Bytes → τ → Prop) (k : Nat) (c : Client τ) :
    Prop where
  isOpen : c.session.isOpen = true
  supplied : S k (replyStream (replies.take k) ++ c.session.buffer.bytes) c.link
  ahead : c.session.buffer.bytes <+: replyStream (replies.drop k)

namespace InStep

variable {c d : Client τ}

/-- Only the channel decides whether a client is in step. -/
theorem congr (h : InStep replies S k c) (hchannel : Client.SameChannel d c) :
    InStep replies S k d := by
  refine ⟨hchannel.isOpen.trans h.isOpen, ?_, ?_⟩
  · rw [hchannel.buffer, hchannel.link]
    exact h.supplied
  · rw [hchannel.buffer]
    exact h.ahead

/-- An exchange brings the reply that is due, and the client stays in step. -/
theorem exchange [Transport τ] (hs : Supplies replies S) (h : InStep replies S k c)
    (hk : k < replies.length) {text : String} (hmem : delimiter ∉ Utf8.encode text)
    (label : String) :
    (Client.exchange text label c).1 = .ok replies[k] ∧
      InStep replies S (k + 1) (Client.exchange text label c).2 := by
  obtain ⟨link, hsend, hsent⟩ := hs.send (frameOf text) h.supplied hk
  obtain ⟨left, link', hread, htaken, hleft⟩ := hs.readFrame hk label hsent h.ahead
  rw [Client.exchange_of_answered hmem h.isOpen hsend hread]
  exact ⟨rfl, h.isOpen, htaken, hleft⟩

end InStep

/-! ## Paired -/

section Paired

variable {c : Client (Recorder τ)} {r : Request} {s : SingleCall}

/-- A client that is in step for as long as there are replies to its frames. -/
def Paired (replies : List Bytes) (S : Nat → Bytes → τ → Prop) (c : Client (Recorder τ)) : Prop :=
  c.link.frames.length ≤ replies.length →
    InStep replies (Supplies.Recorded S) c.link.frames.length c

theorem Paired.congr {d : Client (Recorder τ)} (h : Paired replies S c)
    (hchannel : Client.SameChannel d c) : Paired replies S d := by
  intro hk
  rw [hchannel.link] at hk ⊢
  exact (h hk).congr hchannel

variable [Endpoint τ]

/-- What a call does, and what it answers if the replies are paired with the frames: a
call that is refused uses up no reply, and one that sends the frame with the index `k`
makes its answer of the reply with that index. -/
inductive AnsweredBy (replies : List Bytes) (r : Request) (s : SingleCall)
    (c : Client (Recorder τ)) : Prop
  | refused {e : UsageError} (he : e.refuses = true)
    (houtcome : (r.perform c).1 = .error (.usage e))
    (hchannel : Client.SameChannel (r.perform c).2 c)
  | replied {text : String} (hcommand : s.command = .ok text)
    (hframes : (r.perform c).2.link.frames = c.link.frames ++ [frameOf text])
    (houtcome : ∀ line, replies[c.link.frames.length]? = some line →
      (r.perform c).1 = s.read text line)

theorem answeredBy_of_paired (hs : Supplies replies S) (h : Paired replies S c)
    (hsingle : r.single? = some s) :
    AnsweredBy replies r s c ∧ Paired replies S (r.perform c).2 := by
  cases Request.performed hsingle c with
  | refused he hperform =>
    rw [hperform]
    exact ⟨.refused he (by rw [hperform]) (by rw [hperform]; exact .refl c), h⟩
  | @exchanged text hcommand hopen _ hchannel houtcome =>
    by_cases hmem : delimiter ∈ Utf8.encode text
    · -- the command has no frame, so the exchange has not touched the channel
      rw [Client.exchange_of_newline hmem] at hchannel houtcome
      exact ⟨.refused rfl houtcome hchannel, h.congr hchannel⟩
    · have hframes : (r.perform c).2.link.frames = c.link.frames ++ [frameOf text] := by
        rw [hchannel.link, Client.frames_exchange_of_open hopen, if_neg hmem]
      have hexchange : ∀ hk : c.link.frames.length < replies.length,
          (Client.exchange text (s.label text) c).1 = .ok replies[c.link.frames.length] ∧
            InStep replies (Supplies.Recorded S) (c.link.frames.length + 1)
              (Client.exchange text (s.label text) c).2 :=
        fun hk => (h (by omega)).exchange hs.recorded hk hmem _
      -- when the replies have run out nothing is left to prove
      refine ⟨.replied hcommand hframes ?_, ?_⟩
      · intro line hline
        obtain ⟨hk, rfl⟩ := List.getElem?_eq_some_iff.1 hline
        rw [houtcome, (hexchange hk).1]
        rfl
      · intro hk
        rw [hframes, List.length_append, List.length_singleton] at hk ⊢
        exact (hexchange (by omega)).2.congr hchannel

end Paired

/-! ## Pairing over runs -/

/-- A client that has just been opened is in step. -/
theorem inStep_of_opened {c : Client τ} (hopen : c.session.isOpen = true)
    (hempty : c.session.buffer = .empty) (ht : S 0 [] c.link) : InStep replies S 0 c := by
  refine ⟨hopen, ?_, ?_⟩
  · rw [hempty]
    exact ht
  · rw [hempty]
    exact List.nil_prefix

/-- The steps of a run issue one command each, if the run neither opens nor closes. -/
theorem single?_of_mem_steps [Endpoint τ] {c : Client τ} {rs : List Request}
    (hrs : ∀ r ∈ rs, r ≠ .connect ∧ r ≠ .close) :
    ∀ p ∈ Client.steps rs c, ∃ s, p.request.single? = some s := by
  refine Client.forall_mem_steps (Q := fun r => ∃ s, r.single? = some s) ⟨_, rfl⟩
    (fun _ _ => ⟨_, rfl⟩) fun r hr hnot => ?_
  obtain ⟨hconnect, hclose⟩ := hrs r hr
  cases r with
  | connect => exact absurd rfl hconnect
  | close => exact absurd rfl hclose
  | resolveAll resolution => exact absurd rfl (hnot resolution)
  | _ => exact ⟨_, rfl⟩

/-- Over a peer that answers, from a session that has just been opened, the steps of
every run are paired with the replies. What went before a step plays no part: neither
rejections by the server, nor lines that are no replies, nor refused commands. -/
theorem steps_paired_with_replies [Endpoint τ] (hs : Supplies replies S)
    {c : Client (Recorder τ)} (hopen : c.session.isOpen = true)
    (hempty : c.session.buffer = .empty) (hfresh : c.link.frames = []) (ht : S 0 [] c.link.inner)
    {rs : List Request} (hrs : ∀ r ∈ rs, r ≠ .connect ∧ r ≠ .close) :
    Step.Chain c (Client.steps rs c) (Client.run rs c).2 ∧
      ∀ p ∈ Client.steps rs c,
        ∃ s, p.request.single? = some s ∧ AnsweredBy replies p.request s p.client := by
  have hchain := Client.chain_steps rs c
  have hsingle := single?_of_mem_steps (c := c) hrs
  have hstart : Paired replies S c := by
    intro _
    rw [hfresh]
    exact inStep_of_opened hopen hempty ⟨by rw [hfresh]; rfl, ht⟩
  have hstep : ∀ p ∈ Client.steps rs c, Paired replies S p.client → Paired replies S p.left := by
    intro p hp h
    obtain ⟨s, hsome⟩ := hsingle p hp
    exact (answeredBy_of_paired hs h hsome).2
  obtain ⟨-, hpaired⟩ := hchain.induction hstep hstart
  refine ⟨hchain, ?_⟩
  intro p hp
  obtain ⟨s, hsome⟩ := hsingle p hp
  exact ⟨s, hsome, (answeredBy_of_paired hs (hpaired p hp) hsome).1⟩

/-- A line that is no reply, and one that is. -/
def brokenThenSound : List Bytes :=
  [Utf8.encode "\x7boops", Utf8.encode "\x7b\"success\":true\x7d"]

/-- The two lines in chunks, the second of which holds the end of one line and the
beginning of the other. -/
def brokenThenSoundChunks : List Bytes :=
  [Utf8.encode "\x7bo", Utf8.encode "ops\n\x7b\"succ", Utf8.encode "ess\":true\x7d\n"]

/-- A broken line and a command with a newline do not shift the replies. -/
theorem paired_after_broken_line :
    let c := Client.attach .default (.start (Scripted.start (brokenThenSoundChunks.map .ok) []))
    let rs := [.execute "SELECT 1", .query "SELECT\n2", .raw "SELECT 3"]
    Step.Chain c (Client.steps rs c) (Client.run rs c).2 ∧
      ∀ p ∈ Client.steps rs c,
        ∃ s, p.request.single? = some s ∧ AnsweredBy brokenThenSound p.request s p.client := by
  have hplays : Scripted.Plays brokenThenSound 0 []
      (Scripted.start (brokenThenSoundChunks.map .ok) []) :=
    ⟨rfl, brokenThenSoundChunks, rfl, by decide, by decide⟩
  exact steps_paired_with_replies (Scripted.supplies (by decide)) rfl rfl rfl hplays (by simp)

end DbClient
