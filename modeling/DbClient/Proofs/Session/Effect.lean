import DbClient.Proofs.Session.Executed
import DbClient.Proofs.Session.Steps
import DbClient.Proofs.Transport.Uses

/-!
# Effects of steps

Everything that one step can do to the channel, said once: it leaves the channel alone; it
sends one frame and takes one reply line; it does so and loses the connection; or it opens
or closes the session. Each of these is a fixed pattern of uses of the transport.
-/

namespace DbClient

open FrameBuffer (IsChannelFailure)

variable {τ : Type}

/-! ## The effect of one step -/

theorem Client.events_abandon [Transport τ] {c : Client (Recorder τ)}
    (hopen : c.session.isOpen = true) :
    c.abandon.link.events = c.link.events ++ [.closed] := by
  rw [abandon, if_pos hopen]
  rfl

namespace Step

variable [Endpoint τ]

/-- What a step does to the channel, by the uses of the transport that it makes. -/
inductive Effect (p : Step (Recorder τ)) : List ChannelEvent → Prop
  | idle (hchannel : Client.SameChannel p.left p.client)
    (houtcome : ∀ s, p.request.single? = some s →
      ∃ e, e.refuses = true ∧ p.outcome = .error (.usage e)) : Effect p []
  | answered {s : SingleCall} {text : String} {line : Bytes} {chunks : List Bytes}
    (hsingle : p.request.single? = some s) (hcommand : s.command = .ok text)
    (hopen : p.client.session.isOpen = true) (hleft : p.left.session.isOpen = true)
    (hchunks : ∀ chunk ∈ chunks, chunk ≠ [])
    (hbytes : p.client.session.buffer.bytes ++ chunks.flatten =
      line ++ delimiter :: p.left.session.buffer.bytes)
    (houtcome : p.outcome = s.read text line) :
    Effect p (.sent (frameOf text) (.ok ()) :: receipts chunks)
  | lost {s : SingleCall} {text : String} {uses : List ChannelEvent} {failure : ChannelEvent}
    {e : ClientError} (hsingle : p.request.single? = some s) (hcommand : s.command = .ok text)
    (hopen : p.client.session.isOpen = true) (hleft : p.left.session.isOpen = false)
    (huses : ∀ use ∈ uses, use.succeeds = true) (hfailure : failure.fails = true)
    (hsent : ∀ frame r, .sent frame r ∈ uses ++ [failure] → frame = frameOf text)
    (he : IsChannelFailure (s.label text) e) (houtcome : p.outcome = .error e) :
    Effect p (uses ++ [failure, .closed])
  | announced {r : Except IoError Unit} (hrequest : p.request = .close)
    (hopen : p.client.session.isOpen = true) (hleft : p.left.session.isOpen = false) :
    Effect p [.terminated r, .closed]
  | opened (hrequest : p.request = .connect) (hclosed : p.client.session.isOpen = false)
    (hleft : p.left.session.isOpen = true) (hempty : p.left.session.buffer = .empty)
    (houtcome : p.outcome = .ok .done) : Effect p [.connected (.ok ())]
  | unopened {e : ClientError} (hrequest : p.request = .connect)
    (hclosed : p.client.session.isOpen = false) (hleft : p.left.session.isOpen = false) :
    Effect p [.connected (.error e)]

variable {p : Step (Recorder τ)}

theorem effect_exchanged {s : SingleCall} {text : String} (hsingle : p.request.single? = some s)
    (hcommand : s.command = .ok text) (hopen : p.client.session.isOpen = true)
    (hchannel : Client.SameChannel p.left (Client.exchange text (s.label text) p.client).2)
    (houtcome : p.outcome =
      (Client.exchange text (s.label text) p.client).1.bind (s.read text)) :
    ∃ events, p.left.link.events = p.client.link.events ++ events ∧ Effect p events := by
  have hcases := Client.exchange_exchanged text (s.label text) p.client
  generalize Client.exchange text (s.label text) p.client = reply at hcases hchannel houtcome
  cases hcases with
  | newline =>
    refine ⟨[], by rw [hchannel.link, List.append_nil], .idle hchannel ?_⟩
    intro _ _
    exact ⟨_, rfl, houtcome⟩
  | closed _ hclosed =>
    rw [hopen] at hclosed
    cases hclosed
  | @unsent io link _ _ hsend =>
    refine ⟨[] ++ [.sent (frameOf text) (.error io), .closed], ?_,
      .lost hsingle hcommand hopen hchannel.isOpen (by simp) rfl (by simp) (.transport io) houtcome⟩
    rw [hchannel.link, Client.events_abandon (c := { p.client with link := link }) hopen,
      Recorder.events_of_send hsend]
    simp
  | @lost e link link' buffer _ _ hsend hread =>
    have hfailure := FrameBuffer.isChannelFailure_readFrame hread
    have hframe := FrameBuffer.readFrame_frameRead (s.label text) p.client.session.buffer link
    rw [hread] at hframe
    cases hframe with
    | @cut chunks last _ _ _ hchunks hlast hevents =>
      refine ⟨(.sent (frameOf text) (.ok ()) :: receipts chunks) ++ [.received last, .closed], ?_,
        .lost hsingle hcommand hopen hchannel.isOpen ?_ hlast ?_ hfailure houtcome⟩
      · have habandon := Client.events_abandon
          (c := ⟨{ p.client.session with buffer := buffer }, link'⟩) hopen
        rw [hchannel.link, habandon, hevents, Recorder.events_of_send hsend]
        simp
      · exact List.forall_mem_cons.2 ⟨rfl, succeeds_receipts hchunks⟩
      · intro frame r hmem
        have hsame : frame = frameOf text ∧ r = .ok () := by
          simpa [sent_notMem_receipts] using hmem
        exact hsame.1
  | @answered line link link' buffer _ _ hsend hread =>
    have hframe := FrameBuffer.readFrame_frameRead (s.label text) p.client.session.buffer link
    rw [hread] at hframe
    cases hframe with
    | @complete chunks _ _ _ hchunks hevents hbytes =>
      refine ⟨.sent (frameOf text) (.ok ()) :: receipts chunks, ?_,
        .answered hsingle hcommand hopen (hchannel.isOpen.trans hopen) hchunks ?_ houtcome⟩
      · rw [hchannel.link, hevents, Recorder.events_of_send hsend, List.append_assoc]
        rfl
      · rw [hchannel.buffer]
        exact hbytes

theorem effect_single {s : SingleCall} (hsingle : p.request.single? = some s) :
    ∃ events, p.left.link.events = p.client.link.events ++ events ∧ Effect p events := by
  cases Request.performed hsingle p.client with
  | @refused e he hperform =>
    have hleft : p.left = p.client := congrArg Prod.snd hperform
    refine ⟨[], by rw [hleft, List.append_nil], .idle (by rw [hleft]; exact .refl _) ?_⟩
    intro _ _
    exact ⟨e, he, congrArg Prod.fst hperform⟩
  | exchanged hcommand hopen _ hchannel houtcome =>
    exact effect_exchanged hsingle hcommand hopen hchannel houtcome

theorem effect_connect (h : p.request = .connect) :
    ∃ events, p.left.link.events = p.client.link.events ++ events ∧ Effect p events := by
  have hsingle : ∀ s, p.request.single? ≠ some s := by simp [h, Request.single?, Request.typed?]
  have hcall : p.request.perform p.client =
      ((Client.connect p.client).1.map fun _ => .done, (Client.connect p.client).2) := by
    rw [h, Request.perform_connect]
  have hcases := Client.connect_opening p.client
  generalize Client.connect p.client = reply at hcall hcases
  cases hcases with
  | already =>
    have hleft : p.left = p.client := congrArg Prod.snd hcall
    refine ⟨[], by rw [hleft, List.append_nil], .idle (by rw [hleft]; exact .refl _) ?_⟩
    intro s hs
    exact absurd hs (hsingle s)
  | @failed e link hclosed hconnect =>
    have hleft : p.left = { p.client with link := link } := congrArg Prod.snd hcall
    refine ⟨_, ?_, .unopened (e := e) h hclosed (by rw [hleft]; exact hclosed)⟩
    rw [hleft]
    exact Recorder.events_of_connect hconnect
  | @opened link hclosed hconnect =>
    have hleft : p.left = ⟨{ p.client.session.reset with isOpen := true }, link⟩ :=
      congrArg Prod.snd hcall
    refine ⟨_, ?_, .opened h hclosed (by rw [hleft]) (by rw [hleft]; rfl)
      (congrArg Prod.fst hcall)⟩
    rw [hleft]
    exact Recorder.events_of_connect hconnect

theorem effect_close (h : p.request = .close) :
    ∃ events, p.left.link.events = p.client.link.events ++ events ∧ Effect p events := by
  have hleft : p.left = p.client.close := by
    rw [left, h]
    rfl
  cases hopen : p.client.session.isOpen with
  | false =>
    have hsame : p.left = p.client := by
      rw [hleft, Client.close, if_neg (by simp [hopen])]
    refine ⟨[], by rw [hsame, List.append_nil], .idle (by rw [hsame]; exact .refl _) ?_⟩
    intro s hs
    rw [h] at hs
    cases hs
  | true =>
    rw [Client.close, if_pos hopen] at hleft
    refine ⟨[.terminated (Transport.terminate p.client.link).1, .closed], ?_,
      .announced h hopen (by rw [hleft])⟩
    rw [hleft]
    exact List.append_assoc _ _ _

/-- Every step has one of these effects. -/
theorem effect (h : ∀ resolution, p.request ≠ .resolveAll resolution) :
    ∃ events, p.left.link.events = p.client.link.events ++ events ∧ Effect p events := by
  cases hsingle : p.request.single? with
  | some s => exact effect_single hsingle
  | none =>
    cases hr : p.request with
    | connect => exact effect_connect hr
    | close => exact effect_close hr
    | resolveAll resolution => exact absurd hr (h resolution)
    | _ =>
      rw [hr] at hsingle
      cases hsingle

end Step
end DbClient
