import DbClient.Proofs.Transport.ReadFrame
import DbClient.Transport.Scripted

/-!
# Transports that do not read what they carry

A transport may answer without regard to the frames that it is handed: whether they can be
written, what comes and when it fails is the same for all of them. Two such transports that
are handed different frames cannot be told apart by what they answer.
-/

namespace DbClient

variable {τ : Type}

/-- A relation between states of a transport that answer alike and go on to do so, whatever
frames they are handed. -/
structure Oblivious [Transport τ] (E : τ → τ → Prop) : Prop where
  send : ∀ {t u} (frame frame' : Bytes), E t u → ∃ r t' u',
    Transport.send frame t = (r, t') ∧ Transport.send frame' u = (r, u') ∧ E t' u'
  receive : ∀ {t u}, E t u → ∃ r t' u',
    Transport.receive t = (r, t') ∧ Transport.receive u = (r, u') ∧ E t' u'

/-- The same chunks make the same frame. -/
theorem Oblivious.readFrame [Transport τ] {E : τ → τ → Prop} (hE : Oblivious E) {t u : τ}
    (h : E t u) (label : String) (b : FrameBuffer) : ∃ r left t' u',
      b.readFrame label t = (r, left, t') ∧ b.readFrame label u = (r, left, u') ∧ E t' u' := by
  -- as long as `t` is waited on, as much is buffered from `u`
  suffices ∃ u', b.readFrame label u =
      ((b.readFrame label t).1, (b.readFrame label t).2.1, u') ∧ E (b.readFrame label t).2.2 u' by
    obtain ⟨u', hread, hleft⟩ := this
    exact ⟨_, _, _, u', rfl, hread, hleft⟩
  refine FrameBuffer.readFrame_induction
    (P := fun b' t' => ∃ u', E t' u' ∧ b.readFrame label u = b'.readFrame label u')
    (Q := fun out => ∃ u', b.readFrame label u = (out.1, out.2.1, u') ∧ E out.2.2 u')
    ?_ ?_ ?_ ?_ ⟨u, h, rfl⟩
  · rintro b' t' frame left ⟨u', hsame, hread⟩ hnext
    exact ⟨u', hread.trans (FrameBuffer.readFrame_of_next hnext), hsame⟩
  · rintro b' t' t'' ⟨u', hsame, hread⟩ hnext hr
    obtain ⟨r, _, u'', hr', hr'', hleft⟩ := hE.receive hsame
    cases hr'.symm.trans hr
    exact ⟨u'', hread.trans (FrameBuffer.readFrame_of_end hnext hr''), hleft⟩
  · rintro b' t' t'' e ⟨u', hsame, hread⟩ hnext hr
    obtain ⟨r, _, u'', hr', hr'', hleft⟩ := hE.receive hsame
    cases hr'.symm.trans hr
    exact ⟨u'', hread.trans (FrameBuffer.readFrame_of_failure hnext hr''), hleft⟩
  · rintro b' t' t'' chunk ⟨u', hsame, hread⟩ hnext hr hne
    obtain ⟨r, _, u'', hr', hr'', hleft⟩ := hE.receive hsame
    cases hr'.symm.trans hr
    exact ⟨u'', hleft, hread.trans (FrameBuffer.readFrame_of_chunk hnext hr'' hne)⟩

/-! ## Records without frames -/

/-- A use of a transport as it is seen by someone who does not see the frame. -/
def ChannelEvent.blinded : ChannelEvent → ChannelEvent
  | sent _ result => .sent [] result
  | e => e

/-- Two recorded transports that answer alike, with records that differ in nothing but the
frames. -/
structure Recorder.Blind (E : τ → τ → Prop) (t u : Recorder τ) : Prop where
  inner : E t.inner u.inner
  events : t.events.map ChannelEvent.blinded = u.events.map ChannelEvent.blinded

/-- One more use of both, with the same answer. -/
theorem Recorder.Blind.note {E : τ → τ → Prop} {t u : Recorder τ} (h : Blind E t u) {t' u' : τ}
    (hinner : E t' u') {use use' : ChannelEvent} (huse : use.blinded = use'.blinded) :
    Blind E (t.note t' use) (u.note u' use') := by
  refine ⟨hinner, ?_⟩
  simp only [Recorder.note, List.map_append, List.map_cons, List.map_nil, h.events, huse]

/-- Recording does not change how a transport answers. -/
theorem Oblivious.recorder [Transport τ] {E : τ → τ → Prop} (hE : Oblivious E) :
    Oblivious (Recorder.Blind E) where
  send {t u} frame frame' h := by
    obtain ⟨r, t', u', ht, hu, hleft⟩ := hE.send frame frame' h.inner
    have hblind : (ChannelEvent.sent frame r).blinded = (ChannelEvent.sent frame' r).blinded := rfl
    refine ⟨r, t.note t' (.sent frame r), u.note u' (.sent frame' r), ?_, ?_, h.note hleft hblind⟩
    · simp only [Transport.send, Recorder.send, ht]
    · simp only [Transport.send, Recorder.send, hu]
  receive {t u} h := by
    obtain ⟨r, t', u', ht, hu, hleft⟩ := hE.receive h.inner
    refine ⟨r, t.note t' (.received r), u.note u' (.received r), ?_, ?_, h.note hleft rfl⟩
    · simp only [Transport.receive, Recorder.receive, ht]
    · simp only [Transport.receive, Recorder.receive, hu]

/-! ## Scripts -/

/-- Two scripts with the same rest. -/
structure Scripted.SameScript (t u : Scripted) : Prop where
  receipts : t.receipts = u.receipts
  failing : t.failing = u.failing
  sends : t.sends = u.sends

/-- A script goes on as it is written, whatever is sent. -/
theorem Scripted.oblivious : Oblivious Scripted.SameScript where
  send {t u} frame frame' h := by
    by_cases hfails : t.sends ∈ t.failing
    · have hfails' : u.sends ∈ u.failing := h.sends ▸ h.failing ▸ hfails
      refine ⟨_, _, _, if_pos hfails, if_pos hfails', h.receipts, h.failing, ?_⟩
      exact congrArg (· + 1) h.sends
    · have hfails' : u.sends ∉ u.failing := h.sends ▸ h.failing ▸ hfails
      refine ⟨_, _, _, if_neg hfails, if_neg hfails', h.receipts, h.failing, ?_⟩
      exact congrArg (· + 1) h.sends
  receive {t u} h := by
    cases hrest : t.receipts with
    | nil =>
      refine ⟨.ok [], t, u, ?_, ?_, h⟩
      · simp only [Transport.receive, Scripted.receive, hrest]
      · simp only [Transport.receive, Scripted.receive, ← h.receipts, hrest]
    | cons r rest =>
      refine ⟨r, { t with receipts := rest }, { u with receipts := rest }, ?_, ?_, rfl,
        h.failing, h.sends⟩
      · simp only [Transport.receive, Scripted.receive, hrest]
      · simp only [Transport.receive, Scripted.receive, ← h.receipts, hrest]

end DbClient
