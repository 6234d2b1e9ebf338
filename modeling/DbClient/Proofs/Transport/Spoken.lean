import DbClient.Proofs.Transport.Supplied
import DbClient.Transport.Host

/-!
# Streams and the ways of cutting them

What the other end of a channel says is one stream of bytes, which comes in chunks that are cut
anywhere. Reading a frame takes the first line that has not been read, wherever the cuts are,
and fails as the stream ends when there is no such line.
-/

namespace DbClient

/-- The other end of a channel, by what it has said: the whole stream so far, and what comes
when all of that has been received. It may answer what it hears. -/
structure Speaker (γ : Type) where
  said : γ → Bytes
  /-- The failure that comes after the stream. Without one the stream is at its end. -/
  failure? : γ → Option IoError
  hear : Bytes → γ → γ

namespace Speaker

/-- A speaker that has said everything from the start, and answers nothing. -/
def fixed (stream : Bytes) (failure? : Option IoError) : Speaker Unit :=
  ⟨fun _ => stream, fun _ => failure?, fun _ => id⟩

variable {γ : Type} (p : Speaker γ) (g : γ)

/-- What is received after the stream. -/
def ending : Except IoError Bytes :=
  match p.failure? g with
  | none => .ok []
  | some e => .error e

/-- How a wait for a frame ends that has received the whole stream. -/
def cutoff (label : String) : ClientError :=
  match p.failure? g with
  | none => .connectionClosed label
  | some e => .transport label e

variable {p g}

theorem cutoff_of_ending_ok {chunk : Bytes} (h : .ok chunk = p.ending g) (label : String) :
    chunk = [] ∧ p.cutoff g label = .connectionClosed label := by
  rw [ending] at h
  rw [cutoff]
  cases hfailure : p.failure? g <;> rw [hfailure] at h <;> cases h
  exact ⟨rfl, rfl⟩

theorem cutoff_of_ending_error {e : IoError} (h : .error e = p.ending g) (label : String) :
    p.cutoff g label = .transport label e := by
  rw [ending] at h
  rw [cutoff]
  cases hfailure : p.failure? g <;> rw [hfailure] at h <;> cases h
  rfl

end Speaker

/-- What is known of a transport that carries what a speaker says: when the speaker is in the
state `g` and the bytes `taken` of the stream have been received, its state `t` has
`S g taken t`. Sending goes well. What is received is a chunk of what has been said, of any
length but not empty, or the end when nothing is left. -/
structure Carries {γ τ : Type} [Transport τ] (p : Speaker γ) (S : γ → Bytes → τ → Prop) : Prop where
  taken : ∀ {g taken t}, S g taken t → taken <+: p.said g
  send : ∀ {g taken t} (frame : Bytes), S g taken t →
    ∃ t', Transport.send frame t = (.ok (), t') ∧ S (p.hear frame g) taken t'
  receive : ∀ {g taken t r t'}, S g taken t → Transport.receive t = (r, t') →
    (∃ chunk, r = .ok chunk ∧ chunk ≠ [] ∧ S g (taken ++ chunk) t') ∨
      taken = p.said g ∧ r = p.ending g

namespace Carries

variable {γ τ : Type} [Transport τ] {p : Speaker γ} {S : γ → Bytes → τ → Prop} {g : γ}
  {read rest : Bytes}

/-- What reading a frame can do when the bytes `read` of the stream have been read as lines and
`rest` is the rest of what has been said: it takes the first line of the rest, or there is none. -/
inductive Taken (p : Speaker γ) (S : γ → Bytes → τ → Prop) (g : γ) (read rest : Bytes)
    (label : String) : Except ClientError Bytes × FrameBuffer × τ → Prop
  | line {line later : Bytes} {left : FrameBuffer} {t : τ}
    (hrest : rest = line ++ delimiter :: later) (hline : delimiter ∉ line)
    (ht : S g (read ++ (line ++ [delimiter]) ++ left.bytes) t) :
    Taken p S g read rest label (.ok line, left, t)
  | cut {left : FrameBuffer} {t : τ} (hrest : delimiter ∉ rest) :
    Taken p S g read rest label (.error (p.cutoff g label), left, t)

theorem readFrame_taken (hs : Carries p S) (hsaid : p.said g = read ++ rest) (label : String)
    {b : FrameBuffer} {t : τ} (ht : S g (read ++ b.bytes) t) :
    Taken p S g read rest label (b.readFrame label t) := by
  -- when everything has been received and no line is in the buffer, none is in the rest
  have exhausted : ∀ {b : FrameBuffer}, read ++ b.bytes = p.said g → b.next? = none →
      delimiter ∉ rest := by
    intro b hall hnext
    rw [← List.append_cancel_left (hall.trans hsaid)]
    exact FrameBuffer.next?_eq_none_iff.1 hnext
  refine FrameBuffer.readFrame_induction (P := fun b t => S g (read ++ b.bytes) t)
    (Q := Taken p S g read rest label) ?_ ?_ ?_ ?_ ht
  · intro b t frame left ht hnext
    obtain ⟨hbytes, hframe⟩ := FrameBuffer.next?_eq_some_iff.1 hnext
    -- what is buffered begins the rest of the stream
    have hahead := hs.taken ht
    rw [hsaid, List.prefix_append_right_inj, hbytes] at hahead
    obtain ⟨more, hmore⟩ := hahead
    rw [List.append_assoc, List.cons_append] at hmore
    refine .line hmore.symm hframe ?_
    rw [hbytes] at ht
    simpa using ht
  · intro b t t' ht hnext hr
    rcases hs.receive ht hr with ⟨chunk, hchunk, hne, -⟩ | ⟨hall, hend⟩
    · exact absurd (Except.ok.inj hchunk).symm hne
    · rw [← (Speaker.cutoff_of_ending_ok hend label).2]
      exact .cut (exhausted hall hnext)
  · intro b t t' e ht hnext hr
    rcases hs.receive ht hr with ⟨chunk, hchunk, -⟩ | ⟨hall, hend⟩
    · cases hchunk
    · rw [← Speaker.cutoff_of_ending_error hend label]
      exact .cut (exhausted hall hnext)
  · intro b t t' bytes ht _ hr hne
    rcases hs.receive ht hr with ⟨chunk, hchunk, -, hnext⟩ | ⟨-, hend⟩
    · cases hchunk
      rwa [List.append_assoc] at hnext
    · exact absurd (Speaker.cutoff_of_ending_ok hend label).1 hne

end Carries

/-! ## Scripts -/

/-- A script with the rest of a stream in its receipts, cut into chunks in some way, and then
the failure, if one comes after the stream. -/
def Scripted.Holds (stream : Bytes) (failure? : Option IoError) (_ : Unit) (taken : Bytes)
    (t : Scripted) : Prop :=
  t.failing = [] ∧ ∃ chunks : List Bytes, (∀ chunk ∈ chunks, chunk ≠ []) ∧
    t.receipts = chunks.map .ok ++ (failure?.map Except.error).toList ∧
    taken ++ chunks.flatten = stream

/-- A script that has just been started holds a stream in whatever chunks. -/
theorem Scripted.holds_start {chunks : List Bytes} (hne : ∀ chunk ∈ chunks, chunk ≠ [])
    {stream : Bytes} (hstream : chunks.flatten = stream) (failure? : Option IoError) :
    Scripted.Holds stream failure? () []
      (.start (chunks.map .ok ++ (failure?.map Except.error).toList) []) :=
  ⟨rfl, chunks, hne, rfl, hstream⟩

theorem Scripted.carries (stream : Bytes) (failure? : Option IoError) :
    Carries (.fixed stream failure?) (Scripted.Holds stream failure?) where
  taken := by
    rintro g taken t ⟨-, chunks, -, -, hstream⟩
    exact ⟨chunks.flatten, hstream⟩
  send := by
    rintro g taken t frame ⟨hfailing, hholds⟩
    refine ⟨{ t with sends := t.sends + 1, events := t.events ++ [.sent frame] }, ?_, hfailing,
      hholds⟩
    simp [Transport.send, Scripted.send, hfailing]
  receive := by
    rintro g taken t r t' ⟨hfailing, chunks, hne, hreceipts, hstream⟩ hr
    have hreceive : Scripted.receive t = (r, t') := hr
    rw [Scripted.receive, hreceipts] at hreceive
    cases chunks with
    | nil =>
      rw [List.flatten_nil, List.append_nil] at hstream
      refine .inr ⟨hstream, ?_⟩
      cases failure? <;> cases hreceive <;> rfl
    | cons chunk chunks =>
      obtain ⟨hchunk, hchunks⟩ := List.forall_mem_cons.1 hne
      rw [List.flatten_cons, ← List.append_assoc] at hstream
      cases hreceive
      exact .inl ⟨chunk, rfl, hchunk, hfailing, chunks, hchunks, rfl, hstream⟩

/-! ## Network connections -/

namespace Connection

/-- A peer that is connected, as a speaker: it answers the lines that it hears, and once it has
ended its side the stream is at its end. Until then a wait for more fails when its time is up. -/
def speaker : Speaker Connection where
  said c := c.inFlight
  failure? c := if c.ended then none else some Remote.timeUp
  hear := hear

/-- The connection when `unread` is what the client has not read. -/
def withUnread (unread : Bytes) (c : Connection) : Connection :=
  { c with inFlight := unread }

/-- A step of a peer that puts the same bytes behind what the client has not read, however
much that is, and otherwise takes no notice of it. -/
def Appends (step : Connection → Connection) (c : Connection) : Prop :=
  ∃ more, (step c).inFlight = c.inFlight ++ more ∧
    ∀ unread, step (c.withUnread unread) = (step c).withUnread (unread ++ more)

theorem appends_answer (line : Bytes) (c : Connection) : Appends (answer line) c := by
  by_cases hended : c.ended = true
  · exact ⟨[], by simp [answer, hended], by simp [answer, withUnread, hended]⟩
  by_cases hquit : line = quitFrame
  · exact ⟨[], by simp [answer, hended, hquit], by simp [answer, withUnread, hended, hquit]⟩
  rcases hreplies : c.replies with _ | ⟨reply, rest⟩
  · exact ⟨[], by simp [answer, hended, hquit, hreplies],
      by simp [answer, withUnread, hended, hquit, hreplies]⟩
  cases reply with
  | say bytes | sayLast bytes =>
    exact ⟨bytes, by simp [answer, hended, hquit, hreplies],
      by simp [answer, withUnread, hended, hquit, hreplies]⟩
  | silence =>
    exact ⟨[], by simp [answer, hended, hquit, hreplies],
      by simp [answer, withUnread, hended, hquit, hreplies]⟩

theorem appends_hearByte (b : UInt8) (c : Connection) : Appends (hearByte · b) c := by
  by_cases hb : b = delimiter
  · subst hb
    obtain ⟨more, hmore, hunread⟩ := appends_answer (c.unfinished ++ [delimiter])
      { c with heard := c.heard ++ [c.unfinished ++ [delimiter]], unfinished := [] }
    refine ⟨more, ?_, fun unread => ?_⟩
    · simp only [hearByte, if_pos]
      exact hmore
    · simp only [hearByte, if_pos]
      exact hunread unread
  · refine ⟨[], ?_, fun unread => ?_⟩
    · simp only [hearByte, if_neg hb, List.append_nil]
    · simp only [hearByte, if_neg hb, List.append_nil]
      rfl

theorem appends_hear (bytes : Bytes) (c : Connection) : Appends (hear bytes) c := by
  induction bytes generalizing c with
  | nil => exact ⟨[], (List.append_nil _).symm, fun unread => by rw [List.append_nil]; rfl⟩
  | cons b bytes ih =>
    obtain ⟨first, hfirst, hunread⟩ := appends_hearByte b c
    obtain ⟨rest, hrest, hunread'⟩ := ih (hearByte c b)
    refine ⟨first ++ rest, ?_, fun unread => ?_⟩
    · show (hear bytes (hearByte c b)).inFlight = _
      rw [hrest, hfirst, List.append_assoc]
    · show hear bytes (hearByte (c.withUnread unread) b) = _
      have hstep : hearByte (c.withUnread unread) b =
          (hearByte c b).withUnread (unread ++ first) := hunread unread
      rw [hstep, hunread', List.append_assoc]
      rfl

end Connection

namespace Remote

variable {t : Remote} (h : t.isOpen = true)

include h

theorem receive_of_unread (hunread : t.connection.inFlight ≠ []) :
    t.receive = (.ok (t.connection.inFlight.take t.chunkSize), { t with
      connection := { t.connection with inFlight := t.connection.inFlight.drop t.chunkSize } }) := by
  rw [receive, if_neg (by simp [h]), if_pos hunread]

theorem receive_of_nothing (hunread : t.connection.inFlight = []) :
    t.receive = (Connection.speaker.ending t.connection, t) := by
  rw [receive, if_neg (by simp [h]), if_neg (not_not_intro hunread)]
  cases hended : t.connection.ended <;> simp [Speaker.ending, Connection.speaker, hended]

end Remote

/-- A host that is connected to a peer, of whose stream the bytes `taken` have been received. -/
def Host.Connected (g : Connection) (taken : Bytes) (h : Host) : Prop :=
  ∃ t network engine unread, h = .remote t network engine ∧ t.isOpen = true ∧
    t.connection = g.withUnread unread ∧ taken ++ unread = g.inFlight

/-- A connection to a peer carries what the peer says, whatever the size of its chunks. -/
theorem Host.carries : Carries Connection.speaker Host.Connected where
  taken := by
    rintro g taken h ⟨t, network, engine, unread, -, -, -, hsaid⟩
    exact ⟨unread, hsaid⟩
  send := by
    rintro g taken h frame ⟨t, network, engine, unread, rfl, hopen, hconnection, hsaid⟩
    obtain ⟨more, hmore, hunread⟩ := g.appends_hear frame
    refine ⟨.remote { t with connection := t.connection.hear frame } network engine, ?_,
      _, network, engine, unread ++ more, rfl, hopen, ?_, ?_⟩
    · show Host.send _ _ = _
      rw [Host.send, Remote.send, if_pos hopen]
    · show t.connection.hear frame = _
      rw [hconnection]
      exact hunread unread
    · show _ = (g.hear frame).inFlight
      rw [hmore, ← hsaid, List.append_assoc]
  receive := by
    rintro g taken h r h' ⟨t, network, engine, unread, rfl, hopen, hconnection, hsaid⟩ hr
    have hreceive : Host.receive (.remote t network engine) = (r, h') := hr
    rw [Host.receive] at hreceive
    have hflight : t.connection.inFlight = unread := by
      rw [hconnection]
      rfl
    by_cases hunread : unread = []
    · rw [Remote.receive_of_nothing hopen (hflight.trans hunread)] at hreceive
      rw [hunread, List.append_nil] at hsaid
      cases hreceive
      refine .inr ⟨hsaid, ?_⟩
      rw [hconnection]
      rfl
    · rw [Remote.receive_of_unread hopen (hflight ▸ hunread)] at hreceive
      cases hreceive
      have hchunk : unread.take t.chunkSize ≠ [] := by
        rw [Ne, List.take_eq_nil_iff]
        exact not_or_intro (Nat.pos_iff_ne_zero.1 t.chunkSize_pos) hunread
      rw [hflight]
      refine .inl ⟨_, rfl, hchunk, _, network, engine, unread.drop t.chunkSize, rfl, hopen, ?_, ?_⟩
      · simp only [hconnection]
        rfl
      · rw [List.append_assoc, List.take_append_drop, hsaid]

end DbClient
