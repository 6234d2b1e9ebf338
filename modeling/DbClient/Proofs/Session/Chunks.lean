import DbClient.Proofs.Session.LibraryAsPeer
import DbClient.Proofs.Transport.Spoken

/-!
# Sessions and the ways of cutting a stream

What a session does depends on what the other end says, and not on the chunks in which that
arrives. Two sessions whose streams are cut in different ways hold different bytes in their
buffers at the same moment; what they have read as lines is the same, and so is the rest of the
stream, some of it in the buffer and some still to come.
-/

namespace DbClient

open Client (SameChannel)

variable {γ τ σ : Type} {p : Speaker γ} {S : γ → Bytes → τ → Prop} {S' : γ → Bytes → σ → Prop}

/-- An open client that has read the bytes `read` of what is said as lines: what has been
received is those, and then what is buffered. -/
structure HasRead (S : γ → Bytes → τ → Prop) (g : γ) (read : Bytes) (c : Client τ) : Prop where
  isOpen : c.session.isOpen = true
  received : S g (read ++ c.session.buffer.bytes) c.link

theorem HasRead.congr {g : γ} {read : Bytes} {c c' : Client τ} (h : HasRead S g read c)
    (hchannel : SameChannel c' c) : HasRead S g read c' := by
  refine ⟨hchannel.isOpen.trans h.isOpen, ?_⟩
  rw [hchannel.buffer, hchannel.link]
  exact h.received

/-- Two clients that have read the same of what the same speaker says, or are both closed. -/
inductive Abreast (S : γ → Bytes → τ → Prop) (S' : γ → Bytes → σ → Prop) (c : Client τ)
    (d : Client σ) : Prop
  | talking {g : γ} {read : Bytes} (hc : HasRead S g read c) (hd : HasRead S' g read d)
    (hmerge : c.session.merge = d.session.merge)
  | closed (hc : c.session.isOpen = false) (hd : d.session.isOpen = false)
    (hmerge : c.session.merge = d.session.merge)

namespace Abreast

variable {c c' : Client τ} {d d' : Client σ}

theorem alike (h : Abreast S S' c d) : c.Alike d := by
  cases h with
  | talking hc hd hmerge => exact ⟨hc.isOpen.trans hd.isOpen.symm, hmerge⟩
  | closed hc hd hmerge => exact ⟨hc.trans hd.symm, hmerge⟩

theorem congr (h : Abreast S S' c d) (hc : SameChannel c' c) (hd : SameChannel d' d)
    (hmerge : c'.session.merge = d'.session.merge) : Abreast S S' c' d' := by
  cases h with
  | talking hread hread' => exact .talking (hread.congr hc) (hread'.congr hd) hmerge
  | closed hclosed hclosed' =>
    exact .closed (hc.isOpen.trans hclosed) (hd.isOpen.trans hclosed') hmerge

variable [Transport τ] [Transport σ]

/-- Both sides read the next line of the stream, or there is none for either. -/
theorem exchange (hs : Carries p S) (hs' : Carries p S') {text label : String}
    (h : Abreast S S' c d) (hopen : c.session.isOpen = true) :
    (Client.exchange text label c).1 = (Client.exchange text label d).1 ∧
      Abreast S S' (Client.exchange text label c).2 (Client.exchange text label d).2 := by
  by_cases hmem : delimiter ∈ Utf8.encode text
  · rw [Client.exchange_of_newline hmem, Client.exchange_of_newline hmem]
    exact ⟨rfl, h⟩
  cases h with
  | closed hc => exact absurd hopen (by simp [hc])
  | @talking g read hc hd hmerge =>
    obtain ⟨link, hsend, hsent⟩ := hs.send (frameOf text) hc.received
    obtain ⟨link', hsend', hsent'⟩ := hs'.send (frameOf text) hd.received
    obtain ⟨more, hmore⟩ := hs.taken hsent
    rw [List.append_assoc] at hmore
    have hread := hs.readFrame_taken hmore.symm label hsent
    have hread' := hs'.readFrame_taken hmore.symm label hsent'
    rcases hframe : c.session.buffer.readFrame label link with ⟨r, left, t⟩
    rcases hframe' : d.session.buffer.readFrame label link' with ⟨r', left', t'⟩
    rw [hframe] at hread
    rw [hframe'] at hread'
    cases hread with
    | line hrest hline ht =>
      rw [Client.exchange_of_answered hmem hc.isOpen hsend hframe]
      cases hread' with
      | line hrest' hline' ht' =>
        rw [Client.exchange_of_answered hmem hd.isOpen hsend' hframe']
        obtain ⟨rfl, -⟩ := line_unique hline hline' (hrest'.symm.trans hrest)
        exact ⟨rfl, .talking ⟨hc.isOpen, ht⟩ ⟨hd.isOpen, ht'⟩ hmerge⟩
      | cut hrest' =>
        rw [hrest] at hrest'
        exact absurd (by simp) hrest'
    | cut hrest =>
      rw [Client.exchange_of_lost hmem hc.isOpen hsend hframe]
      cases hread' with
      | line hrest' =>
        rw [hrest'] at hrest
        exact absurd (by simp) hrest
      | cut =>
        rw [Client.exchange_of_lost hmem hd.isOpen hsend' hframe']
        exact ⟨rfl, .closed rfl rfl rfl⟩

theorem close (h : Abreast S S' c d) (hopen : c.session.isOpen = true) :
    Abreast S S' c.close d.close := by
  have hopen' : d.session.isOpen = true := h.alike.isOpen ▸ hopen
  rw [Client.close, if_pos hopen, Client.close, if_pos hopen']
  exact .closed rfl rfl rfl

/-- Whatever is exchanged, the two clients simulate each other. -/
theorem simulation (hs : Carries p S) (hs' : Carries p S') :
    Simulation (Abreast S S') fun _ _ _ => True where
  alike := alike
  congr := congr
  exchange h hopen _ := exchange hs hs' h hopen
  close := close

end Abreast

/-! ## Runs -/

namespace Client

/-- No call of the run opens a closed session. -/
def NeverReopens [Endpoint τ] (rs : List Request) (c : Client τ) : Prop :=
  ∀ s ∈ steps rs c, s.request = .connect → s.client.session.isOpen = true

/-- The runs have the same answers, and after each call the same open status and merge
state. -/
def RunsAlike [Endpoint τ] [Endpoint σ] (rs : List Request) (c : Client τ) (d : Client σ) : Prop :=
  (run rs c).1 = (run rs d).1 ∧ ∀ n, (run (rs.take n) c).2.Alike (run (rs.take n) d).2

theorem runsAlike_of_abreast [Endpoint τ] [Endpoint σ] (hs : Carries p S) (hs' : Carries p S')
    {c : Client τ} {d : Client σ} (h : Abreast S S' c d) {rs : List Request}
    (hreopen : NeverReopens rs c) : RunsAlike rs c d := by
  have hsim := Abreast.simulation hs hs'
  have hcovers : ∀ s ∈ steps rs c, Simulation.Covers (fun _ _ _ => True) s := fun s hmem =>
    ⟨hreopen s hmem, fun _ _ _ _ _ => trivial⟩
  exact ⟨(hsim.run h hcovers).1, hsim.alike_run h hcovers⟩

/-- A session with a server that is opened with reads of the given size, if it can be
opened. -/
def dial (host : String) (port : Nat) (options : ClientOptions) (network : Network)
    (engine : Engine) (size : Nat) : Except ClientError Unit × Client Host :=
  connect (new (.remote host port) { options with chunkSize := size } (.idle network engine))

section
variable {host : String} {port : Nat} {options : ClientOptions} {network left : Network}
  {engine : Engine}

theorem dial_of_unreachable {e : IoError} (h : network.accept = (.error e, left)) (size : Nat) :
    dial host port options network engine size =
      (.error (.connection s!"{host}:{port}" e),
        new (.remote host port) { options with chunkSize := size } (.idle left engine)) := by
  simp only [dial, connect, new, Session.new, Endpoint.connect, Host.connect, Host.release,
    Remote.connect, h]
  rfl

theorem dial_of_accepted {g : Connection} (h : network.accept = (.ok g, left)) (size : Nat) :
    ∃ c, dial host port options network engine size = (.ok (), c) ∧
      HasRead Host.Connected g [] c ∧ c.session.merge = .clean := by
  let t : Remote := ⟨host, port, max size 1, true, g, by omega⟩
  refine ⟨⟨{ Session.new (.remote host port) { options with chunkSize := size } with
    isOpen := true }, .remote t left engine⟩, ?_, ?_, rfl⟩
  · simp only [dial, connect, new, Session.new, Endpoint.connect, Host.connect, Host.release,
      Remote.connect, h]
    rfl
  · exact ⟨rfl, t, left, engine, g.inFlight, rfl, rfl, rfl, rfl⟩

end

theorem abreast_dial (host : String) (port : Nat) (options : ClientOptions) (network : Network)
    (engine : Engine) (size size' : Nat) :
    let c := dial host port options network engine size
    let d := dial host port options network engine size'
    c.1 = d.1 ∧ Abreast Host.Connected Host.Connected c.2 d.2 := by
  rcases h : network.accept with ⟨e | g, left⟩
  · rw [dial_of_unreachable h, dial_of_unreachable h]
    exact ⟨rfl, .closed rfl rfl rfl⟩
  · obtain ⟨c, hc, hread, hmerge⟩ := dial_of_accepted h size
    obtain ⟨d, hd, hread', hmerge'⟩ := dial_of_accepted h size'
    rw [hc, hd]
    exact ⟨rfl, .talking hread hread' (hmerge.trans hmerge'.symm)⟩

/-- An open session over a script that plays a stream in these chunks, and then the failure, if
one comes after the stream. -/
def overChunks (options : ClientOptions) (chunks : List Bytes) (failure? : Option IoError) :
    Client Scripted :=
  attach options (.start (chunks.map .ok ++ (failure?.map Except.error).toList) [])

theorem runsAlike_of_carries [Endpoint τ] [Endpoint σ] (hs : Carries p S) (hs' : Carries p S')
    {g : γ} {c : Client τ} {d : Client σ} (hc : c.Fresh) (hd : d.Fresh) (hlink : S g [] c.link)
    (hlink' : S' g [] d.link) {rs : List Request} (hreopen : NeverReopens rs c) :
    RunsAlike rs c d := by
  have hread : HasRead S g [] c := ⟨hc.isOpen, by rwa [hc.buffer]⟩
  have hread' : HasRead S' g [] d := ⟨hd.isOpen, by rwa [hd.buffer]⟩
  exact runsAlike_of_abreast hs hs' (.talking hread hread' (hc.merge.trans hd.merge.symm)) hreopen

/-- A session does not depend on the chunks in which the replies arrive. Over two transports
that carry what the same speaker says, in chunks that are cut anywhere, every run of two
sessions just opened has the same answers, and after each call the same open status and merge
state; so it is over two scripts that cut one stream in different ways. In particular a session
with a server does not depend on the size of its reads, zero included. The runs may close the
sessions but do not open them again. -/
theorem indifferent_to_chunks :
    (∀ {γ τ σ : Type} [Endpoint τ] [Endpoint σ] {p : Speaker γ} {S : γ → Bytes → τ → Prop}
      {S' : γ → Bytes → σ → Prop}, Carries p S → Carries p S' →
      ∀ {g : γ} {c : Client τ} {d : Client σ}, c.Fresh → d.Fresh → S g [] c.link →
      S' g [] d.link → ∀ rs, NeverReopens rs c → RunsAlike rs c d) ∧
    (∀ {chunks chunks' : List Bytes}, (∀ chunk ∈ chunks, chunk ≠ []) →
      (∀ chunk ∈ chunks', chunk ≠ []) → chunks.flatten = chunks'.flatten →
      ∀ (options : ClientOptions) (failure? : Option IoError),
      let c := overChunks options chunks failure?
      let d := overChunks options chunks' failure?
      ∀ rs, NeverReopens rs c → RunsAlike rs c d) ∧
    ∀ (host : String) (port : Nat) (options : ClientOptions) (network : Network)
      (engine : Engine) (size size' : Nat),
      let c := dial host port options network engine size
      let d := dial host port options network engine size'
      c.1 = d.1 ∧ ∀ rs, NeverReopens rs c.2 → RunsAlike rs c.2 d.2 := by
  refine ⟨?_, ?_, ?_⟩
  · intro γ τ σ _ _ p S S' hs hs' g c d hc hd hlink hlink' rs hreopen
    exact runsAlike_of_carries hs hs' hc hd hlink hlink' hreopen
  · intro chunks chunks' hne hne' hsame options failure? c d rs hreopen
    have hcarries := Scripted.carries chunks.flatten failure?
    exact runsAlike_of_carries hcarries hcarries (fresh_attach _ _) (fresh_attach _ _)
      (Scripted.holds_start hne rfl failure?) (Scripted.holds_start hne' hsame.symm failure?)
      hreopen
  · intro host port options network engine size size'
    obtain ⟨hopened, habreast⟩ := abreast_dial host port options network engine size size'
    exact ⟨hopened, fun rs hreopen =>
      runsAlike_of_abreast Host.carries Host.carries habreast hreopen⟩

/-- A stream of two lines at once, an empty line and the beginning of one more. -/
def unevenChunks : List Bytes :=
  [Utf8.encode "\x7b\"success\":true\x7d\n\x7b\"success\"", Utf8.encode ":true\x7d\n\n",
    Utf8.encode "\x7b\"succ"]

/-- The four lines that are asked for are read alike, the last of which breaks off, whether
they come in these chunks, byte by byte or all at once, and from a server in reads of one byte
or of all there is. -/
theorem indifferent_to_uneven_chunks :
    let rs : List Request := [.execute "SELECT 1", .raw "SELECT 2", .query "SELECT 3",
      .execute "SELECT 4", .close, .currentBranch]
    let c := overChunks .default unevenChunks (some Remote.timeUp)
    let d := overChunks .default (unevenChunks.flatten.map ([·])) (some Remote.timeUp)
    let e := overChunks .default [unevenChunks.flatten] (some Remote.timeUp)
    let dialed := dial "localhost" defaultPort .default
      ⟨true, some [[.say unevenChunks.flatten, .silence, .silence, .silence]], []⟩
      ⟨"library", .missing, [], "", [], [], []⟩
    RunsAlike rs c d ∧ RunsAlike rs c e ∧ (dialed 0).1 = .ok () ∧
      (dialed 0).1 = (dialed 4096).1 ∧ RunsAlike rs (dialed 0).2 (dialed 4096).2 := by
  intro rs c d e dialed
  have hreopen : ∀ {τ : Type} [Endpoint τ] (c : Client τ), NeverReopens rs c := by
    intro τ _ c s hs hconnect
    simp only [rs, steps, Request.steps, List.singleton_append, List.mem_cons, List.not_mem_nil,
      or_false] at hs
    rcases hs with rfl | rfl | rfl | rfl | rfl | rfl <;> cases hconnect
  obtain ⟨hcarried, hcut, hread⟩ := indifferent_to_chunks
  obtain ⟨hopened, hdialed⟩ := hread "localhost" defaultPort .default
    ⟨true, some [[.say unevenChunks.flatten, .silence, .silence, .silence]], []⟩
    ⟨"library", .missing, [], "", [], [], []⟩ 0 4096
  have hbytes : ∀ chunk ∈ unevenChunks.flatten.map ([·]), chunk ≠ [] :=
    List.forall_mem_map.2 fun _ _ => List.cons_ne_nil _ _
  have hsame : unevenChunks.flatten = (unevenChunks.flatten.map ([·])).flatten :=
    (List.flatMap_singleton' _).symm
  have hcarries := Scripted.carries unevenChunks.flatten (some Remote.timeUp)
  have hc : Scripted.Holds unevenChunks.flatten (some Remote.timeUp) () [] c.link :=
    Scripted.holds_start (by decide) rfl _
  have he : Scripted.Holds unevenChunks.flatten (some Remote.timeUp) () [] e.link :=
    Scripted.holds_start (by decide) (List.append_nil _) _
  exact ⟨hcut (by decide) hbytes hsame .default _ rs (hreopen c),
    hcarried hcarries hcarries (fresh_attach _ _) (fresh_attach _ _) hc he rs (hreopen c), rfl,
    hopened, hdialed rs (hreopen _)⟩

end Client
end DbClient
