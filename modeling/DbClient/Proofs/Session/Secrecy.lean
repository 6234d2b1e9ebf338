import DbClient.Proofs.Session.Exchange
import DbClient.Proofs.Text.RoundTrip
import DbClient.Proofs.Transport.Oblivious

/-!
# Secrecy of tokens

A login shows its token to the server and to nobody else. Over a transport that answers
without regard to what it carries, logins with two tokens cannot be told apart: by their
answers or errors, by the sessions that they leave, or by what was done with the transport
except for the one frame.
-/

namespace DbClient

/-! ## Tokens -/

/-- A token is accepted if it is one word when the white space around it is dropped. -/
theorem checkToken_ok_iff {token word : String} :
    checkToken token = .ok word ↔
      word.toList = Text.trim token.toList ∧ word.toList ≠ [] ∧
        ∀ c ∈ word.toList, Text.isBlank c = false := by
  have hone : ∀ cs : List Char, ¬(cs.isEmpty || cs.any Text.isBlank) = true ↔
      cs ≠ [] ∧ ∀ c ∈ cs, Text.isBlank c = false := by
    intro cs
    simp only [Bool.or_eq_true, List.isEmpty_iff, List.any_eq_true, not_or, not_exists, not_and,
      Bool.not_eq_true, ne_eq]
  rw [checkToken]
  constructor
  · intro h
    split at h <;> cases h
    rename_i hword
    rw [String.toList_ofList]
    exact ⟨rfl, (hone _).1 hword⟩
  · rintro ⟨htrim, hword⟩
    rw [← htrim, if_neg ((hone _).2 hword), String.ofList_toList]

/-- The login with an accepted token is one line. -/
theorem delimiter_notMem_of_checkToken {token word : String} (h : checkToken token = .ok word) :
    delimiter ∉ Utf8.encode (Statement.authenticate word).text := by
  obtain ⟨-, -, hword⟩ := checkToken_ok_iff.1 h
  intro hmem
  have hnewline := Utf8.ofNat_mem_of_mem_encode (by decide) hmem
  have htext : (Statement.authenticate word).text = "AUTH JWT " ++ word := rfl
  rw [htext, String.toList_append, List.mem_append] at hnewline
  rcases hnewline with hlead | hmem
  · exact absurd hlead (by decide)
  · exact absurd (hword _ hmem) (by decide)

namespace Client

variable {τ : Type} {E : τ → τ → Prop} {c d : Client τ}

/-! ## Clients that cannot be told apart -/

/-- Clients that differ in nothing but what they have handed to their transports. -/
structure Indistinct (E : τ → τ → Prop) (c d : Client τ) : Prop where
  session : c.session = d.session
  link : E c.link d.link

/-- Two outcomes of a call that differ in nothing but the frames that were handed over: the
answers or errors are the same, and so are the sessions, the records without the frames and, if
the sessions are still open, the answers that the transports will give. -/
structure SameButFrames (E : τ → τ → Prop) {α : Type}
    (r r' : Except ClientError α × Client (Recorder τ)) : Prop where
  outcome : r.1 = r'.1
  session : r.2.session = r'.2.session
  events : r.2.link.events.map ChannelEvent.blinded = r'.2.link.events.map ChannelEvent.blinded
  later : r.2.session.isOpen = true → E r.2.link.inner r'.2.link.inner

theorem sameButFrames_of_indistinct {α : Type} (a : Except ClientError α) {c d : Client (Recorder τ)}
    (h : Indistinct (Recorder.Blind E) c d) : SameButFrames E (a, c) (a, d) :=
  ⟨rfl, h.session, h.link.events, fun _ => h.link.inner⟩

variable [Transport τ]

/-! ## Exchanges -/

/-- Two exchanges with the same outcome, after which the clients are indistinct, or were so
until both gave up the connection. -/
inductive ExchangedAlike (E : τ → τ → Prop) :
    Except ClientError Bytes × Client τ → Except ClientError Bytes × Client τ → Prop
  | kept (r : Except ClientError Bytes) {c d : Client τ} (h : Indistinct E c d) :
    ExchangedAlike E (r, c) (r, d)
  | abandoned (e : ClientError) {c d : Client τ} (h : Indistinct E c d) :
    ExchangedAlike E (.error e, c.abandon) (.error e, d.abandon)

/-- The texts of two commands make no difference, as long as their errors go by one label. -/
theorem exchangedAlike (hE : Oblivious E) (h : Indistinct E c d) {text text' : String}
    (hmem : delimiter ∉ Utf8.encode text) (hmem' : delimiter ∉ Utf8.encode text')
    (label : String) : ExchangedAlike E (exchange text label c) (exchange text' label d) := by
  cases hopen : c.session.isOpen with
  | false =>
    have hopen' : d.session.isOpen = false := h.session ▸ hopen
    rw [exchange_of_closed hmem hopen, exchange_of_closed hmem' hopen']
    exact .kept _ h
  | true =>
    have hopen' : d.session.isOpen = true := h.session ▸ hopen
    obtain ⟨sent, t, u, hsend, hsend', hlink⟩ :=
      hE.send (frameOf text) (frameOf text') h.link
    cases sent with
    | error e =>
      rw [exchange_of_unsent hmem hopen hsend, exchange_of_unsent hmem' hopen' hsend']
      exact .abandoned _ ⟨h.session, hlink⟩
    | ok =>
      obtain ⟨r, left, t', u', hread, hread', hlink'⟩ :=
        hE.readFrame hlink label c.session.buffer
      rw [h.session] at hread'
      have hsession : { c.session with buffer := left } = { d.session with buffer := left } := by
        rw [h.session]
      cases r with
      | error e =>
        rw [exchange_of_lost hmem hopen hsend hread, exchange_of_lost hmem' hopen' hsend' hread']
        exact .abandoned _ ⟨hsession, hlink'⟩
      | ok line =>
        rw [exchange_of_answered hmem hopen hsend hread,
          exchange_of_answered hmem' hopen' hsend' hread']
        exact .kept _ ⟨hsession, hlink'⟩

/-! ## Logins -/

/-- Giving up the connection notes the same on both sides. -/
theorem sameButFrames_of_abandoned {α : Type} (a : Except ClientError α) {c d : Client (Recorder τ)}
    (h : Indistinct (Recorder.Blind E) c d) : SameButFrames E (a, c.abandon) (a, d.abandon) := by
  refine ⟨rfl, ?_, ?_, fun hopen => absurd hopen (by simp)⟩
  · simp only [abandon, h.session]
  · cases hopen : c.session.isOpen with
    | false =>
      have hopen' : d.session.isOpen = false := h.session ▸ hopen
      simpa [abandon, hopen, hopen'] using h.link.events
    | true =>
      have hopen' : d.session.isOpen = true := h.session ▸ hopen
      simp only [abandon, hopen, hopen', if_true]
      simpa [Transport.close, Recorder.close, Recorder.note] using h.link.events

/-- An accepted token is handed over once, if the session is open. -/
theorem frames_authenticate {c : Client (Recorder τ)} {token word : String}
    (h : checkToken token = .ok word) :
    (authenticate token c).2.link.frames = c.link.frames ++
      if c.session.isOpen then [frameOf (Statement.authenticate word).text] else [] := by
  cases hopen : c.session.isOpen with
  | false => simp [authenticate_of_closed h hopen]
  | true =>
    rw [authenticate_of_admitted h hopen]
    dsimp only
    rw [frames_exchange_of_open hopen, if_neg (delimiter_notMem_of_checkToken h), if_pos rfl]

/-- Logins with two accepted tokens cannot be told apart, whatever the state of the session and
over every transport that answers without regard to the frames: only the one frame that is
handed over differs. -/
theorem authenticate_indifferent_to_token (hE : Oblivious E) {c : Client (Recorder τ)}
    (hc : E c.link.inner c.link.inner) {token token' word word' : String}
    (h : checkToken token = .ok word) (h' : checkToken token' = .ok word') :
    let login (word : String) : List Bytes :=
      if c.session.isOpen then [frameOf (Statement.authenticate word).text] else []
    SameButFrames E (authenticate token c) (authenticate token' c) ∧
      (authenticate token c).2.link.frames = c.link.frames ++ login word ∧
      (authenticate token' c).2.link.frames = c.link.frames ++ login word' := by
  refine ⟨?_, frames_authenticate h, frames_authenticate h'⟩
  have hsame : Indistinct (Recorder.Blind E) c c := ⟨rfl, hc, rfl⟩
  cases hopen : c.session.isOpen with
  | false =>
    rw [authenticate_of_closed h hopen, authenticate_of_closed h' hopen]
    exact sameButFrames_of_indistinct _ hsame
  | true =>
    have halike := exchangedAlike hE.recorder hsame (delimiter_notMem_of_checkToken h)
      (delimiter_notMem_of_checkToken h') authLabel
    rw [authenticate_of_admitted h hopen, authenticate_of_admitted h' hopen]
    generalize exchange (Statement.authenticate word).text authLabel c = r at halike ⊢
    generalize exchange (Statement.authenticate word').text authLabel c = r' at halike ⊢
    cases halike with
    | kept r hkept => exact sameButFrames_of_indistinct _ hkept
    | abandoned e hkept => exact sameButFrames_of_abandoned _ hkept

/-- The reply of a server that does not accept a token. -/
def rejection : Bytes :=
  Utf8.encode "\x7b\"success\":false,\"type\":\"auth\",\"error\":\"token expired\"\x7d\n"

/-- The error of a login that the server rejects is the same for both tokens. -/
theorem rejected_tokens_indistinguishable :
    let c : Client (Recorder Scripted) :=
      attach .default (.start (Scripted.start [.ok rejection] []))
    let r := authenticate "secret.jwt.value" c
    let r' := authenticate " another\n" c
    checkToken "secret.jwt.value" = .ok "secret.jwt.value" ∧ checkToken " another\n" = .ok "another" ∧
      r.1 = .error (.server authLabel "token expired") ∧
      SameButFrames Scripted.SameScript r r' ∧
      r.2.link.frames = [Utf8.encode "AUTH JWT secret.jwt.value\n"] ∧
      r'.2.link.frames = [Utf8.encode "AUTH JWT another\n"] := by
  have h : checkToken "secret.jwt.value" = .ok "secret.jwt.value" := by rfl
  have h' : checkToken " another\n" = .ok "another" := by rfl
  obtain ⟨hsame, hframes, hframes'⟩ := authenticate_indifferent_to_token Scripted.oblivious
    (c := attach .default (.start (Scripted.start [.ok rejection] []))) ⟨rfl, rfl, rfl⟩ h h'
  exact ⟨h, h', rfl, hsame, hframes, hframes'⟩

end Client
end DbClient
