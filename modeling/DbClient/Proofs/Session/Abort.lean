import DbClient.Proofs.Session.Executed
import DbClient.Proofs.Session.Guard
import DbClient.Proofs.Session.RawFollows

/-!
# Aborts

Once an abort has been handed to the transport the session takes no merge to be open,
whatever comes of it. There is one exception: the reply to an abort that is executed raw
may report a success and still be no value that can be kept. Then the raw call fails
before the merge state is followed.
-/

namespace DbClient

variable {τ : Type} {text : String}

namespace Request

variable [Endpoint τ] {c : Client (Recorder τ)} {r : Request} {s : SingleCall}

/-- The frame of a command is handed over only by a call of that command, and only if
the command is admitted. -/
theorem of_frame_handed (hsingle : r.single? = some s)
    (h : frameOf text ∈ Step.handed ⟨r, c⟩) :
    s.command = .ok text ∧ c.refusal? text = none ∧ delimiter ∉ Utf8.encode text := by
  cases performed hsingle c with
  | refused _ hperform =>
    have hnone : Step.handed ⟨r, c⟩ = [] := by
      apply Step.handed_eq
      rw [Step.left, hperform, List.append_nil]
    rw [hnone] at h
    cases h
  | @exchanged sent hcommand hopen hmay hchannel _ =>
    have hframes : (Step.left ⟨r, c⟩).link.frames = c.link.frames ++
        if delimiter ∈ Utf8.encode sent then [] else [frameOf sent] := by
      rw [Step.left, hchannel.link, Client.frames_exchange_of_open hopen]
    rw [Step.handed_eq hframes] at h
    split at h
    · cases h
    · rename_i hmem
      cases frameOf_injective (List.mem_singleton.1 h)
      exact ⟨hcommand, Client.admitted_of_not_forbids hopen hmay, hmem⟩

end Request

namespace Client

variable [Transport τ] {c : Client τ}

/-- Whether an abort that is executed raw gets a reply line that reports a success and is
no value that can be kept. -/
def AbortUnread (text : String) (c : Client τ) : Prop :=
  ∃ line e fault, c.replyLine? text = some line ∧ accepted text line = .ok e ∧
    Json.read line = .error fault

theorem executeRaw_of_abortUnread (hread : AbortUnread text c) :
    (executeRaw text c).2.session.merge = c.session.merge ∧
      ∃ fault, (executeRaw text c).1 = .error (.protocol text (.noValue fault)) := by
  obtain ⟨line, e, fault, hreply, haccepted, hkept⟩ := hread
  constructor
  · rw [(merge_of_reply hreply).2, haccepted]
    dsimp only
    rw [hkept]
  · refine ⟨fault, ?_⟩
    rw [(outcomes_of_reply hreply).2, readRaw_eq, haccepted]
    simp only [Except.bind, hkept]

section Aborts

variable (habort : CommandClass.of text = .abortMerge) (h : c.refusal? text = none)

include habort h

theorem merge_execute_of_abort : (execute text c).2.session.merge = .clean := by
  have hexecuted := execute_executed text c
  generalize execute text c = reply at hexecuted ⊢
  cases hexecuted with
  | refused hr =>
    rw [h] at hr
    cases hr
  | lost _ _ _ hclean => exact hclean
  | unframed | answered =>
    rw [merge_track, habort]
    rfl

theorem merge_executeRaw_of_abort (hread : ¬AbortUnread text c)
    (hmem : delimiter ∉ Utf8.encode text) : (executeRaw text c).2.session.merge = .clean := by
  cases hreply : c.replyLine? text with
  | none =>
    -- the line that does not come is missed by both calls alike
    rw [merge_of_no_reply hreply fun hm => absurd hm hmem]
    exact merge_execute_of_abort habort h
  | some line =>
    rw [(merge_of_reply hreply).2, habort]
    cases haccepted : accepted text line with
    | error err => rfl
    | ok e =>
      cases hkept : Json.read line with
      | error fault => exact absurd ⟨line, e, fault, hreply, haccepted, hkept⟩ hread
      | ok v => rfl

end Aborts

end Client

namespace Request

variable [Endpoint τ]

/-- Whether a call issues an abort raw, and the reply to it cannot be kept. -/
def LeavesAbort (r : Request) (c : Client τ) : Prop :=
  ∃ text, r = raw text ∧ c.AbortUnread text

/-- Once a call has handed the frame of an abort to the transport, no merge is open: not
after a success of any shape, nor a rejection, a malformed line, a result that does not
fit or a failure of the channel. Only an abort that is executed raw, with an accepted
reply that cannot be kept as a value, leaves the merge state alone; it fails with that. -/
theorem merge_of_abort_handed {r : Request} {s : SingleCall} {c : Client (Recorder τ)}
    (hsingle : r.single? = some s) (habort : CommandClass.of text = .abortMerge)
    (hhanded : frameOf text ∈ Step.handed ⟨r, c⟩) :
    (¬r.LeavesAbort c → (r.perform c).2.session.merge = .clean) ∧
      (r.LeavesAbort c → (r.perform c).2.session.merge = c.session.merge ∧
        ∃ fault, (r.perform c).1 = .error (.protocol text (.noValue fault))) := by
  obtain ⟨hcommand, hadmitted, hmem⟩ := of_frame_handed hsingle hhanded
  rcases single?_cases hsingle with ⟨t, ht⟩ | ⟨command, rfl⟩ | ⟨token, rfl⟩
  · rw [single?_of_typed ht] at hsingle
    cases hsingle
    have hperform : (r.perform c).2 = (Client.execute text c).2 := by
      rw [perform_typed ht]
      simp only [TypedCall.perform, show t.command = .ok text from hcommand]
    rw [hperform]
    refine ⟨fun _ => Client.merge_execute_of_abort habort hadmitted, ?_⟩
    rintro ⟨command, rfl, -⟩
    cases ht
  · cases hsingle
    cases hcommand
    rw [perform, Call.map_apply]
    constructor
    · intro hkept
      apply Client.merge_executeRaw_of_abort habort hadmitted _ hmem
      exact fun hunread => hkept ⟨_, rfl, hunread⟩
    · rintro ⟨_, ⟨⟩, hunread⟩
      obtain ⟨hmerge, fault, houtcome⟩ := Client.executeRaw_of_abortUnread hunread
      refine ⟨hmerge, fault, ?_⟩
      dsimp only
      rw [houtcome]
      rfl
  · -- a login is no abort, whatever its token is
    cases hsingle
    cases hcheck : checkToken token with
    | error misuse =>
      simp only [SingleCall.login, hcheck] at hcommand
      cases hcommand
    | ok word =>
      simp only [SingleCall.login, hcheck] at hcommand
      cases hcommand
      rw [Statement.class_text_authenticate] at habort
      cases habort

/-- A success whose unknown member holds half of a surrogate pair: it is passed over in
the envelope, and cannot be kept. -/
def loneSurrogateLine : String :=
  "\x7b\"success\":true,\"x\":\"\\ud800\"\x7d"

/-- A client with a merge open in its view, over a script that answers with that line. -/
def abortAnswered : Client (Recorder Scripted) :=
  let c := Client.answeredWith loneSurrogateLine
  { c with session := { c.session with merge := .pending } }

/-- The abort is handed over, typed or raw. -/
theorem handed_abortAnswered :
    Step.handed ⟨abortMerge, abortAnswered⟩ = [frameOf "ABORT MERGE"] ∧
      Step.handed ⟨raw "ABORT MERGE", abortAnswered⟩ = [frameOf "ABORT MERGE"] := by
  decide +kernel

/-- The typed abort is followed, and the raw abort is not. -/
theorem abort_followed_unless_raw :
    (abortMerge.perform abortAnswered).2.session.merge = .clean ∧
      ((raw "ABORT MERGE").perform abortAnswered).2.session.merge = .pending := by
  have habort : CommandClass.of "ABORT MERGE" = .abortMerge := by decide
  obtain ⟨htyped, hraw⟩ := handed_abortAnswered
  constructor
  · refine (merge_of_abort_handed rfl habort (by rw [htyped]; exact List.mem_cons_self)).1 ?_
    rintro ⟨text, ⟨⟩, -⟩
  · have hline : abortAnswered.replyLine? "ABORT MERGE" = some (Utf8.encode loneSurrogateLine) := by
      decide +kernel
    have haccepted : Client.accepted "ABORT MERGE" (Utf8.encode loneSurrogateLine) =
        .ok ⟨true, none, none, none⟩ := by rfl
    have hkept : ∃ fault, Json.read (Utf8.encode loneSurrogateLine) = .error fault := by
      have hnot : (Json.read (Utf8.encode loneSurrogateLine)).isOk = false := by decide +kernel
      cases h : Json.read (Utf8.encode loneSurrogateLine) with
      | error fault => exact ⟨fault, rfl⟩
      | ok v =>
        rw [h] at hnot
        cases hnot
    obtain ⟨fault, hkept⟩ := hkept
    have hleaves : (raw "ABORT MERGE").LeavesAbort abortAnswered :=
      ⟨_, rfl, _, _, _, hline, haccepted, hkept⟩
    exact ((merge_of_abort_handed rfl habort (by rw [hraw]; exact List.mem_cons_self)).2
      hleaves).1

/-- An abort that has been handed over does not always end the merge. -/
theorem handed_abort_not_always_clean :
    ¬∀ (text : String) (c : Client (Recorder Scripted)), CommandClass.of text = .abortMerge →
      frameOf text ∈ Step.handed ⟨raw text, c⟩ →
        ((raw text).perform c).2.session.merge = .clean := by
  intro h
  have hclean := h "ABORT MERGE" abortAnswered (by decide) (by
    rw [handed_abortAnswered.2]
    exact List.mem_cons_self)
  have hpending : ((raw "ABORT MERGE").perform abortAnswered).2.session.merge = .pending := by
    decide +kernel
  rw [hpending] at hclean
  cases hclean

end Request
end DbClient
