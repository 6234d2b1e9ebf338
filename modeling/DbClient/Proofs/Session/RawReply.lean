import DbClient.Proofs.Reply.WholeLine
import DbClient.Proofs.Session.Reports

/-!
# Raw replies

A raw reply is the value of a line that has been checked as an envelope. Its members say what
the envelope says, if it has members. The check and the value are two readings of the line, and
the second fails where a member that the first passes over cannot be kept.
-/

namespace DbClient

/-- A raw reply says of each field what the envelope says. A `null` result counts as none. -/
structure RawEnvelope.Says (r : RawEnvelope) (e : Envelope) : Prop where
  success : r.success = e.success
  kind : r.kind = e.kind
  error : r.error = e.error
  result : r.result.bind Envelope.result? = e.result

namespace Client

open Envelope (CanBeKept)

variable {τ : Type} [Transport τ] {c : Client τ} {command : String} {line : Bytes}
  {raw : RawEnvelope} {e : Envelope}

/-! ## Lines -/

theorem accepted_eq_ok_iff :
    accepted command line = .ok e ↔ Envelope.decode line command = .ok e ∧ e.success = true := by
  constructor
  · intro h
    obtain ⟨read, hread, haccepted⟩ := exists_of_bind_ok h
    obtain ⟨hsuccess, rfl⟩ := Envelope.of_ensureSuccess haccepted
    exact ⟨hread, hsuccess⟩
  · rintro ⟨hdecode, hsuccess⟩
    rw [accepted, hdecode]
    exact if_pos hsuccess

theorem accepted_of_not_success (hdecode : Envelope.decode line command = .ok e)
    (hfailure : e.success = false) : accepted command line =
      .error (.server command (e.error.getD Envelope.unknownError)) := by
  rw [accepted, hdecode]
  exact if_neg (by simp [hfailure])

theorem readRaw_of_rejected {err : ClientError} (h : accepted command line = .error err) :
    readRaw command line = .error err := by
  rw [readRaw_eq, h]
  rfl

theorem readRaw_of_accepted (h : accepted command line = .ok e) :
    readRaw command line = match Json.read line with
      | .error fault => .error (.protocol command (.noValue fault))
      | .ok v => .ok ⟨v⟩ := by
  rw [readRaw_eq, h]
  rfl

/-- A line that reports no success is the error of either call. -/
theorem outcomes_of_not_success (h : c.replyLine? command = some line)
    (hdecode : Envelope.decode line command = .ok e) (hfailure : e.success = false) :
    ∃ err, err = .server command (e.error.getD Envelope.unknownError) ∧
      (execute command c).1 = .error err ∧ (executeRaw command c).1 = .error err := by
  obtain ⟨hexecute, hraw⟩ := outcomes_of_reply h
  have hrejected := accepted_of_not_success hdecode hfailure
  exact ⟨_, rfl, hexecute.trans (readResult_of_rejected hrejected),
    hraw.trans (readRaw_of_rejected hrejected)⟩

theorem readRaw_eq_ok_iff :
    readRaw command line = .ok raw ↔
      (∃ e, accepted command line = .ok e) ∧ Json.read line = .ok raw.value := by
  cases haccepted : accepted command line with
  | error err => simp [readRaw_of_rejected haccepted]
  | ok e =>
    rw [readRaw_of_accepted haccepted]
    cases Json.read line with
    | error fault => simp
    | ok v => exact ⟨fun h => ⟨⟨e, rfl⟩, by cases h; rfl⟩, fun h => by cases h.2; rfl⟩

/-- A line is a raw reply exactly if it is an envelope with a success that can be kept. -/
theorem exists_readRaw_iff :
    (∃ raw, readRaw command line = .ok raw) ↔
      (∃ e, Envelope.decode line command = .ok e ∧ e.success = true) ∧ CanBeKept line := by
  simp only [readRaw_eq_ok_iff, accepted_eq_ok_iff]
  constructor
  · rintro ⟨raw, ⟨e, he⟩, hvalue⟩
    exact ⟨⟨e, he⟩, (Envelope.exists_value_iff (Envelope.decode_eq_ok_iff.1 he.1)).1 ⟨_, hvalue⟩⟩
  · rintro ⟨⟨e, he⟩, hkept⟩
    obtain ⟨v, hv⟩ := (Envelope.exists_value_iff (Envelope.decode_eq_ok_iff.1 he.1)).2 hkept
    exact ⟨⟨v⟩, ⟨e, he⟩, hv⟩

/-- What stands in the way of keeping a success is the error. -/
theorem readRaw_of_not_canBeKept (haccepted : accepted command line = .ok e)
    (hkept : ¬CanBeKept line) :
    ∃ fault, readRaw command line = .error (.protocol command (.noValue fault)) := by
  rw [readRaw_of_accepted haccepted]
  cases hvalue : Json.read line with
  | error fault => exact ⟨fault, rfl⟩
  | ok v =>
    have hread := Envelope.decode_eq_ok_iff.1 (accepted_eq_ok_iff.1 haccepted).1
    exact absurd ((Envelope.exists_value_iff hread).1 ⟨v, hvalue⟩) hkept

theorem exists_accepted_of_readResult {r : ExecuteResult} (h : readResult command line = .ok r) :
    ∃ e, Envelope.decode line command = .ok e ∧ e.success = true := by
  cases haccepted : accepted command line with
  | error err =>
    rw [readResult_of_rejected haccepted] at h
    cases h
  | ok e => exact ⟨e, accepted_eq_ok_iff.1 haccepted⟩

/-! ## What raw replies say -/

/-- A raw reply is a line that is an envelope with a success. It says what the envelope says, if
it is an object. It may be an array, which gives the envelope by position; then it says
nothing. -/
theorem rawReply_says_envelope (h : (executeRaw command c).1 = .ok raw) :
    ∃ line e, c.replyLine? command = some line ∧ Envelope.decode line command = .ok e ∧
      e.success = true ∧ Json.read line = .ok raw.value ∧
        ((∃ members, raw.value = .object members) ∧ raw.Says e ∨
          ∃ items, raw.value = .array items ∧ items.length ≤ 4 ∧ e = .ofItems items ∧
            raw.Says ⟨false, none, none, none⟩) := by
  cases hreply : c.replyLine? command with
  | none =>
    obtain ⟨err, -, hraw, -⟩ := outcomes_of_no_reply hreply
    rw [hraw] at h
    cases h
  | some line =>
    rw [(outcomes_of_reply hreply).2] at h
    obtain ⟨⟨e, haccepted⟩, hvalue⟩ := readRaw_eq_ok_iff.1 h
    obtain ⟨hdecode, hsuccess⟩ := accepted_eq_ok_iff.1 haccepted
    have hread := Envelope.decode_eq_ok_iff.1 hdecode
    refine ⟨line, e, rfl, hdecode, hsuccess, hvalue, ?_⟩
    obtain ⟨v⟩ := raw
    rcases Envelope.eq_ofMembers_or_array hread hvalue with ⟨members, hv, rfl, -⟩ | ⟨items, hv⟩
    · cases hv
      exact .inl ⟨⟨members, rfl⟩, ⟨rfl, rfl, rfl, rfl⟩⟩
    · cases hv
      obtain ⟨hlen, rfl⟩ := Envelope.eq_ofItems_of_read hread hvalue
      exact .inr ⟨items, rfl, hlen, rfl, ⟨rfl, rfl, rfl, rfl⟩⟩

/-- A commit whose field of success is written with an escape, and with a note given twice. -/
def notedCommit : String :=
  "\x7b\"\\u0073uccess\":true,\"type\":\"commit\",\"result\":null,\"note\":1,\"note\":2\x7d"

/-- The raw reply says that it is a commit. -/
theorem rawReply_of_notedCommit :
    ∃ raw, (executeRaw "COMMIT" (answeredWith notedCommit)).1 = .ok raw ∧
      raw.success = true ∧ raw.kind = some "commit" ∧ raw.error = none := by
  have hline : (answeredWith notedCommit).replyLine? "COMMIT" = some (Utf8.encode notedCommit) := by
    decide +kernel
  have hsuccess : (executeRaw "COMMIT" (answeredWith notedCommit)).1.toOption.map
      RawEnvelope.success = some true := by decide +kernel
  have hfields : (Envelope.decode (Utf8.encode notedCommit) "COMMIT").toOption.map
      (fun e => (e.success, e.kind, e.error)) = some (true, some "commit", none) := by
    decide +kernel
  cases hraw : (executeRaw "COMMIT" (answeredWith notedCommit)).1 with
  | error e =>
    rw [hraw] at hsuccess
    cases hsuccess
  | ok raw =>
    rw [hraw] at hsuccess
    obtain ⟨line, e, hreply, hdecode, -, -, hsays⟩ := rawReply_says_envelope hraw
    cases hline.symm.trans hreply
    rw [hdecode] at hfields
    obtain ⟨he, hkind, herror⟩ : e.success = true ∧ e.kind = some "commit" ∧ e.error = none := by
      simpa [Except.toOption] using hfields
    rcases hsays with ⟨-, hsays⟩ | ⟨items, -, -, -, hsays⟩
    · exact ⟨raw, rfl, hsays.success.trans he, hsays.kind.trans hkind, hsays.error.trans herror⟩
    · cases hsays.success.symm.trans (Option.some.inj hsuccess)

/-- An array that gives an envelope by position says nothing of it. -/
theorem rawReply_not_always_envelope :
    ¬∀ (c : Client (Recorder Scripted)) (command : String) (raw : RawEnvelope),
      (executeRaw command c).1 = .ok raw → raw.success = true := by
  intro h
  obtain ⟨raw, hraw, hsuccess⟩ : ∃ raw,
      (executeRaw "SELECT 1" (answeredWith "[true]")).1 = .ok raw ∧ raw.success = false :=
    ⟨_, rfl, rfl⟩
  rw [h _ _ _ hraw] at hsuccess
  cases hsuccess

/-! ## Which lines are raw replies -/

/-- A command that is answered by a line has a raw reply exactly if the line is an envelope with
a success and nothing in it stands in the way of keeping it: its typed result, if it has one,
then comes with a raw reply. If something does, the raw call fails with that. A line that is no
envelope, and one that reports no success, is the same error of either call. -/
theorem rawReply_iff_accepted_and_kept (h : c.replyLine? command = some line) :
    ((∃ raw, (executeRaw command c).1 = .ok raw) ↔
        (∃ e, Envelope.decode line command = .ok e ∧ e.success = true) ∧ CanBeKept line) ∧
      (∀ r, (execute command c).1 = .ok r → CanBeKept line →
        ∃ raw, (executeRaw command c).1 = .ok raw) ∧
      (∀ e, Envelope.decode line command = .ok e → e.success = true → ¬CanBeKept line →
        ∃ fault, (executeRaw command c).1 = .error (.protocol command (.noValue fault))) ∧
      (∀ err, Envelope.decode line command = .error err →
        (execute command c).1 = .error err ∧ (executeRaw command c).1 = .error err) ∧
      ∀ e, Envelope.decode line command = .ok e → e.success = false →
        ∃ err, err = .server command (e.error.getD Envelope.unknownError) ∧
          (execute command c).1 = .error err ∧ (executeRaw command c).1 = .error err := by
  obtain ⟨hexecute, hraw⟩ := outcomes_of_reply h
  have hiff : (∃ raw, (executeRaw command c).1 = .ok raw) ↔
      (∃ e, Envelope.decode line command = .ok e ∧ e.success = true) ∧ CanBeKept line := by
    rw [hraw]
    exact exists_readRaw_iff
  refine ⟨hiff, ?_, ?_, fun err => outcomes_of_violation h, fun e => outcomes_of_not_success h⟩
  · intro r hr hkept
    rw [hexecute] at hr
    exact hiff.2 ⟨exists_accepted_of_readResult hr, hkept⟩
  · intro e hdecode hsuccess hkept
    rw [hraw]
    exact readRaw_of_not_canBeKept (accepted_eq_ok_iff.2 ⟨hdecode, hsuccess⟩) hkept

/-- A success with a member that no envelope has, and a number in it beyond the range of
binary64. -/
def hugeMember : String :=
  "\x7b\"success\":true,\"x\":1e400\x7d"

theorem replyLine?_hugeMember :
    (answeredWith hugeMember).replyLine? "COMMIT" = some (Utf8.encode hugeMember) := by
  decide +kernel

theorem no_rawReply_of_hugeMember (raw : RawEnvelope) :
    (executeRaw "COMMIT" (answeredWith hugeMember)).1 ≠ .ok raw := by
  have hfails : (executeRaw "COMMIT" (answeredWith hugeMember)).1.toOption.isSome = false := by
    decide +kernel
  intro hraw
  rw [hraw] at hfails
  cases hfails

/-- It is a typed result, and cannot be kept, so that the raw call fails. -/
theorem rawReply_of_hugeMember :
    (∃ r, (execute "COMMIT" (answeredWith hugeMember)).1 = .ok r) ∧
      ¬CanBeKept (Utf8.encode hugeMember) ∧
        ∃ fault, (executeRaw "COMMIT" (answeredWith hugeMember)).1 =
          .error (.protocol "COMMIT" (.noValue fault)) := by
  have hdecode : Envelope.decode (Utf8.encode hugeMember) "COMMIT" =
      .ok ⟨true, none, none, none⟩ := by rfl
  obtain ⟨hiff, -, hunkept, -⟩ := rawReply_iff_accepted_and_kept replyLine?_hugeMember
  have hkept : ¬CanBeKept (Utf8.encode hugeMember) := by
    intro hkept
    obtain ⟨raw, hraw⟩ := hiff.2 ⟨⟨_, hdecode, rfl⟩, hkept⟩
    exact no_rawReply_of_hugeMember raw hraw
  exact ⟨⟨_, rfl⟩, hkept, hunkept _ hdecode rfl hkept⟩

/-- Not every line that is a typed result is a raw reply. -/
theorem accepted_not_always_rawReply :
    ¬∀ (c : Client (Recorder Scripted)) (command : String) (line : Bytes) (e : Envelope),
      c.replyLine? command = some line → Envelope.decode line command = .ok e →
        e.success = true → ∃ raw, (executeRaw command c).1 = .ok raw := by
  intro h
  obtain ⟨raw, hraw⟩ := h _ _ _ ⟨true, none, none, none⟩ replyLine?_hugeMember (by rfl) rfl
  exact no_rawReply_of_hugeMember raw hraw

end Client
end DbClient
