import DbClient.Proofs.Reply.Trees
import DbClient.Proofs.Session.Executed
import DbClient.Proofs.Session.RawFollows

/-!
# What lines report

A result is reported only by a line that says so itself: an object with a member
`success` that is true, or an array of at most four items of which the first is true. A
rejection is reported by such a line without that. Every other line breaks the protocol.
-/

namespace DbClient

open Json (Piece Tree)

namespace Json.Tree

/-- The truth value that a tree is. -/
def truth? : Tree → Option Bool
  | word (.truth b) => some b
  | _ => none

/-- The value of the first member with a name. -/
def member? (name : String) : List (List Piece × Tree) → Option Tree
  | [] => none
  | (pieces, t) :: members =>
    if (keepText pieces .closed).toOption = some name then some t else member? name members

end Json.Tree

namespace Envelope

variable {slot : Slot} {f f' : Fields} {t : Tree} {line : Bytes} {e : Envelope}

/-! ## The field of success -/

theorem readField_success (h : readField .success f t = .ok f') :
    ∃ b, t.truth? = some b ∧ f'.success = some b := by
  obtain ⟨b, hread, rfl⟩ := exists_of_map_ok h
  refine ⟨b, ?_, rfl⟩
  cases t with
  | word w =>
    cases w with
    | null => cases hread
    | truth b' =>
      cases hread
      rfl
  | _ => cases hread

/-- The other fields leave it alone. -/
theorem success_of_readField (h : readField slot f t = .ok f') (hslot : slot ≠ .success) :
    f'.success = f.success := by
  cases slot with
  | success => exact absurd rfl hslot
  | kind | error =>
    obtain ⟨text, -, rfl⟩ := exists_of_map_ok h
    rfl
  | result | other =>
    obtain ⟨v, -, rfl⟩ := exists_of_map_ok (exists_of_ofFault_ok h)
    rfl

theorem slot_ne_success {name : String} (h : name ≠ "success") :
    Slot.ofName name ≠ .success := by
  intro hslot
  unfold Slot.ofName at hslot
  rw [if_neg h] at hslot
  split at hslot
  · cases hslot
  split at hslot
  · cases hslot
  split at hslot <;> cases hslot

/-- Members give it once. -/
theorem success_of_members {members : List (List Piece × Tree)}
    (h : members.foldlM readMember f = .ok f') :
    f'.success = (f.success <|> (Tree.member? "success" members).bind Tree.truth?) := by
  induction members generalizing f with
  | nil =>
    cases h
    simp [Tree.member?]
  | cons member members ih =>
    obtain ⟨pieces, t⟩ := member
    obtain ⟨g, hmember, hrest⟩ := exists_of_bind_ok h
    obtain ⟨name, hname, hrepeated, hfield⟩ := exists_of_readMember hmember
    rw [ih hrest, Tree.member?, hname]
    by_cases hsuccess : name = "success"
    · subst hsuccess
      -- it has not been given before, for it would not be read again
      have hfresh : f.success = none := by
        cases hgiven : f.success with
        | none => rfl
        | some b => simp [Fields.repeated?, Slot.ofName, hgiven] at hrepeated
      obtain ⟨b, ht, hg⟩ := readField_success hfield
      simp [Except.toOption, hfresh, ht, hg]
    · rw [success_of_readField hfield (slot_ne_success hsuccess)]
      simp [Except.toOption, hsuccess]

/-- No item after the first gives it. -/
theorem success_of_items {due : List Slot} {items : List Tree} (hdue : .success ∉ due)
    (h : readItems due f items = .ok f') :
    f'.success = f.success ∧ items.length ≤ due.length := by
  induction items generalizing due f with
  | nil =>
    cases due <;> cases h <;> exact ⟨rfl, Nat.zero_le _⟩
  | cons t items ih =>
    cases due with
    | nil => cases h
    | cons slot due =>
      obtain ⟨hslot, hdue⟩ := List.ne_and_not_mem_of_not_mem_cons hdue
      obtain ⟨g, hfield, hrest⟩ := exists_of_bind_ok h
      obtain ⟨hsame, hlen⟩ := ih hdue hrest
      rw [hsame, success_of_readField hfield (Ne.symm hslot)]
      exact ⟨rfl, Nat.succ_le_succ hlen⟩

/-! ## Lines -/

/-- A line that is an object, or an array of at most four items, with this for its
success. One that is not written is false. -/
inductive Reports (line : Bytes) (success : Bool) : Prop
  | object {members : List (List Piece × Tree)}
    (h : Json.scan line = (Tree.object members).tokens)
    (hsuccess : ((Tree.member? "success" members).bind Tree.truth?).getD false = success)
  | array {items : List Tree} (h : Json.scan line = (Tree.array items).tokens)
    (hlen : items.length ≤ 4)
    (hsuccess : (items.head?.bind Tree.truth?).getD false = success)

theorem reports_of_read (h : read line = .ok e) : Reports line e.success := by
  obtain ⟨t, hline, ht⟩ := exists_tree_of_read h
  cases t with
  | word | number | text => cases ht
  | object members =>
    obtain ⟨f, hread, rfl⟩ := exists_of_map_ok ht
    refine .object hline ?_
    rw [Fields.toEnvelope, success_of_members hread]
    rfl
  | array items =>
    obtain ⟨f, hread, rfl⟩ := exists_of_map_ok ht
    cases items with
    | nil =>
      cases hread
      exact .array hline (by simp) rfl
    | cons first items =>
      obtain ⟨g, hfield, hrest⟩ := exists_of_bind_ok hread
      obtain ⟨b, hfirst, hg⟩ := readField_success hfield
      obtain ⟨hsame, hlen⟩ := success_of_items (by simp) hrest
      refine .array hline (Nat.succ_le_succ hlen) ?_
      rw [Fields.toEnvelope, hsame, hg, List.head?_cons, Option.bind_some, hfirst]

end Envelope

namespace Client

open Envelope (Reports)

variable {τ : Type} [Transport τ] {c : Client τ} {command : String} {line : Bytes}

/-! ## Outcomes -/

/-- Without a line there is no result, and the server has rejected nothing. -/
theorem outcomes_of_no_reply (h : c.replyLine? command = none) :
    ∃ e, (execute command c).1 = .error e ∧ (executeRaw command c).1 = .error e ∧
      e.isServer = false := by
  cases hr : c.refusal? command with
  | some misuse =>
    rw [execute_of_refused hr, executeRaw_of_refused hr]
    exact ⟨_, rfl, rfl, rfl⟩
  | none =>
    simp only [replyLine?, hr] at h
    rw [executeRaw_outcome hr, execute_of_admitted hr]
    rcases hx : exchange command command c with ⟨e | received, c'⟩
    · refine ⟨e, rfl, rfl, ?_⟩
      rcases exchange_error_of_open hx (isOpen_of_admitted hr) with ⟨-, rfl, -⟩ | ⟨-, he, -⟩
      · rfl
      · cases he <;> rfl
    · rw [hx] at h
      cases h

theorem reports_of_accepted {e : Envelope} (h : accepted command line = .ok e) :
    Reports line true := by
  obtain ⟨read, -, haccepted⟩ := exists_of_bind_ok h
  obtain ⟨hsuccess, rfl⟩ := Envelope.of_ensureSuccess haccepted
  have hreports := Envelope.reports_of_read (read_of_accepted h)
  rwa [hsuccess] at hreports

theorem reports_of_rejected {message : String}
    (h : accepted command line = .error (.server command message)) : Reports line false := by
  rw [accepted] at h
  cases hdecode : Envelope.decode line command with
  | error err =>
    obtain ⟨v, rfl⟩ := Envelope.decode_fails line err hdecode
    rw [hdecode] at h
    cases h
  | ok e =>
    have hreports := Envelope.reports_of_read (Envelope.decode_eq_ok_iff.1 hdecode)
    cases hsuccess : e.success with
    | true =>
      have haccepted : e.ensureSuccess command = .ok e := if_pos hsuccess
      rw [hdecode] at h
      cases haccepted.symm.trans h
    | false => rwa [hsuccess] at hreports

/-- What a line reports is what the outcome of a command says. -/
theorem reports_of_readResult {r : ExecuteResult} (h : readResult command line = .ok r) :
    Reports line true := by
  cases haccepted : accepted command line with
  | ok e => exact reports_of_accepted haccepted
  | error err =>
    rw [readResult_of_rejected haccepted] at h
    cases h

theorem reports_of_readResult_server {message : String}
    (h : readResult command line = .error (.server command message)) : Reports line false := by
  cases haccepted : accepted command line with
  | error err =>
    rw [readResult_of_rejected haccepted] at h
    cases h
    exact reports_of_rejected haccepted
  | ok e =>
    -- a success is never the server's rejection, whatever its result is
    obtain ⟨read, -, hsuccess⟩ := exists_of_bind_ok haccepted
    obtain ⟨hsuccess, rfl⟩ := Envelope.of_ensureSuccess hsuccess
    rw [readResult_of_accepted haccepted] at h
    obtain ⟨v, hv⟩ := Envelope.toResult_fails_of_success hsuccess _ h
    cases hv

theorem reports_of_readRaw {r : RawEnvelope} (h : readRaw command line = .ok r) :
    Reports line true := by
  rw [readRaw_eq] at h
  obtain ⟨e, haccepted, -⟩ := exists_of_bind_ok h
  exact reports_of_accepted haccepted

theorem reports_of_readRaw_server {message : String}
    (h : readRaw command line = .error (.server command message)) : Reports line false := by
  rw [readRaw_eq] at h
  cases haccepted : accepted command line with
  | error err =>
    rw [haccepted] at h
    cases h
    exact reports_of_rejected haccepted
  | ok e =>
    rw [haccepted] at h
    simp only [Except.bind] at h
    split at h <;> cases h

/-- A line that is no envelope is the error of either call. -/
theorem outcomes_of_violation {err : ClientError} (h : c.replyLine? command = some line)
    (hdecode : Envelope.decode line command = .error err) :
    (execute command c).1 = .error err ∧ (executeRaw command c).1 = .error err := by
  obtain ⟨hexecute, hraw⟩ := outcomes_of_reply h
  constructor
  · rw [hexecute, readResult, hdecode]
    rfl
  · rw [hraw, readRaw_eq, accepted, hdecode]
    rfl

/-- The lines that are envelopes, and what is reported by them. A line is an envelope if
its tokens write a tree that is one: an object, or an array of at most four items. Every
other line breaks the protocol, and is the error of a command that it answers. Executed or
executed raw, a command has a result only if an envelope says that it is a success, and is
rejected by the server only if an envelope does not. -/
theorem reported_by_envelopes_only (command : String) :
    (∀ line e, Envelope.decode line command = .ok e ↔
      ∃ t : Tree, Json.scan line = t.tokens ∧ Envelope.readTree t = .ok e) ∧
    (∀ line e, Envelope.decode line command = .ok e → Reports line e.success) ∧
    (∀ line err, Envelope.decode line command = .error err →
      ∃ problem, err = .protocol command (.noEnvelope problem (excerpt line))) ∧
    ∀ c : Client τ,
      (∀ line err, c.replyLine? command = some line →
        Envelope.decode line command = .error err →
          (execute command c).1 = .error err ∧ (executeRaw command c).1 = .error err) ∧
      ((∃ r, (execute command c).1 = .ok r) ∨ (∃ r, (executeRaw command c).1 = .ok r) →
        ∃ line, c.replyLine? command = some line ∧ Reports line true) ∧
      ∀ message, (execute command c).1 = .error (.server command message) ∨
          (executeRaw command c).1 = .error (.server command message) →
        ∃ line, c.replyLine? command = some line ∧ Reports line false := by
  refine ⟨?_, ?_, ?_, ?_⟩
  · intro line e
    rw [Envelope.decode_eq_ok_iff, Envelope.read_eq_ok_iff]
  · intro line e h
    exact Envelope.reports_of_read (Envelope.decode_eq_ok_iff.1 h)
  · intro line err h
    unfold Envelope.decode at h
    split at h <;> cases h
    exact ⟨_, rfl⟩
  · intro c
    refine ⟨fun line err => outcomes_of_violation, ?_⟩
    cases hreply : c.replyLine? command with
    | none =>
      obtain ⟨e, hexecute, hraw, hserver⟩ := outcomes_of_no_reply hreply
      rw [hexecute, hraw]
      constructor
      · rintro (⟨r, ⟨⟩⟩ | ⟨r, ⟨⟩⟩)
      · rintro message (hrejected | hrejected) <;>
        · cases hrejected
          cases hserver
    | some line =>
      obtain ⟨hexecute, hraw⟩ := outcomes_of_reply hreply
      rw [hexecute, hraw]
      constructor
      · rintro (⟨r, hr⟩ | ⟨r, hr⟩)
        · exact ⟨line, rfl, reports_of_readResult hr⟩
        · exact ⟨line, rfl, reports_of_readRaw hr⟩
      · rintro message (hr | hr)
        · exact ⟨line, rfl, reports_of_readResult_server hr⟩
        · exact ⟨line, rfl, reports_of_readRaw_server hr⟩

/-- An object reports a success, an empty array a rejection, and a number neither. -/
theorem success_and_rejection_reported :
    (∃ line, (answeredWith "\x7b\"success\":true\x7d").replyLine? "SELECT 1" = some line ∧
        Reports line true) ∧
      (∃ line, (answeredWith "[]").replyLine? "SELECT 1" = some line ∧ Reports line false) ∧
      ∃ err, (execute "SELECT 1" (answeredWith "1")).1 = .error err ∧
        (executeRaw "SELECT 1" (answeredWith "1")).1 = .error err := by
  obtain ⟨-, -, -, hreported⟩ := reported_by_envelopes_only (τ := Recorder Scripted) "SELECT 1"
  have hline : (answeredWith "1").replyLine? "SELECT 1" = some (Utf8.encode "1") := by
    decide +kernel
  exact ⟨(hreported _).2.1 (.inl ⟨_, rfl⟩), (hreported _).2.2 "unknown error" (.inl rfl),
    _, (hreported _).1 _ _ hline rfl⟩

/-- A line that is no object does not always break the protocol. -/
theorem array_not_always_violation :
    ¬∀ (c : Client (Recorder Scripted)) (command : String) (line : Bytes),
      c.replyLine? command = some line →
        (¬∃ members, Json.scan line = (Tree.object members).tokens) →
          ∃ v, (execute command c).1 = .error (.protocol command v) := by
  intro h
  have hline : (answeredWith "[true]").replyLine? "SELECT 1" = some (Utf8.encode "[true]") := by
    decide +kernel
  have hscan : Json.scan (Utf8.encode "[true]") =
      [.mark .openArray, .word (.truth true) .closed, .mark .closeArray] := by
    decide +kernel
  obtain ⟨v, hv⟩ := h _ "SELECT 1" _ hline (by
    rintro ⟨members, hmembers⟩
    rw [hscan, Tree.tokens] at hmembers
    cases hmembers)
  have hok : (execute "SELECT 1" (answeredWith "[true]")).1.isOk = true := by decide +kernel
  rw [hv] at hok
  cases hok

end Client
end DbClient
