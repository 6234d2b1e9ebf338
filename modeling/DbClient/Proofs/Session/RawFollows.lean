import DbClient.Proofs.Merge.After
import DbClient.Proofs.Reply.Fields
import DbClient.Proofs.Reply.Members
import DbClient.Proofs.Session.Single
import DbClient.Transport.Scripted

/-!
# Raw and typed replies

A command that is executed raw uses the channel as the typed call does. The merge state
follows what the reply is: for the typed call the result that was read, for the raw call
what the members of the line declare. The two agree whenever the declared result can be
read.
-/

namespace DbClient

/-! ## Replies and what they declare -/

namespace Envelope

variable {e : Envelope} {command : String} {r : ExecuteResult} {members : List (String × Json)}

/-- How many rows a result declares: the items of its member `data`. -/
def declaredRows (result : Option Json) : Nat :=
  (((result.bind (Json.get? "data")).bind Json.array?).map List.length).getD 0

theorem length_of_read? {p : QueryPayload} {result : Option Json}
    (hread : QueryPayload.schema.read? .defaults result = .ok p)
    (hordered : ∀ w, result = some w → w.IsOrdered)
    (hitems : ∀ items, result ≠ some (.array items)) :
    (p.data.getD []).length = declaredRows result := by
  cases result with
  | none =>
    cases hread
    rfl
  | some w =>
    cases w with
    | null =>
      cases hread
      rfl
    | array items => exact absurd rfl (hitems items)
    | object members =>
      exact QueryPayload.length_rows (hordered _ rfl members rfl) hread
    | _ => cases hread

theorem declaredRows_result? (result : Option Json) :
    declaredRows (result.bind result?) = declaredRows result := by
  cases result with
  | none => rfl
  | some w => cases w <;> rfl

/-- What the members of a line declare, by the envelope that they write. -/
theorem reply_ofMembers (members : List (String × Json)) :
    RawEnvelope.reply ⟨.object members⟩ =
      if (ofMembers members).kind = some "query" then
        .query (declaredRows (ofMembers members).result)
      else .commit := by
  rw [ofMembers, declaredRows_result?]
  rfl

/-- A result that can be read has the shape that the members declare. -/
theorem sameShape_of_toResult (h : (ofMembers members).toResult command = .ok r) :
    (RawEnvelope.reply ⟨.object members⟩).SameShape (.of (.ok r)) := by
  rw [reply_ofMembers]
  rcases cases_of_toResult h with ⟨p, q, hkind, -, -, rfl⟩ | ⟨s, hkind, rfl⟩
  · rw [if_pos hkind]
    exact .query _ _
  · rw [if_neg hkind]
    exact .commit

/-- It has as many rows, too, if it is not written by position. -/
theorem reply_of_toResult (h : (ofMembers members).toResult command = .ok r)
    (hordered : ∀ w, (ofMembers members).result = some w → w.IsOrdered)
    (hitems : ∀ items, (ofMembers members).result ≠ some (.array items)) :
    RawEnvelope.reply ⟨.object members⟩ = .of (.ok r) := by
  rw [reply_ofMembers]
  rcases cases_of_toResult h with ⟨p, q, hkind, hread, hrows, rfl⟩ | ⟨s, hkind, rfl⟩
  · rw [if_pos hkind, ← length_of_read? hread hordered hitems, ← hrows]
    rfl
  · rw [if_neg hkind]
    rfl

end Envelope

namespace Client

variable {τ : Type} [Transport τ] {c : Client τ} {command label : String}

/-! ## The channel -/

theorem channel_executeRaw (command : String) (c : Client τ) :
    SameChannel (executeRaw command c).2 (execute command c).2 := by
  cases hr : c.refusal? command with
  | some misuse =>
    rw [executeRaw_of_refused hr, execute_of_refused hr]
    exact .refl c
  | none =>
    have hraw := executeRaw_channel hr
    have htyped := execute_channel hr
    exact ⟨hraw.link.trans htyped.link.symm, hraw.isOpen.trans htyped.isOpen.symm,
      hraw.buffer.trans htyped.buffer.symm⟩

/-! ## The merge state -/

/-- The reply line that a command gets: none if it is refused, or if the exchange fails. -/
def replyLine? (command : String) (c : Client τ) : Option Bytes :=
  match c.refusal? command with
  | some _ => none
  | none => (exchange command command c).1.toOption

/-- The envelope of a reply line, if it reports a success. -/
def accepted (command : String) (line : Bytes) : Except ClientError Envelope :=
  (Envelope.decode line command).bind (·.ensureSuccess command)

theorem replyLine?_eq_some_iff {line : Bytes} :
    c.replyLine? command = some line ↔
      c.refusal? command = none ∧ (exchange command command c).1 = .ok line := by
  rw [replyLine?]
  cases c.refusal? command with
  | some misuse => simp
  | none => cases (exchange command command c).1 <;> simp [Except.toOption]

theorem readRaw_eq (command : String) (line : Bytes) :
    readRaw command line = (accepted command line).bind fun _ =>
      match Json.read line with
      | .error fault => .error (.protocol command (.noValue fault))
      | .ok v => .ok ⟨v⟩ := rfl

theorem outcomes_of_reply {line : Bytes} (h : c.replyLine? command = some line) :
    (execute command c).1 = readResult command line ∧
      (executeRaw command c).1 = readRaw command line := by
  obtain ⟨hr, hx⟩ := replyLine?_eq_some_iff.1 h
  rw [executeRaw_outcome hr, execute_of_admitted hr]
  dsimp only
  rw [hx]
  exact ⟨rfl, rfl⟩

theorem readResult_of_accepted {line : Bytes} {e : Envelope} (h : accepted command line = .ok e) :
    readResult command line = e.toResult command := by
  obtain ⟨read, hread, haccepted⟩ := exists_of_bind_ok h
  obtain ⟨-, rfl⟩ := Envelope.of_ensureSuccess haccepted
  rw [readResult, hread]
  rfl

theorem readResult_of_rejected {line : Bytes} {err : ClientError}
    (h : accepted command line = .error err) : readResult command line = .error err := by
  rw [accepted] at h
  rw [readResult]
  cases hread : Envelope.decode line command with
  | error e =>
    rw [hread] at h
    cases h
    rfl
  | ok e =>
    rw [hread] at h
    have hsuccess : e.ensureSuccess command = .error err := h
    show e.toResult command = .error err
    rw [Envelope.toResult, hsuccess]
    rfl

theorem merge_of_no_reply (h : c.replyLine? command = none)
    (hframed : delimiter ∈ Utf8.encode command → CommandClass.of command ≠ .abortMerge) :
    (executeRaw command c).2.session.merge = (execute command c).2.session.merge := by
  cases hr : c.refusal? command with
  | some misuse => rw [executeRaw_of_refused hr, execute_of_refused hr]
  | none =>
    simp only [replyLine?, hr] at h
    rw [executeRaw_of_admitted hr, execute_of_admitted hr]
    dsimp only
    rcases hx : exchange command command c with ⟨e | line, c'⟩
    · -- the typed call takes the missing line for a failed reply
      rw [merge_track]
      show c'.session.merge = c'.session.merge.after _ .failed
      rcases exchange_error (congrArg Prod.fst hx) with ⟨hsame, hmem | hclosed⟩ | ⟨-, hclean⟩
      · exact (MergeState.after_failed (hframed hmem) _).symm
      · rw [isOpen_of_admitted hr] at hclosed
        cases hclosed
      · rw [hx] at hclean
        rw [hclean]
        exact (MergeState.clean_after_failed _).symm
    · rw [hx] at h
      cases h

/-- The merge state that a reply line leads to. -/
theorem merge_of_reply {line : Bytes} (h : c.replyLine? command = some line) :
    (execute command c).2.session.merge =
        c.session.merge.after (.of command) (.of (readResult command line)) ∧
      (executeRaw command c).2.session.merge =
        match accepted command line with
        | .error _ => c.session.merge.after (.of command) .failed
        | .ok _ =>
          match Json.read line with
          | .error _ => c.session.merge
          | .ok v => c.session.merge.after (.of command) (RawEnvelope.reply ⟨v⟩) := by
  obtain ⟨hr, hx⟩ := replyLine?_eq_some_iff.1 h
  have hmerge := merge_exchange_ok hx
  rw [executeRaw_of_admitted hr, execute_of_admitted hr]
  dsimp only
  generalize exchange command command c = reply at hx hmerge ⊢
  obtain ⟨received, c'⟩ := reply
  cases hx
  constructor
  · rw [merge_track, hmerge]
    rfl
  · show (acceptRaw (.of command) command line c').2.session.merge = _
    rw [acceptRaw_apply, merge_withMerge, hmerge]
    rfl

theorem read_of_accepted {line : Bytes} {e : Envelope} (h : accepted command line = .ok e) :
    Envelope.read line = .ok e := by
  obtain ⟨read, hread, haccepted⟩ := exists_of_bind_ok h
  obtain ⟨-, rfl⟩ := Envelope.of_ensureSuccess haccepted
  unfold Envelope.decode at hread
  split at hread <;> cases hread
  assumption

/-- A result that is read of an object leads to the state that the object declares. -/
theorem after_declared {line : Bytes} {e : Envelope} {members : List (String × Json)}
    {r : ExecuteResult} {cls : CommandClass} (h : accepted command line = .ok e)
    (hv : Json.read line = .ok (.object members)) (hresult : e.toResult command = .ok r)
    (hitems : cls = .showConflicts → ∀ items, e.result ≠ some (.array items)) (m : MergeState) :
    m.after cls (RawEnvelope.reply ⟨.object members⟩) = m.after cls (.of (.ok r)) := by
  rcases Envelope.eq_ofMembers_or_array (read_of_accepted h) hv with
    ⟨_, ⟨⟩, rfl, hordered⟩ | ⟨items, ⟨⟩⟩
  by_cases hcls : cls = .showConflicts
  · rw [Envelope.reply_of_toResult hresult hordered (hitems hcls)]
  · exact MergeState.after_of_sameShape (Envelope.sameShape_of_toResult hresult) hcls m

/-! ## The two calls side by side -/

/-- Executed raw and executed typed, a command uses the transport in the same way, and
leaves the same open status and the same buffer.

So it does the merge state if no line comes, except for an abort that cannot be framed,
and if the line reports no success. For a line that reports one the typed call follows
the result that is read of it, and a failure to read it, and the raw call follows what
the value of the line declares. These agree for every command that does not ask what
its reply is, and otherwise if the line is an object, its result can be read, and the
rows of a listing of conflicts are not given by position. -/
theorem executeRaw_follows_execute (c : Client (Recorder τ)) (command : String) :
    let typed := (execute command c).2
    let raw := (executeRaw command c).2
    let cls := CommandClass.of command
    SameChannel raw typed ∧
      match c.replyLine? command with
      | none =>
        (delimiter ∈ Utf8.encode command → cls ≠ .abortMerge) →
          raw.session.merge = typed.session.merge
      | some line =>
        match accepted command line with
        | .error _ => raw.session.merge = typed.session.merge
        | .ok e =>
          typed.session.merge = c.session.merge.after cls (.of (e.toResult command)) ∧
            (cls.asksReply = false → cls ≠ .abortMerge →
              raw.session.merge = typed.session.merge) ∧
            ∀ v, Json.read line = .ok v →
              raw.session.merge = c.session.merge.after cls (RawEnvelope.reply ⟨v⟩) ∧
                (cls.asksReply = false → raw.session.merge = typed.session.merge) ∧
                ∀ members r, v = .object members → e.toResult command = .ok r →
                  (cls = .showConflicts → ∀ items, e.result ≠ some (.array items)) →
                  raw.session.merge = typed.session.merge := by
  intro typed raw cls
  refine ⟨channel_executeRaw command c, ?_⟩
  cases hreply : c.replyLine? command with
  | none => exact merge_of_no_reply hreply
  | some line =>
    obtain ⟨htyped, hraw⟩ := merge_of_reply hreply
    dsimp only
    cases haccepted : accepted command line with
    | error err =>
      rw [readResult_of_rejected haccepted] at htyped
      rw [haccepted] at hraw
      exact hraw.trans htyped.symm
    | ok e =>
      rw [readResult_of_accepted haccepted] at htyped
      rw [haccepted] at hraw
      dsimp only at hraw ⊢
      refine ⟨htyped, ?_, ?_⟩
      · -- the second reading of the line does not matter here, not even if it fails
        intro hcls habort
        rw [hraw, htyped, MergeState.after_of_inert hcls habort]
        cases Json.read line with
        | error fault => rfl
        | ok v => exact MergeState.after_of_inert hcls habort _ _
      · intro v hv
        rw [hv] at hraw
        refine ⟨hraw, ?_, ?_⟩
        · intro hcls
          rw [hraw, htyped]
          exact MergeState.after_of_not_asksReply hcls _ _ _
        · rintro members r rfl hresult hitems
          rw [hraw, htyped, hresult]
          exact after_declared haccepted hv hresult hitems _

/-- An open client over a script that answers with one line. -/
def answeredWith (line : String) : Client (Recorder Scripted) :=
  attach .default (.start (.start [.ok (Utf8.encode line ++ [delimiter])] []))

/-- A row that is shorter than the list of columns. -/
def raggedLine : String :=
  "\x7b\"success\":true,\"type\":\"query\",\"result\":" ++
    "\x7b\"columns\":[\"a\"],\"data\":[[]]\x7d\x7d"

/-- The merge state is not always the same: a ragged listing opens a manual merge for
the raw call, and is a failure for the typed one. -/
theorem raw_merge_not_always_typed :
    ¬∀ (c : Client (Recorder Scripted)) (command : String), c.session.isOpen = true →
      (executeRaw command c).2.session.merge = (execute command c).2.session.merge := by
  intro h
  have hsame := h (answeredWith raggedLine) "MERGE b WITH MANUAL RESOLUTION" rfl
  have hraw : (executeRaw "MERGE b WITH MANUAL RESOLUTION"
      (answeredWith raggedLine)).2.session.merge = .pending := by decide +kernel
  have htyped : (execute "MERGE b WITH MANUAL RESOLUTION"
      (answeredWith raggedLine)).2.session.merge = .clean := by decide +kernel
  rw [hraw, htyped] at hsame
  cases hsame

/-- A listing of one conflict. -/
def listingLine : String :=
  "\x7b\"success\":true,\"type\":\"query\",\"result\":" ++
    "\x7b\"columns\":[\"Key\"],\"data\":[[\"1\"]]\x7d\x7d"

/-- A sound listing leads both calls to the same merge state. -/
theorem listing_followed_either_way :
    (executeRaw "SHOW MERGE CONFLICTS" (answeredWith listingLine)).2.session.merge =
      (execute "SHOW MERGE CONFLICTS" (answeredWith listingLine)).2.session.merge := by
  let result : Json := .object [("columns", .array [.string "Key"]),
    ("data", .array [.array [.string "1"]])]
  have hline : (answeredWith listingLine).replyLine? "SHOW MERGE CONFLICTS" =
      some (Utf8.encode listingLine) := by decide +kernel
  have haccepted : accepted "SHOW MERGE CONFLICTS" (Utf8.encode listingLine) =
      .ok ⟨true, some "query", some result, none⟩ := by rfl
  have hv : Json.read (Utf8.encode listingLine) =
      .ok (.object [("result", result), ("success", .bool true), ("type", .string "query")]) := by
    rfl
  obtain ⟨r, hr⟩ : ∃ r, Envelope.toResult ⟨true, some "query", some result, none⟩
      "SHOW MERGE CONFLICTS" = .ok r := ⟨_, rfl⟩
  have h := (executeRaw_follows_execute (answeredWith listingLine) "SHOW MERGE CONFLICTS").2
  rw [hline] at h
  dsimp only at h
  rw [haccepted] at h
  exact (h.2.2 _ hv).2.2 _ r rfl hr (fun _ items => by simp [result])

end Client
end DbClient
