import DbClient.Proofs.Reply.QueryPayload
import DbClient.Proofs.Reply.WholeLine
import DbClient.Proofs.Session.Reports

/-!
# Rows of queries

Which replies are rows, and which rows they are. A session returns no others: what it returns as
the result of a query was listed by a reply line, with one cell per column in every row.
-/

namespace DbClient

variable {τ : Type} {e : Envelope} {command : String}

/-! ## What a session returns -/

/-- Only the result of the command itself is answered as rows. -/
theorem Request.eq_query_of_view {r : Request} {t : TypedCall Answer} (h : r.typed? = some t)
    {res : ExecuteResult} {q : QueryResult} (hview : t.view res = .ok (.result (.query q))) :
    res = .query q := by
  cases r with
  | connect | close | raw | authenticate | resolveAll => cases h
  | execute =>
    cases h
    cases hview
    rfl
  | query =>
    cases h
    cases res with
    | query q' =>
      cases hview
      rfl
    | commit => cases hview
  | resolve | abortMerge =>
    cases h
    cases hview
  | _ =>
    cases h
    obtain ⟨a, -, ⟨⟩⟩ := exists_of_map_ok hview

/-- Rows that a call answers with are the result of a command that it has executed. -/
theorem Request.exists_execute [Endpoint τ] {r : Request} {c : Client τ} {q : QueryResult}
    (h : (r.perform c).1 = .ok (.result (.query q))) :
    ∃ command, (Client.execute command c).1 = .ok (.query q) := by
  have hother : ∀ {α : Type} {x : Call τ α} {f : α → Answer}, (∀ a, f a ≠ .result (.query q)) →
      ((x >>= fun a => pure (f a)) c).1 ≠ .ok (.result (.query q)) := by
    intro α x f hf hx
    rw [Call.map_apply] at hx
    obtain ⟨a, -, ha⟩ := exists_of_map_ok hx
    exact hf a ha
  cases ht : r.typed? with
  | some t =>
    rw [perform_typed ht] at h
    unfold TypedCall.perform at h
    split at h
    · cases h
    · rename_i command hcommand
      obtain ⟨res, hres, hview⟩ := exists_of_bind_ok h
      obtain rfl := eq_query_of_view ht hview
      exact ⟨command, hres⟩
  | none =>
    cases r with
    | connect | raw | authenticate | resolveAll => exact absurd h (hother nofun)
    | close => cases h
    | _ => cases ht

namespace Client

/-- A command whose result is rows has been answered by a line that lists them. -/
theorem listed_of_execute [Transport τ] {c : Client τ} {q : QueryResult}
    (h : (execute command c).1 = .ok (.query q)) :
    ∃ line e, c.replyLine? command = some line ∧ Envelope.decode line command = .ok e ∧
      e.success = true ∧ e.kind = some "query" ∧
        ListsRows e.result q.columns q.rows q.recordsRead q.time := by
  cases hreply : c.replyLine? command with
  | none =>
    obtain ⟨err, hexecute, -, -⟩ := outcomes_of_no_reply hreply
    rw [hexecute] at h
    cases h
  | some line =>
    rw [(outcomes_of_reply hreply).1] at h
    obtain ⟨e, hdecode, hresult⟩ := exists_of_bind_ok h
    have hordered := Envelope.isOrdered_of_read (Envelope.decode_eq_ok_iff.1 hdecode)
    exact ⟨line, e, rfl, hdecode, (Envelope.toResult_eq_query_iff hordered).1 hresult⟩

end Client

/-! ## Rows and ragged rows -/

/-- A reply is rows exactly if it is a success of the type `query`, lists rows, or none, and has
one cell per column in each of them; the result is what is listed. A ragged row is an error that
names the first one, rows that cannot be read are an error, and so is a failure, in the server's
words, whatever else the reply is. Lines are such replies, and all rows that a session answers
with are listed by the line that answers the command. -/
theorem rows_iff_rectangular [Endpoint τ] (hordered : ∀ w, e.result = some w → w.IsOrdered)
    (command : String) :
    (∀ columns rows n time,
        (∃ h, e.toResult command = .ok (.query ⟨columns, rows, n, time, h⟩)) ↔
          e.success = true ∧ e.kind = some "query" ∧ ListsRows e.result columns rows n time ∧
            ∀ row ∈ rows, row.length = columns.length) ∧
      (e.success = true → e.kind = some "query" →
        (∀ columns rows n time, ListsRows e.result columns rows n time →
          (∃ row ∈ rows, row.length ≠ columns.length) →
            ∃ i row err, IsFirstRagged columns.length rows i row ∧
              err = .protocol command (.raggedRow i row.length columns.length) ∧
              err.message = "invalid response from server: " ++
                s!"row {i} has {row.length} cells but the result has {columns.length} columns" ∧
              e.toResult command = .error err) ∧
          ((¬∃ columns rows n time, ListsRows e.result columns rows n time) →
            ∃ mismatch, e.toResult command = .error (.protocol command (.payload mismatch)))) ∧
      (e.success = false →
        e.toResult command = .error (.server command (e.error.getD "unknown error"))) ∧
      (∀ line e, Envelope.decode line command = .ok e →
        ∀ w, e.result = some w → w.IsOrdered) ∧
      ∀ (c : Client τ) (r : Request) (q : QueryResult),
        (r.perform c).1 = .ok (.result (.query q)) →
          ∃ command line e, c.replyLine? command = some line ∧
            Envelope.decode line command = .ok e ∧ e.success = true ∧ e.kind = some "query" ∧
              ListsRows e.result q.columns q.rows q.recordsRead q.time ∧
                ∀ row ∈ q.rows, row.length = q.columns.length := by
  refine ⟨?_, ?_, Envelope.toResult_of_not_success, ?_, ?_⟩
  · intro columns rows n time
    constructor
    · rintro ⟨hrectangular, hresult⟩
      obtain ⟨hsuccess, hkind, hlists⟩ := (Envelope.toResult_eq_query_iff hordered).1 hresult
      exact ⟨hsuccess, hkind, hlists, hrectangular⟩
    · rintro ⟨hsuccess, hkind, hlists, hrectangular⟩
      exact ⟨hrectangular, (Envelope.toResult_eq_query_iff hordered).2 ⟨hsuccess, hkind, hlists⟩⟩
  · intro hsuccess hkind
    refine ⟨fun columns rows n time hlists hragged => ?_, fun hlists => ?_⟩
    · obtain ⟨i, row, hfirst, hresult⟩ :=
        Envelope.toResult_of_ragged hordered hsuccess hkind hlists hragged
      exact ⟨i, row, _, hfirst, rfl, rfl, hresult⟩
    · exact Envelope.toResult_of_not_listsRows hordered hsuccess hkind hlists
  · intro line e hdecode
    exact Envelope.isOrdered_of_read (Envelope.decode_eq_ok_iff.1 hdecode)
  · intro c r q h
    obtain ⟨command, hexecute⟩ := Request.exists_execute h
    obtain ⟨line, e, hreply, hdecode, hsuccess, hkind, hlists⟩ := Client.listed_of_execute hexecute
    exact ⟨command, line, e, hreply, hdecode, hsuccess, hkind, hlists, q.rectangular⟩

/-- A reply that lists rows under one column, with the time under its other name. -/
def timedReply (rows : List (List String)) : Envelope :=
  { success := true
    kind := some "query"
    result := some (.object [("columns", textsValue ["a"]), ("data", .array (rows.map textsValue)),
      ("execution_time_ms", .integer 3)])
    error := none }

theorem listsRows_timedReply (rows : List (List String)) :
    ListsRows (timedReply rows).result ["a"] rows 0 (.ofInt 3) := by
  have honce : ["columns", "data", "time_ms"].Nodup := by decide
  exact ⟨_, rfl, honce, .inl rfl, .inl rfl, .inr ⟨rfl, rfl⟩, .inl ⟨_, rfl, .integer 3⟩⟩

/-- It is rows if each of them has one cell, and an error if one has none. -/
theorem rows_of_timedReply :
    (∃ h, (timedReply [["x"], ["y"]]).toResult "SELECT 1" =
        .ok (.query ⟨["a"], [["x"], ["y"]], 0, .ofInt 3, h⟩)) ∧
      ∃ i row, IsFirstRagged 1 [["x"], []] i row ∧
        (timedReply [["x"], []]).toResult "SELECT 1" =
          .error (.protocol "SELECT 1" (.raggedRow i row.length 1)) := by
  have hordered : ∀ rows w, (timedReply rows).result = some w → w.IsOrdered := by
    rintro rows w ⟨⟩ members ⟨⟩
    have hnames : ["columns", "data", "execution_time_ms"].Pairwise (· < ·) := by decide
    exact (List.pairwise_map (f := Prod.fst)).1 hnames
  obtain ⟨hrows, -⟩ := rows_iff_rectangular (τ := Scripted) (hordered [["x"], ["y"]]) "SELECT 1"
  obtain ⟨-, hragged, -⟩ := rows_iff_rectangular (τ := Scripted) (hordered [["x"], []]) "SELECT 1"
  refine ⟨(hrows _ _ _ _).2 ⟨rfl, rfl, listsRows_timedReply _, by decide⟩, ?_⟩
  obtain ⟨i, row, err, hfirst, rfl, -, hresult⟩ :=
    (hragged rfl rfl).1 _ _ _ _ (listsRows_timedReply _) (by decide)
  exact ⟨i, row, hfirst, hresult⟩

end DbClient
