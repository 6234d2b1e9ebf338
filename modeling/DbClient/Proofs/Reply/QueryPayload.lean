import DbClient.Proofs.Reply.QueryLine

/-!
# Payloads of queries

What a payload says about a query, told without reading it: its columns and rows are lists of
texts, which may be left out, its counter and its time are numbers, and no field is given twice.
Exactly these payloads are read, and a result is made of them unless a row has not one cell per
column. The first such row is reported.
-/

namespace DbClient

/-! ## Values of fields -/

namespace Json

variable {α : Type} {read : Json → Except Mismatch α} {value : α → Json} {v : Json}

/-- A value that is a number. -/
inductive IsNumber : Json → Binary64 → Prop
  | integer (n : Int) : IsNumber (.integer n) (.ofInt n)
  | fraction (x : Binary64) : IsNumber (.fraction x) x

theorem readReal_eq_ok_iff {x : Binary64} : readReal v = .ok x ↔ v.IsNumber x := by
  constructor
  · intro h
    cases v with
    | integer n =>
      cases h
      exact .integer n
    | fraction x =>
      cases h
      exact .fraction x
    | _ => cases h
  · rintro ⟨⟩ <;> rfl

theorem readString_eq_ok_iff {s : String} : readString v = .ok s ↔ v = .string s := by
  cases v <;> simp [readString]

theorem readUnsigned_eq_ok_iff {n : UInt64} : readUnsigned v = .ok n ↔ v = .integer n.toNat := by
  constructor
  · intro h
    cases v with
    | integer i =>
      rw [readUnsigned] at h
      split at h
      · rename_i hrange
        cases h
        obtain ⟨hpos, hmax⟩ : 0 ≤ i ∧ i ≤ maxUnsigned := by simpa using hrange
        have hnat : i.toNat < 2 ^ 64 := by
          have hbound : maxUnsigned < 2 ^ 64 := by decide
          omega
        rw [UInt64.toNat_ofNat_of_lt' hnat, Int.toNat_of_nonneg hpos]
      · cases h
    | _ => cases h
  · rintro rfl
    exact readUnsigned_toNat n

/-- Values that are items of one form each are an array of that form. -/
theorem readList_eq_ok_iff (h : ∀ v a, read v = .ok a ↔ v = value a) {xs : List α} :
    readList read v = .ok xs ↔ v = .array (xs.map value) := by
  cases v with
  | array items =>
    have hitems : readList read (.array items) = items.mapM read := rfl
    rw [hitems, mapM_eq_ok_iff]
    simp only [h, Json.array.injEq]
    rw [← List.forall₂_eq_eq_eq, List.forall₂_map_right_iff]
  | _ => simp [readList]

theorem readOption_eq_ok_iff (h : ∀ v a, read v = .ok a ↔ v = value a)
    (hvalue : ∀ a, value a ≠ .null) {o : Option α} :
    readOption read v = .ok o ↔ v = o.elim .null value := by
  by_cases hnull : v = .null
  · subst hnull
    cases o with
    | none => simp [readOption]
    | some a => simp [readOption, (hvalue a).symm]
  · have hread : readOption read v = (read v).map some := by
      cases v with
      | null => exact absurd rfl hnull
      | _ => rfl
    rw [hread]
    cases o with
    | none =>
      refine ⟨fun hmap => ?_, fun hv => absurd hv hnull⟩
      obtain ⟨a, -, ha⟩ := exists_of_map_ok hmap
      cases ha
    | some a =>
      rw [Option.elim_some, ← h]
      exact (map_injective (fun _ _ => Option.some.inj)).eq_iff (b := .ok a)

end Json

namespace Schema

variable {v? : Option Json}

/-- A counter is what is given, or zero. -/
theorem reads_unsigned_iff {n : UInt64} :
    Reads Json.readUnsigned 0 v? n ↔ v? = some (.integer n.toNat) ∨ v? = none ∧ n = 0 := by
  cases v? with
  | none => simp [Reads]
  | some v => simp [Reads, Json.readUnsigned_eq_ok_iff]

/-- A time is the number that is given, or zero. -/
theorem exists_reads_time_iff {time : Binary64} :
    (∃ t, Reads readTime none v? t ∧ t.getD .zero = time) ↔
      (∃ v, v? = some v ∧ v.IsNumber time) ∨ v? = none ∧ time = .zero := by
  cases v? with
  | none => simp [Reads, eq_comm]
  | some v =>
    constructor
    · rintro ⟨t, hread, rfl⟩
      obtain ⟨x, hx, rfl⟩ := exists_of_map_ok hread
      exact .inl ⟨v, rfl, Json.readReal_eq_ok_iff.1 hx⟩
    · rintro (⟨v, ⟨⟩, hnumber⟩ | ⟨⟨⟩, -⟩)
      exact ⟨some time, congrArg (Except.map some) (Json.readReal_eq_ok_iff.2 hnumber), rfl⟩

end Schema

/-! ## What a payload gives -/

/-- A list that a payload gives. One that is left out, or `null`, is empty. -/
def GivesList {α : Type} (value : List α → Json) (v? : Option Json) (xs : List α) : Prop :=
  v? = some (value xs) ∨ (v? = none ∨ v? = some .null) ∧ xs = []

/-- Values, under the names of their fields, that are the columns, the rows, the counter and the
time of a query. No field is given twice. -/
structure GivesRows (given : List (String × Json)) (columns : List String)
    (rows : List (List String)) (n : UInt64) (time : Binary64) : Prop where
  once : (given.map Prod.fst).Nodup
  columns : GivesList textsValue (given.lookup "columns") columns
  rows : GivesList (fun rows => .array (rows.map textsValue)) (given.lookup "data") rows
  recordsRead : given.lookup "records_read" = some (.integer n.toNat) ∨
    given.lookup "records_read" = none ∧ n = 0
  time : (∃ v, given.lookup "time_ms" = some v ∧ v.IsNumber time) ∨
    given.lookup "time_ms" = none ∧ time = .zero

/-- The rows that the result of a reply is. None, or `null`, gives no field. -/
def ListsRows (result : Option Json) (columns : List String) (rows : List (List String))
    (n : UInt64) (time : Binary64) : Prop :=
  match result with
  | none | some .null => GivesRows [] columns rows n time
  | some w =>
    ∃ given, QueryPayload.schema.given? w = some given ∧ GivesRows given columns rows n time

namespace QueryPayload

/-- A payload as a result is made of it: what it leaves out is empty or zero. -/
structure HasRows (p : QueryPayload) (columns : List String) (rows : List (List String))
    (n : UInt64) (time : Binary64) : Prop where
  columns : p.columns.getD [] = columns
  rows : p.data.getD [] = rows
  recordsRead : p.recordsRead = n
  time : p.time.getD .zero = time

variable {p : QueryPayload} {given : List (String × Json)} {columns : List String}
  {rows : List (List String)} {n : UInt64} {time : Binary64}

theorem readColumns_eq_ok_iff {v : Json} {o : Option (List String)} :
    readColumns v = .ok o ↔ v = o.elim .null textsValue :=
  Json.readOption_eq_ok_iff
    (fun _ _ => Json.readList_eq_ok_iff fun _ _ => Json.readString_eq_ok_iff) nofun

theorem readRows_eq_ok_iff {v : Json} {o : Option (List (List String))} :
    readRows v = .ok o ↔ v = o.elim .null fun rows => .array (rows.map textsValue) :=
  Json.readOption_eq_ok_iff (fun _ _ => Json.readList_eq_ok_iff fun _ _ =>
    Json.readList_eq_ok_iff fun _ _ => Json.readString_eq_ok_iff) nofun

/-- A list that is given is what the field holds, an absent one being empty. -/
theorem exists_reads_list_iff {α : Type} {v? : Option Json}
    {read : Json → Except Mismatch (Option (List α))} {value : List α → Json}
    (h : ∀ v o, read v = .ok o ↔ v = o.elim .null value) {xs : List α} :
    (∃ o, Schema.Reads read none v? o ∧ o.getD [] = xs) ↔ GivesList value v? xs := by
  cases v? with
  | none =>
    constructor
    · rintro ⟨o, rfl, rfl⟩
      exact .inr ⟨.inl rfl, rfl⟩
    · rintro (⟨⟨⟩⟩ | ⟨-, rfl⟩)
      exact ⟨none, rfl, rfl⟩
  | some v =>
    constructor
    · rintro ⟨o, hread, rfl⟩
      obtain rfl := (h v o).1 hread
      cases o with
      | none => exact .inr ⟨.inr rfl, rfl⟩
      | some xs => exact .inl rfl
    · rintro (hv | ⟨⟨⟨⟩⟩ | hv, rfl⟩)
      · exact ⟨some xs, (h v _).2 (Option.some.inj hv), rfl⟩
      · exact ⟨none, (h v _).2 (Option.some.inj hv), rfl⟩

/-- What values give is what the payload holds that is read of them. -/
theorem givesRows_iff :
    GivesRows given columns rows n time ↔ ∃ p, Holds given p ∧ HasRows p columns rows n time := by
  constructor
  · rintro ⟨honce, hcolumns, hrows, hrecords, htime⟩
    obtain ⟨c, hc, hcolumns⟩ := (exists_reads_list_iff fun _ _ => readColumns_eq_ok_iff).2 hcolumns
    obtain ⟨d, hd, hrows⟩ := (exists_reads_list_iff fun _ _ => readRows_eq_ok_iff).2 hrows
    obtain ⟨t, ht, htime⟩ := Schema.exists_reads_time_iff.2 htime
    exact ⟨⟨c, d, n, t⟩, ⟨honce, hc, hd, Schema.reads_unsigned_iff.2 hrecords, ht⟩, hcolumns,
      hrows, rfl, htime⟩
  · rintro ⟨p, hholds, ⟨rfl, rfl, rfl, rfl⟩⟩
    exact ⟨hholds.once, (exists_reads_list_iff fun _ _ => readColumns_eq_ok_iff).1
        ⟨_, hholds.columns, rfl⟩,
      (exists_reads_list_iff fun _ _ => readRows_eq_ok_iff).1 ⟨_, hholds.data, rfl⟩,
      Schema.reads_unsigned_iff.1 hholds.recordsRead,
      Schema.exists_reads_time_iff.1 ⟨_, hholds.time, rfl⟩⟩

theorem holds_nil_iff : Holds [] p ↔ p = .defaults := by
  constructor
  · exact fun h => h.unique (holds_of_foldlM List.nodup_nil rfl)
  · rintro rfl
    exact holds_of_foldlM List.nodup_nil rfl

theorem givesRows_nil_iff : GivesRows [] columns rows n time ↔
    HasRows .defaults columns rows n time := by
  simp only [givesRows_iff, holds_nil_iff, exists_eq_left]

/-- An array or an object is read as a payload exactly if it gives what the payload holds. -/
theorem exists_given_iff {w : Json} (hordered : w.IsOrdered) :
    (∃ given, schema.given? w = some given ∧ GivesRows given columns rows n time) ↔
      ∃ p, schema.read .defaults w = .ok p ∧ HasRows p columns rows n time := by
  simp only [read_eq_ok_iff hordered, givesRows_iff]
  constructor
  · rintro ⟨given, hgiven, p, hholds, hrows⟩
    exact ⟨p, ⟨given, hgiven, hholds⟩, hrows⟩
  · rintro ⟨p, ⟨given, hgiven, hholds⟩, hrows⟩
    exact ⟨given, hgiven, p, hholds, hrows⟩

/-- A result is read as a payload exactly if it lists what the payload holds. -/
theorem listsRows_iff {result : Option Json} (hordered : ∀ w, result = some w → w.IsOrdered) :
    ListsRows result columns rows n time ↔
      ∃ p, schema.read? .defaults result = .ok p ∧ HasRows p columns rows n time := by
  have hnone : GivesRows [] columns rows n time ↔
      ∃ p, (.ok .defaults : Except Mismatch QueryPayload) = .ok p ∧
        HasRows p columns rows n time := by
    simp only [givesRows_nil_iff, Except.ok.injEq, exists_eq_left']
  -- no result and a result that is null are not read: every field has its default
  cases result with
  | none => exact hnone
  | some w =>
    cases w with
    | null => exact hnone
    | _ => exact exists_given_iff (hordered _ rfl)

end QueryPayload

/-! ## Ragged rows -/

/-- The first row, counted from zero, that has not one cell per column. -/
structure IsFirstRagged (width : Nat) (rows : List (List String)) (i : Nat) (row : List String) :
    Prop where
  getElem? : rows[i]? = some row
  ragged : row.length ≠ width
  before : ∀ r ∈ rows.take i, r.length = width

theorem exists_isFirstRagged {width index k cells : Nat} {rows : List (List String)}
    (h : firstRagged? width index rows = some (k, cells)) :
    ∃ i row, IsFirstRagged width rows i row ∧ k = index + i ∧ cells = row.length := by
  induction rows generalizing index with
  | nil => cases h
  | cons row rows ih =>
    rw [firstRagged?] at h
    split at h
    · rename_i hrow
      obtain ⟨i, found, hfound, rfl, rfl⟩ := ih h
      refine ⟨i + 1, found, ⟨hfound.getElem?, hfound.ragged, ?_⟩, by omega, rfl⟩
      rw [List.take_succ_cons]
      exact List.forall_mem_cons.2 ⟨hrow, hfound.before⟩
    · rename_i hrow
      cases h
      exact ⟨0, row, ⟨rfl, hrow, by simp⟩, rfl, rfl⟩

namespace QueryPayload

variable {p : QueryPayload} {command : String}

/-- The result of a payload is what the payload holds, nothing cut off and nothing filled up. -/
theorem toResult_eq_ok_iff {q : QueryResult} :
    p.toResult command = .ok q ↔ p.HasRows q.columns q.rows q.recordsRead q.time := by
  constructor
  · intro h
    unfold toResult at h
    dsimp only at h
    split at h <;> cases h
    exact ⟨rfl, rfl, rfl, rfl⟩
  · rintro ⟨hcolumns, hrows, hrecords, htime⟩
    have hrectangular : ∀ row ∈ p.data.getD [], row.length = (p.columns.getD []).length := by
      rw [hcolumns, hrows]
      exact q.rectangular
    rw [toResult_of_rectangular hrectangular]
    obtain ⟨columns, rows, n, time, h⟩ := q
    subst hcolumns hrows hrecords htime
    rfl

/-- A payload with a ragged row has no result. -/
theorem toResult_of_ragged
    (h : ∃ row ∈ p.data.getD [], row.length ≠ (p.columns.getD []).length) :
    ∃ i row, IsFirstRagged (p.columns.getD []).length (p.data.getD []) i row ∧
      p.toResult command =
        .error (.protocol command (.raggedRow i row.length (p.columns.getD []).length)) := by
  obtain ⟨row, hmem, hrow⟩ := h
  unfold toResult
  dsimp only
  split
  · rename_i hnone
    exact absurd (length_of_firstRagged?_eq_none hnone row hmem) hrow
  · rename_i index cells hsome
    obtain ⟨i, found, hfound, rfl, rfl⟩ := exists_isFirstRagged hsome
    exact ⟨i, found, hfound, by rw [Nat.zero_add]⟩

end QueryPayload

/-! ## Replies -/

namespace Envelope

variable {e : Envelope} {command : String} {columns : List String} {rows : List (List String)}
  {n : UInt64} {time : Binary64}

/-- How the reply to a query is read, if it is a success. -/
theorem toResult_of_query (hsuccess : e.success = true) (hkind : e.kind = some "query") :
    e.toResult command = (e.payload QueryPayload.schema .defaults command).bind fun p =>
      (p.toResult command).map ExecuteResult.query := by
  have haccepted : e.ensureSuccess command = .ok e := if_pos hsuccess
  rw [toResult, haccepted]
  simp only [bind, Except.bind, if_pos hkind]
  rcases e.payload QueryPayload.schema .defaults command with err | p
  · rfl
  · dsimp only
    cases p.toResult command <;> rfl

/-- The rows of a reply are those that it lists. -/
theorem toResult_eq_query_iff (hordered : ∀ w, e.result = some w → w.IsOrdered)
    {q : QueryResult} :
    e.toResult command = .ok (.query q) ↔
      e.success = true ∧ e.kind = some "query" ∧
        ListsRows e.result q.columns q.rows q.recordsRead q.time := by
  simp only [QueryPayload.listsRows_iff hordered]
  constructor
  · intro h
    obtain ⟨accepted, haccepted, -⟩ := exists_of_bind_ok h
    obtain ⟨hsuccess, rfl⟩ := of_ensureSuccess haccepted
    rcases cases_of_toResult h with ⟨-, -, hkind, -⟩ | ⟨s, -, ⟨⟩⟩
    rw [toResult_of_query hsuccess hkind] at h
    obtain ⟨p, hpayload, hresult⟩ := exists_of_bind_ok h
    obtain ⟨q', hq', hq⟩ := exists_of_map_ok hresult
    cases hq
    exact ⟨hsuccess, hkind, p, read?_of_payload hpayload, QueryPayload.toResult_eq_ok_iff.1 hq'⟩
  · rintro ⟨hsuccess, hkind, p, hread, hp⟩
    have hpayload : e.payload QueryPayload.schema .defaults command = .ok p := by
      rw [payload, hread]
    exact toResult_of_payload hsuccess hkind hpayload (QueryPayload.toResult_eq_ok_iff.2 hp)

/-- A reply that lists a ragged row is an error that names the first such row. -/
theorem toResult_of_ragged (hordered : ∀ w, e.result = some w → w.IsOrdered)
    (hsuccess : e.success = true) (hkind : e.kind = some "query")
    (hlists : ListsRows e.result columns rows n time)
    (hragged : ∃ row ∈ rows, row.length ≠ columns.length) :
    ∃ i row, IsFirstRagged columns.length rows i row ∧
      e.toResult command =
        .error (.protocol command (.raggedRow i row.length columns.length)) := by
  obtain ⟨p, hread, ⟨rfl, rfl, rfl, rfl⟩⟩ := (QueryPayload.listsRows_iff hordered).1 hlists
  obtain ⟨i, row, hfirst, hresult⟩ := QueryPayload.toResult_of_ragged hragged
  refine ⟨i, row, hfirst, ?_⟩
  rw [toResult_of_query hsuccess hkind, payload, hread]
  show (p.toResult command).map ExecuteResult.query = _
  rw [hresult]
  rfl

/-- A reply that lists no rows is an error, too. -/
theorem toResult_of_not_listsRows (hordered : ∀ w, e.result = some w → w.IsOrdered)
    (hsuccess : e.success = true) (hkind : e.kind = some "query")
    (hlists : ¬∃ columns rows n time, ListsRows e.result columns rows n time) :
    ∃ mismatch, e.toResult command = .error (.protocol command (.payload mismatch)) := by
  rw [toResult_of_query hsuccess hkind, payload]
  cases hread : QueryPayload.schema.read? .defaults e.result with
  | error mismatch => exact ⟨mismatch, rfl⟩
  | ok p =>
    have hrows : p.HasRows (p.columns.getD []) (p.data.getD []) p.recordsRead (p.time.getD .zero) :=
      ⟨rfl, rfl, rfl, rfl⟩
    exact absurd ⟨_, _, _, _, (QueryPayload.listsRows_iff hordered).2 ⟨p, hread, hrows⟩⟩ hlists

end Envelope
end DbClient
