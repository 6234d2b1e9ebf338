import DbClient.Proofs.Reply.Given
import DbClient.Reply.Decode

/-!
# Fields of the payload of a query

The schema of a query has three plain fields and the time. A payload can be read exactly if it
gives no field twice and each field what it takes; the fields then hold what is given, or their
defaults.
-/

namespace DbClient

namespace Setter

variable {α π : Type} {v : Json} {p p' : π}

theorem exists_of_ok {read : Json → Except Mismatch α} {put : α → π → π}
    (h : Setter.of read put v p = .ok p') : ∃ a, read v = .ok a ∧ put a p = p' := by
  unfold Setter.of at h
  cases hread : read v with
  | error m =>
    rw [hread] at h
    cases h
  | ok a =>
    rw [hread] at h
    exact ⟨a, rfl, Except.ok.inj h⟩

theorem exists_of_time_ok {given : π → Option Binary64} {put : Binary64 → π → π}
    (h : Setter.time given put v p = .ok p') :
    ∃ x, given p = none ∧ Json.readReal v = .ok x ∧ put x p = p' := by
  unfold Setter.time at h
  split at h
  · cases h
  · rename_i hnone
    obtain ⟨x, hx, hput⟩ := exists_of_ok h
    exact ⟨x, hnone, hx, hput⟩

/-- A value that is taken into one payload is taken into every payload. -/
theorem exists_of_takes {read : Json → Except Mismatch α} {put : α → π → π}
    (h : Setter.of read put v p = .ok p') (q : π) : ∃ q', Setter.of read put v q = .ok q' := by
  obtain ⟨a, ha, -⟩ := exists_of_ok h
  exact ⟨put a q, congrArg (Except.map _) ha⟩

theorem exists_of_time_takes {given : π → Option Binary64} {put : Binary64 → π → π} {q : π}
    (h : Setter.time given put v p = .ok p') (hq : given q = none) :
    ∃ q', Setter.time given put v q = .ok q' := by
  obtain ⟨x, -, hx, -⟩ := exists_of_time_ok h
  refine ⟨put x q, ?_⟩
  rw [Setter.time, hq]
  exact congrArg (Except.map _) hx

end Setter

namespace QueryPayload

variable {name : String} {set : Setter QueryPayload} {v w : Json} {p p' : QueryPayload}
  {given : List (String × Json)}

/-- How the columns of a query reply are read. -/
abbrev readColumns : Json → Except Mismatch (Option (List String)) :=
  Json.readOption (Json.readList Json.readString)

/-- How the rows of a query reply are read. -/
abbrev readRows : Json → Except Mismatch (Option (List (List String))) :=
  Json.readOption (Json.readList (Json.readList Json.readString))

/-- The four setters, by the names of their fields. -/
theorem lookup_cases (h : schema.fields.lookup name = some set) :
    name = "columns" ∧ set = .of readColumns (fun c p => { p with columns := c }) ∨
      name = "data" ∧ set = .of readRows (fun d p => { p with data := d }) ∨
      name = "records_read" ∧ set = .of Json.readUnsigned (fun n p => { p with recordsRead := n }) ∨
      name = "time_ms" ∧ set = .time (·.time) (fun t p => { p with time := some t }) := by
  simp only [schema, List.lookup_cons, List.lookup_nil] at h
  split at h
  · rename_i hname
    exact .inl ⟨by simpa using hname, (Option.some.inj h).symm⟩
  split at h
  · rename_i hname
    exact .inr (.inl ⟨by simpa using hname, (Option.some.inj h).symm⟩)
  split at h
  · rename_i hname
    exact .inr (.inr (.inl ⟨by simpa using hname, (Option.some.inj h).symm⟩))
  split at h
  · rename_i hname
    exact .inr (.inr (.inr ⟨by simpa using hname, (Option.some.inj h).symm⟩))
  · cases h

/-- A setter changes the one field that it is for. -/
theorem frame (h : schema.fields.lookup name = some set) (hset : set v p = .ok p') :
    (name ≠ "columns" → p'.columns = p.columns) ∧ (name ≠ "data" → p'.data = p.data) ∧
      (name ≠ "records_read" → p'.recordsRead = p.recordsRead) ∧
      (name ≠ "time_ms" → p'.time = p.time) := by
  rcases lookup_cases h with ⟨rfl, rfl⟩ | ⟨rfl, rfl⟩ | ⟨rfl, rfl⟩ | ⟨rfl, rfl⟩
  · obtain ⟨a, -, rfl⟩ := Setter.exists_of_ok hset
    simp
  · obtain ⟨a, -, rfl⟩ := Setter.exists_of_ok hset
    simp
  · obtain ⟨a, -, rfl⟩ := Setter.exists_of_ok hset
    simp
  · obtain ⟨a, -, -, rfl⟩ := Setter.exists_of_time_ok hset
    simp

theorem isField_columns : schema.IsField "columns" QueryPayload.columns readColumns where
  own := by
    refine ⟨_, rfl, ?_⟩
    intro v p p' h
    obtain ⟨columns, hcolumns, rfl⟩ := Setter.exists_of_ok h
    exact hcolumns
  frame hne hset h := (frame hset h).1 hne

theorem isField_data : schema.IsField "data" QueryPayload.data readRows where
  own := by
    refine ⟨_, rfl, ?_⟩
    intro v p p' h
    obtain ⟨rows, hrows, rfl⟩ := Setter.exists_of_ok h
    exact hrows
  frame hne hset h := (frame hset h).2.1 hne

theorem isField_recordsRead :
    schema.IsField "records_read" QueryPayload.recordsRead Json.readUnsigned where
  own := by
    refine ⟨_, rfl, ?_⟩
    intro v p p' h
    obtain ⟨n, hn, rfl⟩ := Setter.exists_of_ok h
    exact hn
  frame hne hset h := (frame hset h).2.2.1 hne

theorem isTime_time : schema.IsTime QueryPayload.time where
  own := by
    refine ⟨_, rfl, ?_⟩
    intro v p p' h
    obtain ⟨x, -, hx, rfl⟩ := Setter.exists_of_time_ok h
    rw [Schema.readTime, hx]
    rfl
  frame hne hset h := (frame hset h).2.2.2 hne
  once hset h := by
    cases hset
    obtain ⟨x, hnone, -, -⟩ := Setter.exists_of_time_ok h
    exact hnone
  takes := by
    intro name set v p p' q hset h hfresh
    rcases lookup_cases hset with ⟨rfl, rfl⟩ | ⟨rfl, rfl⟩ | ⟨rfl, rfl⟩ | ⟨rfl, rfl⟩
    · exact Setter.exists_of_takes h q
    · exact Setter.exists_of_takes h q
    · exact Setter.exists_of_takes h q
    · exact Setter.exists_of_time_takes h (hfresh rfl)

theorem names_nodup : (schema.fields.map Prod.fst).Nodup := by
  decide

/-- Values under the names of fields that the payload holds, each field once. -/
structure Holds (given : List (String × Json)) (p : QueryPayload) : Prop where
  once : (given.map Prod.fst).Nodup
  columns : Schema.Reads readColumns none (given.lookup "columns") p.columns
  data : Schema.Reads readRows none (given.lookup "data") p.data
  recordsRead : Schema.Reads Json.readUnsigned 0 (given.lookup "records_read") p.recordsRead
  time : Schema.Reads Schema.readTime none (given.lookup "time_ms") p.time

/-- What the payload holds decides it. -/
theorem Holds.unique (h : Holds given p) (h' : Holds given p') : p = p' := by
  obtain ⟨columns, data, recordsRead, time⟩ := p
  cases h.columns.unique h'.columns
  cases h.data.unique h'.data
  cases h.recordsRead.unique h'.recordsRead
  cases h.time.unique h'.time
  rfl

theorem holds_of_foldlM (honce : (given.map Prod.fst).Nodup)
    (h : given.foldlM schema.readGiven .defaults = .ok p) : Holds given p where
  once := honce
  columns := isField_columns.reads honce h
  data := isField_data.reads honce h
  recordsRead := isField_recordsRead.reads honce h
  time := isTime_time.reads honce h

/-- Each value of a payload that holds is one that its field takes. -/
theorem Holds.exists_readGiven (h : Holds given p) {g : String × Json} (hg : g ∈ given) :
    ∃ q q', schema.readGiven q g = .ok q' := by
  obtain ⟨name, v⟩ := g
  have hlookup := lookup_of_mem h.once hg
  cases hset : schema.fields.lookup name with
  | none => exact ⟨p, p, by rw [Schema.readGiven, hset]⟩
  | some set =>
    simp only [Schema.readGiven_of_lookup hset]
    rcases lookup_cases hset with ⟨rfl, rfl⟩ | ⟨rfl, rfl⟩ | ⟨rfl, rfl⟩ | ⟨rfl, rfl⟩
    · have hread := h.columns
      rw [hlookup] at hread
      exact ⟨p, _, congrArg (Except.map _) hread⟩
    · have hread := h.data
      rw [hlookup] at hread
      exact ⟨p, _, congrArg (Except.map _) hread⟩
    · have hread := h.recordsRead
      rw [hlookup] at hread
      exact ⟨p, _, congrArg (Except.map _) hread⟩
    · have hread := h.time
      rw [hlookup] at hread
      obtain ⟨x, hx, -⟩ := exists_of_map_ok hread
      exact ⟨.defaults, _, congrArg (Except.map _) hx⟩

/-- A payload can be read exactly if it gives what it is then read as. -/
theorem read_eq_ok_iff (hordered : w.IsOrdered) :
    schema.read .defaults w = .ok p ↔ ∃ given, schema.given? w = some given ∧ Holds given p := by
  rw [Schema.read_eq_ok_iff names_nodup]
  constructor
  · rintro ⟨given, hgiven, hread⟩
    have honce := isTime_time.nodup_of_read names_nodup hordered hgiven hread
    exact ⟨given, hgiven, holds_of_foldlM honce hread⟩
  · rintro ⟨given, hgiven, hholds⟩
    obtain ⟨p', hp'⟩ := isTime_time.exists_foldlM hholds.once (fun g => hholds.exists_readGiven)
      (p := .defaults) fun _ => rfl
    cases hholds.unique (holds_of_foldlM hholds.once hp')
    exact ⟨given, hgiven, hp'⟩

/-- The rows of a reply are as many as the items of the member `data`, if that is an
array, and otherwise none. -/
theorem length_rows {members : List (String × Json)} (hordered : NameMap.Ordered members)
    (h : schema.read .defaults (.object members) = .ok p) :
    (p.data.getD []).length =
      (((members.lookup "data").bind Json.array?).map List.length).getD 0 := by
  have hobject : (Json.object members).IsOrdered := by
    rintro _ ⟨⟩
    exact hordered
  obtain ⟨given, ⟨⟩, hholds⟩ := (read_eq_ok_iff hobject).1 h
  have hdata := hholds.data
  rw [Schema.lookup_map_ofMember (by decide) (by decide)] at hdata
  cases hv : members.lookup "data" with
  | none =>
    rw [hv] at hdata
    rw [show p.data = none from hdata]
    rfl
  | some v =>
    rw [hv] at hdata
    have hread : readRows v = .ok p.data := hdata
    cases v with
    | null =>
      rw [← Except.ok.inj hread]
      rfl
    | array items =>
      obtain ⟨rows, hrows, hsome⟩ : ∃ rows, items.mapM (Json.readList Json.readString) = .ok rows ∧
          some rows = p.data := exists_of_map_ok hread
      rw [← hsome]
      exact length_of_mapM hrows
    | _ => cases hread

theorem rows_of_toResult {p : QueryPayload} {command : String} {q : QueryResult}
    (h : p.toResult command = .ok q) : q.rows = p.data.getD [] := by
  unfold toResult at h
  dsimp only at h
  split at h <;> cases h
  rfl

end QueryPayload

namespace Envelope

variable {e : Envelope} {command : String}

theorem of_ensureSuccess {accepted : Envelope} (h : e.ensureSuccess command = .ok accepted) :
    e.success = true ∧ accepted = e := by
  unfold ensureSuccess at h
  split at h
  · rename_i hsuccess
    cases h
    exact ⟨hsuccess, rfl⟩
  · cases h

theorem read?_of_payload {π : Type} {schema : Schema π} {defaults p : π}
    (h : e.payload schema defaults command = .ok p) : schema.read? defaults e.result = .ok p := by
  unfold payload at h
  split at h <;> cases h
  assumption

/-- A typed result is rows of the result of a query, or a summary of changes. -/
theorem cases_of_toResult {r : ExecuteResult} (h : e.toResult command = .ok r) :
    (∃ p q, e.kind = some "query" ∧ QueryPayload.schema.read? .defaults e.result = .ok p ∧
        q.rows = p.data.getD [] ∧ r = .query q) ∨
      ∃ s, e.kind ≠ some "query" ∧ r = .commit s := by
  obtain ⟨accepted, haccepted, hresult⟩ := exists_of_bind_ok h
  obtain ⟨-, rfl⟩ := of_ensureSuccess haccepted
  split at hresult
  · rename_i hkind
    obtain ⟨p, hpayload, hresult⟩ := exists_of_bind_ok hresult
    obtain ⟨q, hrows, hresult⟩ := exists_of_bind_ok hresult
    cases hresult
    exact .inl ⟨p, q, hkind, read?_of_payload hpayload, QueryPayload.rows_of_toResult hrows, rfl⟩
  · rename_i hkind
    split at hresult
    · obtain ⟨p, -, hresult⟩ := exists_of_bind_ok hresult
      cases hresult
      exact .inr ⟨_, hkind, rfl⟩
    · cases hresult
      exact .inr ⟨_, hkind, rfl⟩

end Envelope
end DbClient
