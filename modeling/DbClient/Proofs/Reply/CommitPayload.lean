import DbClient.Proofs.Reply.QueryPayload
import Mathlib.Tactic.FinCases

/-!
# Payloads of commits

An object is the payload of a commit if each of its six counters is an integer that fits sixty-four
bits, its time is a number, and the time is given under one name only. The summary then holds what
the members say, and zero for those that are left out. If a member does not fit, the first that
does not is the one reported. No other member plays a part.
-/

namespace DbClient

/-! ## Counters -/

/-- A counter: its name in the payload, its place in the summary, and how it gets into the
payload. -/
structure Counter where
  name : String
  of : CommitResult → UInt64
  put : UInt64 → CommitPayload → CommitPayload

namespace Counter

/-- The counters of a commit. -/
def all : List Counter := [
  ⟨"databases_created", (·.databasesCreated), fun n p => { p with databasesCreated := n }⟩,
  ⟨"databases_deleted", (·.databasesDeleted), fun n p => { p with databasesDeleted := n }⟩,
  ⟨"tables_created", (·.tablesCreated), fun n p => { p with tablesCreated := n }⟩,
  ⟨"tables_deleted", (·.tablesDeleted), fun n p => { p with tablesDeleted := n }⟩,
  ⟨"records_written", (·.recordsWritten), fun n p => { p with recordsWritten := n }⟩,
  ⟨"records_deleted", (·.recordsDeleted), fun n p => { p with recordsDeleted := n }⟩]

variable {k k' : Counter} {n : UInt64} {p : CommitPayload}

/-- A counter that is put is found in the summary. -/
theorem of_put (hk : k ∈ all) : k.of (k.put n p).toResult = n := by
  fin_cases hk <;> rfl

/-- Putting a counter changes no other. -/
theorem of_put_of_ne (hk : k ∈ all) (hk' : k' ∈ all) (hne : k.name ≠ k'.name) :
    k'.of (k.put n p).toResult = k'.of p.toResult := by
  fin_cases hk <;>
    fin_cases hk' <;>
    first
    | rfl
    | exact absurd rfl hne

theorem time_put (hk : k ∈ all) : (k.put n p).time = p.time := by
  fin_cases hk <;> rfl

theorem of_time (hk : k ∈ all) (t : Option Binary64) :
    k.of { p with time := t }.toResult = k.of p.toResult := by
  fin_cases hk <;> rfl

theorem of_defaults (hk : k ∈ all) : k.of CommitPayload.defaults.toResult = 0 := by
  fin_cases hk <;> rfl

theorem name_ne (hk : k ∈ all) : k.name ≠ "time_ms" ∧ k.name ≠ "execution_time_ms" := by
  fin_cases hk <;> decide

end Counter

namespace CommitPayload

variable {name : String} {set : Setter CommitPayload} {k : Counter} {p p' : CommitPayload}
  {v : Json} {members : List (String × Json)}

theorem names_nodup : (schema.fields.map Prod.fst).Nodup := by
  decide

theorem fields_eq : schema.fields =
    Counter.all.map (fun k => (k.name, .of Json.readUnsigned k.put)) ++
      [("time_ms", .time (·.time) fun t p => { p with time := some t })] := rfl

theorem lookup_counter (hk : k ∈ Counter.all) :
    schema.fields.lookup k.name = some (.of Json.readUnsigned k.put) := by
  refine lookup_of_mem names_nodup ?_
  rw [fields_eq]
  exact List.mem_append_left _ (List.mem_map_of_mem hk)

/-- A setter is one for a counter, or the one for the time. -/
theorem lookup_cases (h : schema.fields.lookup name = some set) :
    (∃ k ∈ Counter.all, name = k.name ∧ set = .of Json.readUnsigned k.put) ∨
      name = "time_ms" ∧ set = .time (·.time) (fun t p => { p with time := some t }) := by
  obtain ⟨before, after, hfields, -⟩ := List.lookup_eq_some_iff.1 h
  have hmem : (name, set) ∈ schema.fields := by simp [hfields]
  rw [fields_eq] at hmem
  rcases List.mem_append.1 hmem with hmem | hmem
  · obtain ⟨k, hk, heq⟩ := List.mem_map.1 hmem
    cases heq
    exact .inl ⟨k, hk, rfl, rfl⟩
  · cases List.mem_singleton.1 hmem
    exact .inr ⟨rfl, rfl⟩

theorem isField_counter (hk : k ∈ Counter.all) :
    schema.IsField k.name (fun p => k.of p.toResult) Json.readUnsigned where
  own := by
    refine ⟨_, lookup_counter hk, ?_⟩
    intro v p p' h
    obtain ⟨n, hn, rfl⟩ := Setter.exists_of_ok h
    rw [Counter.of_put hk]
    exact hn
  frame := by
    intro name set v p p' hne hset h
    rcases lookup_cases hset with ⟨k', hk', rfl, rfl⟩ | ⟨rfl, rfl⟩
    · obtain ⟨n, -, rfl⟩ := Setter.exists_of_ok h
      exact Counter.of_put_of_ne hk' hk hne
    · obtain ⟨x, -, -, rfl⟩ := Setter.exists_of_time_ok h
      exact Counter.of_time hk _

theorem isTime_time : schema.IsTime CommitPayload.time where
  own := by
    refine ⟨_, rfl, ?_⟩
    intro v p p' h
    obtain ⟨x, -, hx, rfl⟩ := Setter.exists_of_time_ok h
    rw [Schema.readTime, hx]
    rfl
  frame := by
    intro name set v p p' hne hset h
    rcases lookup_cases hset with ⟨k, hk, rfl, rfl⟩ | ⟨rfl, rfl⟩
    · obtain ⟨n, -, rfl⟩ := Setter.exists_of_ok h
      exact Counter.time_put hk
    · exact absurd rfl hne
  once := by
    intro set v p p' hset h
    cases hset
    obtain ⟨x, hnone, -, -⟩ := Setter.exists_of_time_ok h
    exact hnone
  takes := by
    intro name set v p p' q hset h hfresh
    rcases lookup_cases hset with ⟨k, hk, rfl, rfl⟩ | ⟨rfl, rfl⟩
    · exact Setter.exists_of_takes h q
    · exact Setter.exists_of_time_takes h (hfresh rfl)

end CommitPayload

/-! ## What the members say -/

/-- The two names of the time. -/
def timeNames : List String := ["time_ms", "execution_time_ms"]

theorem fieldName_eq_time_iff {name : String} :
    Schema.fieldName name = "time_ms" ↔ name ∈ timeNames := by
  rw [Schema.fieldName, timeNames]
  split <;> simp_all

theorem fieldName_eq_counter_iff {k : Counter} (hk : k ∈ Counter.all) {name : String} :
    Schema.fieldName name = k.name ↔ name = k.name := by
  obtain ⟨htime, hother⟩ := Counter.name_ne hk
  rw [Schema.fieldName]
  split
  · simp_all [eq_comm]
  · rfl

/-- Members that are the payload of a commit: each counter that is there is an integer that fits
sixty-four bits without a sign, each time is a number, and the time is there under one name only. -/
structure FitsCommit (members : List (String × Json)) : Prop where
  counters : ∀ k ∈ Counter.all, ∀ v, members.lookup k.name = some v →
    ∃ n : Int, v = .integer n ∧ 0 ≤ n ∧ n ≤ maxUnsigned
  times : ∀ name ∈ timeNames, ∀ v, members.lookup name = some v → ∃ x, v.IsNumber x
  once : members.lookup "time_ms" = none ∨ members.lookup "execution_time_ms" = none

/-- The summary that members give: a counter is the member's value, or zero without a member, and
so is the time, under either name. -/
structure GivesCommit (members : List (String × Json)) (c : CommitResult) : Prop where
  counters : ∀ k ∈ Counter.all, members.lookup k.name = some (.integer (k.of c).toNat) ∨
    members.lookup k.name = none ∧ k.of c = 0
  time : (∃ name ∈ timeNames, ∃ v, members.lookup name = some v ∧ v.IsNumber c.time) ∨
    (∀ name ∈ timeNames, members.lookup name = none) ∧ c.time = .zero

/-- How a member does not fit, after those before it: it is a counter that is out of range or no
integer, or a time that is no number or comes a second time. -/
inductive Unfit (before : List (String × Json)) : String × Json → Mismatch → Prop
  | range {k : Counter} {n : Int} (hk : k ∈ Counter.all) (hn : ¬(0 ≤ n ∧ n ≤ maxUnsigned)) :
    Unfit before (k.name, .integer n) (.outOfRange (.integer n) .unsigned)
  | counter {k : Counter} {v : Json} (hk : k ∈ Counter.all) (hv : ∀ n, v ≠ .integer n) :
    Unfit before (k.name, v) (.wrongType v.found .unsigned)
  | time {name : String} {v : Json} (hname : name ∈ timeNames)
    (hfirst : ∀ other ∈ timeNames, before.lookup other = none) (hv : ∀ x, ¬v.IsNumber x) :
    Unfit before (name, v) (.wrongType v.found .real)
  | twice {name other : String} {v w : Json} (hname : name ∈ timeNames)
    (hother : other ∈ timeNames) (hgiven : before.lookup other = some w) :
    Unfit before (name, v) (.duplicateField "time_ms")

section Times

variable {members : List (String × Json)} {v : Json}

/-- The time that is given is that of a member with either name. -/
theorem exists_time_of_lookup (hordered : NameMap.Ordered members)
    (h : (members.map Schema.ofMember).lookup "time_ms" = some v) :
    ∃ name ∈ timeNames, members.lookup name = some v := by
  obtain ⟨before, after, hsplit, -⟩ := List.lookup_eq_some_iff.1 h
  have hmem : ("time_ms", v) ∈ members.map Schema.ofMember := by simp [hsplit]
  obtain ⟨m, hm, heq⟩ := List.mem_map.1 hmem
  obtain ⟨hname, rfl⟩ := Prod.mk.inj heq
  exact ⟨m.1, fieldName_eq_time_iff.1 hname, hordered.mem_iff.1 hm⟩

theorem lookup_time_eq_none_iff :
    (members.map Schema.ofMember).lookup "time_ms" = none ↔
      ∀ name ∈ timeNames, members.lookup name = none := by
  simp only [List.lookup_eq_none_iff, List.forall_mem_map, bne_iff_ne]
  constructor
  · rintro h name hname m hm rfl
    exact h m hm (fieldName_eq_time_iff.2 hname).symm
  · intro h m hm hname
    exact h m.1 (fieldName_eq_time_iff.1 hname.symm) m hm rfl

/-- With one of the names absent, the members that give the time have the other. -/
theorem timeName_unique (hordered : NameMap.Ordered members)
    (h : members.lookup "time_ms" = none ∨ members.lookup "execution_time_ms" = none)
    {a b : String × Json} (ha : a ∈ members) (hb : b ∈ members) (hnamea : a.1 ∈ timeNames)
    (hnameb : b.1 ∈ timeNames) : a.1 = b.1 := by
  have habsent : ∀ {name : String}, members.lookup name = none → ∀ m ∈ members, m.1 ≠ name := by
    rintro _ hnone m hm rfl
    rw [hordered.mem_iff.1 hm] at hnone
    cases hnone
  simp only [timeNames, List.mem_cons, List.not_mem_nil, or_false] at hnamea hnameb
  rcases h with h | h
  · exact (hnamea.resolve_left (habsent h a ha)).trans (hnameb.resolve_left (habsent h b hb)).symm
  · exact (hnamea.resolve_right (habsent h a ha)).trans (hnameb.resolve_right (habsent h b hb)).symm

/-- No field is given twice if the time is not. -/
theorem nodup_map_ofMember_iff (hordered : NameMap.Ordered members) :
    ((members.map Schema.ofMember).map Prod.fst).Nodup ↔
      members.lookup "time_ms" = none ∨ members.lookup "execution_time_ms" = none := by
  rw [List.map_map]
  constructor
  · intro h
    cases htime : members.lookup "time_ms" with
    | none => exact .inl rfl
    | some v =>
      cases hother : members.lookup "execution_time_ms" with
      | none => exact .inr rfl
      | some w =>
        -- two members would give the one field
        have heq := List.inj_on_of_nodup_map h (hordered.mem_iff.2 htime)
          (hordered.mem_iff.2 hother) rfl
        have hnames : "time_ms" = "execution_time_ms" := congrArg Prod.fst heq
        exact absurd hnames (by decide)
  · intro h
    refine List.pairwise_map.2 (hordered.imp_of_mem fun {a b} ha hb hlt hsame => ?_)
    replace hsame : Schema.fieldName a.1 = Schema.fieldName b.1 := hsame
    have hne : a.1 ≠ b.1 := String.ne_of_lt hlt
    -- only the time is one field under two names
    have hleft := Schema.IsTime.fieldName_eq hne hsame
    have hright := hsame.symm.trans hleft
    exact hne (timeName_unique hordered h ha hb (fieldName_eq_time_iff.1 hleft)
      (fieldName_eq_time_iff.1 hright))

end Times

namespace CommitPayload

variable {members : List (String × Json)} {p : CommitPayload} {k : Counter} {v : Json}
  {m : Mismatch}

/-! ## Reading -/

/-- A counter that is read is the value of its member, or zero without one. -/
theorem counter_of_read (hordered : NameMap.Ordered members)
    (h : schema.read .defaults (.object members) = .ok p) (hk : k ∈ Counter.all) :
    members.lookup k.name = some (.integer (k.of p.toResult).toNat) ∨
      members.lookup k.name = none ∧ k.of p.toResult = 0 := by
  rw [Schema.read_object] at h
  obtain ⟨hname, hname'⟩ := Counter.name_ne hk
  have hreads := (isField_counter hk).reads (isTime_time.nodup_of_members hordered h) h
  rw [Schema.lookup_map_ofMember hname hname', Counter.of_defaults hk] at hreads
  exact Schema.reads_unsigned_iff.1 hreads

/-- What is read of an object fits, and the payload holds what its members say. -/
theorem gives_of_read (hordered : NameMap.Ordered members)
    (h : schema.read .defaults (.object members) = .ok p) :
    FitsCommit members ∧ GivesCommit members p.toResult := by
  have hcounters {k} (hk : k ∈ Counter.all) := counter_of_read hordered h hk
  rw [Schema.read_object] at h
  have honce := isTime_time.nodup_of_members hordered h
  have htime := isTime_time.reads honce h
  refine ⟨⟨?_, ?_, (nodup_map_ofMember_iff hordered).1 honce⟩, fun _ => hcounters, ?_⟩
  · intro k hk v hv
    rcases hcounters hk with hgiven | ⟨hnone, -⟩
    · have hmax : (k.of p.toResult).toNat ≤ maxUnsigned :=
        Nat.le_of_lt_succ (k.of p.toResult).toNat_lt
      rw [hv] at hgiven
      exact ⟨_, Option.some.inj hgiven, Int.natCast_nonneg _, Int.ofNat_le.2 hmax⟩
    · rw [hv] at hnone
      cases hnone
  · intro name hname v hv
    have hmem : ("time_ms", v) ∈ members.map Schema.ofMember := by
      rw [← fieldName_eq_time_iff.2 hname]
      exact List.mem_map_of_mem (f := Schema.ofMember) (hordered.mem_iff.2 hv)
    rw [lookup_of_mem honce hmem] at htime
    obtain ⟨x, hx, -⟩ := exists_of_map_ok htime
    exact ⟨x, Json.readReal_eq_ok_iff.1 hx⟩
  · rcases Schema.exists_reads_time_iff.1 ⟨_, htime, rfl⟩ with ⟨v, hv, hx⟩ | ⟨hnone, hzero⟩
    · obtain ⟨name, hname, hlookup⟩ := exists_time_of_lookup hordered hv
      exact .inl ⟨name, hname, v, hlookup, hx⟩
    · exact .inr ⟨lookup_time_eq_none_iff.1 hnone, hzero⟩

/-- The payload holds a time if a member gives one. -/
theorem time_eq_none_iff (hordered : NameMap.Ordered members)
    (h : schema.read .defaults (.object members) = .ok p) :
    p.time = none ↔ ∀ name ∈ timeNames, members.lookup name = none := by
  rw [Schema.read_object] at h
  have htime := isTime_time.reads (isTime_time.nodup_of_members hordered h) h
  rw [← lookup_time_eq_none_iff]
  cases hlookup : (members.map Schema.ofMember).lookup "time_ms" with
  | none =>
    rw [hlookup] at htime
    exact iff_of_true htime rfl
  | some v =>
    rw [hlookup] at htime
    obtain ⟨x, -, hx⟩ := exists_of_map_ok htime
    simp [← hx]

theorem readUnsigned_of_range {n : Int} (h : 0 ≤ n ∧ n ≤ maxUnsigned) :
    Json.readUnsigned (.integer n) = .ok (UInt64.ofNat n.toNat) := by
  simp [Json.readUnsigned, h.1, h.2]

/-- An object that fits is read. -/
theorem exists_read (hordered : NameMap.Ordered members) (h : FitsCommit members) :
    ∃ p, schema.read .defaults (.object members) = .ok p := by
  have htyped : ∀ g ∈ members.map Schema.ofMember, ∃ q q', schema.readGiven q g = .ok q' := by
    intro g hg
    obtain ⟨⟨name, v⟩, hm, rfl⟩ := List.mem_map.1 hg
    have hlookup := hordered.mem_iff.1 hm
    cases hset : schema.fields.lookup (Schema.fieldName name) with
    | none => exact ⟨.defaults, .defaults, by rw [Schema.ofMember, Schema.readGiven, hset]⟩
    | some set =>
      simp only [Schema.ofMember, Schema.readGiven_of_lookup hset]
      rcases lookup_cases hset with ⟨k, hk, hname, rfl⟩ | ⟨hname, rfl⟩
      · rw [(fieldName_eq_counter_iff hk).1 hname] at hlookup
        obtain ⟨n, rfl, hrange⟩ := h.counters k hk v hlookup
        exact ⟨.defaults, _, congrArg (Except.map _) (readUnsigned_of_range hrange)⟩
      · obtain ⟨x, hx⟩ := h.times name (fieldName_eq_time_iff.1 hname) v hlookup
        exact ⟨.defaults, _, congrArg (Except.map _) (Json.readReal_eq_ok_iff.2 hx)⟩
  have honce := (nodup_map_ofMember_iff hordered).2 h.once
  obtain ⟨p, hp⟩ := isTime_time.exists_foldlM honce htyped (p := .defaults) fun _ => rfl
  exact ⟨p, (Schema.read_object ..).trans hp⟩

section Unfit

variable {before : List (String × Json)}

theorem unfit_of_readUnsigned (hk : k ∈ Counter.all)
    (h : v.readUnsigned = .error m) : Unfit before (k.name, v) m := by
  cases v with
  | integer n =>
    have hrange : ¬(0 ≤ n ∧ n ≤ maxUnsigned) := by
      intro hrange
      rw [readUnsigned_of_range hrange] at h
      cases h
    rw [Json.readUnsigned] at h
    split at h
    · cases h
    · cases h
      exact .range hk hrange
  | _ =>
    cases h
    exact .counter hk (by simp)

theorem unfit_of_readReal {name : String} (hname : name ∈ timeNames)
    (hfirst : ∀ other ∈ timeNames, before.lookup other = none) (h : v.readReal = .error m) :
    Unfit before (name, v) m := by
  cases v with
  | integer | fraction => cases h
  | _ =>
    cases h
    exact .time hname hfirst nofun

end Unfit

/-- An object that is not read has a first member that does not fit. -/
theorem exists_unfit (hordered : NameMap.Ordered members)
    (h : schema.read .defaults (.object members) = .error m) :
    ∃ before member after, members = before ++ member :: after ∧ FitsCommit before ∧
      Unfit before member m := by
  obtain ⟨before, ⟨name, v⟩, after, p, rfl, hbefore, hmember⟩ := exists_of_foldlM_error h
  -- what stands before the member has been read, and so it fits
  have hfirst : NameMap.Ordered before := hordered.sublist (List.sublist_append_left _ _)
  refine ⟨before, (name, v), after, rfl, (gives_of_read hfirst hbefore).1, ?_⟩
  have hnone := time_eq_none_iff hfirst hbefore
  unfold Schema.readMember at hmember
  split at hmember
  · rename_i set hset
    rcases lookup_cases hset with ⟨k, hk, hname, rfl⟩ | ⟨hname, rfl⟩
    · cases (fieldName_eq_counter_iff hk).1 hname
      exact unfit_of_readUnsigned hk (eq_error_of_map hmember)
    · have htime := fieldName_eq_time_iff.1 hname
      unfold Setter.time at hmember
      split at hmember
      · rename_i x hx
        cases hmember
        have hgiven : ¬∀ other ∈ timeNames, before.lookup other = none := by
          rw [← hnone, show p.time = some x from hx]
          exact nofun
        push Not at hgiven
        obtain ⟨other, hother, hne⟩ := hgiven
        obtain ⟨w, hw⟩ := Option.ne_none_iff_exists'.1 hne
        exact .twice htime hother hw
      · rename_i hfresh
        exact unfit_of_readReal htime (hnone.1 hfresh) (eq_error_of_map hmember)
  · cases hmember

/-! ## Other members -/

/-- The names of the members that are fields. -/
def memberNames : List String :=
  Counter.all.map Counter.name ++ timeNames

theorem mem_memberNames_of_knows {name : String} (h : schema.knows name = true) :
    name ∈ memberNames := by
  obtain ⟨set, hset⟩ := Option.isSome_iff_exists.1 h
  rcases lookup_cases hset with ⟨k, hk, hname, -⟩ | ⟨hname, -⟩
  · rw [(fieldName_eq_counter_iff hk).1 hname]
    exact List.mem_append_left _ (List.mem_map_of_mem hk)
  · exact List.mem_append_right _ (fieldName_eq_time_iff.1 hname)

/-- Objects with the same fields are read as the same payload. -/
theorem read_congr {members' : List (String × Json)} (hordered : NameMap.Ordered members)
    (hordered' : NameMap.Ordered members')
    (hsame : ∀ name ∈ memberNames, members.lookup name = members'.lookup name) :
    schema.read .defaults (.object members) = schema.read .defaults (.object members') :=
  Schema.read_object_congr hordered hordered'
    (fun name hknows => hsame name (mem_memberNames_of_knows hknows)) _

end CommitPayload

/-! ## Replies -/

namespace Envelope

variable {e : Envelope} {members : List (String × Json)}

/-- How the reply to a commit is read, if it is a success. -/
theorem toResult_of_commit (hsuccess : e.success = true) (hkind : e.kind = some "commit")
    (hresult : e.result = some (.object members)) (command : String) :
    e.toResult command =
      match CommitPayload.schema.read .defaults (.object members) with
      | .ok p => .ok (.commit p.toResult)
      | .error m => .error (.protocol command (.payload m)) := by
  have haccepted : e.ensureSuccess command = .ok e := if_pos hsuccess
  have hquery : ¬some "commit" = some "query" := by decide
  have hread : CommitPayload.schema.read? .defaults e.result =
      CommitPayload.schema.read .defaults (.object members) := by
    rw [hresult]
    rfl
  rw [toResult, haccepted]
  simp only [bind, Except.bind, hkind, if_neg hquery, if_true, payload, hread]
  cases CommitPayload.schema.read .defaults (.object members) <;> rfl

theorem toResult_eq_ok_iff_of_commit {r : ExecuteResult} (hsuccess : e.success = true)
    (hkind : e.kind = some "commit") (hresult : e.result = some (.object members))
    (command : String) :
    e.toResult command = .ok r ↔
      ∃ p, CommitPayload.schema.read .defaults (.object members) = .ok p ∧
        r = .commit p.toResult := by
  rw [toResult_of_commit hsuccess hkind hresult]
  cases CommitPayload.schema.read .defaults (.object members) <;> simp [eq_comm]

theorem toResult_eq_error_iff_of_commit {err : ClientError} (hsuccess : e.success = true)
    (hkind : e.kind = some "commit") (hresult : e.result = some (.object members))
    (command : String) :
    e.toResult command = .error err ↔
      ∃ m, CommitPayload.schema.read .defaults (.object members) = .error m ∧
        err = .protocol command (.payload m) := by
  rw [toResult_of_commit hsuccess hkind hresult]
  cases CommitPayload.schema.read .defaults (.object members) <;> simp [eq_comm]

end Envelope

/-- A success of the type `commit` whose result is an object is a summary of changes exactly if the
members fit, and the summary is what they say. If they do not, the reply is an error that tells how
the first of them that does not fit fails to. Other members have no effect on either. The members
of an object are in the order of their names, as those of every object are that has been read. -/
theorem commit_iff_members_fit {e : Envelope} {members : List (String × Json)}
    (hordered : NameMap.Ordered members) (hsuccess : e.success = true)
    (hkind : e.kind = some "commit") (hresult : e.result = some (.object members))
    (command : String) :
    ((∃ r, e.toResult command = .ok r) ↔ FitsCommit members) ∧
      (∀ r, e.toResult command = .ok r → ∃ c, r = .commit c ∧ GivesCommit members c) ∧
      (∀ err, e.toResult command = .error err →
        ∃ before member after m, members = before ++ member :: after ∧ FitsCommit before ∧
          Unfit before member m ∧ err = .protocol command (.payload m)) ∧
      ∀ (e' : Envelope) (members' : List (String × Json)), NameMap.Ordered members' →
        e'.success = true → e'.kind = some "commit" → e'.result = some (.object members') →
        (∀ name ∈ CommitPayload.memberNames, members.lookup name = members'.lookup name) →
          e'.toResult command = e.toResult command := by
  have hok (r : ExecuteResult) :=
    Envelope.toResult_eq_ok_iff_of_commit (r := r) hsuccess hkind hresult command
  refine ⟨⟨?_, ?_⟩, ?_, ?_, ?_⟩
  · rintro ⟨r, hr⟩
    obtain ⟨p, hread, -⟩ := (hok r).1 hr
    exact (CommitPayload.gives_of_read hordered hread).1
  · intro hfits
    obtain ⟨p, hread⟩ := CommitPayload.exists_read hordered hfits
    exact ⟨_, (hok _).2 ⟨p, hread, rfl⟩⟩
  · intro r hr
    obtain ⟨p, hread, rfl⟩ := (hok r).1 hr
    exact ⟨_, rfl, (CommitPayload.gives_of_read hordered hread).2⟩
  · intro err herr
    obtain ⟨m, hread, rfl⟩ :=
      (Envelope.toResult_eq_error_iff_of_commit hsuccess hkind hresult command).1 herr
    obtain ⟨before, member, after, hsplit, hfits, hunfit⟩ :=
      CommitPayload.exists_unfit hordered hread
    exact ⟨before, member, after, m, hsplit, hfits, hunfit, rfl⟩
  · intro e' members' hordered' hsuccess' hkind' hresult' hsame
    rw [Envelope.toResult_of_commit hsuccess hkind hresult,
      Envelope.toResult_of_commit hsuccess' hkind' hresult',
      CommitPayload.read_congr hordered hordered' hsame]

/-- A reply with a member of its own, the time under its other name, and a counter. -/
def countedReply (deleted : Int) : Envelope :=
  { success := true
    kind := some "commit"
    result := some (.object [("execution_ops", .array [.null]), ("execution_time_ms", .integer 7),
      ("records_deleted", .integer deleted)])
    error := none }

/-- The largest counter is in the summary, and a negative one is an error. -/
theorem commit_of_countedReply :
    (∃ c, (countedReply 18446744073709551615).toResult "DELETE" = .ok (.commit c) ∧
      c.recordsDeleted = 18446744073709551615 ∧ c.tablesCreated = 0 ∧ c.time = .ofInt 7) ∧
      ∃ m, (countedReply (-1)).toResult "DELETE" =
        .error (.protocol "DELETE" (.payload m)) := by
  have hordered : ∀ n : Int, NameMap.Ordered [("execution_ops", Json.array [.null]),
      ("execution_time_ms", .integer 7), ("records_deleted", .integer n)] := by
    intro n
    have hnames : ["execution_ops", "execution_time_ms", "records_deleted"].Pairwise (· < ·) := by
      decide
    exact (List.pairwise_map (f := Prod.fst)).1 hnames
  constructor
  · obtain ⟨hiff, hgives, -, -⟩ := commit_iff_members_fit (e := countedReply 18446744073709551615)
      (hordered _) rfl rfl rfl "DELETE"
    have hfits : FitsCommit [("execution_ops", Json.array [.null]),
        ("execution_time_ms", .integer 7), ("records_deleted", .integer 18446744073709551615)] := by
      refine ⟨?_, ?_, .inl rfl⟩
      · intro k hk v hv
        fin_cases hk <;> cases hv
        exact ⟨_, rfl, by decide, by decide⟩
      · intro name hname v hv
        fin_cases hname <;> cases hv
        exact ⟨_, .integer 7⟩
    obtain ⟨r, hr⟩ := hiff.2 hfits
    obtain ⟨c, rfl, hcounters, htime⟩ := hgives r hr
    refine ⟨c, hr, ?_, ?_, ?_⟩
    · rcases hcounters Counter.all[5] (List.getElem_mem _) with hgiven | ⟨⟨⟩, -⟩
      have hvalue : (18446744073709551615 : Int) = c.recordsDeleted.toNat :=
        Json.integer.inj (Option.some.inj hgiven)
      exact UInt64.toNat_inj.1 (Int.ofNat.inj hvalue.symm)
    · rcases hcounters Counter.all[2] (List.getElem_mem _) with ⟨⟨⟩⟩ | ⟨-, hzero⟩
      exact hzero
    · rcases htime with ⟨name, hname, v, hv, hx⟩ | ⟨hnone, -⟩
      · fin_cases hname <;> cases hv
        exact (Except.ok.inj (Json.readReal_eq_ok_iff.2 hx)).symm
      · cases hnone "execution_time_ms" (by decide)
  · obtain ⟨hiff, -, hunfit, -⟩ := commit_iff_members_fit (e := countedReply (-1))
      (hordered _) rfl rfl rfl "DELETE"
    cases hr : (countedReply (-1)).toResult "DELETE" with
    | ok r =>
      obtain ⟨n, ⟨⟩, hnonneg, -⟩ :=
        (hiff.1 ⟨r, hr⟩).counters Counter.all[5] (List.getElem_mem _) _ rfl
      exact absurd hnonneg (by decide)
    | error err =>
      obtain ⟨-, -, -, m, -, -, -, rfl⟩ := hunfit err hr
      exact ⟨m, rfl⟩

end DbClient
