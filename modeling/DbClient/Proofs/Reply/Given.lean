import DbClient.Proofs.Except
import DbClient.Proofs.Reply.Members
import DbClient.Reply.Payload

/-!
# What payloads give

An object gives the fields of a payload by name and an array gives them by position. Either way a
payload is read as a list of values under the names of fields. It can be read if each value is
one that its field takes and the time, which has two names, is given once; then each field holds
what is given to it, or its default.
-/

namespace DbClient

/-- Under names that are all different a value is looked up by its name. -/
theorem lookup_of_mem {α : Type} {table : List (String × α)} (h : (table.map Prod.fst).Nodup)
    {name : String} {value : α} (hmem : (name, value) ∈ table) :
    table.lookup name = some value := by
  induction table with
  | nil => cases hmem
  | cons entry rest ih =>
    obtain ⟨hfresh, hrest⟩ := List.nodup_cons.1 h
    rcases List.mem_cons.1 hmem with rfl | hmem
    · exact List.lookup_cons_self
    · have hne : name ≠ entry.1 := by
        rintro rfl
        exact hfresh (List.mem_map.2 ⟨_, hmem, rfl⟩)
      rw [List.lookup_cons, beq_false_of_ne hne]
      exact ih hrest hmem

namespace NameMap

variable {α : Type} {name : String} {value : α} {table table' : List (String × α)}

theorem Ordered.nodup (h : Ordered table) : (table.map Prod.fst).Nodup :=
  List.pairwise_map.2 (h.imp String.ne_of_lt)

theorem Ordered.mem_iff (h : Ordered table) :
    (name, value) ∈ table ↔ table.lookup name = some value := by
  refine ⟨lookup_of_mem h.nodup, fun hlookup => ?_⟩
  obtain ⟨before, after, rfl, -⟩ := List.lookup_eq_some_iff.1 hlookup
  exact List.mem_append_right _ List.mem_cons_self

/-- Tables with the same values under every name are the same. -/
theorem Ordered.ext (h : Ordered table) (h' : Ordered table')
    (heq : ∀ name, table.lookup name = table'.lookup name) : table = table' := by
  have hmem : ∀ entry, entry ∈ table ↔ entry ∈ table' := by
    rintro ⟨name, value⟩
    rw [h.mem_iff, h'.mem_iff, heq]
  have hperm : table.Perm table' := by
    have honce : ∀ {table : List (String × α)}, Ordered table → table.Nodup := fun h =>
      h.imp fun hlt heq => String.ne_of_lt hlt (congrArg Prod.fst heq)
    exact (List.perm_ext_iff_of_nodup (honce h) (honce h')).2 hmem
  exact hperm.eq_of_pairwise (fun _ _ _ _ hlt hgt => absurd hgt (String.lt_asymm hlt)) h h'

theorem lookup_filter (keep : String → Bool) (table : List (String × α)) (name : String) :
    (table.filter fun entry => keep entry.1).lookup name =
      if keep name then table.lookup name else none := by
  induction table with
  | nil => simp
  | cons entry rest ih =>
    obtain ⟨other, value⟩ := entry
    rw [List.filter_cons, List.lookup_cons]
    by_cases hname : name = other
    · subst hname
      by_cases hkeep : keep name <;> simp [hkeep, ih]
    · by_cases hkeep : keep other <;> simp [hkeep, ih, List.lookup_cons, beq_false_of_ne hname]

end NameMap

namespace Schema

variable {π β : Type} {s : Schema π} {w : Json} {p p' : π} {given : List (String × Json)}
  {members : List (String × Json)} {name : String}

/-- A member under the name of its field. -/
def ofMember (member : String × Json) : String × Json :=
  (fieldName member.1, member.2)

/-- The values that a payload gives, under the names of their fields. Members that are no fields
are among them. -/
def given? (s : Schema π) : Json → Option (List (String × Json))
  | .object members => some (members.map ofMember)
  | .array items =>
    if items.length ≤ s.fields.length then some ((s.fields.map Prod.fst).zip items) else none
  | _ => none

/-- The payload with one given value read. -/
def readGiven (s : Schema π) (p : π) (g : String × Json) : Except Mismatch π :=
  match s.fields.lookup g.1 with
  | some set => set g.2 p
  | none => .ok p

theorem readGiven_of_lookup {set : Setter π} (h : s.fields.lookup name = some set) (v : Json) :
    s.readGiven p (name, v) = set v p := by
  rw [readGiven, h]

/-- An object is read by reading what its members give. -/
theorem read_object (s : Schema π) (members : List (String × Json)) (p : π) :
    s.read p (.object members) = (members.map ofMember).foldlM s.readGiven p := by
  rw [read, List.foldlM_map]
  rfl

/-- A name that is no name of the time is given by the member of that name. -/
theorem lookup_map_ofMember (hname : name ≠ "time_ms") (hname' : name ≠ "execution_time_ms") :
    (members.map ofMember).lookup name = members.lookup name := by
  induction members with
  | nil => rfl
  | cons m members ih =>
    have hsame : (name == fieldName m.1) = (name == m.1) := by
      rw [fieldName]
      split
      · simp_all
      · rfl
    rw [List.map_cons, List.lookup_cons, List.lookup_cons, ofMember, hsame, ih]

/-- Items that are read by position are given under the names of the schema. -/
theorem readItems_eq_foldlM {fields : List (String × Setter π)} {items : List Json}
    (hfields : ∀ f ∈ fields, s.fields.lookup f.1 = some f.2)
    (hlen : items.length ≤ fields.length) (p : π) :
    readItems fields items p = ((fields.map Prod.fst).zip items).foldlM s.readGiven p := by
  induction fields generalizing items p with
  | nil =>
    cases List.length_eq_zero_iff.1 (Nat.le_zero.1 hlen)
    rfl
  | cons field fields ih =>
    obtain ⟨name, set⟩ := field
    obtain ⟨hfield, hrest⟩ := List.forall_mem_cons.1 hfields
    cases items with
    | nil => rfl
    | cons v items =>
      rw [List.map_cons, List.zip_cons_cons, List.foldlM_cons, readGiven_of_lookup hfield, readItems]
      congr 1
      funext p'
      exact ih hrest (Nat.le_of_succ_le_succ hlen) p'

/-- A payload is read by reading what it gives. -/
theorem read_eq_ok_iff (hnames : (s.fields.map Prod.fst).Nodup) :
    s.read p w = .ok p' ↔ ∃ given, s.given? w = some given ∧ given.foldlM s.readGiven p = .ok p' := by
  cases w with
  | object members => simp [read_object, given?]
  | array items =>
    have hfields : ∀ f ∈ s.fields, s.fields.lookup f.1 = some f.2 := fun f hf =>
      lookup_of_mem hnames hf
    by_cases hlen : items.length ≤ s.fields.length
    · simp only [read, given?, if_pos hlen, if_neg (Nat.not_lt.2 hlen),
        readItems_eq_foldlM hfields hlen]
      cases h : List.foldlM s.readGiven p ((s.fields.map Prod.fst).zip items) <;>
        simp [h, bind, Except.bind]
    · -- what the fields take is read first, and then the array is too long all the same
      simp only [read, given?, if_neg hlen, if_pos (Nat.lt_of_not_le hlen)]
      cases readItems s.fields items p <;> simp [bind, Except.bind]
  | _ => simp [read, given?]

/-! ## Fields -/

/-- What a field holds after its payload has been read: what is read of the value that is given
to it, or the default. -/
def Reads (read : Json → Except Mismatch β) (default : β) (v? : Option Json) (b : β) : Prop :=
  match v? with
  | none => b = default
  | some v => read v = .ok b

theorem Reads.unique {read : Json → Except Mismatch β} {default b b' : β} {v? : Option Json}
    (h : Reads read default v? b) (h' : Reads read default v? b') : b = b' := by
  cases v? with
  | none => exact h.trans h'.symm
  | some v => exact Except.ok.inj (h.symm.trans h')

/-- A field of a schema: its setter puts what is read of the value, and no other setter touches
it. -/
structure IsField (s : Schema π) (name : String) (get : π → β) (read : Json → Except Mismatch β) :
    Prop where
  own : ∃ set, s.fields.lookup name = some set ∧
    ∀ {v p p'}, set v p = .ok p' → read v = .ok (get p')
  frame : ∀ {other set v p p'}, other ≠ name → s.fields.lookup other = some set →
    set v p = .ok p' → get p' = get p

namespace IsField

variable {get : π → β} {read : Json → Except Mismatch β} {v : Json}

theorem readGiven_own (h : s.IsField name get read) (hread : s.readGiven p (name, v) = .ok p') :
    read v = .ok (get p') := by
  obtain ⟨set, hset, hown⟩ := h.own
  rw [readGiven_of_lookup hset] at hread
  exact hown hread

theorem readGiven_frame (h : s.IsField name get read) {other : String} (hne : other ≠ name)
    (hread : s.readGiven p (other, v) = .ok p') : get p' = get p := by
  unfold readGiven at hread
  split at hread
  · rename_i set hset
    exact h.frame hne hset hread
  · cases hread
    rfl

theorem foldlM_frame (h : s.IsField name get read) (hfresh : name ∉ given.map Prod.fst)
    (hread : given.foldlM s.readGiven p = .ok p') : get p' = get p := by
  induction given generalizing p with
  | nil =>
    cases hread
    rfl
  | cons g given ih =>
    obtain ⟨hne, hfresh⟩ := List.ne_and_not_mem_of_not_mem_cons hfresh
    obtain ⟨p₁, hfirst, hrest⟩ := exists_of_bind_ok hread
    rw [ih hfresh hrest]
    exact h.readGiven_frame (Ne.symm hne) hfirst

/-- A field that is given once holds what is given to it. -/
theorem reads (h : s.IsField name get read) (honce : (given.map Prod.fst).Nodup)
    (hread : given.foldlM s.readGiven p = .ok p') :
    Reads read (get p) (given.lookup name) (get p') := by
  induction given generalizing p with
  | nil =>
    cases hread
    rfl
  | cons g given ih =>
    obtain ⟨other, v⟩ := g
    obtain ⟨hfresh, honce⟩ := List.nodup_cons.1 honce
    obtain ⟨p₁, hfirst, hrest⟩ := exists_of_bind_ok hread
    by_cases hne : other = name
    · -- the name does not come again, so what is put now stays
      subst hne
      rw [List.lookup_cons_self, h.foldlM_frame hfresh hrest]
      exact h.readGiven_own hfirst
    · rw [List.lookup_cons, beq_false_of_ne (Ne.symm hne), ← h.readGiven_frame hne hfirst]
      exact ih honce hrest

end IsField

/-! ## The time -/

/-- How a time is read that has not been given. -/
abbrev readTime (v : Json) : Except Mismatch (Option Binary64) :=
  (Json.readReal v).map some

/-- The time of a schema, a field that refuses to be given twice. No setter looks at the payload
in another way. -/
structure IsTime (s : Schema π) (time : π → Option Binary64) : Prop extends
    IsField s "time_ms" time readTime where
  once : ∀ {set v p p'}, s.fields.lookup "time_ms" = some set → set v p = .ok p' → time p = none
  takes : ∀ {name set v p p'} {q : π}, s.fields.lookup name = some set → set v p = .ok p' →
    (name = "time_ms" → time q = none) → ∃ q', set v q = .ok q'

namespace IsTime

variable {time : π → Option Binary64} {x : Binary64}

/-- A time that has been given is not given again. -/
theorem notMem_of_given (h : s.IsTime time) (hp : time p = some x)
    (hread : given.foldlM s.readGiven p = .ok p') : "time_ms" ∉ given.map Prod.fst := by
  induction given generalizing p with
  | nil => exact List.not_mem_nil
  | cons g given ih =>
    obtain ⟨name, v⟩ := g
    obtain ⟨p₁, hfirst, hrest⟩ := exists_of_bind_ok hread
    by_cases hname : name = "time_ms"
    · subst hname
      obtain ⟨set, hset, -⟩ := h.own
      rw [readGiven_of_lookup hset] at hfirst
      rw [h.once hset hfirst] at hp
      cases hp
    · have hp₁ : time p₁ = some x := (h.readGiven_frame hname hfirst).trans hp
      exact List.not_mem_cons_of_ne_of_not_mem (Ne.symm hname) (ih hp₁ hrest)

theorem exists_time (h : s.IsTime time) {v : Json}
    (hread : s.readGiven p ("time_ms", v) = .ok p') : ∃ x, time p' = some x := by
  obtain ⟨x, -, hx⟩ := exists_of_map_ok (h.readGiven_own hread)
  exact ⟨x, hx.symm⟩

/-- Only the time has two names. -/
theorem fieldName_eq {name other : String} (hne : name ≠ other)
    (h : fieldName name = fieldName other) : fieldName name = "time_ms" := by
  unfold fieldName at h ⊢
  split at h
  · simp_all
  · split at h <;> simp_all

/-- The members of an object that can be read give no field twice. -/
theorem nodup_of_members (h : s.IsTime time) (hordered : NameMap.Ordered members)
    (hread : (members.map ofMember).foldlM s.readGiven p = .ok p') :
    ((members.map ofMember).map Prod.fst).Nodup := by
  induction members generalizing p with
  | nil => exact List.nodup_nil
  | cons m members ih =>
    obtain ⟨p₁, hfirst, hrest⟩ := exists_of_bind_ok hread
    refine List.nodup_cons.2 ⟨fun hmem => ?_, ih hordered.rest hrest⟩
    rw [List.map_map, List.mem_map] at hmem
    obtain ⟨other, hother, hname⟩ := hmem
    replace hname : fieldName other.1 = fieldName m.1 := hname
    have hne : other.1 ≠ m.1 :=
      (String.ne_of_lt ((List.pairwise_cons.1 hordered).1 other hother)).symm
    have htime := fieldName_eq hne hname
    -- two names of one field are those of the time, which is not read a second time
    have hfirst' : s.readGiven p ("time_ms", m.2) = .ok p₁ := by
      rw [← htime, hname]
      exact hfirst
    obtain ⟨x, hx⟩ := h.exists_time hfirst'
    refine h.notMem_of_given hx hrest ?_
    rw [List.map_map, ← htime]
    exact List.mem_map_of_mem hother

theorem nodup_zip_names {names : List String} (h : names.Nodup) (items : List Json) :
    ((names.zip items).map Prod.fst).Nodup := by
  rw [List.zip_eq_zip_take_min, List.map_fst_zip (by simp)]
  exact h.sublist (List.take_sublist _ _)

/-- What can be read gives no field twice. -/
theorem nodup_of_read (h : s.IsTime time) (hnames : (s.fields.map Prod.fst).Nodup)
    (hordered : w.IsOrdered) (hgiven : s.given? w = some given)
    (hread : given.foldlM s.readGiven p = .ok p') : (given.map Prod.fst).Nodup := by
  cases w with
  | object members =>
    cases hgiven
    exact h.nodup_of_members (hordered members rfl) hread
  | array items =>
    rw [given?] at hgiven
    split at hgiven <;> cases hgiven
    exact nodup_zip_names hnames items
  | _ => cases hgiven

/-- Values that their fields take one by one are taken together, if no field is given twice. -/
theorem exists_foldlM (h : s.IsTime time) (honce : (given.map Prod.fst).Nodup)
    (htyped : ∀ g ∈ given, ∃ q q', s.readGiven q g = .ok q')
    (hfresh : "time_ms" ∈ given.map Prod.fst → time p = none) :
    ∃ p', given.foldlM s.readGiven p = .ok p' := by
  induction given generalizing p with
  | nil => exact ⟨p, rfl⟩
  | cons g given ih =>
    obtain ⟨name, v⟩ := g
    obtain ⟨⟨q, q', hq⟩, hrest⟩ := List.forall_mem_cons.1 htyped
    obtain ⟨hnew, honce⟩ := List.nodup_cons.1 honce
    have hhead : name = "time_ms" → time p = none := by
      rintro rfl
      exact hfresh List.mem_cons_self
    -- a value is taken by every payload if it is by one, the time by one that has none
    obtain ⟨p₁, hp₁⟩ : ∃ p₁, s.readGiven p (name, v) = .ok p₁ := by
      cases hset : s.fields.lookup name with
      | none => exact ⟨p, by rw [readGiven, hset]⟩
      | some set =>
        rw [readGiven_of_lookup hset] at hq ⊢
        exact h.takes hset hq hhead
    rw [List.foldlM_cons, hp₁]
    refine ih honce hrest fun hmem => ?_
    have hne : name ≠ "time_ms" := by
      rintro rfl
      exact hnew hmem
    rw [h.readGiven_frame hne hp₁]
    exact hfresh (List.mem_cons_of_mem _ hmem)

end IsTime

/-! ## Members that are no fields -/

/-- Whether a member of an object is a field. -/
def knows (s : Schema π) (member : String) : Bool :=
  (s.fields.lookup (fieldName member)).isSome

/-- Other members are passed over. -/
theorem foldlM_filter_knows (s : Schema π) (p : π) (members : List (String × Json)) :
    (members.filter fun m => s.knows m.1).foldlM s.readMember p =
      members.foldlM s.readMember p := by
  rw [List.foldlM_filter]
  congr 1
  funext p m
  split
  · rfl
  · rename_i hunknown
    have hnone : s.fields.lookup (fieldName m.1) = none :=
      Option.not_isSome_iff_eq_none.1 hunknown
    rw [readMember, hnone]
    rfl

/-- Two objects that give the same fields are read alike, whatever else is in them. -/
theorem read_object_congr {members' : List (String × Json)} (h : NameMap.Ordered members)
    (h' : NameMap.Ordered members')
    (hsame : ∀ name, s.knows name = true → members.lookup name = members'.lookup name) (p : π) :
    s.read p (.object members) = s.read p (.object members') := by
  have hfields : (members.filter fun m => s.knows m.1) = members'.filter fun m => s.knows m.1 := by
    refine NameMap.Ordered.ext (h.filter _) (h'.filter _) fun name => ?_
    rw [NameMap.lookup_filter, NameMap.lookup_filter]
    split
    · exact hsame name ‹_›
    · rfl
  rw [read, read, ← foldlM_filter_knows, hfields, foldlM_filter_knows]

end Schema
end DbClient
