import DbClient.Proofs.Json.Keepable
import DbClient.Proofs.Reply.Arranged
import DbClient.Proofs.Reply.Members

/-!
# Envelopes as whole lines

A line that is an envelope may also be kept as one value. What the envelope uses of the line is
kept in the same way, so an array can be kept and says by position what the envelope says. Only
the members of an object that the envelope passes over can be impossible to keep.
-/

namespace DbClient

/-- An object that is kept has its members in order. -/
theorem Json.Reading.isOrdered_of_eval {room depth : Nat} {t : Json.Tree} {v : Json}
    (h : (kept room).eval depth t = .ok v) : v.IsOrdered := by
  cases t with
  | word w =>
    cases h
    cases w <;> rintro _ ⟨⟩
  | number n => exact isOrdered_of_keepNumber h
  | text pieces =>
    obtain ⟨s, -, rfl⟩ := exists_of_map_ok h
    rintro _ ⟨⟩
  | array items =>
    rw [eval] at h
    split at h
    · obtain ⟨vs, -, rfl⟩ := exists_of_map_ok h
      rintro _ ⟨⟩
    · cases h
  | object members =>
    rw [eval] at h
    split at h
    · obtain ⟨ms, -, rfl⟩ := exists_of_map_ok h
      rintro _ ⟨⟩
      exact NameMap.ordered_ofNewest _
    · cases h

namespace Envelope

open Json (Tree Piece Reading)

variable {line : Bytes} {e : Envelope} {slot : Slot} {f f' : Fields} {t : Tree}
  {items : List Tree} {members : List (List Piece × Tree)}

/-- The envelope that items give by their positions. -/
def ofItems (items : List Json) : Envelope where
  success := (items[0]?.bind Json.bool?).getD false
  kind := items[1]?.bind Json.string?
  result := items[2]?.bind result?
  error := items[3]?.bind Json.string?

/-- The fields with one of them as a value gives it. -/
def Fields.give (f : Fields) (slot : Slot) (v : Json) : Fields :=
  match slot with
  | .success => { f with success := v.bool? }
  | .kind => { f with kind := some v.string? }
  | .result => { f with result := some (result? v) }
  | .error => { f with error := some v.string? }
  | .other => f

/-! ## The values of fields -/

theorem exists_eval_of_readText? {text : Option String} (h : readText? t.first = .ok text) :
    ∃ v, resultReading.eval 0 t = .ok v ∧ v.string? = text := by
  cases t with
  | word w =>
    cases w with
    | null =>
      cases h
      exact ⟨.null, rfl, rfl⟩
    | truth b => cases h
  | text pieces =>
    obtain ⟨s, hs, rfl⟩ := exists_of_map_ok (exists_of_ofFault_ok h)
    exact ⟨.string s, congrArg (Except.map Json.string) hs, rfl⟩
  | number | array | object => cases h

/-- The value of a field can be kept, and gives the field. -/
theorem exists_give_of_readField (h : readField slot f t = .ok f') (hslot : slot ≠ .other) :
    ∃ v, resultReading.eval 0 t = .ok v ∧ f' = f.give slot v := by
  cases slot with
  | other => exact absurd rfl hslot
  | success =>
    obtain ⟨b, hread, rfl⟩ := exists_of_map_ok h
    cases t with
    | word w =>
      cases w with
      | null => cases hread
      | truth b' =>
        cases hread
        exact ⟨.bool b, rfl, rfl⟩
    | _ => cases hread
  | kind | error =>
    obtain ⟨text, hread, rfl⟩ := exists_of_map_ok h
    obtain ⟨v, hv, rfl⟩ := exists_eval_of_readText? hread
    exact ⟨v, hv, rfl⟩
  | result =>
    obtain ⟨v, hv, rfl⟩ := exists_of_map_ok (exists_of_ofFault_ok h)
    exact ⟨v, hv, rfl⟩

/-! ## Arrays -/

/-- Items that give fields by position can be kept, and give them in order. -/
theorem exists_mapM_of_readItems {due : List Slot} (hdue : .other ∉ due)
    (h : readItems due f items = .ok f') :
    ∃ vs, items.mapM (resultReading.eval 0) = .ok vs ∧ vs.length ≤ due.length ∧
      f' = (due.zip vs).foldl (fun f p => f.give p.1 p.2) f := by
  induction items generalizing due f with
  | nil =>
    cases due <;> cases h <;> exact ⟨[], rfl, Nat.zero_le _, rfl⟩
  | cons t items ih =>
    cases due with
    | nil => cases h
    | cons slot due =>
      obtain ⟨hslot, hdue⟩ := List.ne_and_not_mem_of_not_mem_cons hdue
      obtain ⟨g, hfield, hrest⟩ := exists_of_bind_ok h
      obtain ⟨v, hv, rfl⟩ := exists_give_of_readField hfield (Ne.symm hslot)
      obtain ⟨vs, hvs, hlen, rfl⟩ := ih hdue hrest
      refine ⟨v :: vs, ?_, Nat.succ_le_succ hlen, rfl⟩
      rw [List.mapM_cons, hv, hvs]
      rfl

theorem toEnvelope_foldl_give {vs : List Json} (h : vs.length ≤ positions.length) :
    ((positions.zip vs).foldl (fun f p => f.give p.1 p.2) Fields.empty).toEnvelope =
      ofItems vs := by
  match vs, h with
  | [], _ | [_], _ | [_, _], _ | [_, _, _], _ | [_, _, _, _], _ => rfl

/-- An array that is an envelope can be kept, and says by position what the envelope says. -/
theorem exists_array_of_read (hscan : Json.scan line = (Tree.array items).tokens)
    (h : read line = .ok e) :
    ∃ vs, Json.read line = .ok (.array vs) ∧ vs.length ≤ 4 ∧ e = ofItems vs := by
  rw [read, hscan, run_tokens] at h
  obtain ⟨f, hitems, rfl⟩ := exists_of_map_ok h
  obtain ⟨vs, hvs, hlen, rfl⟩ := exists_mapM_of_readItems (by decide) hitems
  refine ⟨vs, ?_, hlen, toEnvelope_foldl_give hlen⟩
  rw [Json.read_eq_eval hscan]
  exact (Reading.eval_kept_array _ items).trans (congrArg (Except.map Json.array) hvs)

/-! ## Objects -/

/-- Members with names that the envelope does not use, and values that can be kept inside the
one container that is the object. -/
def ForeignKeepable (members : List (List Piece × Tree)) : Prop :=
  ∀ m ∈ members, ∀ name, Json.keepText m.1 .closed = .ok name → name ∉ fieldNames →
    m.2.Keepable (Json.maxDepth - 1)

/-- All other members of an object that is an envelope can be kept. -/
theorem keepable_of_members (h : members.foldlM readMember f = .ok f') :
    ∀ m ∈ members, ∃ name, Json.keepText m.1 .closed = .ok name ∧
      (name ∈ fieldNames → m.2.Keepable (Json.maxDepth - 1)) := by
  induction members generalizing f with
  | nil => exact nofun
  | cons m members ih =>
    obtain ⟨pieces, t⟩ := m
    obtain ⟨g, hmember, hrest⟩ := exists_of_bind_ok h
    obtain ⟨name, hname, -, hfield⟩ := exists_of_readMember hmember
    refine List.forall_mem_cons.2 ⟨⟨name, hname, fun hmem => ?_⟩, ih hrest⟩
    -- what an envelope uses it has kept while reading, so it can be kept
    have hslot : Slot.ofName name ≠ .other := by
      simp only [fieldNames, List.mem_cons, List.not_mem_nil, or_false] at hmem
      rcases hmem with rfl | rfl | rfl | rfl <;> decide
    obtain ⟨v, hv, -⟩ := exists_give_of_readField hfield hslot
    exact Reading.exists_eval_kept_iff.1 ⟨v, hv⟩

/-- An object that is an envelope can be kept if the members can be kept that the envelope
passes over. -/
theorem keepable_object_iff (h : readTree (.object members) = .ok e) :
    (Tree.object members).Keepable Json.maxDepth ↔ ForeignKeepable members := by
  obtain ⟨f, hmembers, rfl⟩ := exists_of_map_ok h
  have hall := keepable_of_members hmembers
  constructor
  · rintro ⟨⟩
    rename_i hkept
    exact fun m hm _ _ _ => hkept m hm
  · intro hforeign
    refine .object (fun m hm => ?_) fun m hm => ?_
    · obtain ⟨name, hname, -⟩ := hall m hm
      exact ⟨name, hname⟩
    · obtain ⟨name, hname, hfield⟩ := hall m hm
      by_cases hmem : name ∈ fieldNames
      · exact hfield hmem
      · exact hforeign m hm name hname hmem

/-! ## Results -/

/-- Fields whose result, if they have one, has its members in order. -/
def Fields.IsOrdered (f : Fields) : Prop :=
  ∀ w, f.toEnvelope.result = some w → w.IsOrdered

theorem isOrdered_of_readField {slot : Slot} {f f' : Fields} {t : Tree}
    (h : readField slot f t = .ok f') (hf : f.IsOrdered) : f'.IsOrdered := by
  cases slot with
  | result =>
    obtain ⟨v, hv, rfl⟩ := exists_of_map_ok (exists_of_ofFault_ok h)
    have hordered := Json.Reading.isOrdered_of_eval hv
    cases v with
    | null => exact nofun
    | _ =>
      rintro w ⟨⟩
      exact hordered
  | success | kind | error =>
    obtain ⟨v, -, rfl⟩ := exists_of_map_ok h
    exact hf
  | other =>
    obtain ⟨v, -, rfl⟩ := exists_of_map_ok (exists_of_ofFault_ok h)
    exact hf

theorem isOrdered_of_members (h : members.foldlM readMember f = .ok f') (hf : f.IsOrdered) :
    f'.IsOrdered := by
  induction members generalizing f with
  | nil =>
    cases h
    exact hf
  | cons m members ih =>
    obtain ⟨pieces, t⟩ := m
    obtain ⟨g, hmember, hrest⟩ := exists_of_bind_ok h
    obtain ⟨name, -, -, hfield⟩ := exists_of_readMember hmember
    exact ih hrest (isOrdered_of_readField hfield hf)

theorem isOrdered_of_items {due : List Slot} (h : readItems due f items = .ok f')
    (hf : f.IsOrdered) : f'.IsOrdered := by
  induction items generalizing due f with
  | nil =>
    cases due <;> cases h <;> exact hf
  | cons t items ih =>
    cases due with
    | nil => cases h
    | cons slot due =>
      obtain ⟨g, hfield, hrest⟩ := exists_of_bind_ok h
      exact ih hrest (isOrdered_of_readField hfield hf)

/-- The result of an envelope that a line writes has its members in order, each name once. -/
theorem isOrdered_of_read (h : read line = .ok e) : ∀ w, e.result = some w → w.IsOrdered := by
  obtain ⟨t, -, htree⟩ := exists_tree_of_read h
  cases t with
  | word | number | text => cases htree
  | array items =>
    obtain ⟨f, hitems, rfl⟩ := exists_of_map_ok htree
    exact isOrdered_of_items hitems nofun
  | object members =>
    obtain ⟨f, hmembers, rfl⟩ := exists_of_map_ok htree
    exact isOrdered_of_members hmembers nofun

/-! ## Lines -/

/-- An envelope that is kept as an array says what the items say by position. -/
theorem eq_ofItems_of_read {vs : List Json} (h : read line = .ok e)
    (hvalue : Json.read line = .ok (.array vs)) : vs.length ≤ 4 ∧ e = ofItems vs := by
  obtain ⟨t, hscan, htree⟩ := exists_tree_of_read h
  cases t with
  | word | number | text => cases htree
  | array items =>
    obtain ⟨vs', hvs, hlen, rfl⟩ := exists_array_of_read hscan h
    cases hvs.symm.trans hvalue
    exact ⟨hlen, rfl⟩
  | object members =>
    -- an object is never kept as an array
    rw [Json.read_eq_eval hscan] at hvalue
    obtain ⟨ms, -, hms⟩ :=
      exists_of_map_ok ((Reading.eval_kept_object (Json.maxDepth - 1) members).symm.trans hvalue)
    cases hms

/-- A line whose members can all be kept that an envelope passes over, if it is an object. -/
def CanBeKept (line : Bytes) : Prop :=
  ∀ members, Json.scan line = (Tree.object members).tokens → ForeignKeepable members

/-- A line that is an envelope is kept as a value exactly if nothing that the envelope passes
over stands in the way. -/
theorem exists_value_iff (h : read line = .ok e) :
    (∃ v, Json.read line = .ok v) ↔ CanBeKept line := by
  have hobject : ∀ members, Json.scan line = (Tree.object members).tokens →
      ((∃ v, Json.read line = .ok v) ↔ ForeignKeepable members) := by
    intro members hscan
    have htree := h
    rw [read, hscan, run_tokens] at htree
    rw [Json.read_eq_eval hscan, Reading.exists_eval_kept_iff]
    exact keepable_object_iff htree
  constructor
  · intro hv members hscan
    exact (hobject members hscan).1 hv
  · intro hkept
    obtain ⟨t, hscan, htree⟩ := exists_tree_of_read h
    cases t with
    | word | number | text => cases htree
    | array items =>
      obtain ⟨vs, hvs, -⟩ := exists_array_of_read hscan h
      exact ⟨_, hvs⟩
    | object members => exact (hobject members hscan).2 (hkept members hscan)

end Envelope
end DbClient
