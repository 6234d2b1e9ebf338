import DbClient.Proofs.Json.Layout
import DbClient.Proofs.Reply.Faults
import DbClient.Proofs.Reply.Trees

/-!
# Envelopes in any order

An envelope is filled in one pass from the left, and yet the order of the members makes no
difference: each gives at most one field, and no field is given twice. Members with other names
give none, and the space between the tokens is not looked at.
-/

namespace DbClient

open Json (Tree Piece Reading Member ObjectLine Escaping Scalar)

/-! ## Values that are passed over -/

/-- Every value can be passed over. -/
theorem Json.Reading.eval_skipped (depth : Nat) (t : Tree) :
    skipped.eval depth t = .ok () := by
  induction t using Tree.induction generalizing depth with
  | word | number | text => rfl
  | array items ih =>
    have hitems : ∃ vs, skipped.evalItems (depth + 1) items = .ok vs := by
      induction items with
      | nil => exact ⟨[], rfl⟩
      | cons t items hrest =>
        obtain ⟨ht, hmore⟩ := List.forall_mem_cons.1 ih
        obtain ⟨vs, hvs⟩ := hrest hmore
        exact ⟨() :: vs, by rw [evalItems, ht, hvs]; rfl⟩
    obtain ⟨vs, hvs⟩ := hitems
    have hfits : skipped.fits depth = true := rfl
    rw [eval, if_pos hfits, hvs]
    rfl
  | object members ih =>
    have hmembers : ∃ vs, skipped.evalMembers (depth + 1) members = .ok vs := by
      induction members with
      | nil => exact ⟨[], rfl⟩
      | cons m members hrest =>
        obtain ⟨ht, hmore⟩ := List.forall_mem_cons.1 ih
        obtain ⟨vs, hvs⟩ := hrest hmore
        exact ⟨((), ()) :: vs, by rw [evalMembers, ht, hvs]; rfl⟩
    obtain ⟨vs, hvs⟩ := hmembers
    have hfits : skipped.fits depth = true := rfl
    rw [eval, if_pos hfits, hvs]
    rfl

namespace Envelope

/-! ## Fields, one by one -/

namespace Fields

variable {d d' f : Fields} {slot slot' : Slot}

/-- The fields of `d`, and those of `f` that `d` does not have. -/
def onto (d f : Fields) : Fields where
  success := d.success <|> f.success
  kind := d.kind <|> f.kind
  result := d.result <|> f.result
  error := d.error <|> f.error

/-- Fields of which only one is given, or none if the slot is no field. -/
structure IsOnly (d : Fields) (slot : Slot) : Prop where
  given : slot = .other ∨ (d.repeated? slot).isSome = true
  alone : ∀ s, s ≠ slot → d.repeated? s = none

theorem repeated?_onto (s : Slot) :
    (d.onto f).repeated? s = none ↔ d.repeated? s = none ∧ f.repeated? s = none := by
  cases s <;> simp [repeated?, onto]

/-- Fields that are not given twice may be given in any order. -/
theorem onto_comm (h : ∀ s, d.repeated? s = none ∨ d'.repeated? s = none) :
    d.onto (d'.onto f) = d'.onto (d.onto f) := by
  have hsuccess := h .success
  have hkind := h .kind
  have hresult := h .result
  have herror := h .error
  simp only [repeated?, Option.map_eq_none_iff] at hsuccess hkind hresult herror
  have hor : ∀ {α : Type} {x y : Option α} (z : Option α), x = none ∨ y = none →
      (x <|> (y <|> z)) = (y <|> (x <|> z)) := by
    rintro α x y z (rfl | rfl) <;> simp
  simp only [onto, hor _ hsuccess, hor _ hkind, hor _ hresult, hor _ herror]

end Fields

variable {slot : Slot} {f f' g : Fields} {t : Tree} {m m' : List Piece × Tree}

theorem ofFault_map {α : Type} (x : Except Json.Fault α) (give : α → Fields) :
    ofFault (x.map give) = (ofFault x).map give := by
  cases x <;> rfl

/-- Values that are read without regard to the fields give the same whatever the fields are. -/
theorem exists_onto_of_map {α : Type} {x : Except Problem α} (give : α → Fields)
    (honly : ∀ v, (give v).IsOnly slot)
    (hfield : ∀ g, readField slot g t = x.map fun v => (give v).onto g)
    (h : readField slot f t = .ok f') :
    ∃ d : Fields, d.IsOnly slot ∧ f' = d.onto f ∧ ∀ g, readField slot g t = .ok (d.onto g) := by
  rw [hfield] at h
  obtain ⟨v, hread, rfl⟩ := exists_of_map_ok h
  refine ⟨give v, honly v, rfl, fun g => ?_⟩
  rw [hfield, hread]
  rfl

/-- What a value does to the fields is the same whatever they are. -/
theorem exists_onto_of_readField (h : readField slot f t = .ok f') :
    ∃ d : Fields, d.IsOnly slot ∧ f' = d.onto f ∧ ∀ g, readField slot g t = .ok (d.onto g) := by
  cases slot with
  | success =>
    refine exists_onto_of_map (fun b => { Fields.empty with success := some b }) (fun b => ?_)
      (fun _ => rfl) h
    refine ⟨.inr rfl, fun s hs => ?_⟩
    cases s <;> first | rfl | exact absurd rfl hs
  | kind =>
    refine exists_onto_of_map (fun s => { Fields.empty with kind := some s }) (fun s => ?_)
      (fun _ => rfl) h
    refine ⟨.inr rfl, fun s hs => ?_⟩
    cases s <;> first | rfl | exact absurd rfl hs
  | error =>
    refine exists_onto_of_map (fun s => { Fields.empty with error := some s }) (fun s => ?_)
      (fun _ => rfl) h
    refine ⟨.inr rfl, fun s hs => ?_⟩
    cases s <;> first | rfl | exact absurd rfl hs
  | result =>
    refine exists_onto_of_map (fun v => { Fields.empty with result := some (result? v) }) (fun v => ?_)
      (fun _ => ofFault_map _ _) h
    refine ⟨.inr rfl, fun s hs => ?_⟩
    cases s <;> first | rfl | exact absurd rfl hs
  | other =>
    refine exists_onto_of_map (fun _ => .empty) (fun _ => ?_) (fun _ => ofFault_map _ _) h
    refine ⟨.inl rfl, fun s _ => ?_⟩
    cases s <;> rfl

/-- A member that is read gives one field, which has not been given before, or none. -/
theorem exists_onto_of_readMember (h : readMember f m = .ok f') :
    ∃ (slot : Slot) (d : Fields), d.IsOnly slot ∧ f.repeated? slot = none ∧ f' = d.onto f ∧
      ∀ g, g.repeated? slot = none → readMember g m = .ok (d.onto g) := by
  obtain ⟨pieces, t⟩ := m
  obtain ⟨name, hname, hfresh, hfield⟩ := exists_of_readMember h
  obtain ⟨d, honly, rfl, hread⟩ := exists_onto_of_readField hfield
  refine ⟨.ofName name, d, honly, hfresh, rfl, fun g hg => ?_⟩
  rw [readMember_of_fresh hname hg]
  exact hread g

/-- Two members may change places. -/
theorem readMember_swap (h : readMember f m = .ok g) (h' : readMember g m' = .ok f') :
    ∃ g', readMember f m' = .ok g' ∧ readMember g' m = .ok f' := by
  obtain ⟨slot, d, honly, hfresh, rfl, hread⟩ := exists_onto_of_readMember h
  obtain ⟨slot', d', honly', hfresh', rfl, hread'⟩ := exists_onto_of_readMember h'
  obtain ⟨hnotGiven, hfirst⟩ := (Fields.repeated?_onto slot').1 hfresh'
  -- the second member does not give the field of the first, for it has been given
  have hother : d'.repeated? slot = none := by
    rcases honly.given with rfl | hgiven
    · rfl
    · refine honly'.alone slot ?_
      rintro rfl
      rw [hnotGiven] at hgiven
      cases hgiven
  have hcomm : d'.onto (d.onto f) = d.onto (d'.onto f) := by
    refine Fields.onto_comm fun s => ?_
    by_cases hs : s = slot
    · subst hs
      exact .inl hother
    · exact .inr (honly.alone s hs)
  refine ⟨d'.onto f, hread' f hfirst, ?_⟩
  rw [hcomm]
  exact hread _ ((Fields.repeated?_onto slot).2 ⟨hother, hfresh⟩)

/-! ## Members that are no fields -/

/-- The names that a reply gives a meaning. -/
def fieldNames : List String :=
  ["success", "type", "result", "error"]

/-- A member that a reply may have besides its fields, with a value without parts. -/
structure Extra where
  name : String
  writer : Escaping
  value : Scalar
  foreign : name ∉ fieldNames

/-- The member, written without space. -/
def Extra.member (x : Extra) : Member :=
  .written x.writer x.name (.scalar x.value)

theorem ofName_of_foreign {name : String} (h : name ∉ fieldNames) :
    Slot.ofName name = .other := by
  simp only [fieldNames, List.mem_cons, List.not_mem_nil, or_false, not_or] at h
  obtain ⟨hsuccess, hkind, hresult, herror⟩ := h
  rw [Slot.ofName, if_neg hsuccess, if_neg hkind, if_neg hresult, if_neg herror]

/-- It leaves the fields alone. -/
theorem readMember_extra (f : Fields) (x : Extra) : readMember f x.member.branch = .ok f := by
  have hname : Json.keepText x.member.branch.1 .closed = .ok x.name :=
    x.writer.keepText_pieces x.name
  have hslot : Slot.ofName x.name = .other := ofName_of_foreign x.foreign
  have hfresh : f.repeated? (.ofName x.name) = none := by
    rw [hslot]
    rfl
  have hread := readMember_of_fresh hname hfresh x.member.branch.2
  rw [hslot, readField, Reading.eval_skipped] at hread
  exact hread

theorem foldlM_extras (f : Fields) (extras : List Extra) :
    (extras.map fun x => x.member.branch).foldlM readMember f = .ok f := by
  induction extras with
  | nil => rfl
  | cons x extras ih =>
    rw [List.map_cons, List.foldlM_cons, readMember_extra]
    exact ih

/-! ## Lines -/

/-- A line that begins with a brace is an object, if it is an envelope. -/
theorem exists_object_of_read {line : Bytes} {e : Envelope}
    (hobject : (line.dropWhile Json.isSpace).head? = some 0x7B) (h : read line = .ok e) :
    ∃ members, Json.scan line = (Tree.object members).tokens := by
  obtain ⟨t, htokens, -⟩ := exists_tree_of_read h
  obtain ⟨rest, hrest⟩ : ∃ rest, line.dropWhile Json.isSpace = 0x7B :: rest := by
    cases hdrop : line.dropWhile Json.isSpace with
    | nil =>
      rw [hdrop] at hobject
      cases hobject
    | cons x rest =>
      rw [hdrop] at hobject
      cases hobject
      exact ⟨rest, rfl⟩
  have hspace : ∀ x ∈ line.takeWhile Json.isSpace, Json.isSpace x = true :=
    List.all_eq_true.1 List.all_takeWhile
  have hscan : Json.scan line = .mark .openObject :: Json.scan rest := by
    rw [← List.takeWhile_append_dropWhile (p := Json.isSpace) (l := line), hrest,
      Json.scan_space hspace, Json.scan_cons_mark rfl]
  cases t with
  | object members => exact ⟨members, htokens⟩
  | word | number | text | array =>
    rw [hscan] at htokens
    cases htokens

/-- The members of an object that is an envelope may be put in any order, members with other
names may be added, and space may stand between all tokens of the object: it is the same
envelope, and the same result. -/
theorem decode_rearranged {line : Bytes} {command : String} {e : Envelope}
    (hobject : (line.dropWhile Json.isSpace).head? = some 0x7B)
    (h : decode line command = .ok e) :
    (∃ o : ObjectLine, o.write = line) ∧
      ∀ (o o' : ObjectLine) (extras : List Extra), o.write = line →
        o'.branches.Perm (o.branches ++ extras.map fun x => x.member.branch) →
        decode o'.write command = .ok e ∧
          (decode o'.write command).bind (·.toResult command) =
            (decode line command).bind (·.toResult command) := by
  have hread := decode_eq_ok_iff.1 h
  constructor
  · obtain ⟨members, hscan⟩ := exists_object_of_read hobject hread
    obtain ⟨o, ho, -⟩ := ObjectLine.exists_write_eq hscan
    exact ⟨o, ho⟩
  · rintro o o' extras rfl hperm
    have hline : ∀ o : ObjectLine, read o.write = readTree (.object o.branches) := by
      intro o
      rw [read, o.scan_write, run_tokens]
    rw [hline, readTree] at hread
    obtain ⟨f, hmembers, rfl⟩ := exists_of_map_ok hread
    have hall : (o.branches ++ extras.map fun x => x.member.branch).foldlM readMember .empty =
        .ok f := by
      rw [List.foldlM_append, hmembers]
      exact foldlM_extras f extras
    have hread' : decode o'.write command = .ok f.toEnvelope := by
      rw [decode_eq_ok_iff, hline, readTree,
        foldlM_perm hperm.symm hall fun _ _ _ _ _ => readMember_swap]
      rfl
    exact ⟨hread', by rw [hread', h]⟩

/-- A commit with its two members the other way round, and with a note that has an escape. -/
theorem decode_commitRearranged :
    let commit := Utf8.encode "\x7b\"success\":true,\"type\":\"commit\"\x7d"
    let rearranged := Utf8.encode
      " \x7b\"type\":\"commit\", \"success\":true,\"note\":\"\\u000A\"\x7d"
    decode commit "COMMIT" = .ok ⟨true, some "commit", none, none⟩ ∧
      decode rearranged "COMMIT" = .ok ⟨true, some "commit", none, none⟩ := by
  intro commit rearranged
  let writer : Escaping := ⟨fun _ => false, fun _ => true⟩
  let space : Json.Gap := ⟨[0x20], List.forall_mem_singleton.2 rfl⟩
  let success : Member := .written writer "success" (.scalar (.truth true))
  let kind : Member := .written writer "type" (.scalar (.text writer "commit"))
  let note : Extra := ⟨"note", writer, .text writer "\n", by decide⟩
  let o : ObjectLine := ⟨.none, .none, [success, kind], .none⟩
  let o' : ObjectLine :=
    ⟨space, .none, [kind, { success with beforeName := space }, note.member], .none⟩
  have hcommit : decode commit "COMMIT" = .ok ⟨true, some "commit", none, none⟩ := by rfl
  have ho : o.write = commit := by decide +kernel
  have ho' : o'.write = rearranged := by decide +kernel
  have hperm : o'.branches.Perm (o.branches ++ [note].map fun x => x.member.branch) :=
    .swap _ _ _
  obtain ⟨-, harranged⟩ := decode_rearranged (by decide +kernel) hcommit
  have hdecode := (harranged o o' [note] ho hperm).1
  rw [ho'] at hdecode
  exact ⟨hcommit, hdecode⟩

end Envelope
end DbClient
