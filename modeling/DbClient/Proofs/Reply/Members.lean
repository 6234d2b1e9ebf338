import DbClient.Proofs.Json.Nesting
import DbClient.Proofs.Text.Ordered
import DbClient.Reply.Envelope

/-!
# Envelopes and members

A reply line may be read twice: as an envelope, field by field, and as a value that is
kept whole. The two readings take the same tokens in step. If the value is an object,
the envelope is what its members say; if it is none, it is an array.
-/

namespace DbClient

/-! ## Kept objects -/

/-- A value that is no object, or an object with its members in order. -/
def Json.IsOrdered (v : Json) : Prop :=
  ∀ members, v = .object members → NameMap.Ordered members

namespace Json.Reading

variable {room : Nat} {s : Awaiting Json String} {t : Token} {v w : Json}

theorem eq_of_complete {stack : List (Level Json String)} (h : complete v stack = .nothing w) :
    v = w := by
  cases stack with
  | nil =>
    cases h
    rfl
  | cons level stack => cases level <;> cases h

theorem isOrdered_of_keepNumber {n : Numeral} {e : Ending} (h : keepNumber n e = .ok v) :
    v.IsOrdered := by
  rintro members rfl
  cases closed_of_keepNumber h
  simp only [keepNumber, Ending.check, bind, Except.bind] at h
  split at h
  · cases h
  · split at h <;> cases h

theorem isOrdered_of_beginValue {stack : List (Level Json String)}
    (h : (kept room).beginValue stack t = .ok (.nothing v)) : v.IsOrdered := by
  cases t with
  | word w e =>
    cases e with
    | closed =>
      cases eq_of_complete (Except.ok.inj h)
      cases w <;> rintro members ⟨⟩
    | _ => cases h
  | number n e =>
    cases hn : keepNumber n e with
    | error f =>
      simp only [beginValue, kept, hn] at h
      cases h
    | ok x =>
      simp only [beginValue, kept, hn] at h
      cases eq_of_complete (Except.ok.inj h)
      exact isOrdered_of_keepNumber hn
  | text pieces e =>
    cases htext : keepText pieces e with
    | error f =>
      simp only [beginValue, kept, htext] at h
      cases h
    | ok x =>
      simp only [beginValue, kept, htext] at h
      cases eq_of_complete (Except.ok.inj h)
      rintro members ⟨⟩
  | stray => cases h
  | mark m =>
    cases m with
    | openArray | openObject =>
      rw [beginValue] at h
      split at h <;> cases h
    | _ => cases h

/-- A value that a token completes has its members in order. -/
theorem isOrdered_of_step (h : (kept room).step s t = .ok (.nothing v)) : v.IsOrdered := by
  generalize hs : Awaiting.nothing v = s' at h
  cases stepped_of_step h with
  | begun hbegin | firstBegun _ hbegin =>
    subst hs
    exact isOrdered_of_beginValue hbegin
  | noItem | lastItem =>
    cases eq_of_complete hs.symm
    rintro members ⟨⟩
  | noMember =>
    cases eq_of_complete hs.symm
    rintro members ⟨⟩
    exact .nil
  | lastMember members =>
    cases eq_of_complete hs.symm
    rintro _ ⟨⟩
    exact NameMap.ordered_ofNewest members
  | named | colon | nextItem | nextMember => cases hs

end Json.Reading

namespace Envelope

open Json (Token Reading)

/-- The envelope that members write. Of members with one name the first counts, and a
member of another kind than its field is as good as none. -/
def ofMembers (members : List (String × Json)) : Envelope :=
  { success := ((members.lookup "success").bind Json.bool?).getD false
    kind := (members.lookup "type").bind Json.string?
    result := (members.lookup "result").bind result?
    error := (members.lookup "error").bind Json.string? }

theorem ofMembers_ofNewest (members : List (String × Json)) :
    ofMembers (NameMap.ofNewest members) = ofMembers members := by
  simp only [ofMembers, NameMap.lookup_ofNewest]

/-- Fields that have been read as the members so far say, the newest member first. A
result among them has its own members in order. -/
structure Agree (f : Fields) (members : List (String × Json)) : Prop where
  eq : f.toEnvelope = ofMembers members
  ordered : ∀ v, f.toEnvelope.result = some v → v.IsOrdered

namespace Agree

variable {f : Fields} {members : List (String × Json)} {name : String} {v : Json}

theorem empty : Agree .empty [] :=
  ⟨rfl, by rintro v ⟨⟩⟩

theorem success (h : Agree f members) (b : Bool) :
    Agree { f with success := some b } (("success", .bool b) :: members) := by
  refine ⟨?_, h.ordered⟩
  have heq := h.eq
  simp only [Fields.toEnvelope, ofMembers, Envelope.mk.injEq] at heq ⊢
  simp [List.lookup_cons, heq, Json.bool?]

theorem kind (h : Agree f members) {s : Option String} (hv : v.string? = s) :
    Agree { f with kind := some s } (("type", v) :: members) := by
  refine ⟨?_, h.ordered⟩
  have heq := h.eq
  simp only [Fields.toEnvelope, ofMembers, Envelope.mk.injEq] at heq ⊢
  simp [List.lookup_cons, heq, hv]

theorem error (h : Agree f members) {s : Option String} (hv : v.string? = s) :
    Agree { f with error := some s } (("error", v) :: members) := by
  refine ⟨?_, h.ordered⟩
  have heq := h.eq
  simp only [Fields.toEnvelope, ofMembers, Envelope.mk.injEq] at heq ⊢
  simp [List.lookup_cons, heq, hv]

theorem result (h : Agree f members) (hv : v.IsOrdered) :
    Agree { f with result := some (result? v) } (("result", v) :: members) := by
  constructor
  · have heq := h.eq
    simp only [Fields.toEnvelope, ofMembers, Envelope.mk.injEq] at heq ⊢
    simp [List.lookup_cons, heq]
  · intro w hw
    cases v with
    | null => cases hw
    | _ =>
      cases hw
      exact hv

theorem other (h : Agree f members) (hname : Slot.ofName name = .other) (v : Json) :
    Agree f ((name, v) :: members) := by
  have hne : "success" ≠ name ∧ "type" ≠ name ∧ "result" ≠ name ∧ "error" ≠ name := by
    refine ⟨?_, ?_, ?_, ?_⟩ <;> rintro rfl <;> cases hname
  refine ⟨?_, h.ordered⟩
  rw [h.eq]
  simp [ofMembers, List.lookup_cons, beq_false_of_ne hne.1, beq_false_of_ne hne.2.1,
    beq_false_of_ne hne.2.2.1, beq_false_of_ne hne.2.2.2]

end Agree

/-- A member gives one of the four fields, or none. -/
theorem name_cases (name : String) :
    name = "success" ∨ name = "type" ∨ name = "result" ∨ name = "error" ∨
      Slot.ofName name = .other := by
  by_cases hsuccess : name = "success"
  · exact .inl hsuccess
  by_cases hkind : name = "type"
  · exact .inr (.inl hkind)
  by_cases hresult : name = "result"
  · exact .inr (.inr (.inl hresult))
  by_cases herror : name = "error"
  · exact .inr (.inr (.inr (.inl herror)))
  · refine .inr (.inr (.inr (.inr ?_)))
    rw [Slot.ofName, if_neg hsuccess, if_neg hkind, if_neg hresult, if_neg herror]

/-- The two readings at the same point of a line. A field's value is read inside the
object, with the object's other members and the field's name kept underneath. -/
inductive InStep : Awaiting → Json.Awaiting Json String → Prop
  | line : InStep .line (.value [])
  | name {isFirst : Bool} {f : Fields} {members : List (String × Json)} (h : Agree f members)
    (hfirst : isFirst = true → members = []) :
    InStep (.name isFirst f) (.name isFirst members [])
  | colon {f : Fields} {members : List (String × Json)} {name : String} (h : Agree f members) :
    InStep (.colon (.ofName name) f) (.colon members name [])
  | value {f : Fields} {members : List (String × Json)} {name : String} (h : Agree f members) :
    InStep (.value (.ofName name) .member f) (.value [.object members name])
  | inResult {s : Json.Awaiting Json String} {f : Fields} {members : List (String × Json)}
    (h : Agree f members) (hs : s.isOpen = true) :
    InStep (.inResult s .member f) (s.under [.object members "result"])
  | inOther {s : Json.Awaiting Json String} {f : Fields} {members : List (String × Json)}
    {name : String} (h : Agree f members) (hname : Slot.ofName name = .other)
    (hs : s.isOpen = true) :
    InStep (.inOther s.erase .member f) (s.under [.object members name])
  | next {f : Fields} {members : List (String × Json)} (h : Agree f members) :
    InStep (.next .member f) (.afterMember members [])
  | nothing {f : Fields} {members : List (String × Json)} (h : Agree f members) :
    InStep (.nothing f) (.nothing (.object (NameMap.ofNewest members)))

/-- How a whole line is read to keep it. -/
abbrev lineReading : Reading Json String :=
  .kept Json.maxDepth

/-- A line is a result with one more container around it. -/
theorem step_line {s : Json.Awaiting Json String} {j : Json.Awaiting Json String} {t : Token}
    {members : List (String × Json)} {name : String} (hs : s.isOpen = true)
    (h : lineReading.step (s.under [.object members name]) t = .ok j) :
    ∃ inner, resultReading.step s t = .ok inner ∧ inner.under [.object members name] = j := by
  have hunder := resultReading.step_under [.object members name] hs t
  have hwiden : resultReading.widen [Json.Level.object members name].length = lineReading := rfl
  rw [hwiden, h] at hunder
  exact exists_of_map_ok hunder.symm

section Values

variable {f : Fields} {members : List (String × Json)} {name : String} {s' : Awaiting}
  {j : Json.Awaiting Json String} {t : Token}

theorem inStep_of_stepResult {s : Json.Awaiting Json String} (h : Agree f members)
    (hs : s.isOpen = true) (hstep : stepResult s .member f t = .ok s')
    (hline : lineReading.step (s.under [.object members "result"]) t = .ok j) : InStep s' j := by
  obtain ⟨inner, hinner, rfl⟩ := step_line hs hline
  rw [stepResult, hinner] at hstep
  cases hopen : inner.isOpen with
  | true =>
    cases inner with
    | nothing v => cases hopen
    | _ =>
      cases hstep
      exact .inResult h hopen
  | false =>
    cases inner with
    | nothing v =>
      cases hstep
      exact .next (h.result (Reading.isOrdered_of_step hinner))
    | _ => cases hopen

theorem inStep_of_stepOther {s : Json.Awaiting Json String} (h : Agree f members)
    (hname : Slot.ofName name = .other) (hs : s.isOpen = true)
    (hstep : stepOther s.erase .member f t = .ok s')
    (hline : lineReading.step (s.under [.object members name]) t = .ok j) : InStep s' j := by
  obtain ⟨inner, hinner, rfl⟩ := step_line hs hline
  rw [stepOther, Reading.step_erase hinner] at hstep
  cases hopen : inner.isOpen with
  | true =>
    cases inner with
    | nothing v => cases hopen
    | _ =>
      cases hstep
      exact .inOther h hname hopen
  | false =>
    cases inner with
    | nothing v =>
      cases hstep
      exact .next (h.other hname v)
    | _ => cases hopen

theorem eq_of_readTruth {b : Bool} (hread : readTruth t = .ok b)
    (hline : lineReading.step (.value [.object members name]) t = .ok j) :
    j = .afterMember ((name, .bool b) :: members) [] := by
  unfold readTruth at hread
  split at hread
  · cases hread
    cases hline
    rfl
  · cases hread

theorem exists_of_readText? {text : Option String} (hread : readText? t = .ok text)
    (hline : lineReading.step (.value [.object members name]) t = .ok j) :
    ∃ v : Json, v.string? = text ∧ j = .afterMember ((name, v) :: members) [] := by
  unfold readText? at hread
  split at hread
  · cases hread
    cases hline
    exact ⟨.null, rfl, rfl⟩
  · rename_i pieces e
    cases hkeep : Json.keepText pieces e with
    | error fault =>
      rw [hkeep] at hread
      cases hread
    | ok s =>
      rw [hkeep] at hread
      cases hread
      simp only [Reading.step, Reading.beginValue, Reading.kept, hkeep] at hline
      cases hline
      exact ⟨.string s, rfl, rfl⟩
  · cases hread

/-- The first token of a member's value. -/
theorem inStep_of_beginValue (h : Agree f members)
    (hstep : beginValue (.ofName name) .member f t = .ok s')
    (hline : lineReading.step (.value [.object members name]) t = .ok j) : InStep s' j := by
  -- the value of a field is one token, or a value that is kept inside the object
  rcases name_cases name with rfl | rfl | rfl | rfl | hother
  · obtain ⟨b, hread, rfl⟩ := exists_of_map_ok hstep
    rw [eq_of_readTruth hread hline]
    exact .next (h.success b)
  · obtain ⟨text, hread, rfl⟩ := exists_of_map_ok hstep
    obtain ⟨v, hv, rfl⟩ := exists_of_readText? hread hline
    exact .next (h.kind hv)
  · exact inStep_of_stepResult (s := .value []) h rfl hstep hline
  · obtain ⟨text, hread, rfl⟩ := exists_of_map_ok hstep
    obtain ⟨v, hv, rfl⟩ := exists_of_readText? hread hline
    exact .next (h.error hv)
  · rw [hother] at hstep
    exact inStep_of_stepOther (s := .value []) h hother rfl hstep hline

end Values

/-! ## Whole lines -/

theorem run_nil {s : Awaiting} {e : Envelope} (h : run s [] = .ok e) :
    ∃ f, s = .nothing f ∧ e = f.toEnvelope := by
  cases s with
  | nothing f =>
    cases h
    exact ⟨f, rfl, rfl⟩
  | _ => cases h

theorem run_cons {s : Awaiting} {t : Token} {ts : List Token} {e : Envelope}
    (h : run s (t :: ts) = .ok e) : ∃ s', step s t = .ok s' ∧ run s' ts = .ok e := by
  have hbind : (step s t >>= fun s' => run s' ts) = .ok e := by
    rw [← h]
    cases s <;> rfl
  cases hstep : step s t with
  | error problem =>
    rw [hstep] at hbind
    cases hbind
  | ok s' =>
    rw [hstep] at hbind
    exact ⟨s', rfl, hbind⟩

namespace InStep

variable {s s' : Awaiting} {j j' : Json.Awaiting Json String} {t : Token}

/-- The readings stay in step, unless the line turns out to be an array. -/
theorem step (h : InStep s j) (hstep : Envelope.step s t = .ok s')
    (hline : lineReading.step j t = .ok j') : InStep s' j' ∨ Json.InArray j' := by
  cases h with
  | line =>
    cases t with
    | mark m =>
      cases m with
      | openObject =>
        cases hstep
        cases hline
        exact .inl (.name .empty fun _ => rfl)
      | openArray =>
        -- the envelope is read by position from here on
        cases hline
        exact .inr .first
      | _ => cases hstep
    | _ => cases hstep
  | @name isFirst f members h hfirst =>
    cases t with
    | text pieces e =>
      have hbegin : beginMember f pieces e = .ok s' := by
        cases isFirst <;> exact hstep
      cases hkeep : Json.keepText pieces e with
      | error fault =>
        rw [beginMember, hkeep] at hbegin
        cases hbegin
      | ok name =>
        simp only [Reading.step, Reading.kept, hkeep] at hline
        cases hline
        rw [beginMember, hkeep] at hbegin
        simp only [ofFault, bind, Except.bind] at hbegin
        split at hbegin <;> cases hbegin
        exact .inl (.colon h)
    | mark m =>
      cases isFirst with
      | false => cases m <;> cases hstep
      | true =>
        cases m with
        | closeObject =>
          cases hstep
          cases hline
          cases hfirst rfl
          exact .inl (.nothing h)
        | _ => cases hstep
    | _ => cases isFirst <;> cases hstep
  | @colon f members name h =>
    cases t with
    | mark m =>
      cases m with
      | colon =>
        cases hstep
        cases hline
        exact .inl (.value h)
      | _ => cases hstep
    | _ => cases hstep
  | value h => exact .inl (inStep_of_beginValue h hstep hline)
  | inResult h hs => exact .inl (inStep_of_stepResult h hs hstep hline)
  | inOther h hname hs => exact .inl (inStep_of_stepOther h hname hs hstep hline)
  | @next f members h =>
    cases t with
    | mark m =>
      cases m with
      | comma =>
        cases hstep
        cases hline
        exact .inl (.name h (by simp))
      | closeObject =>
        cases hstep
        cases hline
        exact .inl (.nothing h)
      | _ => cases hstep
    | _ => cases hstep
  | nothing h => cases hstep

/-- Readings that end in step agree on what the line says. -/
theorem run {ts : List Token} {e : Envelope} {v : Json} (h : InStep s j)
    (hrun : Envelope.run s ts = .ok e) (hline : lineReading.run j ts = .ok v) :
    (∃ members, v = .object members ∧ e = ofMembers members ∧
        ∀ w, e.result = some w → w.IsOrdered) ∨
      ∃ items, v = .array items := by
  induction ts generalizing s j with
  | nil =>
    obtain ⟨f, rfl, rfl⟩ := run_nil hrun
    cases Reading.run_nil hline
    cases h with
    | @nothing f members h =>
      refine .inl ⟨_, rfl, ?_, h.ordered⟩
      rw [ofMembers_ofNewest]
      exact h.eq
  | cons t ts ih =>
    obtain ⟨s', hstep, hrest⟩ := run_cons hrun
    obtain ⟨j', hlineStep, hlineRest⟩ := Reading.run_cons hline
    rcases h.step hstep hlineStep with h' | harray
    · exact ih h' hrest hlineRest
    · exact .inr (harray.run hlineRest)

end InStep

/-- A line that is read as an envelope and as a value is an array, or it is an object
whose members say what the envelope says. -/
theorem eq_ofMembers_or_array {line : Bytes} {e : Envelope} {v : Json} (h : read line = .ok e)
    (hline : Json.read line = .ok v) :
    (∃ members, v = .object members ∧ e = ofMembers members ∧
        ∀ w, e.result = some w → w.IsOrdered) ∨
      ∃ items, v = .array items :=
  InStep.line.run h hline

end Envelope
end DbClient
