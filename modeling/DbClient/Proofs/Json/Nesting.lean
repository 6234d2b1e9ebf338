import DbClient.Json.Reader
import DbClient.Proofs.Except

/-!
# Values inside values

Reading a value inside other containers is reading it alone, with those containers
kept underneath: every step of the one is a step of the other. And what is kept can be
forgotten: reading a value to keep it is, step by step, passing it over.
-/

namespace DbClient.Json

variable {α κ : Type}

/-! ## Underneath -/

/-- The point of the grammar with more containers around it. A complete value becomes
part of the innermost of them. -/
def Awaiting.under (base : List (Level α κ)) : Awaiting α κ → Awaiting α κ
  | value stack => value (stack ++ base)
  | firstItem stack => firstItem (stack ++ base)
  | name isFirst members stack => name isFirst members (stack ++ base)
  | colon members n stack => colon members n (stack ++ base)
  | afterItem items stack => afterItem items (stack ++ base)
  | afterMember members stack => afterMember members (stack ++ base)
  | nothing v => Reading.complete v base

/-- Whether a value is being read. -/
def Awaiting.isOpen : Awaiting α κ → Bool
  | nothing _ => false
  | _ => true

theorem Awaiting.isOpen_under (base : List (Level α κ)) {s : Awaiting α κ}
    (h : s.isOpen = true) : (s.under base).isOpen = true := by
  cases s with
  | nothing v => cases h
  | _ => rfl

namespace Reading

/-! ## Runs -/

/-- Only a complete value may end a line. -/
theorem run_nil {r : Reading α κ} {s : Awaiting α κ} {v : α} (h : r.run s [] = .ok v) :
    s = .nothing v := by
  cases s <;> cases h
  rfl

theorem run_cons {r : Reading α κ} {s : Awaiting α κ} {t : Token} {ts : List Token} {v : α}
    (h : r.run s (t :: ts) = .ok v) : ∃ s', r.step s t = .ok s' ∧ r.run s' ts = .ok v := by
  have hbind : (r.step s t >>= fun s' => r.run s' ts) = .ok v := by
    rw [← h]
    cases s <;> rfl
  cases hstep : r.step s t with
  | error f =>
    rw [hstep] at hbind
    cases hbind
  | ok s' =>
    rw [hstep] at hbind
    exact ⟨s', rfl, hbind⟩

/-! ## Steps -/

/-- Everything that one token can do. -/
inductive Stepped (r : Reading α κ) : Awaiting α κ → Token → Awaiting α κ → Prop
  | begun {stack : List (Level α κ)} {t : Token} {s' : Awaiting α κ}
    (h : r.beginValue stack t = .ok s') : Stepped r (.value stack) t s'
  | firstBegun {stack : List (Level α κ)} {t : Token} {s' : Awaiting α κ}
    (ht : t ≠ .mark .closeArray) (h : r.beginValue (.array [] :: stack) t = .ok s') :
    Stepped r (.firstItem stack) t s'
  | noItem (stack : List (Level α κ)) :
    Stepped r (.firstItem stack) (.mark .closeArray) (complete (r.array []) stack)
  | named {isFirst : Bool} {members : List (κ × α)} {stack : List (Level α κ)}
    {pieces : List Piece} {e : Ending} {n : κ} (h : r.name pieces e = .ok n) :
    Stepped r (.name isFirst members stack) (.text pieces e) (.colon members n stack)
  | noMember (members : List (κ × α)) (stack : List (Level α κ)) :
    Stepped r (.name true members stack) (.mark .closeObject) (complete (r.object []) stack)
  | colon (members : List (κ × α)) (n : κ) (stack : List (Level α κ)) :
    Stepped r (.colon members n stack) (.mark .colon) (.value (.object members n :: stack))
  | nextItem (items : List α) (stack : List (Level α κ)) :
    Stepped r (.afterItem items stack) (.mark .comma) (.value (.array items :: stack))
  | lastItem (items : List α) (stack : List (Level α κ)) :
    Stepped r (.afterItem items stack) (.mark .closeArray)
      (complete (r.array items.reverse) stack)
  | nextMember (members : List (κ × α)) (stack : List (Level α κ)) :
    Stepped r (.afterMember members stack) (.mark .comma) (.name false members stack)
  | lastMember (members : List (κ × α)) (stack : List (Level α κ)) :
    Stepped r (.afterMember members stack) (.mark .closeObject)
      (complete (r.object members) stack)

theorem stepped_of_step {r : Reading α κ} {s s' : Awaiting α κ} {t : Token}
    (h : r.step s t = .ok s') : Stepped r s t s' := by
  cases s with
  | nothing v => cases h
  | value stack => exact .begun h
  | firstItem stack =>
    by_cases ht : t = .mark .closeArray
    · subst ht
      cases h
      exact .noItem stack
    · refine .firstBegun ht ?_
      rw [← h]
      simp only [step]
  | name isFirst members stack =>
    cases t with
    | text pieces e =>
      simp only [step] at h
      cases hname : r.name pieces e with
      | error f =>
        rw [hname] at h
        cases h
      | ok n =>
        rw [hname] at h
        cases h
        exact .named hname
    | mark m =>
      cases isFirst with
      | false => cases m <;> cases h
      | true =>
        cases m with
        | closeObject =>
          cases h
          exact .noMember members stack
        | _ => cases h
    | _ => cases isFirst <;> cases h
  | colon members n stack =>
    cases t with
    | mark m =>
      cases m with
      | colon =>
        cases h
        exact .colon members n stack
      | _ => cases h
    | _ => cases h
  | afterItem items stack =>
    cases t with
    | mark m =>
      cases m with
      | comma =>
        cases h
        exact .nextItem items stack
      | closeArray =>
        cases h
        exact .lastItem items stack
      | _ => cases h
    | _ => cases h
  | afterMember members stack =>
    cases t with
    | mark m =>
      cases m with
      | comma =>
        cases h
        exact .nextMember members stack
      | closeObject =>
        cases h
        exact .lastMember members stack
      | _ => cases h
    | _ => cases h

/-- The reading with room for more containers. -/
def widen (r : Reading α κ) (n : Nat) : Reading α κ :=
  { r with room := r.room.map (· + n) }

theorem kept_widen (room n : Nat) : (kept room).widen n = kept (room + n) := rfl

variable (r : Reading α κ) (base stack : List (Level α κ))

theorem admits_widen : (r.widen base.length).admits (stack ++ base) = r.admits stack := by
  cases h : r.room with
  | none => simp [admits, widen, h]
  | some room => simp [admits, widen, h]

theorem complete_under (v : α) : complete v (stack ++ base) = (complete v stack).under base := by
  cases stack with
  | nil => rfl
  | cons level stack => cases level <;> rfl

theorem beginValue_under (t : Token) :
    (r.widen base.length).beginValue (stack ++ base) t =
      (r.beginValue stack t).map (Awaiting.under base) := by
  cases t with
  | word w e =>
    simp only [beginValue, widen, complete_under]
    cases e.check <;> rfl
  | number n e =>
    simp only [beginValue, widen, complete_under]
    cases r.number n e <;> rfl
  | text pieces e =>
    simp only [beginValue, widen, complete_under]
    cases r.text pieces e <;> rfl
  | stray => rfl
  | mark m =>
    cases m with
    | openArray =>
      simp only [beginValue, admits_widen]
      cases r.admits stack <;> rfl
    | openObject =>
      simp only [beginValue, admits_widen]
      cases r.admits stack <;> rfl
    | _ => rfl

/-- A step of a value that is read inside other containers. -/
theorem step_under {s : Awaiting α κ} (h : s.isOpen = true) (t : Token) :
    (r.widen base.length).step (s.under base) t = (r.step s t).map (Awaiting.under base) := by
  cases s with
  | nothing v => cases h
  | value stack => exact r.beginValue_under base stack t
  | firstItem stack =>
    by_cases ht : t = .mark .closeArray
    · subst ht
      simp only [Awaiting.under, step, complete_under]
      rfl
    · have hbegin := r.beginValue_under base (.array [] :: stack) t
      simp only [Awaiting.under, step]
      exact hbegin
  | name isFirst members stack =>
    cases t with
    | text pieces e =>
      simp only [Awaiting.under, step, widen]
      cases r.name pieces e <;> rfl
    | mark m =>
      cases isFirst
      · cases m <;> rfl
      · cases m with
        | closeObject =>
          simp only [Awaiting.under, step, complete_under]
          rfl
        | _ => rfl
    | _ => rfl
  | colon members n stack =>
    cases t with
    | mark m => cases m <;> rfl
    | _ => rfl
  | afterItem items stack =>
    cases t with
    | mark m =>
      cases m with
      | closeArray =>
        simp only [Awaiting.under, step, complete_under]
        rfl
      | _ => rfl
    | _ => rfl
  | afterMember members stack =>
    cases t with
    | mark m =>
      cases m with
      | closeObject =>
        simp only [Awaiting.under, step, complete_under]
        rfl
      | _ => rfl
    | _ => rfl

end Reading

/-! ## Forgetting -/

/-- A container with its shape only. -/
def Level.erase : Level α κ → Level Unit Unit
  | array items => array (items.map fun _ => ())
  | object members _ => object (members.map fun _ => ((), ())) ()

/-- The point of the grammar with the shapes of the containers only. -/
def Awaiting.erase : Awaiting α κ → Awaiting Unit Unit
  | value stack => value (stack.map Level.erase)
  | firstItem stack => firstItem (stack.map Level.erase)
  | name isFirst members stack =>
    name isFirst (members.map fun _ => ((), ())) (stack.map Level.erase)
  | colon members _ stack => colon (members.map fun _ => ((), ())) () (stack.map Level.erase)
  | afterItem items stack => afterItem (items.map fun _ => ()) (stack.map Level.erase)
  | afterMember members stack =>
    afterMember (members.map fun _ => ((), ())) (stack.map Level.erase)
  | nothing _ => nothing ()

/-- A text can be kept only if it is closed. -/
theorem closed_of_joinPieces {pieces : List Piece} {e : Ending} {bytes : Bytes}
    (h : joinPieces pieces e = .ok bytes) : e = .closed := by
  fun_induction joinPieces pieces e generalizing bytes with
  | case1 e =>
    cases e with
    | closed => rfl
    | _ => cases h
  | case2 b rest e ih | case8 u rest e hlow hhigh ih =>
    obtain ⟨tail, htail, -⟩ := exists_of_map_ok h
    exact ih htail
  | case4 u e hlow hhigh v rest hpair ih =>
    obtain ⟨tail, htail, -⟩ := exists_of_map_ok h
    exact ih htail
  | case3 | case5 | case6 | case7 => cases h

theorem closed_of_keepText {pieces : List Piece} {e : Ending} {s : String}
    (h : keepText pieces e = .ok s) : e = .closed := by
  cases hjoin : joinPieces pieces e with
  | error f =>
    rw [keepText, hjoin] at h
    cases h
  | ok bytes => exact closed_of_joinPieces hjoin

theorem closed_of_keepNumber {n : Numeral} {e : Ending} {v : Json}
    (h : keepNumber n e = .ok v) : e = .closed := by
  cases e with
  | closed => rfl
  | _ => cases h

namespace Reading

variable {room : Nat} {s s' : Awaiting Json String} {t : Token}

theorem complete_erase (v : α) (stack : List (Level α κ)) :
    (complete v stack).erase = complete () (stack.map Level.erase) := by
  cases stack with
  | nil => rfl
  | cons level stack => cases level <;> rfl

theorem beginValue_erase {stack : List (Level Json String)}
    (h : (kept room).beginValue stack t = .ok s') :
    skipped.beginValue (stack.map Level.erase) t = .ok s'.erase := by
  cases t with
  | word w e =>
    cases e with
    | closed =>
      cases h
      rw [complete_erase]
      rfl
    | _ => cases h
  | number n e =>
    cases hn : keepNumber n e with
    | error f =>
      simp only [beginValue, kept, hn] at h
      cases h
    | ok v =>
      simp only [beginValue, kept, hn] at h
      cases h
      cases closed_of_keepNumber hn
      rw [complete_erase]
      rfl
  | text pieces e =>
    cases htext : keepText pieces e with
    | error f =>
      simp only [beginValue, kept, htext] at h
      cases h
    | ok v =>
      simp only [beginValue, kept, htext] at h
      cases h
      cases closed_of_keepText htext
      rw [complete_erase]
      rfl
  | stray => cases h
  | mark m =>
    cases m with
    | openArray =>
      rw [beginValue] at h
      split at h <;> cases h
      rfl
    | openObject =>
      rw [beginValue] at h
      split at h <;> cases h
      rfl
    | _ => cases h

/-- A step of a kept value is a step of a value that is passed over. -/
theorem step_erase (h : (kept room).step s t = .ok s') : skipped.step s.erase t = .ok s'.erase := by
  cases stepped_of_step h with
  | begun hbegin => exact beginValue_erase hbegin
  | firstBegun ht hbegin =>
    -- the token does not close the array in the erased reading either
    rw [← beginValue_erase hbegin]
    simp only [Awaiting.erase, step]
    rfl
  | named hname =>
    cases closed_of_keepText hname
    rfl
  | noItem | noMember | lastItem | lastMember =>
    rw [complete_erase]
    rfl
  | colon | nextItem | nextMember => rfl

end Reading

/-! ## Lines that are arrays -/

/-- A point of the grammar inside an outermost array, or after it. -/
inductive InArray : Awaiting Json String → Prop
  | first : InArray (.firstItem [])
  | item {s : Awaiting Json String} (items : List Json) (h : s.isOpen = true) :
    InArray (s.under [.array items])
  | after (items : List Json) : InArray (.afterItem items [])
  | done (items : List Json) : InArray (.nothing (.array items))

namespace InArray

variable {room : Nat} {s s' : Awaiting Json String} {t : Token}

/-- A step of an item leads to another, or to the end of the item. -/
theorem of_item {items : List Json} (h : s.isOpen = true)
    (hstep : (Reading.kept (room + 1)).step (s.under [.array items]) t = .ok s') : InArray s' := by
  have hunder := (Reading.kept room).step_under [.array items] h t
  rw [List.length_singleton, Reading.kept_widen, hstep] at hunder
  obtain ⟨inner, -, rfl⟩ := exists_of_map_ok hunder.symm
  cases hopen : inner.isOpen with
  | true => exact .item items hopen
  | false =>
    -- the item is complete
    cases inner with
    | nothing v => exact .after (v :: items)
    | _ => cases hopen

theorem step (h : InArray s) (hstep : (Reading.kept (room + 1)).step s t = .ok s') :
    InArray s' := by
  cases h with
  | item items hopen => exact of_item hopen hstep
  | done items => cases hstep
  | first =>
    cases Reading.stepped_of_step hstep with
    | firstBegun _ hbegin => exact of_item (s := .value []) rfl hbegin
    | noItem => exact .done []
  | after items =>
    cases Reading.stepped_of_step hstep with
    | nextItem => exact .item (s := .value []) items rfl
    | lastItem => exact .done items.reverse

theorem of_nothing {v : Json} (h : InArray s) (hs : s = .nothing v) :
    ∃ items, v = .array items := by
  cases h with
  | first => cases hs
  | item items hopen =>
    have hunder := Awaiting.isOpen_under [.array items] hopen
    rw [hs] at hunder
    cases hunder
  | after items => cases hs
  | done items =>
    cases hs
    exact ⟨items, rfl⟩

/-- A line that begins as an array is one. -/
theorem run {ts : List Token} {v : Json} (h : InArray s)
    (hrun : (Reading.kept (room + 1)).run s ts = .ok v) : ∃ items, v = .array items := by
  induction ts generalizing s with
  | nil => exact h.of_nothing (Reading.run_nil hrun)
  | cons t ts ih =>
    obtain ⟨s', hstep, hrest⟩ := Reading.run_cons hrun
    exact ih (h.step hstep) hrest

end InArray
end DbClient.Json
