import Mathlib.Data.List.Forall2

/-!
# Chains of outcomes

What is known of the links of a chain that has gone well.
-/

namespace DbClient

variable {α β ε : Type}

theorem exists_of_map_ok {x : Except ε α} {f : α → β} {b : β} (h : x.map f = .ok b) :
    ∃ a, x = .ok a ∧ f a = b := by
  cases x with
  | error e => cases h
  | ok a => exact ⟨a, rfl, Except.ok.inj h⟩

theorem eq_error_of_map {x : Except ε α} {f : α → β} {e : ε} (h : x.map f = .error e) :
    x = .error e := by
  cases x with
  | error e' => exact congrArg Except.error (Except.error.inj h)
  | ok a => cases h

theorem exists_of_bind_ok {x : Except ε α} {f : α → Except ε β} {b : β}
    (h : x >>= f = .ok b) : ∃ a, x = .ok a ∧ f a = .ok b := by
  cases x with
  | error e => cases h
  | ok a => exact ⟨a, rfl, h⟩

theorem map_injective {f : α → β} (hf : Function.Injective f) :
    Function.Injective (Except.map f : Except ε α → Except ε β) := by
  intro x y h
  rcases x with e | a <;> rcases y with e' | b
  · exact congrArg Except.error (Except.error.inj h)
  · cases h
  · cases h
  · exact congrArg Except.ok (hf (Except.ok.inj h))

/-- Reading a list item by item gives what each of the items gives, in order. -/
theorem mapM_eq_ok_iff {f : α → Except ε β} {items : List α} {read : List β} :
    items.mapM f = .ok read ↔ List.Forall₂ (fun a b => f a = .ok b) items read := by
  induction items generalizing read with
  | nil =>
    constructor
    · rintro ⟨⟩
      exact .nil
    · rintro ⟨⟩
      rfl
  | cons a items ih =>
    rw [List.mapM_cons]
    constructor
    · intro h
      obtain ⟨b, hb, h⟩ := exists_of_bind_ok h
      obtain ⟨bs, hrest, h⟩ := exists_of_bind_ok h
      cases h
      exact .cons hb (ih.1 hrest)
    · intro h
      cases h with
      | cons hb hrest =>
        rw [hb, ih.2 hrest]
        rfl

/-- Items that are read alike are read alike together. -/
theorem mapM_congr {f g : α → Except ε β} {items : List α} (h : ∀ a ∈ items, f a = g a) :
    items.mapM f = items.mapM g := by
  induction items with
  | nil => rfl
  | cons a items ih =>
    obtain ⟨ha, hrest⟩ := List.forall_mem_cons.1 h
    rw [List.mapM_cons, List.mapM_cons, ha, ih hrest]

/-- A list can be read if its items can all be read, and only then. -/
theorem exists_mapM_ok_iff {f : α → Except ε β} {items : List α} :
    (∃ read, items.mapM f = .ok read) ↔ ∀ a ∈ items, ∃ b, f a = .ok b := by
  induction items with
  | nil => exact ⟨fun _ => nofun, fun _ => ⟨[], rfl⟩⟩
  | cons a items ih =>
    rw [List.forall_mem_cons, ← ih, List.mapM_cons]
    constructor
    · rintro ⟨read, h⟩
      obtain ⟨b, hb, h⟩ := exists_of_bind_ok h
      obtain ⟨bs, hrest, -⟩ := exists_of_bind_ok h
      exact ⟨⟨b, hb⟩, bs, hrest⟩
    · rintro ⟨⟨b, hb⟩, bs, hrest⟩
      rw [hb, hrest]
      exact ⟨b :: bs, rfl⟩

theorem length_of_mapM {f : α → Except ε β} {items : List α} {read : List β}
    (h : items.mapM f = .ok read) : read.length = items.length :=
  (mapM_eq_ok_iff.1 h).length_eq.symm

/-- A chain of steps that fails has a first step that fails. -/
theorem exists_of_foldlM_error {step : β → α → Except ε β} {items : List α} {s : β} {e : ε}
    (h : items.foldlM step s = .error e) :
    ∃ before a after s', items = before ++ a :: after ∧ before.foldlM step s = .ok s' ∧
      step s' a = .error e := by
  induction items generalizing s with
  | nil => cases h
  | cons a items ih =>
    rw [List.foldlM_cons] at h
    cases hfirst : step s a with
    | error e' =>
      rw [hfirst] at h
      cases h
      exact ⟨[], a, items, s, rfl, rfl, hfirst⟩
    | ok s₁ =>
      rw [hfirst] at h
      obtain ⟨before, b, after, s', rfl, hbefore, hstep⟩ := ih h
      refine ⟨a :: before, b, after, s', rfl, ?_, hstep⟩
      rw [List.foldlM_cons, hfirst]
      exact hbefore

/-- A chain of steps any two of which may change places ends the same in every order. -/
theorem foldlM_perm {step : β → α → Except ε β} {items items' : List α} {s s' : β}
    (h : items.Perm items') (hread : items.foldlM step s = .ok s')
    (hswap : ∀ s s₁ s₂ a b, step s a = .ok s₁ → step s₁ b = .ok s₂ →
      ∃ s₁', step s b = .ok s₁' ∧ step s₁' a = .ok s₂) :
    items'.foldlM step s = .ok s' := by
  induction h generalizing s with
  | nil => exact hread
  | cons a _ ih =>
    rw [List.foldlM_cons] at hread ⊢
    obtain ⟨s₁, hfirst, hrest⟩ := exists_of_bind_ok hread
    rw [hfirst]
    exact ih hrest
  | swap a b rest =>
    rw [List.foldlM_cons] at hread ⊢
    obtain ⟨s₁, hfirst, hread⟩ := exists_of_bind_ok hread
    rw [List.foldlM_cons] at hread
    obtain ⟨s₂, hsecond, hrest⟩ := exists_of_bind_ok hread
    obtain ⟨s₁', hfirst', hsecond'⟩ := hswap _ _ _ _ _ hfirst hsecond
    rw [hfirst']
    show (b :: rest).foldlM step s₁' = .ok s'
    rw [List.foldlM_cons, hsecond']
    exact hrest
  | trans _ _ ih ih' => exact ih' (ih hread)

/-- An outcome that is an answer, or an error of a kind. -/
def FailsOnly (P : ε → Prop) (x : Except ε α) : Prop :=
  ∀ e, x = .error e → P e

namespace FailsOnly

variable {P Q : ε → Prop} {x : Except ε α}

theorem ok (a : α) : FailsOnly P (.ok a) := by
  intro e h
  cases h

theorem error {e : ε} (h : P e) : FailsOnly P (.error e : Except ε α) := by
  intro e' h'
  cases h'
  exact h

theorem bind {f : α → Except ε β} (hx : FailsOnly P x) (hf : ∀ a, FailsOnly P (f a)) :
    FailsOnly P (x.bind f) := by
  cases x with
  | error e => exact error (hx e rfl)
  | ok a => exact hf a

theorem map (hx : FailsOnly P x) (f : α → β) : FailsOnly P (x.map f) := by
  cases x with
  | error e => exact error (hx e rfl)
  | ok a => exact ok (f a)

theorem mapM {f : α → Except ε β} (hf : ∀ a, FailsOnly P (f a)) (items : List α) :
    FailsOnly P (items.mapM f) := by
  induction items with
  | nil => exact ok []
  | cons a items ih =>
    rw [List.mapM_cons]
    refine bind (hf a) fun b => ?_
    exact bind ih fun bs => ok (b :: bs)

theorem mono (hx : FailsOnly P x) (h : ∀ e, P e → Q e) : FailsOnly Q x := by
  intro e he
  exact h e (hx e he)

end FailsOnly

end DbClient
