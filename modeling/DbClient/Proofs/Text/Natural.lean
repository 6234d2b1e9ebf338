import DbClient.Text.Natural

/-!
# Decimal numbers

A natural number is read from its digits one after another, and reading stops at the first that
takes it above the bound. As further digits never make a number smaller, what is accepted is every
text of digits whose number is within the bound, with any number of zeros and perhaps a plus sign
in front.
-/

namespace DbClient.Text

/-- Characters that are decimal digits, one at least, and the number that they write. -/
structure Decimal (cs : List Char) (n : Nat) : Prop where
  ne_nil : cs ≠ []
  isDigit : ∀ c ∈ cs, c.isDigit = true
  value : Nat.ofDigitChars 10 cs 0 = n

/-- A number as a text writes it: in decimal, perhaps with a plus sign in front. -/
def WritesNatural (s : String) (n : Nat) : Prop :=
  ∃ digits, Decimal digits n ∧ (s.toList = digits ∨ s.toList = '+' :: digits)

variable {bound value n : Nat} {cs : List Char}

theorem digitValue?_eq (c : Char) :
    digitValue? c = if c.isDigit then some (c.toNat - '0'.toNat) else none := by
  simp [digitValue?, Char.isDigit, Char.le_def]

/-- Digits that are read after a number make it larger, if anything. -/
theorem le_ofDigitChars (cs : List Char) (value : Nat) : value ≤ Nat.ofDigitChars 10 cs value := by
  induction cs generalizing value with
  | nil => exact Nat.le_of_eq Nat.ofDigitChars_nil.symm
  | cons c cs ih =>
    rw [Nat.ofDigitChars_cons]
    have hrest := ih (10 * value + (c.toNat - '0'.toNat))
    omega

theorem readDigits_eq_ok_iff (hvalue : value ≤ bound) :
    readDigits bound value cs = .ok n ↔
      (∀ c ∈ cs, c.isDigit = true) ∧ Nat.ofDigitChars 10 cs value = n ∧ n ≤ bound := by
  induction cs generalizing value with
  | nil =>
    rw [readDigits, Nat.ofDigitChars_nil]
    constructor
    · rintro ⟨⟩
      exact ⟨by simp, rfl, hvalue⟩
    · rintro ⟨-, rfl, -⟩
      rfl
  | cons c cs ih =>
    rw [readDigits, digitValue?_eq, List.forall_mem_cons, Nat.ofDigitChars_cons,
      Nat.mul_comm 10 value]
    by_cases hc : c.isDigit = true
    · rw [if_pos hc]
      dsimp only
      by_cases hfits : value * 10 + (c.toNat - '0'.toNat) ≤ bound
      · rw [if_pos hfits, ih hfits]
        simp [hc]
      · -- the number is above the bound already, and stays there
        rw [if_neg hfits]
        have hgrows := le_ofDigitChars cs (value * 10 + (c.toNat - '0'.toNat))
        constructor
        · rintro ⟨⟩
        · rintro ⟨-, rfl, hn⟩
          exact absurd (Nat.le_trans hgrows hn) hfits
    · simp [hc]

theorem not_decimal_nil : ¬Decimal [] n :=
  fun h => h.ne_nil rfl

/-- Digits are read as the number that they write, if it is within the bound. -/
theorem readDigits_eq_ok_iff_decimal (hne : cs ≠ []) :
    readDigits bound 0 cs = .ok n ↔ Decimal cs n ∧ n ≤ bound := by
  rw [readDigits_eq_ok_iff (Nat.zero_le bound)]
  constructor
  · rintro ⟨hdigits, hvalue, hn⟩
    exact ⟨⟨hne, hdigits, hvalue⟩, hn⟩
  · rintro ⟨⟨-, hdigits, hvalue⟩, hn⟩
    exact ⟨hdigits, hvalue, hn⟩

section Sign

variable {s : String}

theorem writesNatural_of_plus (hs : s.toList = '+' :: cs) : WritesNatural s n ↔ Decimal cs n := by
  rw [WritesNatural, hs]
  constructor
  · rintro ⟨digits, hdecimal, rfl | h⟩
    · -- the sign is no digit
      exact absurd (hdecimal.isDigit '+' List.mem_cons_self) (by decide)
    · rw [(List.cons.inj h).2]
      exact hdecimal
  · intro hdecimal
    exact ⟨cs, hdecimal, .inr rfl⟩

theorem writesNatural_of_no_plus (hs : ∀ cs, s.toList ≠ '+' :: cs) :
    WritesNatural s n ↔ Decimal s.toList n := by
  constructor
  · rintro ⟨digits, hdecimal, hdigits | hdigits⟩
    · rw [hdigits]
      exact hdecimal
    · exact absurd hdigits (hs digits)
  · intro hdecimal
    exact ⟨_, hdecimal, .inl rfl⟩

/-- What is read is what is written in decimal, if it is within the bound. -/
theorem readNatural_eq_ok_iff : readNatural bound s = .ok n ↔ WritesNatural s n ∧ n ≤ bound := by
  unfold readNatural
  split
  · next hs =>
    rw [writesNatural_of_no_plus (by simp [hs]), hs]
    simp [not_decimal_nil]
  · next hs =>
    rw [writesNatural_of_plus hs]
    simp [not_decimal_nil]
  · next digits hlone hs =>
    have hne : digits ≠ [] := by
      rintro rfl
      exact hlone rfl
    rw [writesNatural_of_plus hs, readDigits_eq_ok_iff_decimal hne]
  · next hnil _ hunsigned =>
    rw [writesNatural_of_no_plus hunsigned, readDigits_eq_ok_iff_decimal hnil]

end Sign

/-! ## Numbers without a bound -/

/-- The number that digits write. -/
def decimal? (cs : List Char) : Option Nat :=
  if cs ≠ [] ∧ cs.all Char.isDigit then some (Nat.ofDigitChars 10 cs 0) else none

theorem decimal?_of_decimal (h : Decimal cs n) : decimal? cs = some n := by
  rw [decimal?, if_pos ⟨h.ne_nil, List.all_eq_true.2 h.isDigit⟩, h.value]

theorem decimal_repr (n : Nat) : Decimal n.repr.toList n where
  ne_nil := by
    rw [Nat.toList_repr]
    exact Nat.toDigits_ne_nil
  isDigit c hc := by
    rw [Nat.toList_repr] at hc
    exact Nat.isDigit_of_mem_toDigits (by decide) (by decide) hc
  value := by
    rw [Nat.toList_repr]
    exact Nat.ofDigitChars_ten_toDigits

end DbClient.Text
