import DbClient.Json.Reader

/-!
# Numbers that are out of range

A fractional number is read from its leading digits and a power of ten. What it takes for it to
come out above the finite range is said of these two. It is not the decimal that decides, for
digits, power and product are rounded on the way.
-/

namespace DbClient

/-! ## Leading digits -/

theorem leadingDigits_of_le {n : Nat} (h : n ≤ maxUnsigned) : leadingDigits n = (n, 0) := by
  rw [leadingDigits, if_pos h]

theorem leadingDigits_of_lt {n : Nat} (h : maxUnsigned < n) :
    leadingDigits n = (leadingDigits (n / 10)).map id (· + 1) := by
  rw [leadingDigits, if_neg (Nat.not_le.2 h)]

theorem pow10_zero : pow10 0 = 1 :=
  rfl

theorem pow10_succ (k : Nat) : pow10 (k + 1) = 10 * pow10 k :=
  Nat.pow_succ'

/-- The digits that are left when some are left out at the end: they fit a word, and with one more
of them they would not. -/
structure IsLeading (n digits left : Nat) : Prop where
  eq_div : digits = n / pow10 left
  fits : digits ≤ maxUnsigned
  full : ∀ k, left = k + 1 → maxUnsigned < n / pow10 k

theorem isLeading_leadingDigits (n : Nat) :
    IsLeading n (leadingDigits n).1 (leadingDigits n).2 := by
  induction n using leadingDigits.induct with
  | case1 n h =>
    rw [leadingDigits_of_le h]
    exact ⟨(Nat.div_one n).symm, h, nofun⟩
  | case2 n h ih =>
    have hlarge := Nat.not_le.1 h
    rw [leadingDigits_of_lt hlarge, Prod.map_fst, Prod.map_snd, id]
    refine ⟨?_, ih.fits, ?_⟩
    · rw [ih.eq_div, pow10_succ, Nat.div_div_eq_div_mul]
    · rintro k hk
      obtain rfl := Nat.succ.inj hk
      cases hleft : (leadingDigits (n / 10)).2 with
      | zero => rwa [pow10_zero, Nat.div_one]
      | succ k =>
        rw [pow10_succ, ← Nat.div_div_eq_div_mul]
        exact ih.full k hleft

theorem fst_leadingDigits_eq_zero_iff {n : Nat} : (leadingDigits n).1 = 0 ↔ n = 0 := by
  have h := isLeading_leadingDigits n
  rw [h.eq_div]
  cases hleft : (leadingDigits n).2 with
  | zero => rw [pow10_zero, Nat.div_one]
  | succ k =>
    -- a digit is left out only behind others
    have hfull := h.full k hleft
    rw [pow10_succ, Nat.mul_comm, ← Nat.div_div_eq_div_mul]
    constructor
    · intro hzero
      simp only [maxUnsigned] at hfull
      omega
    · rintro rfl
      rw [Nat.zero_div] at hfull
      exact absurd hfull (Nat.not_lt_zero _)

/-! ## Digits times a power of ten -/

/-- Nothing is read where the power is not in the finite range, or the product is not. -/
theorem Binary64.ofScaled?_eq_none_iff {negative : Bool} {digits : Nat} {power : Int} :
    ofScaled? negative digits power = none ↔
      digits ≠ 0 ∧ 0 ≤ power ∧
        (maxTens < power ∨
          ((nearest negative digits 1).mul (tens power.toNat)).isFinite = false) := by
  unfold ofScaled?
  dsimp only
  by_cases hzero : digits = 0
  · simp [hzero]
  by_cases hneg : power < 0
  · have : ¬0 ≤ power := by omega
    simp [hzero, hneg, this]
  by_cases hgreat : maxTens < power
  · have : 0 ≤ power := by omega
    simp [hzero, hneg, hgreat, this]
  · have : 0 ≤ power := by omega
    simp [hzero, hneg, hgreat, this]

namespace Json.Numeral

variable {n : Numeral}

theorem fst_leading_eq_zero_iff : n.leading.1 = 0 ↔ n.coefficient = 0 := by
  have hpow : pow10 n.places ≠ 0 := Nat.ne_of_gt (Nat.pow_pos (by decide))
  have hparts := Nat.div_add_mod n.coefficient (pow10 n.places)
  simp only [leading, fst_leadingDigits_eq_zero_iff, Nat.add_eq_zero_iff, Nat.mul_eq_zero, hpow,
    or_false]
  constructor
  · rintro ⟨hwhole, hrest⟩
    rw [← hparts, hwhole, hrest]
    rfl
  · intro h
    rw [h]
    exact ⟨Nat.zero_div _, Nat.zero_mod _⟩

/-! ## Numbers with a point or a power -/

/-- Whether a number is above the finite range as it is read: it is not zero, and either the power
that is written is too large to be read, or the power of ten that goes with its leading digits is
not in the range, or the product of the two is not. -/
def Overflows (n : Numeral) : Prop :=
  n.coefficient ≠ 0 ∧
    if maxPower < n.power then n.powerNegative = false
    else 0 ≤ n.scale ∧
      (Binary64.maxTens < n.scale ∨
        ((Binary64.nearest n.negative n.leading.1 1).mul
          (Binary64.tens n.scale.toNat)).isFinite = false)

theorem real?_eq_none_iff : n.real? = none ↔ n.Overflows := by
  unfold real? Overflows
  split
  · cases n.powerNegative <;> simp [fst_leading_eq_zero_iff]
  · rw [Binary64.ofScaled?_eq_none_iff, ne_eq, fst_leading_eq_zero_iff]

/-- A number that is an integer of sixty-four bits, or does not overflow as it is read. -/
def InRange (n : Numeral) : Prop :=
  n.isInteger = true ∨ ¬n.Overflows

theorem inRange_iff : n.InRange ↔ ∃ v, keepNumber n .closed = .ok v := by
  simp only [InRange, ← real?_eq_none_iff, keepNumber, Ending.check, bind, Except.bind]
  cases n.isInteger with
  | true => simp
  | false => cases n.real? <;> simp

/-- A decimal below the largest number that is out of range all the same. -/
example : 179769313486231570000 * 10 ^ 288 < (2 ^ 53 - 1) * 2 ^ 971 ∧
    (keepNumber ⟨false, 179769313486231570000, 0, false, 288, false⟩ .closed).toOption = none := by
  decide +kernel

end Json.Numeral
end DbClient
