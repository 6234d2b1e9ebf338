import DbClient.Number.Binary64

/-!
# The shortest decimal of a number

A finite number is identified by any decimal that lies nearer to it than to its
neighbours. Of those the ones with the fewest digits are wanted, and of these the
nearest to the number. The search tries one digit, then two, and so on: on each
decimal grid only the two points around the number can be the answer.
-/

namespace DbClient

/-- The positive decimal `coefficient * 10 ^ power`. -/
structure Decimal where
  coefficient : Nat
  power : Int
  deriving DecidableEq, Repr

namespace Decimal

/-- The digits of the coefficient, first digit first. -/
def digits (d : Decimal) : List Char :=
  Nat.toDigits 10 d.coefficient

/-- The power of ten of the first digit. -/
def leading (d : Decimal) : Int :=
  d.power + d.digits.length - 1

/-- The same decimal without the zeros at its end; `fuel` bounds their number. -/
def stripZeros : Nat → Decimal → Decimal
  | 0, d => d
  | fuel + 1, d =>
    if d.coefficient ≠ 0 ∧ d.coefficient % 10 = 0 then
      stripZeros fuel ⟨d.coefficient / 10, d.power + 1⟩
    else d

end Decimal

/-- Which of two equally near decimals is taken. -/
inductive Tie where
  | up
  | even
  deriving DecidableEq, Repr

/-- The reals that round to a number: its value, the ends of the interval, and
whether the ends belong to it. The three points are multiples of `2 ^ unit`. -/
structure RoundingInterval where
  low : Nat
  value : Nat
  high : Nat
  unit : Int
  closed : Bool

namespace RoundingInterval

/-- The interval of a finite positive number. Below a power of two the neighbour is
half as far away as above it. -/
def of (x : Binary64) : RoundingInterval :=
  let m := x.significand
  { low := if m = pow2 52 ∧ 1 < x.biased then 4 * m - 1 else 4 * m - 2
    value := 4 * m
    high := 4 * m + 2
    unit := x.exponent - 2
    closed := m % 2 = 0 }

/-- `n * 2 ^ unit` in units of `10 ^ power`, as a quotient. -/
def gridQuotient (n : Nat) (unit power : Int) : Nat × Nat :=
  (n * pow2 unit.toNat * pow10 (-power).toNat,
    pow2 (-unit).toNat * pow10 power.toNat)

/-- Whether `k * 10 ^ power` lies in the interval. -/
def contains (i : RoundingInterval) (k : Nat) (power : Int) : Bool :=
  let (low, d) := gridQuotient i.low i.unit power
  let (high, _) := gridQuotient i.high i.unit power
  if i.closed then low ≤ k * d && k * d ≤ high else low < k * d && k * d < high

/-- The point of the grid `10 ^ power` that is in the interval and nearest to the
value. -/
def pick? (i : RoundingInterval) (tie : Tie) (power : Int) : Option Decimal :=
  let (n, d) := gridQuotient i.value i.unit power
  let k := n / d
  let r := n % d
  let upper := d < 2 * r || (2 * r = d && (tie = .up || k % 2 = 1))
  let first := if upper then k + 1 else k
  let second := if upper then k else k + 1
  if i.contains first power then some ⟨first, power⟩
  else if i.contains second power then some ⟨second, power⟩
  else none

end RoundingInterval

namespace Binary64

/-- The power of ten of the first digit of `n / d`, searched upward from `guess`. -/
def leadingFrom (n d : Nat) : Nat → Int → Int
  | 0, guess => guess
  | fuel + 1, guess =>
    let (n', d') := RoundingInterval.gridQuotient n 0 (guess + 1)
    if d * d' ≤ n' then leadingFrom n d fuel (guess + 1) else guess

/-- The power of ten of the first digit of a finite positive number: a bound from
its size in bits, then at most two steps up. -/
def leading (x : Binary64) : Int :=
  let m := x.significand
  let size : Int := m.log2 + x.exponent
  leadingFrom (m * pow2 x.exponent.toNat) (pow2 (-x.exponent).toNat) 2
    ((size * 30102) / 100000 - 1)

/-- The shortest decimal that reads back as a finite positive number. -/
def shortest (tie : Tie) (x : Binary64) : Decimal :=
  let i := RoundingInterval.of x
  let found := (List.range 17).findSome? fun n : Nat => i.pick? tie (x.leading - n)
  (found.getD ⟨0, 0⟩).stripZeros 400

end Binary64
end DbClient
