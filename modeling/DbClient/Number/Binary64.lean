/-!
# Double-precision numbers

Times in replies and fractional literals are IEEE 754 binary64 numbers. A number is
its sixty-four bits; every finite one stands for `significand * 2 ^ exponent`.
Rounding a quotient of naturals to the nearest such number, ties going to the even
significand, is done in exact arithmetic. Decimals are not rounded in this way: they
are read as a word times a power of ten, and the word, the power and the product are
rounded one after the other.
-/

namespace DbClient

/-- A power of two. -/
def pow2 (n : Nat) : Nat :=
  Nat.pow 2 n

/-- A power of ten. -/
def pow10 (n : Nat) : Nat :=
  Nat.pow 10 n

/-- A binary64 number, by its bits. -/
structure Binary64 where
  bits : UInt64
  deriving DecidableEq, Repr

namespace Binary64

/-- Positive zero, the value of a time that a reply leaves out. -/
def zero : Binary64 := ⟨0⟩

instance : Inhabited Binary64 := ⟨zero⟩

/-! ## The parts of a number -/

/-- The bits without the sign. -/
def magnitudeBits (x : Binary64) : Nat :=
  x.bits.toNat % pow2 63

def isNegative (x : Binary64) : Bool :=
  pow2 63 ≤ x.bits.toNat

/-- The bits of positive infinity; the numbers below are finite. -/
def infinityBits : Nat := 0x7FF0000000000000

def isFinite (x : Binary64) : Bool :=
  x.magnitudeBits < infinityBits

def isNaN (x : Binary64) : Bool :=
  infinityBits < x.magnitudeBits

/-- The exponent field. -/
def biased (x : Binary64) : Nat :=
  x.magnitudeBits / pow2 52

/-- The whole number that a power of two scales; its leading bit is implied unless
the exponent field is zero. -/
def significand (x : Binary64) : Nat :=
  if x.biased = 0 then x.magnitudeBits else x.magnitudeBits % pow2 52 + pow2 52

/-- The power of two that scales the significand. -/
def exponent (x : Binary64) : Int :=
  max x.biased 1 - 1075

/-! ## Rounding -/

/-- The number with a sign and magnitude bits. -/
def ofMagnitude (negative : Bool) (magnitude : Nat) : Binary64 :=
  ⟨UInt64.ofNat (if negative then magnitude + pow2 63 else magnitude)⟩

/-- `n / d` to the nearest whole number, a tie going to the even one. -/
def roundQuotient (n d : Nat) : Nat :=
  let q := n / d
  let r := n % d
  if 2 * r < d || (2 * r = d && q % 2 = 0) then q else q + 1

/-- `n / d / 2 ^ e` as a quotient of naturals. -/
def scaleQuotient (n d : Nat) (e : Int) : Nat × Nat :=
  if 0 ≤ e then (n, d * pow2 e.toNat) else (n * pow2 (-e).toNat, d)

/-- The exponent at which `n / d` has a significand of fifty-three bits, but never
below that of the subnormal numbers. -/
def quotientExponent (n d : Nat) : Int :=
  let e : Int := n.log2 - d.log2 - 53
  let (n', d') := scaleQuotient n d e
  max (if pow2 53 ≤ n' / d' then e + 1 else e) (-1074)

/-- The magnitude bits of the number nearest to `n / d`. Rounding up to the next
power of two carries into the exponent field, as it should. -/
def nearestMagnitude (n d : Nat) : Nat :=
  let e := quotientExponent n d
  let (n', d') := scaleQuotient n d e
  (e + 1074).toNat * pow2 52 + roundQuotient n' d'

/-- The number nearest to `n / d`, with a sign; infinity above the finite range. -/
def nearest (negative : Bool) (n d : Nat) : Binary64 :=
  if n = 0 then ofMagnitude negative 0
  else ofMagnitude negative (min (nearestMagnitude n d) infinityBits)

/-- The number nearest to an integer. -/
def ofInt (n : Int) : Binary64 :=
  nearest (n < 0) n.natAbs 1

/-! ## Arithmetic -/

/-- The number nearest to `n / d * 2 ^ e`, with a sign. -/
def nearestScaled (negative : Bool) (n d : Nat) (e : Int) : Binary64 :=
  let (n', d') := scaleQuotient n d (-e)
  nearest negative n' d'

/-- The product of two finite numbers. -/
def mul (x y : Binary64) : Binary64 :=
  nearestScaled (x.isNegative != y.isNegative) (x.significand * y.significand) 1
    (x.exponent + y.exponent)

/-- The quotient of two finite numbers, the second of which is not zero. -/
def div (x y : Binary64) : Binary64 :=
  nearestScaled (x.isNegative != y.isNegative) x.significand y.significand
    (x.exponent - y.exponent)

/-! ## Decimals -/

/-- The greatest power of ten in the finite range. -/
def maxTens : Nat := 308

/-- The number nearest to a power of ten. -/
def tens (k : Nat) : Binary64 :=
  nearest false (pow10 k) 1

/-- A number divided by the greatest power of ten, so many times. Zero is not divided
any more. -/
def shrink (x : Binary64) : Nat → Binary64
  | 0 => x
  | steps + 1 => if x.magnitudeBits = 0 then x else shrink (x.div (tens maxTens)) steps

/-- A number divided by `10 ^ k`, by the greatest power of ten as often as `k` is still
above it. -/
def divTens (x : Binary64) (k : Nat) : Binary64 :=
  let steps := (k - 1) / maxTens
  (x.shrink steps).div (tens (k - steps * maxTens))

/-- What is read for `digits * 10 ^ power`, the digits being a word, or nothing if that
comes out above the finite range. The digits are rounded, so is the power, and so is
what comes of the two. Just below the end of the range this may be above it where the
decimal is not. -/
def ofScaled? (negative : Bool) (digits : Nat) (power : Int) : Option Binary64 :=
  let x := nearest negative digits 1
  if digits = 0 then some x
  else if power < 0 then some (x.divTens (-power).toNat)
  else if maxTens < power then none
  else
    let y := x.mul (tens power.toNat)
    if y.isFinite then some y else none

end Binary64
end DbClient
