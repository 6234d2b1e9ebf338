/-!
# Words of sixty-four bits

Counters have no sign; other integers in replies do. A JSON integer fits one or the
other, or it is no integer.
-/

namespace DbClient

/-- The largest counter. -/
def maxUnsigned : Nat := 18446744073709551615

/-- The largest integer with a sign. The least one is `-maxSigned - 1`. -/
def maxSigned : Nat := 9223372036854775807

/-- The first digits of a number, as many as a word can hold, and how many are left
out. -/
def leadingDigits (n : Nat) : Nat × Nat :=
  if n ≤ maxUnsigned then (n, 0)
  else (leadingDigits (n / 10)).map id (· + 1)
termination_by n
decreasing_by exact Nat.div_lt_self (Nat.zero_lt_of_lt (Nat.not_le.1 ‹_›)) (by decide)

end DbClient
