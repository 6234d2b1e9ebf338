/-!
# Naturals written in decimal

A setting or a listing gives a natural number in decimal digits, with an optional
plus sign. The digits are read from the left against a bound; the first one that
is no digit, or that takes the number above the bound, decides the fault.
-/

namespace DbClient.Text

/-- Why a text is not a natural number within a bound. -/
inductive NaturalFault where
  | empty
  | invalidDigit
  | tooLarge
  deriving DecidableEq, Repr

/-- The fault in words. -/
def NaturalFault.message : NaturalFault → String
  | .empty => "cannot parse integer from empty string"
  | .invalidDigit => "invalid digit found in string"
  | .tooLarge => "number too large to fit in target type"

/-- The value of an ASCII digit. -/
def digitValue? (c : Char) : Option Nat :=
  if '0' ≤ c && c ≤ '9' then some (c.toNat - 48) else none

/-- Reads digits after `value`, never going above `bound`. -/
def readDigits (bound : Nat) (value : Nat) : List Char → Except NaturalFault Nat
  | [] => .ok value
  | c :: cs =>
    match digitValue? c with
    | none => .error .invalidDigit
    | some d =>
      if value * 10 + d ≤ bound then readDigits bound (value * 10 + d) cs
      else .error .tooLarge

/-- The natural number that a text writes, if it is at most `bound`. -/
def readNatural (bound : Nat) (s : String) : Except NaturalFault Nat :=
  match s.toList with
  | [] => .error .empty
  | ['+'] => .error .invalidDigit
  | '+' :: digits => readDigits bound 0 digits
  | digits => readDigits bound 0 digits

end DbClient.Text
