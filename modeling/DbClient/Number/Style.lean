import DbClient.Number.Shortest

/-!
# How a number is written

Two styles share the shortest digits. Literals in commands write every number
out in full. Messages about replies mark a fractional number by its point and give
very large and very small ones an exponent.
-/

namespace DbClient

/-- The decisions of a style for fractional numbers. -/
structure NumberStyle where
  /-- Which first-digit powers are written out in full. -/
  isPlain : Int → Bool
  /-- Whether a whole number keeps its point, as in `12.0`. -/
  pointZero : Bool
  tie : Tie

namespace NumberStyle

/-- Literals: all digits, no exponent. -/
def literal : NumberStyle :=
  { isPlain := fun _ => true, pointZero := false, tie := .up }

/-- Messages: an exponent below `10 ^ -5` and from `10 ^ 16` on. -/
def message : NumberStyle :=
  { isPlain := fun p => -5 ≤ p && p ≤ 15, pointZero := true, tie := .even }

/-- The digits written out in full. -/
def plain (pointZero : Bool) (d : Decimal) : List Char :=
  let digits := d.digits
  if 0 ≤ d.power then
    digits ++ List.replicate d.power.toNat '0' ++ (if pointZero then ['.', '0'] else [])
  else
    let places := (-d.power).toNat
    if places < digits.length then
      digits.take (digits.length - places) ++ '.' :: digits.drop (digits.length - places)
    else ['0', '.'] ++ List.replicate (places - digits.length) '0' ++ digits

/-- An exponent, always with its sign. -/
def exponentText (e : Int) : List Char :=
  (if e < 0 then '-' else '+') :: Nat.toDigits 10 e.natAbs

/-- The digits with the point after the first one, and the exponent. -/
def scientific (d : Decimal) : List Char :=
  let mantissa := match d.digits with
    | [] => []
    | [c] => [c]
    | c :: cs => c :: '.' :: cs
  mantissa ++ 'e' :: exponentText d.leading

/-- The text of a number. -/
def write (n : NumberStyle) (x : Binary64) : String :=
  let sign := if x.isNegative then ['-'] else []
  if x.isNaN then "NaN"
  else if !x.isFinite then String.ofList (sign ++ "inf".toList)
  else if x.magnitudeBits = 0 then
    String.ofList (sign ++ '0' :: (if n.pointZero then ['.', '0'] else []))
  else
    let d := x.shortest n.tie
    String.ofList (sign ++ if n.isPlain d.leading then plain n.pointZero d else scientific d)

end NumberStyle
end DbClient
