/-!
# UTF-8

A text is written as bytes by `encode`. Bytes are read back in one pass by
`segments`, which yields a character for each well-formed sequence and a gap for
each maximal piece of an ill-formed one. The strict reading refuses a gap; the
forgiving one shows U+FFFD in its place.
-/

namespace DbClient

/-- What a channel carries. -/
abbrev Bytes := List UInt8

namespace Utf8

/-- The bytes of a text. -/
def encode (s : String) : Bytes :=
  s.toList.flatMap String.utf8EncodeChar

/-- The part of a sequence that has been read: how many bytes are still due, the
bounds of the next one, and the code point's bits so far. -/
structure Pending where
  due : Nat
  lower : UInt8
  upper : UInt8
  bits : Nat

/-- A first byte: the character it is, or the sequence it opens, or a gap. The
narrowed bounds after `E0`, `ED`, `F0` and `F4` keep out overlong forms, surrogates
and code points above U+10FFFF. -/
def start (b : UInt8) : List (Option Char) × Option Pending :=
  if b < 0x80 then ([some (Char.ofNat b.toNat)], none)
  else if b < 0xC2 then ([none], none)
  else if b < 0xE0 then ([], some ⟨1, 0x80, 0xBF, b.toNat - 0xC0⟩)
  else if b < 0xF0 then
    ([], some ⟨2, if b = 0xE0 then 0xA0 else 0x80, if b = 0xED then 0x9F else 0xBF,
      b.toNat - 0xE0⟩)
  else if b < 0xF5 then
    ([], some ⟨3, if b = 0xF0 then 0x90 else 0x80, if b = 0xF4 then 0x8F else 0xBF,
      b.toNat - 0xF0⟩)
  else ([none], none)

/-- One byte of a byte string, `p` being the sequence that is open: what it
completes and what is open after it. A byte that cannot continue the open sequence
leaves a gap and is then read as a first byte. -/
def feed (p : Option Pending) (b : UInt8) : List (Option Char) × Option Pending :=
  match p with
  | none => start b
  | some q =>
    if q.lower ≤ b && b ≤ q.upper then
      let bits := q.bits * 64 + (b.toNat - 0x80)
      if q.due = 1 then ([some (Char.ofNat bits)], none)
      else ([], some ⟨q.due - 1, 0x80, 0xBF, bits⟩)
    else
      let (out, next) := start b
      (none :: out, next)

/-- Reads on with `p` open. -/
def segmentsFrom : Option Pending → Bytes → List (Option Char)
  | none, [] => []
  | some _, [] => [none]
  | p, b :: rest => (feed p b).1 ++ segmentsFrom (feed p b).2 rest

/-- The characters of a byte string, with `none` for each gap. -/
def segments (bs : Bytes) : List (Option Char) :=
  segmentsFrom none bs

/-- The text that the bytes are the UTF-8 of, if there is one. -/
def decode? (bs : Bytes) : Option String :=
  ((segments bs).mapM id).map String.ofList

/-- The text with U+FFFD for each gap. -/
def lossy (bs : Bytes) : String :=
  String.ofList ((segments bs).map (·.getD '\uFFFD'))

end Utf8
end DbClient
