import DbClient.Text.Utf8

/-!
# JSON tokens

A line is cut into tokens in one pass, a byte at a time. Words, numbers and texts
carry how they ended: complete, spoiled by a byte that cannot belong to them, or
cut short by the end of the line. Nothing follows a spoiled token. Texts are kept in
pieces, because whether their bytes and code units make sense is asked only of
texts that are used.
-/

namespace DbClient.Json

/-- The punctuation of JSON. -/
inductive Mark where
  | openObject
  | closeObject
  | openArray
  | closeArray
  | colon
  | comma
  deriving DecidableEq, Repr

/-- The three words of JSON. -/
inductive Word where
  | null
  | truth (b : Bool)
  deriving DecidableEq, Repr

/-- How a token ended. -/
inductive Ending where
  | closed
  | broken
  | cut
  deriving DecidableEq, Repr

/-- A number as it is written: its digits without the point, how many of them are
after the point, and its power of ten. It is whole if neither a point nor a power is
written. -/
structure Numeral where
  negative : Bool
  coefficient : Nat
  places : Nat
  powerNegative : Bool
  power : Nat
  whole : Bool
  deriving DecidableEq, Repr

/-- Part of a text: a byte, or a code unit written in hexadecimal. -/
inductive Piece where
  | byte (b : UInt8)
  | unit (u : Nat)
  deriving DecidableEq, Repr

inductive Token where
  | mark (m : Mark)
  | word (w : Word) (e : Ending)
  | number (n : Numeral) (e : Ending)
  | text (pieces : List Piece) (e : Ending)
  /-- A byte that starts no token. -/
  | stray
  deriving DecidableEq, Repr

/-! ## Bytes -/

def isSpace (b : UInt8) : Bool :=
  b == 0x20 || b == 0x09 || b == 0x0A || b == 0x0D

def isDigit (b : UInt8) : Bool :=
  0x30 ≤ b && b ≤ 0x39

def digit (b : UInt8) : Nat :=
  b.toNat - 0x30

def hexDigit? (b : UInt8) : Option Nat :=
  if isDigit b then some (digit b)
  else if 0x61 ≤ b && b ≤ 0x66 then some (b.toNat - 0x57)
  else if 0x41 ≤ b && b ≤ 0x46 then some (b.toNat - 0x37)
  else none

def mark? (b : UInt8) : Option Mark :=
  if b = 0x7B then some .openObject
  else if b = 0x7D then some .closeObject
  else if b = 0x5B then some .openArray
  else if b = 0x5D then some .closeArray
  else if b = 0x3A then some .colon
  else if b = 0x2C then some .comma
  else none

/-- The byte that a one-letter escape stands for. -/
def escaped? (b : UInt8) : Option UInt8 :=
  if b = 0x22 || b = 0x5C || b = 0x2F then some b
  else if b = 0x62 then some 0x08
  else if b = 0x66 then some 0x0C
  else if b = 0x6E then some 0x0A
  else if b = 0x72 then some 0x0D
  else if b = 0x74 then some 0x09
  else none

/-! ## Numbers -/

/-- Where in a number the reading stands: after the sign, after a first zero, in the
other digits, after the point, in the digits after it, after the `e`, after its
sign, in the digits of the power. -/
inductive Stage where
  | sign
  | zero
  | whole
  | point
  | places
  | mark
  | markSign
  | power
  deriving DecidableEq, Repr

/-- Whether the number may end here. -/
def Stage.mayEnd : Stage → Bool
  | .zero | .whole | .places | .power => true
  | _ => false

def Numeral.start (negative : Bool) : Numeral :=
  ⟨negative, 0, 0, false, 0, true⟩

def Numeral.addDigit (n : Numeral) (b : UInt8) : Numeral :=
  { n with coefficient := n.coefficient * 10 + digit b }

def Numeral.addPlace (n : Numeral) (b : UInt8) : Numeral :=
  { n.addDigit b with places := n.places + 1 }

def Numeral.addPower (n : Numeral) (b : UInt8) : Numeral :=
  { n with power := n.power * 10 + digit b }

/-- The number with one more byte, if the byte may come next. -/
def Numeral.feed? (n : Numeral) (stage : Stage) (b : UInt8) : Option (Numeral × Stage) :=
  let point := if b = 0x2E then some ({ n with whole := false }, Stage.point) else none
  let mark := if b = 0x65 || b = 0x45 then some ({ n with whole := false }, Stage.mark) else none
  match stage with
  | .sign =>
    if b = 0x30 then some (n, .zero)
    else if isDigit b then some (n.addDigit b, .whole) else none
  | .zero => point <|> mark
  | .whole => if isDigit b then some (n.addDigit b, .whole) else point <|> mark
  | .point => if isDigit b then some (n.addPlace b, .places) else none
  | .places => if isDigit b then some (n.addPlace b, .places) else mark
  | .mark =>
    if b = 0x2B then some (n, .markSign)
    else if b = 0x2D then some ({ n with powerNegative := true }, .markSign)
    else if isDigit b then some (n.addPower b, .power) else none
  | .markSign => if isDigit b then some (n.addPower b, .power) else none
  | .power => if isDigit b then some (n.addPower b, .power) else none

/-- Whether a number that `b` does not continue is spoiled by it: a digit is due, or
a digit follows a first zero. -/
def Stage.spoiledBy (stage : Stage) (b : UInt8) : Bool :=
  !stage.mayEnd || (stage = .zero && isDigit b)

/-! ## The scanner -/

/-- What is open between two bytes. The pieces and bytes read so far are newest
first. -/
inductive Scan where
  | between
  | word (w : Word) (due : Bytes)
  | number (n : Numeral) (stage : Stage)
  | text (read : List Piece)
  | escape (read : List Piece)
  | hex (read : List Piece) (seen : Bytes)
  deriving DecidableEq, Repr

namespace Scan

/-- A byte that starts a token or stands between two. -/
def start (b : UInt8) : List Token × Option Scan :=
  if isSpace b then ([], some .between)
  else match mark? b with
    | some m => ([.mark m], some .between)
    | none =>
      if b = 0x22 then ([], some (.text []))
      else if b = 0x2D then ([], some (.number (.start true) .sign))
      else if b = 0x30 then ([], some (.number (.start false) .zero))
      else if isDigit b then ([], some (.number ((Numeral.start false).addDigit b) .whole))
      else if b = 0x6E then ([], some (.word .null [0x75, 0x6C, 0x6C]))
      else if b = 0x74 then ([], some (.word (.truth true) [0x72, 0x75, 0x65]))
      else if b = 0x66 then ([], some (.word (.truth false) [0x61, 0x6C, 0x73, 0x65]))
      else ([.stray], none)

/-- One byte: the tokens it completes, and what is open after it. Nothing is open
after a spoiled token, for the line is read no further. -/
def feed (s : Scan) (b : UInt8) : List Token × Option Scan :=
  match s with
  | .between => start b
  | .word w [] => ([.word w .closed], some .between)
  | .word w (d :: due) =>
    if b ≠ d then ([.word w .broken], none)
    else match due with
      | [] => ([.word w .closed], some .between)
      | _ :: _ => ([], some (.word w due))
  | .number n stage =>
    match n.feed? stage b with
    | some (n', stage') => ([], some (.number n' stage'))
    | none =>
      if stage.spoiledBy b then ([.number n .broken], none)
      else
        let (out, next) := start b
        (.number n .closed :: out, next)
  | .text read =>
    if b = 0x22 then ([.text read.reverse .closed], some .between)
    else if b = 0x5C then ([], some (.escape read))
    else if b < 0x20 then ([.text read.reverse .broken], none)
    else ([], some (.text (.byte b :: read)))
  | .escape read =>
    if b = 0x75 then ([], some (.hex read []))
    else match escaped? b with
      | some c => ([], some (.text (.byte c :: read)))
      | none => ([.text read.reverse .broken], none)
  | .hex read seen =>
    match seen with
    | [x, y, z] =>
      match [z, y, x, b].mapM hexDigit? with
      | some ds => ([], some (.text (.unit (ds.foldl (fun u d => u * 16 + d) 0) :: read)))
      | none => ([.text read.reverse .broken], none)
    | _ => ([], some (.hex read (b :: seen)))

/-- The token that the end of the line leaves. -/
def finish : Scan → List Token
  | .between => []
  | .word w _ => [.word w .cut]
  | .number n stage => [.number n (if stage.mayEnd then .closed else .cut)]
  | .text read | .escape read | .hex read _ => [.text read.reverse .cut]

/-- The tokens of the bytes, `s` being open before them. -/
def tokens : Scan → Bytes → List Token
  | s, [] => s.finish
  | s, b :: rest =>
    (s.feed b).1 ++ match (s.feed b).2 with
      | some next => tokens next rest
      | none => []

end Scan

/-- The tokens of a line. -/
def scan (line : Bytes) : List Token :=
  Scan.tokens .between line

end DbClient.Json
