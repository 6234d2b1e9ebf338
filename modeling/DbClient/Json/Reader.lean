import DbClient.Json.Token
import DbClient.Json.Value
import DbClient.Number.Word
import DbClient.Text.NameMap

/-!
# Reading JSON values

Values are read from tokens in one pass, with a stack of the containers that are
open. Two readings share the grammar. A kept value needs valid UTF-8, paired
surrogates and numbers that are read within the range of binary64, and its containers
may not nest without limit. A skipped value is checked for its shape only.

Numbers with a point or a power are not rounded exactly. They are read as a word of
digits that is multiplied or divided by a power of ten, which may miss the nearest
binary64, and near the end of the range it may leave the range.
-/

namespace DbClient.Json

/-- Why a line is not JSON: it ends while more is needed, or a token is out of
place or senseless. -/
inductive Fault where
  | incomplete
  | malformed
  deriving DecidableEq, Repr

def Fault.message : Fault → String
  | .incomplete => "<eof>"
  | .malformed => "<syntax>"

/-- The fault of a token that did not end well. -/
def Ending.check : Ending → Except Fault Unit
  | .closed => .ok ()
  | .broken => .error .malformed
  | .cut => .error .incomplete

/-! ## Kept texts and numbers -/

def isHighSurrogate (u : Nat) : Bool :=
  0xD800 ≤ u && u ≤ 0xDBFF

def isLowSurrogate (u : Nat) : Bool :=
  0xDC00 ≤ u && u ≤ 0xDFFF

/-- The character of a surrogate pair. -/
def pairedChar (high low : Nat) : Char :=
  Char.ofNat (0x10000 + (high - 0xD800) * 0x400 + (low - 0xDC00))

/-- The bytes of a text: a code unit stands for the UTF-8 of its character, and the
units of a surrogate pair must follow one another. -/
def joinPieces : List Piece → Ending → Except Fault Bytes
  | [], e => e.check.map fun _ => []
  | .byte b :: rest, e => (joinPieces rest e).map (b :: ·)
  | .unit u :: rest, e =>
    if isLowSurrogate u then .error .malformed
    else if isHighSurrogate u then
      match rest with
      | .unit v :: rest' =>
        if isLowSurrogate v then
          (joinPieces rest' e).map (String.utf8EncodeChar (pairedChar u v) ++ ·)
        else .error .malformed
      | .byte _ :: _ => .error .malformed
      | [] => .error (if e = .cut then .incomplete else .malformed)
    else (joinPieces rest e).map (String.utf8EncodeChar (Char.ofNat u) ++ ·)

/-- The string that a text token writes. -/
def keepText (pieces : List Piece) (e : Ending) : Except Fault String := do
  match Utf8.decode? (← joinPieces pieces e) with
  | some s => .ok s
  | none => .error .malformed

/-- Whether the number is written as an integer and fits sixty-four bits, signed if
it is negative. Zero with a minus sign is no integer. -/
def Numeral.isInteger (n : Numeral) : Bool :=
  n.whole && if n.negative then 0 < n.coefficient && n.coefficient ≤ maxSigned + 1
    else n.coefficient ≤ maxUnsigned

/-- The digits from which a fractional number is read, and the power of ten that goes with
them. Digits before the point that a word cannot hold are left out and counted. The
digits behind the point follow as long as a word holds them, and the rest of those
is passed over. -/
def Numeral.leading (n : Numeral) : Nat × Int :=
  let (whole, left) := leadingDigits (n.coefficient / pow10 n.places)
  let (digits, passed) := leadingDigits (whole * pow10 n.places + n.coefficient % pow10 n.places)
  (digits, left + passed - n.places)

/-- The largest power of ten that is read: a word of thirty-two bits. -/
def maxPower : Nat := 2147483647

/-- The power of ten of the leading digits, with the one that is written. -/
def Numeral.scale (n : Numeral) : Int :=
  n.leading.2 + if n.powerNegative then -(n.power : Int) else n.power

/-- What is read for a fractional number, or nothing above the finite range. It is the
leading digits times a power of ten, and neither they nor the product are exact. A
power that is too large to be read leaves zero or nothing. -/
def Numeral.real? (n : Numeral) : Option Binary64 :=
  if maxPower < n.power then
    if n.leading.1 = 0 || n.powerNegative then some (.ofMagnitude n.negative 0) else none
  else Binary64.ofScaled? n.negative n.leading.1 n.scale

/-- The value of a number token: an integer as it is, another number as it is read. -/
def keepNumber (n : Numeral) (e : Ending) : Except Fault Json := do
  e.check
  if n.isInteger then
    .ok (.integer (if n.negative then -(n.coefficient : Int) else n.coefficient))
  else match n.real? with
    | some x => .ok (.fraction x)
    | none => .error .malformed

/-! ## The grammar -/

/-- What is made of a value's parts: `α` of a value, `κ` of a member's name. At most
`room` containers may be open at once, if that is limited. -/
structure Reading (α κ : Type) where
  word : Word → α
  number : Numeral → Ending → Except Fault α
  text : List Piece → Ending → Except Fault α
  name : List Piece → Ending → Except Fault κ
  array : List α → α
  object : List (κ × α) → α
  room : Option Nat

/-- An open container with its contents so far, newest first. An object has the
name of the member whose value is being read. -/
inductive Level (α κ : Type) where
  | array (items : List α)
  | object (members : List (κ × α)) (name : κ)

/-- What may come next, inside the containers of a stack, innermost first. -/
inductive Awaiting (α κ : Type) where
  | value (stack : List (Level α κ))
  | firstItem (stack : List (Level α κ))
  | name (isFirst : Bool) (members : List (κ × α)) (stack : List (Level α κ))
  | colon (members : List (κ × α)) (name : κ) (stack : List (Level α κ))
  | afterItem (items : List α) (stack : List (Level α κ))
  | afterMember (members : List (κ × α)) (stack : List (Level α κ))
  | nothing (value : α)

namespace Reading

variable {α κ : Type}

/-- A value is complete: it becomes part of the container around it. -/
def complete (v : α) : List (Level α κ) → Awaiting α κ
  | [] => .nothing v
  | .array items :: stack => .afterItem (v :: items) stack
  | .object members name :: stack => .afterMember ((name, v) :: members) stack

/-- Whether one more container may be opened. -/
def admits (r : Reading α κ) (stack : List (Level α κ)) : Bool :=
  match r.room with
  | some room => stack.length < room
  | none => true

/-- A token where a value is due. -/
def beginValue (r : Reading α κ) (stack : List (Level α κ)) :
    Token → Except Fault (Awaiting α κ)
  | .word w e => do
    e.check
    .ok (complete (r.word w) stack)
  | .number n e => do .ok (complete (← r.number n e) stack)
  | .text pieces e => do .ok (complete (← r.text pieces e) stack)
  | .mark .openArray => if r.admits stack then .ok (.firstItem stack) else .error .malformed
  | .mark .openObject => if r.admits stack then .ok (.name true [] stack) else .error .malformed
  | .mark _ | .stray => .error .malformed

/-- One token. -/
def step (r : Reading α κ) : Awaiting α κ → Token → Except Fault (Awaiting α κ)
  | .value stack, t => r.beginValue stack t
  | .firstItem stack, .mark .closeArray => .ok (complete (r.array []) stack)
  | .firstItem stack, t => r.beginValue (.array [] :: stack) t
  | .name _ members stack, .text pieces e => do
    .ok (.colon members (← r.name pieces e) stack)
  | .name true _ stack, .mark .closeObject => .ok (complete (r.object []) stack)
  | .colon members name stack, .mark .colon => .ok (.value (.object members name :: stack))
  | .afterItem items stack, .mark .comma => .ok (.value (.array items :: stack))
  | .afterItem items stack, .mark .closeArray => .ok (complete (r.array items.reverse) stack)
  | .afterMember members stack, .mark .comma => .ok (.name false members stack)
  | .afterMember members stack, .mark .closeObject => .ok (complete (r.object members) stack)
  | _, _ => .error .malformed

/-- The value that the tokens write, all of them, from a point of the grammar on. -/
def run (r : Reading α κ) : Awaiting α κ → List Token → Except Fault α
  | .nothing v, [] => .ok v
  | _, [] => .error .incomplete
  | s, t :: rest => do r.run (← r.step s t) rest

/-- Values that are used. -/
def kept (room : Nat) : Reading Json String :=
  { word := fun
      | .null => .null
      | .truth b => .bool b
    number := keepNumber
    text := fun pieces e => (keepText pieces e).map .string
    name := keepText
    array := .array
    object := fun members => .object (NameMap.ofNewest members)
    room := some room }

/-- Values that are passed over. A number cut short counts as malformed. -/
def skipped : Reading Unit Unit :=
  { word := fun _ => ()
    number := fun _ e => if e = .closed then .ok () else .error .malformed
    text := fun _ e => e.check
    name := fun _ e => e.check
    array := fun _ => ()
    object := fun _ => ()
    room := none }

end Reading

/-- How many containers of a line may be open at once. -/
def maxDepth : Nat := 127

/-- The value that a whole line writes. -/
def read (line : Bytes) : Except Fault Json :=
  (Reading.kept maxDepth).run (.value []) (scan line)

end DbClient.Json
