import DbClient.Json.Mismatch
import DbClient.Json.Reader

/-!
# Reply envelopes

A reply line is one JSON value with four fields, each of which may be left out. An
object gives them by name and may have other members, which are skipped; an array
gives them by position. The line is read in one pass and its first problem from the
left is the one reported.
-/

namespace DbClient

/-- A decoded reply line. A `null` result counts as none. -/
structure Envelope where
  success : Bool
  kind : Option String
  result : Option Json
  error : Option String
  deriving Inhabited, Repr

namespace Envelope

open Json (Fault Token Ending)

/-- Why a line is no envelope. -/
inductive Problem where
  | fault (f : Fault)
  | mismatch (m : Mismatch)
  deriving DecidableEq, Repr

def Problem.message : Problem → String
  | .fault f => f.message
  | .mismatch m => m.message

/-- The fault, if any, as a problem of the line. -/
def ofFault {α : Type} : Except Fault α → Except Problem α
  | .ok a => .ok a
  | .error f => .error (.fault f)

/-! ## Fields -/

/-- A field of the envelope, or any other member. -/
inductive Slot where
  | success
  | kind
  | result
  | error
  | other
  deriving DecidableEq, Repr

/-- The field that a member's name means. -/
def Slot.ofName (name : String) : Slot :=
  if name = "success" then .success
  else if name = "type" then .kind
  else if name = "result" then .result
  else if name = "error" then .error
  else .other

/-- The fields that have been read, `none` standing for those that have not. -/
structure Fields where
  success : Option Bool
  kind : Option (Option String)
  result : Option (Option Json)
  error : Option (Option String)

namespace Fields

def empty : Fields := ⟨none, none, none, none⟩

/-- The name of a field that is given a second time. -/
def repeated? (f : Fields) : Slot → Option String
  | .success => f.success.map fun _ => "success"
  | .kind => f.kind.map fun _ => "type"
  | .result => f.result.map fun _ => "result"
  | .error => f.error.map fun _ => "error"
  | .other => none

/-- The envelope, with a failure and nothing else for the fields left out. -/
def toEnvelope (f : Fields) : Envelope :=
  { success := f.success.getD false
    kind := f.kind.getD none
    result := f.result.getD none
    error := f.error.getD none }

end Fields

/-! ## Values of the fields -/

/-- The mismatch of a token that begins an unwanted value. A scalar is read to its
end first, so that its own fault comes before the mismatch. -/
def unwanted (want : Want) : Token → Problem
  | .word w e =>
    match e.check, w with
    | .error f, _ => .fault f
    | .ok _, .null => .mismatch (.wrongType .null want)
    | .ok _, .truth b => .mismatch (.wrongType (.bool b) want)
  | .number n e =>
    match Json.keepNumber n e with
    | .error f => .fault f
    | .ok v => .mismatch (.wrongType v.found want)
  | .text pieces e =>
    match Json.keepText pieces e with
    | .error f => .fault f
    | .ok s => .mismatch (.wrongType (.text s) want)
  | .mark .openArray => .mismatch (.wrongType .sequence want)
  | .mark .openObject => .mismatch (.wrongType .map want)
  | .mark _ | .stray => .fault .malformed

/-- A truth value. -/
def readTruth : Token → Except Problem Bool
  | .word (.truth b) .closed => .ok b
  | t => .error (unwanted .boolean t)

/-- A text, or null for none. -/
def readText? : Token → Except Problem (Option String)
  | .word .null .closed => .ok none
  | .text pieces e => ofFault ((Json.keepText pieces e).map some)
  | t => .error (unwanted .text t)

/-! ## The line -/

/-- What holds the value that is being read: a member of an object, or an item of an
array with the fields that are still to come. -/
inductive Place where
  | member
  | item (due : List Slot)

/-- What may come next in the line. -/
inductive Awaiting where
  | line
  | name (isFirst : Bool) (f : Fields)
  | colon (slot : Slot) (f : Fields)
  | firstItem
  | value (slot : Slot) (place : Place) (f : Fields)
  | inResult (s : Json.Awaiting Json String) (place : Place) (f : Fields)
  | inOther (s : Json.Awaiting Unit Unit) (place : Place) (f : Fields)
  | next (place : Place) (f : Fields)
  | nothing (f : Fields)

/-- How results are read: inside the one container that is the envelope. -/
def resultReading : Json.Reading Json String :=
  .kept (Json.maxDepth - 1)

/-- A result as it is kept. -/
def result? : Json → Option Json
  | .null => none
  | v => some v

/-- The result after a token, and the fields once it is complete. -/
def stepResult (s : Json.Awaiting Json String) (place : Place) (f : Fields) (t : Token) :
    Except Problem Awaiting :=
  match resultReading.step s t with
  | .error fault => .error (.fault fault)
  | .ok (.nothing v) => .ok (.next place { f with result := some (result? v) })
  | .ok s' => .ok (.inResult s' place f)

/-- Another member's value after a token. -/
def stepOther (s : Json.Awaiting Unit Unit) (place : Place) (f : Fields) (t : Token) :
    Except Problem Awaiting :=
  match Json.Reading.skipped.step s t with
  | .error fault => .error (.fault fault)
  | .ok (.nothing ()) => .ok (.next place f)
  | .ok s' => .ok (.inOther s' place f)

/-- A token where the value of a field is due. -/
def beginValue (slot : Slot) (place : Place) (f : Fields) (t : Token) :
    Except Problem Awaiting :=
  match slot with
  | .success => (readTruth t).map fun b => .next place { f with success := some b }
  | .kind => (readText? t).map fun s => .next place { f with kind := some s }
  | .error => (readText? t).map fun s => .next place { f with error := some s }
  | .result => stepResult (.value []) place f t
  | .other => stepOther (.value []) place f t

/-- A member's name. A field's second value is refused before it is read. -/
def beginMember (f : Fields) (pieces : List Json.Piece) (e : Ending) :
    Except Problem Awaiting := do
  let slot := Slot.ofName (← ofFault (Json.keepText pieces e))
  match f.repeated? slot with
  | some name => .error (.mismatch (.duplicateField name))
  | none => .ok (.colon slot f)

/-- One token. -/
def step : Awaiting → Token → Except Problem Awaiting
  | .line, .mark .openObject => .ok (.name true .empty)
  | .line, .mark .openArray => .ok .firstItem
  | .line, t => .error (unwanted .envelope t)
  | .name _ f, .text pieces e => beginMember f pieces e
  | .name true f, .mark .closeObject => .ok (.nothing f)
  | .colon slot f, .mark .colon => .ok (.value slot .member f)
  | .firstItem, .mark .closeArray => .ok (.nothing .empty)
  | .firstItem, t => beginValue .success (.item [.kind, .result, .error]) .empty t
  | .value slot place f, t => beginValue slot place f t
  | .inResult s place f, t => stepResult s place f t
  | .inOther s place f, t => stepOther s place f t
  | .next .member f, .mark .comma => .ok (.name false f)
  | .next .member f, .mark .closeObject => .ok (.nothing f)
  | .next (.item (slot :: due)) f, .mark .comma => .ok (.value slot (.item due) f)
  | .next (.item _) f, .mark .closeArray => .ok (.nothing f)
  | _, _ => .error (.fault .malformed)

/-- The envelope that the tokens write, all of them. -/
def run : Awaiting → List Token → Except Problem Envelope
  | .nothing f, [] => .ok f.toEnvelope
  | _, [] => .error (.fault .incomplete)
  | s, t :: rest => do run (← step s t) rest

/-- The envelope that a line writes. -/
def read (line : Bytes) : Except Problem Envelope :=
  run .line (Json.scan line)

end Envelope
end DbClient
