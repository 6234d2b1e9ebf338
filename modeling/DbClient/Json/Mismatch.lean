import DbClient.Json.Value
import DbClient.Number.Style
import DbClient.Text.Quoted

/-!
# Values of the wrong kind

A reply may be sound JSON and still not be what a reader wants. The mismatch names
what was found and what was wanted.
-/

namespace DbClient

/-- What stands where something else is wanted. -/
inductive Found where
  | null
  | bool (b : Bool)
  | integer (n : Int)
  | fraction (x : Binary64)
  | text (s : String)
  | sequence
  | map
  deriving DecidableEq, Repr

/-- What is wanted. -/
inductive Want where
  | envelope
  | queryPayload
  | commitPayload
  | authPayload
  | boolean
  | text
  | sequence
  | unsigned
  | signed
  | real
  deriving DecidableEq, Repr

/-- How a value fails to be what is wanted. -/
inductive Mismatch where
  | wrongType (found : Found) (want : Want)
  | outOfRange (found : Found) (want : Want)
  | duplicateField (name : String)
  | tooLong (length : Nat)
  deriving DecidableEq, Repr

def Found.message : Found → String
  | .null => "null"
  | .bool b => s!"boolean `{b}`"
  | .integer n => s!"integer `{n}`"
  | .fraction x => "floating point `" ++ NumberStyle.message.write x ++ "`"
  | .text s => "string " ++ Text.quote s
  | .sequence => "sequence"
  | .map => "map"

def Want.message : Want → String
  | .envelope => "struct Envelope"
  | .queryPayload => "struct QueryPayload"
  | .commitPayload => "struct CommitPayload"
  | .authPayload => "struct AuthPayload"
  | .boolean => "a boolean"
  | .text => "a string"
  | .sequence => "a sequence"
  | .unsigned => "u64"
  | .signed => "i64"
  | .real => "f64"

def Mismatch.message : Mismatch → String
  | .wrongType found want => "invalid type: " ++ found.message ++ ", expected " ++ want.message
  | .outOfRange found want => "invalid value: " ++ found.message ++ ", expected " ++ want.message
  | .duplicateField name => s!"duplicate field `{name}`"
  | .tooLong length => s!"invalid length {length}, expected fewer elements in array"

/-- A value as it is named in a mismatch. -/
def Json.found : Json → Found
  | .null => .null
  | .bool b => .bool b
  | .integer n => .integer n
  | .fraction x => .fraction x
  | .string s => .text s
  | .array _ => .sequence
  | .object _ => .map

end DbClient
