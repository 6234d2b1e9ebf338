import DbClient.Number.Style

/-!
# Literals

A literal is a value as it is written inside a command. Text is put between single
quotes and nothing is escaped.
-/

namespace DbClient

/-- A value for a command. -/
inductive Literal where
  | null
  | bool (b : Bool)
  | integer (n : Int)
  | float (x : Binary64)
  | text (s : String)
  deriving DecidableEq, Repr

namespace Literal

/-- The literal of a value that may be missing. -/
def ofOption : Option Literal → Literal
  | some v => v
  | none => .null

/-- The name of a literal's kind. -/
def kind : Literal → String
  | .null => "Null"
  | .bool _ => "Bool"
  | .integer _ => "Integer"
  | .float _ => "Float"
  | .text _ => "Text"

/-- The literal as it is written. -/
def write : Literal → String
  | .null => "NULL"
  | .bool b => if b then "true" else "false"
  | .integer n => toString n
  | .float x => NumberStyle.literal.write x
  | .text s => s!"'{s}'"

end Literal
end DbClient
