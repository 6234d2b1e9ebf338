import DbClient.Number.Binary64

/-!
# JSON values

An integer is kept apart from a fractional number. The members of an object are in
the order of their names, each name once.
-/

namespace DbClient

/-- A JSON value. -/
inductive Json where
  | null
  | bool (b : Bool)
  | integer (n : Int)
  | fraction (x : Binary64)
  | string (s : String)
  | array (items : List Json)
  | object (members : List (String × Json))
  deriving Inhabited, Repr

namespace Json

/-- The member of an object. Other values have none. -/
def get? (name : String) : Json → Option Json
  | object members => members.lookup name
  | _ => none

def bool? : Json → Option Bool
  | bool b => some b
  | _ => none

def string? : Json → Option String
  | string s => some s
  | _ => none

def array? : Json → Option (List Json)
  | array items => some items
  | _ => none

end Json
end DbClient
