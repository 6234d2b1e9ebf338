import DbClient.Json.Mismatch
import DbClient.Reply.Outcome

/-!
# Payloads

The result of a reply is read against a schema: a list of fields, each with the
values it takes. An object gives fields by name, in the order of the names, and its
other members have no effect; an array gives them by position. The first value that
does not fit decides the mismatch. A field that is left out keeps its default.
-/

namespace DbClient

/-- Puts a value into a payload. -/
abbrev Setter (π : Type) := Json → π → Except Mismatch π

/-- The fields of a payload in their order, and its name in mismatches. -/
structure Schema (π : Type) where
  want : Want
  fields : List (String × Setter π)

namespace Schema

/-- The name of the field that a member gives. The time has two names. -/
def fieldName (member : String) : String :=
  if member = "execution_time_ms" then "time_ms" else member

variable {π : Type}

/-- The payload with one member read. -/
def readMember (s : Schema π) (p : π) (member : String × Json) : Except Mismatch π :=
  match s.fields.lookup (fieldName member.1) with
  | some set => set member.2 p
  | none => .ok p

/-- The payload with items read by position. -/
def readItems : List (String × Setter π) → List Json → π → Except Mismatch π
  | _, [], p => .ok p
  | [], _, p => .ok p
  | (_, set) :: fields, v :: items, p => do readItems fields items (← set v p)

/-- Reads a result into a payload that holds the defaults. -/
def read (s : Schema π) (defaults : π) : Json → Except Mismatch π
  | .object members => members.foldlM s.readMember defaults
  | .array items => do
    let p ← readItems s.fields items defaults
    if s.fields.length < items.length then .error (.tooLong items.length) else .ok p
  | v => .error (.wrongType v.found s.want)

/-- Reads the result of a reply; none, or null, leaves the defaults. -/
def read? (s : Schema π) (defaults : π) : Option Json → Except Mismatch π
  | none | some .null => .ok defaults
  | some v => s.read defaults v

end Schema

/-! ## Values of fields -/

namespace Json

def readTruth : Json → Except Mismatch Bool
  | .bool b => .ok b
  | v => .error (.wrongType v.found .boolean)

def readString : Json → Except Mismatch String
  | .string s => .ok s
  | v => .error (.wrongType v.found .text)

/-- A counter: an integer of sixty-four bits without a sign. -/
def readUnsigned : Json → Except Mismatch UInt64
  | .integer n =>
    if 0 ≤ n && n ≤ maxUnsigned then .ok (UInt64.ofNat n.toNat)
    else .error (.outOfRange (.integer n) .unsigned)
  | v => .error (.wrongType v.found .unsigned)

/-- An integer of sixty-four bits with a sign. -/
def readSigned : Json → Except Mismatch Int
  | .integer n =>
    if -(maxSigned : Int) - 1 ≤ n && n ≤ maxSigned then .ok n
    else .error (.outOfRange (.integer n) .signed)
  | v => .error (.wrongType v.found .signed)

/-- A time: a fractional number, or an integer as the number nearest to it. -/
def readReal : Json → Except Mismatch Binary64
  | .integer n => .ok (.ofInt n)
  | .fraction x => .ok x
  | v => .error (.wrongType v.found .real)

def readList {α : Type} (item : Json → Except Mismatch α) : Json → Except Mismatch (List α)
  | .array items => items.mapM item
  | v => .error (.wrongType v.found .sequence)

/-- Null for none. -/
def readOption {α : Type} (value : Json → Except Mismatch α) : Json → Except Mismatch (Option α)
  | .null => .ok none
  | v => (value v).map some

end Json

/-! ## The payloads -/

/-- The payload of a query reply. Columns and rows may be null. -/
structure QueryPayload where
  columns : Option (List String)
  data : Option (List (List String))
  recordsRead : UInt64
  time : Option Binary64
  deriving DecidableEq, Repr

/-- The payload of a commit reply. -/
structure CommitPayload where
  databasesCreated : UInt64
  databasesDeleted : UInt64
  tablesCreated : UInt64
  tablesDeleted : UInt64
  recordsWritten : UInt64
  recordsDeleted : UInt64
  time : Option Binary64
  deriving DecidableEq, Repr

/-- A setter that reads a value and puts it. -/
def Setter.of {α π : Type} (read : Json → Except Mismatch α) (put : α → π → π) : Setter π :=
  fun v p => (read v).map (put · p)

/-- A setter for the time, which may be given once. -/
def Setter.time {π : Type} (given : π → Option Binary64) (put : Binary64 → π → π) : Setter π :=
  fun v p =>
    match given p with
    | some _ => .error (.duplicateField "time_ms")
    | none => (Json.readReal v).map (put · p)

namespace QueryPayload

def defaults : QueryPayload := ⟨none, none, 0, none⟩

def schema : Schema QueryPayload :=
  { want := .queryPayload
    fields := [
      ("columns", .of (Json.readOption (Json.readList Json.readString)) fun c p => { p with columns := c }),
      ("data", .of (Json.readOption (Json.readList (Json.readList Json.readString)))
        fun d p => { p with data := d }),
      ("records_read", .of Json.readUnsigned fun n p => { p with recordsRead := n }),
      ("time_ms", .time (·.time) fun t p => { p with time := some t })] }

end QueryPayload

namespace CommitPayload

def defaults : CommitPayload := ⟨0, 0, 0, 0, 0, 0, none⟩

def schema : Schema CommitPayload :=
  { want := .commitPayload
    fields := [
      ("databases_created", .of Json.readUnsigned fun n p => { p with databasesCreated := n }),
      ("databases_deleted", .of Json.readUnsigned fun n p => { p with databasesDeleted := n }),
      ("tables_created", .of Json.readUnsigned fun n p => { p with tablesCreated := n }),
      ("tables_deleted", .of Json.readUnsigned fun n p => { p with tablesDeleted := n }),
      ("records_written", .of Json.readUnsigned fun n p => { p with recordsWritten := n }),
      ("records_deleted", .of Json.readUnsigned fun n p => { p with recordsDeleted := n }),
      ("time_ms", .time (·.time) fun t p => { p with time := some t })] }

/-- The summary of changes that the payload gives. -/
def toResult (p : CommitPayload) : CommitResult :=
  { databasesCreated := p.databasesCreated
    databasesDeleted := p.databasesDeleted
    tablesCreated := p.tablesCreated
    tablesDeleted := p.tablesDeleted
    recordsWritten := p.recordsWritten
    recordsDeleted := p.recordsDeleted
    time := p.time.getD .zero }

end CommitPayload

namespace AuthInfo

/-- The payload of a login reply is the outcome itself. -/
def defaults : AuthInfo := ⟨false, "", none⟩

def schema : Schema AuthInfo :=
  { want := .authPayload
    fields := [
      ("authenticated", .of Json.readTruth fun b p => { p with authenticated := b }),
      ("identity", .of Json.readString fun s p => { p with identity := s }),
      ("expires_in", .of (Json.readOption Json.readSigned) fun e p => { p with expiresIn := e })] }

end AuthInfo
end DbClient
