import DbClient.Error
import DbClient.Reply.Payload

/-!
# From reply lines to results

A line becomes an envelope, and an envelope a typed result. Rejections by the server
come before everything else; a reply of an unknown type counts as a mutation that
changed nothing.
-/

namespace DbClient

/-- How many characters of a line are quoted in an error. -/
def excerptLength : Nat := 256

/-- A line as it is quoted in an error: cut after `excerptLength` characters, with
the replacement character where it is not UTF-8. -/
def excerpt (line : Bytes) : String :=
  let text := Utf8.lossy line
  if text.length ≤ excerptLength then text
  else String.ofList (text.toList.take excerptLength ++ ['…'])

/-- The index and length of the first row that has not `width` cells, the rows being
counted from `index`. -/
def firstRagged? (width index : Nat) : List (List String) → Option (Nat × Nat)
  | [] => none
  | row :: rest =>
    if row.length = width then firstRagged? width (index + 1) rest
    else some (index, row.length)

theorem length_of_firstRagged?_eq_none {width index : Nat} {rows : List (List String)}
    (h : firstRagged? width index rows = none) : ∀ row ∈ rows, row.length = width := by
  induction rows generalizing index with
  | nil => simp
  | cons row rest ih =>
    unfold firstRagged? at h
    split at h
    · rename_i hrow
      exact List.forall_mem_cons.2 ⟨hrow, ih h⟩
    · simp at h

/-- The rows of a payload, if each has one cell per column. -/
def QueryPayload.toResult (p : QueryPayload) (command : String) :
    Except ClientError QueryResult :=
  let columns := p.columns.getD []
  let rows := p.data.getD []
  match h : firstRagged? columns.length 0 rows with
  | none =>
    .ok ⟨columns, rows, p.recordsRead, p.time.getD .zero, length_of_firstRagged?_eq_none h⟩
  | some (index, cells) =>
    .error (.protocol command (.raggedRow index cells columns.length))

namespace Envelope

/-- The envelope of a reply line. -/
def decode (line : Bytes) (command : String) : Except ClientError Envelope :=
  match read line with
  | .ok e => .ok e
  | .error problem => .error (.protocol command (.noEnvelope problem (excerpt line)))

/-- The words for a rejection without any. -/
def unknownError : String := "unknown error"

/-- Refuses an envelope that reports a failure, in the server's words. -/
def ensureSuccess (e : Envelope) (command : String) : Except ClientError Envelope :=
  if e.success then .ok e
  else .error (.server command (e.error.getD unknownError))

/-- The result's payload. -/
def payload {π : Type} (e : Envelope) (schema : Schema π) (defaults : π) (command : String) :
    Except ClientError π :=
  match schema.read? defaults e.result with
  | .ok p => .ok p
  | .error m => .error (.protocol command (.payload m))

/-- The typed result of a command. -/
def toResult (e : Envelope) (command : String) : Except ClientError ExecuteResult := do
  let e ← e.ensureSuccess command
  if e.kind = some "query" then
    let p ← e.payload QueryPayload.schema .defaults command
    .ok (.query (← p.toResult command))
  else if e.kind = some "commit" then
    let p ← e.payload CommitPayload.schema .defaults command
    .ok (.commit p.toResult)
  else .ok (.commit .none)

/-- The outcome of a login. -/
def toAuth (e : Envelope) (command : String) : Except ClientError AuthInfo := do
  let e ← e.ensureSuccess command
  if e.kind = some "auth" then e.payload AuthInfo.schema .defaults command
  else .error (.protocol command (.notAuth e.kind))

end Envelope
end DbClient
