import DbClient.Session.Basic

/-!
# Raw replies

A successful reply can be had as the JSON value that its line writes. The line is
still checked as an envelope first, so a rejection by the server and a line that is
no envelope are errors as they are elsewhere.
-/

namespace DbClient

/-- One reply line as a JSON value. -/
structure RawEnvelope where
  value : Json
  deriving Inhabited, Repr

namespace RawEnvelope

def success (r : RawEnvelope) : Bool :=
  ((r.value.get? "success").bind Json.bool?).getD false

def kind (r : RawEnvelope) : Option String :=
  (r.value.get? "type").bind Json.string?

def error (r : RawEnvelope) : Option String :=
  (r.value.get? "error").bind Json.string?

def result (r : RawEnvelope) : Option Json :=
  r.value.get? "result"

/-- What the reply says about the merge state: the number of rows is that of the
array `data` in its result. -/
def reply (r : RawEnvelope) : Reply :=
  if r.kind = some "query" then
    .query ((((r.result.bind (Json.get? "data")).bind Json.array?).map List.length).getD 0)
  else .commit

end RawEnvelope

namespace Client

variable {τ : Type} [Transport τ]

/-- The raw envelope of a reply line, and the merge state followed by it. -/
def acceptRaw (cls : CommandClass) (command : String) (line : Bytes) : Call τ RawEnvelope :=
  fun c =>
    match (Envelope.decode line command).bind (·.ensureSuccess command) with
    | .error e => (.error e, c.track cls .failed)
    | .ok _ =>
      match Json.read line with
      | .error fault => (.error (.protocol command (.noValue fault)), c)
      | .ok v => (.ok ⟨v⟩, c.track cls (RawEnvelope.reply ⟨v⟩))

/-- Executes one command and returns its reply as it came. -/
def executeRaw (command : String) : Call τ RawEnvelope := do
  let cls ← permit command
  let line ← exchange command command
  acceptRaw cls command line

end Client
end DbClient
