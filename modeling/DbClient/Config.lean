import DbClient.Text.Quoted

/-!
# What to connect to, and how

A session goes to a server over the network or to a library inside this process.
The choice is always explicit.
-/

namespace DbClient

/-- The port of a server that names none. -/
def defaultPort : Nat := 3306

/-- Time limits and the size of a single read. -/
structure ClientOptions where
  /-- Limit for connecting, in milliseconds. -/
  timeout : Nat
  /-- Limit for each receive, in milliseconds. None waits for ever. -/
  readTimeout : Option Nat
  /-- The most bytes that one read takes. -/
  chunkSize : Nat
  deriving DecidableEq, Repr

namespace ClientOptions

def default : ClientOptions :=
  ⟨10000, some 10000, 4096⟩

/-- The options as they are shown. -/
def display (o : ClientOptions) : String :=
  let limit := match o.readTimeout with
    | some ms => s!"Some({ms})"
    | none => "None"
  s!"ClientOptions \x7b timeout_ms: {o.timeout}, read_timeout_ms: " ++ limit ++
    s!", chunk_size: {o.chunkSize} \x7d"

end ClientOptions

/-- The database that an embedded library opens. -/
inductive Database where
  | memory
  | directory (path : String)
  deriving DecidableEq, Repr

/-- What a session connects to. -/
inductive Target where
  | remote (host : String) (port : Nat)
  | embedded (library : String) (database : Database)
  deriving DecidableEq, Repr

namespace Target

/-- The server on this machine. -/
def default : Target :=
  .remote "localhost" defaultPort

/-- The target as it is named in errors and displays. -/
def describe : Target → String
  | .remote host port => s!"{host}:{port}"
  | .embedded library .memory => s!"{library} (memory)"
  | .embedded library (.directory path) => s!"{library} ({path})"

end Target
end DbClient
