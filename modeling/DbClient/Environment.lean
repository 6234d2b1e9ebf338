import DbClient.Config
import DbClient.Text.Blank
import DbClient.Text.Natural
import DbClient.Text.Utf8

/-!
# Targets from the environment

Four variables choose a target. A library selects the embedded mode, and the data
directory its database; otherwise host and port name a server. A variable that is
not valid UTF-8 counts as unset.
-/

namespace DbClient

/-- The variables, as bytes; `none` is an unset variable. -/
structure Environment where
  library : Option Bytes
  dataDirectory : Option Bytes
  host : Option Bytes
  port : Option Bytes
  deriving DecidableEq, Repr

/-- Why the environment names no target. -/
inductive EnvironmentError where
  | blankLibrary
  | blankHost
  | badPort (raw : String) (fault : Text.NaturalFault)
  deriving DecidableEq, Repr

def EnvironmentError.message : EnvironmentError → String
  | .blankLibrary => "COMMITDB_LIBRARY is set but empty"
  | .blankHost => "COMMITDB_HOST is set but empty"
  | .badPort raw fault => s!"COMMITDB_PORT '{raw}' is not a valid port: " ++ fault.message

namespace Environment

/-- The text of a variable. -/
def text? (value : Option Bytes) : Option String :=
  value.bind Utf8.decode?

/-- The database for the embedded mode: in memory, unless a directory is given. -/
def database (env : Environment) : Database :=
  match text? env.dataDirectory with
  | some dir => if dir.isBlankText then .memory else .directory dir
  | none => .memory

/-- The port of the server: a number of sixteen bits, white space around it
ignored. -/
def serverPort (env : Environment) : Except EnvironmentError Nat :=
  match text? env.port with
  | none => .ok defaultPort
  | some raw =>
    match Text.readNatural 65535 raw.trimBlank with
    | .ok port => .ok port
    | .error fault => .error (.badPort raw fault)

/-- The target that the variables name. -/
def target (env : Environment) : Except EnvironmentError Target :=
  match text? env.library with
  | some library =>
    if library.isBlankText then .error .blankLibrary
    else .ok (.embedded library env.database)
  | none =>
    let host := (text? env.host).getD "localhost"
    if host.isBlankText then .error .blankHost
    else env.serverPort.map (.remote host.trimBlank)

end Environment
end DbClient
