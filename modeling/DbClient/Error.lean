import DbClient.Reply.Envelope
import DbClient.Reply.Outcome

/-!
# Errors

Every call of a session fails with one of these causes. A misuse by the caller is
told apart from a fault of the connection, of a reply, and from a rejection by the
server, whose words are passed on unchanged.
-/

namespace DbClient

/-! ## Input and output -/

/-- The kinds of failure of a channel. -/
inductive IoKind where
  | connectionRefused
  | networkUnreachable
  | brokenPipe
  | invalidData
  | invalidInput
  | notConnected
  | wouldBlock
  | other
  deriving DecidableEq, Repr

/-- A failure of a channel. -/
structure IoError where
  kind : IoKind
  message : String
  deriving DecidableEq, Repr

/-- No connection can be made, because there is no network. -/
def IoError.networkUnreachable : IoError :=
  ⟨.networkUnreachable, "Network is unreachable (os error 101)"⟩

/-- No connection is made, because nobody listens. -/
def IoError.connectionRefused : IoError :=
  ⟨.connectionRefused, "Connection refused (os error 111)"⟩

/-! ## Causes -/

/-- Why a command is no command. -/
inductive CommandFault where
  | newline
  | notOneWord (what name : String)
  | tokenNotOneWord
  | stated (reason : String)
  deriving DecidableEq, Repr

/-- A misuse by the caller. -/
inductive UsageError where
  | notConnected
  | alreadyOpen
  | invalidCommand (fault : CommandFault)
  | unexpectedResult (expected actual : ResultKind)
  /-- The command is refused while a manual merge is open. -/
  | mergePending (command : String)
  deriving DecidableEq, Repr

/-- Why an embedded library is not usable. The loader's own words come with the
causes that it reports. -/
inductive LoadFault where
  | missingFile
  | unloadable (loader : String)
  | missingSymbol (name loader : String)
  | nulInDirectory
  | refused (code : Int)
  | stated (reason : String)
  deriving DecidableEq, Repr

/-- How a reply breaks the protocol. -/
inductive Violation where
  /-- The line is no envelope; `body` is an excerpt of it. -/
  | noEnvelope (problem : Envelope.Problem) (body : String)
  /-- The line is no value that can be kept whole. -/
  | noValue (fault : Json.Fault)
  | payload (mismatch : Mismatch)
  | raggedRow (index cells columns : Nat)
  | notAuth (kind : Option String)
  | missingColumn (name : String)
  | stated (message : String)
  deriving DecidableEq, Repr

/-- Why a call failed. -/
inductive ClientError where
  | connection (address : String) (source : IoError)
  | load (path : String) (fault : LoadFault)
  /-- The stream ended before the reply line did. -/
  | connectionClosed (command : String)
  | transport (command : String) (source : IoError)
  | protocol (command : String) (violation : Violation)
  /-- The server rejected the command, in its own words. -/
  | server (command message : String)
  | usage (e : UsageError)
  deriving DecidableEq, Repr

/-! ## Messages -/

def CommandFault.message : CommandFault → String
  | .newline => "command must not contain a newline"
  | .notOneWord what name => s!"{what} '{name}' must be a single non-empty word"
  | .tokenNotOneWord => "token must be a single non-empty word"
  | .stated reason => reason

def UsageError.message : UsageError → String
  | .notConnected => "not connected: call open() first"
  | .alreadyOpen => "session is already open"
  | .invalidCommand fault => "invalid command: " ++ fault.message
  | .unexpectedResult expected actual =>
    "expected " ++ expected.name ++ " result, got " ++ actual.name ++ " result"
  | .mergePending command =>
    s!"'{command}' is refused while a merge is pending; COMMIT or ABORT it first"

def LoadFault.message : LoadFault → String
  | .missingFile => "file does not exist"
  | .unloadable loader => loader
  | .missingSymbol name loader => s!"missing symbol {name}: {loader}"
  | .nulInDirectory => "data directory contains NUL"
  | .refused code => s!"library refused to open database (code {code})"
  | .stated reason => reason

def Violation.message : Violation → String
  | .noEnvelope problem body =>
    "invalid response JSON: " ++ problem.message ++ "; body: " ++ body
  | .noValue fault => "invalid response JSON: " ++ fault.message
  | .payload mismatch => "invalid result payload: " ++ mismatch.message
  | .raggedRow index cells columns =>
    s!"row {index} has {cells} cells but the result has {columns} columns"
  | .notAuth kind => "expected auth response, got '" ++ kind.getD "<none>" ++ "'"
  | .missingColumn name => s!"conflict listing has no '{name}' column"
  | .stated message => message

namespace ClientError

/-- The error in words. -/
def message : ClientError → String
  | .connection address source => s!"failed to connect to {address}: " ++ source.message
  | .load path fault => s!"failed to load embedded library {path}: " ++ fault.message
  | .connectionClosed command =>
    s!"connection closed by server while waiting for a reply to '{command}'"
  | .transport command source => s!"transport error during '{command}': " ++ source.message
  | .protocol _ violation => "invalid response from server: " ++ violation.message
  | .server _ message => message
  | .usage e => e.message

/-- Whether the server itself rejected the command. -/
def isServer : ClientError → Bool
  | .server _ _ => true
  | _ => false

/-- The server's words, if it rejected the command. -/
def serverMessage? : ClientError → Option String
  | .server _ message => some message
  | _ => none

/-- The command during which the error arose. -/
def command? : ClientError → Option String
  | .connectionClosed command | .transport command _ | .protocol command _
  | .server command _ | .usage (.mergePending command) => some command
  | _ => none

end ClientError
end DbClient
