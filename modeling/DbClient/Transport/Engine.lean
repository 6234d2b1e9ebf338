import DbClient.Error

/-!
# The native library

A library for the embedded mode has five functions: two that open a database, one
that executes a command, one that frees a reply, and one that closes the database.
Its behaviour is what these return, call by call; the calls made into it are noted.
A reply stays in the library's memory until it is given back, so a reply is told apart
from every other, also from one with the same bytes, by the command that it answers.
-/

namespace DbClient

/-- The functions of the library. -/
inductive Symbol where
  | execute
  | free
  | close
  | openMemory
  | openFile
  deriving DecidableEq, Repr

/-- The name under which the library has a function. -/
def Symbol.name : Symbol → String
  | .execute => "commitdb_execute"
  | .free => "commitdb_free"
  | .close => "commitdb_close"
  | .openMemory => "commitdb_open_memory"
  | .openFile => "commitdb_open_file"

/-- The functions in the order in which they are looked up. -/
def Symbol.lookupOrder : List Symbol :=
  [.execute, .free, .close, .openMemory, .openFile]

/-- A call into the library. -/
inductive EngineEvent where
  | openMemory
  | openFile (directory : String)
  | execute (handle : Int) (command : Bytes)
  /-- Gives back the reply to the command with this index, of all that have been executed. -/
  | free (index : Nat)
  | close (handle : Int)
  deriving DecidableEq, Repr

/-- The command that a call executes. -/
def EngineEvent.command? : EngineEvent → Option Bytes
  | execute _ command => some command
  | openMemory | openFile _ | free _ | close _ => none

/-- A reply in the library's memory. -/
structure LibraryReply where
  /-- The index of the command that it answers. -/
  index : Nat
  bytes : Bytes
  deriving DecidableEq, Repr

/-- What there is at the library's path. -/
inductive LibraryFile where
  | missing
  | garbage
  | library
  deriving DecidableEq, Repr

/-- A library, by what its functions will return. -/
structure Engine where
  path : String
  file : LibraryFile
  /-- The functions that the library lacks. -/
  absent : List Symbol
  /-- What the loader says when it fails. -/
  loader : String
  /-- What the next calls that open return; after these, one. -/
  openCodes : List Int
  /-- The replies to the next commands, `none` for a null pointer; after these,
  null pointers. -/
  replies : List (Option Bytes)
  events : List EngineEvent
  deriving DecidableEq, Repr

namespace Engine

def note (e : Engine) (event : EngineEvent) : Engine :=
  { e with events := e.events ++ [event] }

/-- The commands that have been executed. -/
def executed (e : Engine) : List Bytes :=
  e.events.filterMap EngineEvent.command?

/-- The result of a call that opens a database. -/
def openCode (e : Engine) : Int × Engine :=
  (e.openCodes.headD 1, { e with openCodes := e.openCodes.tail })

def openMemory (e : Engine) : Int × Engine :=
  (e.note .openMemory).openCode

def openFile (directory : String) (e : Engine) : Int × Engine :=
  (e.note (.openFile directory)).openCode

/-- Executes a command: the reply, or none for a null pointer. -/
def execute (handle : Int) (command : Bytes) (e : Engine) : Option LibraryReply × Engine :=
  (e.replies.head?.join.map fun bytes => ⟨e.executed.length, bytes⟩,
    { e.note (.execute handle command) with replies := e.replies.tail })

/-- Gives a reply back to the library. -/
def free (reply : LibraryReply) (e : Engine) : Engine :=
  e.note (.free reply.index)

def close (handle : Int) (e : Engine) : Engine :=
  e.note (.close handle)

end Engine
end DbClient
