import DbClient.Transport.Basic

/-!
# Peers

The other end of a network connection, by the replies that it gives. It hears the
client line by line and answers each line with its next reply, until it has none
left or is told to quit; then it ends its side and goes on listening.
-/

namespace DbClient

/-- How a peer answers a line. -/
inductive PeerReply where
  | say (bytes : Bytes)
  /-- The peer says nothing. -/
  | silence
  /-- The peer says this and ends its side. -/
  | sayLast (bytes : Bytes)
  deriving DecidableEq, Repr

/-- A connection to a peer. -/
structure Connection where
  replies : List PeerReply
  /-- The lines heard, with their newlines. -/
  heard : List Bytes
  /-- The line that is being heard. -/
  unfinished : Bytes
  /-- What the peer has said and the client has not read. -/
  inFlight : Bytes
  /-- Whether the peer has ended its side. -/
  ended : Bool
  deriving DecidableEq, Repr

namespace Connection

def start (replies : List PeerReply) : Connection :=
  ⟨replies, [], [], [], false⟩

/-- The peer's answer to a line. -/
def answer (line : Bytes) (c : Connection) : Connection :=
  if c.ended then c
  else if line = quitFrame then { c with ended := true }
  else match c.replies with
    | [] => { c with ended := true }
    | .say bytes :: rest => { c with replies := rest, inFlight := c.inFlight ++ bytes }
    | .silence :: rest => { c with replies := rest }
    | .sayLast bytes :: rest =>
      { c with replies := rest, inFlight := c.inFlight ++ bytes, ended := true }

/-- The peer hears one byte. -/
def hearByte (c : Connection) (b : UInt8) : Connection :=
  let line := c.unfinished ++ [b]
  if b = delimiter then answer line { c with heard := c.heard ++ [line], unfinished := [] }
  else { c with unfinished := line }

/-- The peer hears what the client sends. -/
def hear (bytes : Bytes) (c : Connection) : Connection :=
  bytes.foldl hearByte c

/-- All that the peer has heard, an unfinished line last. -/
def lines (c : Connection) : List Bytes :=
  if c.unfinished = [] then c.heard else c.heard ++ [c.unfinished]

end Connection

/-- What can be reached over the network. -/
structure Network where
  /-- Whether there is a network at all. -/
  reachable : Bool
  /-- The peers that wait for a connection, if anyone listens. -/
  waiting : Option (List (List PeerReply))
  /-- The connections that are over. -/
  finished : List Connection
  deriving DecidableEq, Repr

namespace Network

/-- A connection to the next peer that waits. -/
def accept (n : Network) : Except IoError Connection × Network :=
  if !n.reachable then (.error .networkUnreachable, n)
  else match n.waiting with
    | none => (.error .connectionRefused, n)
    | some [] => (.ok (.start []), n)
    | some (replies :: rest) => (.ok (.start replies), { n with waiting := some rest })

/-- The network after a connection has ended. -/
def finish (c : Connection) (n : Network) : Network :=
  { n with finished := n.finished ++ [c] }

end Network
end DbClient
