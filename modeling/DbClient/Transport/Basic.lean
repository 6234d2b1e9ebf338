import DbClient.Config
import DbClient.Frame

/-!
# Transports

A transport carries bytes to a server and back. Sending, receiving and closing act
on its state; what can go wrong is a failure of the channel. A transport never has
an endless supply of chunks: `backlog` bounds how many more it can hand over before
it reports the end of the stream or a failure, and so a frame is waited for only
finitely long.
-/

namespace DbClient

/-- A channel to a server, driven by one caller at a time. -/
class Transport (τ : Type) where
  /-- Writes one frame in full. -/
  send : Bytes → τ → Except IoError Unit × τ
  /-- The next chunk of reply bytes. An empty chunk is the end of the stream. -/
  receive : τ → Except IoError Bytes × τ
  /-- Announces the end of the conversation, before the channel is closed. -/
  terminate : τ → Except IoError Unit × τ
  /-- Releases the channel. May be done more than once. -/
  close : τ → τ
  /-- A bound on the chunks still to come. -/
  backlog : τ → Nat
  /-- Handing over a chunk uses up some of the backlog. -/
  backlog_receive : ∀ (t t' : τ) (chunk : Bytes),
    receive t = (.ok chunk, t') → chunk ≠ [] → backlog t' < backlog t

/-- A place from which transports are opened. Its state holds the transport that is
open, if any, and what remains of the world around it when that is closed. -/
class Endpoint (τ : Type) extends Transport τ where
  /-- Opens the transport to a target. -/
  connect : Target → ClientOptions → τ → Except ClientError Unit × τ

namespace FrameBuffer

variable {τ : Type} [Transport τ]

/-- Receives chunks, at most `fuel`, until a frame is complete. -/
def readFrameWithin (command : String) :
    Nat → FrameBuffer → τ → Except ClientError Bytes × FrameBuffer × τ
  | fuel, b, t =>
    match b.next? with
    | some (frame, left) => (.ok frame, left, t)
    | none =>
      match fuel with
      | 0 => (.error (.connectionClosed command), b, t)
      | fuel + 1 =>
        match Transport.receive t with
        | (.error e, t') => (.error (.transport command e), b, t')
        | (.ok [], t') => (.error (.connectionClosed command), b, t')
        | (.ok (c :: cs), t') => readFrameWithin command fuel (b.push (c :: cs)) t'

/-- Receives chunks until a frame is complete, and takes it. The end of the stream
before that is an error, as is a failure of the channel; both leave the bytes that
have arrived in the buffer. -/
def readFrame (command : String) (b : FrameBuffer) (t : τ) :
    Except ClientError Bytes × FrameBuffer × τ :=
  readFrameWithin command (Transport.backlog t + 1) b t

end FrameBuffer
end DbClient
