import Switchboard.Channel.Pipe
import Switchboard.Fault
import Switchboard.Router

/-!
# Needs

A task that runs beside others says what it waits for and is told when it comes. `Need` is what a
task may wait for, `Signal` what it is told, and `Deed` what it does besides. The machines of calls,
handlers and sweeps are functions from signals to their next state and their deeds, so each can be
followed by itself, whatever runs beside it.
-/

namespace Switchboard

structure StreamRef where
  session : Nat
  stream : Nat
  deriving DecidableEq, Repr, Inhabited

/-- What a task waits for. -/
inductive Need where
  /-- Nothing: it can go on. -/
  | turn
  /-- The scope of a session is cancelled. -/
  | cancelled (session : Nat)
  /-- The connection of a session has stopped. -/
  | stopped (session : Nat)
  /-- To ask a session for a new stream. -/
  | request (session : Nat)
  /-- The answer to such a request. -/
  | granted (session request : Nat)
  /-- To queue up for a stream of the peer. -/
  | queue (session : Nat)
  /-- The stream that the place in the queue brings. -/
  | accepted (session acceptor : Nat)
  /-- Bytes of a stream, or its end. -/
  | read (stream : StreamRef) (room : Nat)
  /-- That a stream takes some of the bytes from `start` on. -/
  | write (stream : StreamRef) (data : ByteArray) (start : Nat)
  /-- That a stream takes word that no more will be sent. -/
  | finish (stream : StreamRef)
  /-- That a pipe takes some of the bytes from `start` on. -/
  | pour (pipe : Nat) (data : ByteArray) (start : Nat)
  /-- Bytes of a pipe, or its end. -/
  | draw (pipe : Nat) (room : Nat)
  /-- That a task has ended. -/
  | ended (task : Nat)
  /-- A moment. -/
  | moment (time : Nat)
  /-- The live session that is registered under a key. -/
  | peer (key : String)
  /-- The keys under which sessions are registered. -/
  | keys

inductive Signal where
  | done
  /-- The number of a request or of a place in a queue. -/
  | ticket (number : Nat)
  | stream (stream : StreamRef)
  /-- Bytes; none at all mean the end. -/
  | bytes (data : ByteArray)
  /-- How many bytes were taken. -/
  | taken (count : Nat)
  | refused (fault : Fault)
  | failed (fault : IoFault)
  | peer (session? : Option Nat)
  | keys (keys : List String)

/-- How the streams that a peer begins are answered. -/
inductive Responder where
  /-- A router works on each request. -/
  | router (router : Router)
  /-- The same bytes answer whatever comes; the session may be closed before they are sent. -/
  | fixed (reply : ByteArray) (hangsUp : Bool)
  deriving Inhabited

/-- What a task does besides waiting. -/
inductive Deed where
  /-- Let go of a stream. -/
  | drop (stream : StreamRef)
  /-- Give up a request for a stream. -/
  | abandon (session request : Nat)
  /-- Leave the queue for streams of the peer. -/
  | leave (session acceptor : Nat)
  /-- Add lines to the log. -/
  | note (lines : List String)
  /-- Have a stream of the peer answered. -/
  | answer (stream : StreamRef) (responder : Responder)
  /-- Give a stream a name. -/
  | name (name : String) (stream : StreamRef)
  /-- Close a session. -/
  | close (session : Nat)
  /-- Take a session out of the registry, if it is the one under the key. -/
  | evict (key : String) (session : Nat)
  /-- Let go of a session, which is closed when nobody else holds on to it. -/
  | release (session : Nat)
  /-- Close a pipe. -/
  | shut (pipe : Nat)

end Switchboard
