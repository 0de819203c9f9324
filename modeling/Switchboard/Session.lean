import Switchboard.Mux.Connection
import Switchboard.Mux.Openings
import Switchboard.Text.Quoted

/-!
# Sessions

A session is a multiplexed connection with one peer, under the key of that peer. It is open until
its scope is cancelled, by this side or because the connection ended, and then stays closed: streams
can neither be opened nor accepted any more. `Session.step` is one move of the task that owns the
connection (`drive`): it takes up requests for streams, carries packets, and at the end answers
every request that is left.
-/

namespace Switchboard

open Mux

inductive Activity where
  /-- It waits for something to happen. -/
  | resting
  /-- It begins the streams that were asked for. -/
  | granting
  /-- It carries packets. -/
  | pumping
  /-- It says goodbye, at most until a moment. -/
  | closing (limit : Nat)
  | ended
  deriving DecidableEq, Repr, Inhabited

/-- How many milliseconds a goodbye may take. -/
def closeGrace : Nat := 2000

/-- One end of a session. -/
structure Session where
  key : String
  peerAddr : String
  /-- The number of the process at the other end; 0 if that is no helper. -/
  pid : Nat := 0
  /-- The process that is to be ended with the session. -/
  child? : Option Nat := none
  connection : Connection
  openings : Openings := {}
  /-- The streams that the peer began and nobody has accepted, oldest first. -/
  arrived : List Nat := []
  /-- Who waits to accept a stream, first come first. -/
  acceptors : List Nat := []
  /-- The number of the next acceptor. -/
  nextAcceptor : Nat := 0
  /-- Whether this side has closed the session. -/
  closing : Bool := false
  /-- Whether the scope of the session is cancelled. -/
  cancelled : Bool := false
  /-- Whether the connection has stopped. -/
  stopped : Bool := false
  activity : Activity := .resting
  deriving Inhabited

/-- A session as others see it. -/
structure SessionInfo where
  key : String
  peerAddr : String
  role : Role
  pid : Nat
  closed : Bool
  deriving DecidableEq, Repr, Inhabited

def SessionInfo.text (info : SessionInfo) : String :=
  "Session \x7b key: " ++ Text.quoted info.key ++ ", peer_addr: " ++ Text.quoted info.peerAddr ++
    ", role: " ++ info.role.name ++ ", pid: " ++ toString info.pid ++ ", closed: " ++
    toString info.closed ++ " \x7d"

namespace Session

def start (key peerAddr : String) (role : Role) : Session :=
  { key, peerAddr, connection := .ofRole role }

/-- A session that begins with a process that was started for it. -/
def withChild (key peerAddr : String) (pid : Nat) : Session :=
  { start key peerAddr .client with pid, child? := some pid }

def role (s : Session) : Role :=
  s.connection.role

/-- Whether nothing can be opened or accepted any more. -/
def isClosed (s : Session) : Bool :=
  s.cancelled || s.stopped

def info (s : Session) : SessionInfo :=
  ⟨s.key, s.peerAddr, s.role, s.pid, s.isClosed⟩

def cancel (s : Session) : Session :=
  if s.cancelled then s
  else { s with cancelled := true, connection := { s.connection with woken := true } }

/-- Close the session: its scope is cancelled, and the process that is to be ended is given back.
Only the first time does anything. -/
def close (s : Session) : Option Nat × Session :=
  if s.closing then (none, s)
  else (s.child?, { s.cancel with closing := true, child? := none })

/-! ## Streams -/

def drop (stream : Nat) (s : Session) : Session :=
  { s with connection := s.connection.drop stream }

/-- Ask for a new stream (`open_stream`); the number of the request. A closed session refuses. -/
def request (s : Session) : Except Fault Nat × Session :=
  if s.isClosed then (.error .closed, s)
  else
    let (request, openings) := s.openings.ask
    (.ok request, { s with openings, connection := { s.connection with woken := true } })

def abandon (request : Nat) (s : Session) : Session :=
  match s.openings.abandon request with
  | (none, openings) => { s with openings }
  | (some stream, openings) => { s with openings }.drop stream

/-- The answer to a request for a stream, if there is one. -/
def collect (request : Nat) (s : Session) : Option (Except Fault Nat) × Session :=
  if s.cancelled then (some (.error .closed), s.abandon request)
  else
    match s.openings.collect request with
    | (none, openings) => (none, { s with openings })
    | (some none, openings) => (some (.error .closed), { s with openings })
    | (some (some stream), openings) => (some (.ok stream), { s with openings })

/-- Queue up for a stream of the peer (`accept_stream`); the number in the queue. A closed session
refuses. -/
def queue (s : Session) : Except Fault Nat × Session :=
  if s.isClosed then (.error .closed, s)
  else
    (.ok s.nextAcceptor, { s with
      acceptors := s.acceptors ++ [s.nextAcceptor]
      nextAcceptor := s.nextAcceptor + 1 })

def leave (acceptor : Nat) (s : Session) : Session :=
  { s with acceptors := s.acceptors.erase acceptor }

/-- The next stream of the peer, for the first in the queue. -/
def accept (acceptor : Nat) (s : Session) : Option (Except Fault Nat) × Session :=
  if s.cancelled then (some (.error .closed), s.leave acceptor)
  else if s.acceptors.head? = some acceptor then
    match s.arrived with
    | stream :: arrived => (some (.ok stream), { s with arrived }.leave acceptor)
    | [] => if s.stopped then (some (.error .closed), s.leave acceptor) else (none, s)
  else (none, s)

/-! ## The work of the connection -/

/-- The session once its connection has stopped: every request for a stream is answered. -/
def halt (s : Session) : Session :=
  { s with stopped := true, openings := s.openings.refuse }

def fail (s : Session) : Session :=
  { s.halt with connection := s.connection.fail, cancelled := true, activity := .ended }

/-- The session once its goodbye is said, or given up. -/
def finish (s : Session) : Session :=
  { s with activity := .ended, cancelled := true }

/-- Begin to work: to say goodbye if the scope is cancelled, else to take up what was asked for. -/
def begin (now : Nat) (s : Session) : Session :=
  let s := { s with connection := { s.connection with woken := false } }
  if s.cancelled then
    { s.halt with
      connection := s.connection.hangUp, activity := .closing (now + closeGrace) }
  else { s with openings := s.openings.takeUp, activity := .granting }

/-- Begin a stream for the oldest request. The connection, which is at work, need not be woken for
a stream that nobody takes. -/
def grant (s : Session) : Session :=
  if s.openings.waiting.isEmpty then { s with activity := .pumping }
  else
    match s.connection.begin? with
    | (.failed _, connection) => { s with connection }.fail
    | (.later, connection) => { s with connection, activity := .pumping }
    | (.stream stream, connection) =>
      match s.openings.grant stream with
      | (none, openings) => { s with connection, openings }
      | (some stream, openings) =>
        { s with openings, connection :=
          { connection.drop stream with woken := connection.woken } }

/-- One move of the connection between its two pipes, if there is one to make (`drive`). -/
def step (now : Nat) (s : Session) (input output : Pipe) : Option (Session × Pipe × Pipe) :=
  match s.activity with
  | .ended => none
  | .resting =>
    if s.connection.isReady input output then some (s.begin now, input, output) else none
  | .granting =>
    let s := s.grant
    if s.activity = .ended then some (s, input.close, output.close) else some (s, input, output)
  | .pumping =>
    match s.connection.pump input output with
    | (.moved, connection, input, output) => some ({ s with connection }, input, output)
    | (.arrived stream, connection, input, output) =>
      some ({ s with connection, arrived := s.arrived ++ [stream] }, input, output)
    | (.idle, connection, input, output) =>
      some ({ s with connection, activity := .resting }, input, output)
    | (.failed _, connection, input, output) =>
      some ({ s with connection }.fail, input.close, output.close)
  | .closing limit =>
    let outbox := s.connection.outbox
    if outbox.size = 0 then some (s.finish, input.close, output.close)
    else
      match output.write outbox 0 with
      | (.now n, output) =>
        some ({ s with connection :=
          { s.connection with outbox := outbox.extract n outbox.size } }, input, output)
      | (.failed _, output) => some (s.finish, input.close, output.close)
      | (.later, output) =>
        if limit ≤ now then some (s.finish, input.close, output.close) else none

/-- The moment at which a goodbye is given up. -/
def alarm? (s : Session) : Option Nat :=
  match s.activity with
  | .closing limit => some limit
  | _ => none

end Session

end Switchboard
