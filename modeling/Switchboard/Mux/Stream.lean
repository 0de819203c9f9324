import Switchboard.Channel.Pipe
import Switchboard.Mux.Packet

/-!
# Streams

One end of a stream of a multiplexed connection, by the rules of yamux in its default configuration.
It holds what the peer has sent and nobody has read, how much each side may still send, and what is
still to be announced: the first packet of a stream opens it, and the first in return acknowledges
it. Each side starts with a credit of 256 KiB and is given back what the other has read once that is
half of it. A write sends one packet of at most 16 KiB and takes no more than the credit; without
credit it waits. Who has finished a stream may go on to read it, and what has arrived before a reset
can still be read.

Reading, writing and finishing act on the end alone and leave an order for the connection: a packet
to send, or word that the stream is finished or released. Orders wait in a queue of their stream,
and who would put one more into it than fits waits.

Yamux lets the credit of a stream grow with the time that a round trip takes, up to a limit for the
connection. That is left out: nobody here measures the time, so that each stream keeps its first
credit.
-/

namespace Switchboard.Mux

/-- How far a stream has got, seen from one end. -/
inductive StreamPhase where
  /-- Both sides may send; whether the peer has acknowledged the stream. -/
  | flowing (acknowledged : Bool)
  /-- The peer will send no more. -/
  | heardAll
  /-- This side will send no more. -/
  | saidAll
  | ended
  deriving DecidableEq, Repr, Inhabited

namespace StreamPhase

def canRead : StreamPhase → Bool
  | flowing _ | saidAll => true
  | heardAll | ended => false

def canWrite : StreamPhase → Bool
  | flowing _ | heardAll => true
  | saidAll | ended => false

/-- The phase after an event that by itself leads to `next`. What has ended stays ended. -/
def advance : (now next : StreamPhase) → StreamPhase
  | flowing _, next => next
  | heardAll, saidAll | saidAll, heardAll => ended
  | heardAll, ended | saidAll, ended => ended
  | now, _ => now

end StreamPhase

/-- What the next packet of an end tells the peer of the stream itself. -/
inductive Announcement where
  | nothing
  /-- The stream begins. -/
  | opens
  /-- The stream that the peer began is known here. -/
  | acknowledges
  deriving DecidableEq, Repr, Inhabited

def Announcement.marks : Announcement → Marks
  | nothing => {}
  | opens => { opens := true }
  | acknowledges => { acknowledges := true }

/-- What an end asks its connection for. -/
inductive Order where
  /-- To send a packet. -/
  | send (packet : Packet)
  /-- To tell the peer that no more will be sent, and to acknowledge the stream if that is due. -/
  | finish (acknowledge : Bool)
  /-- To forget the stream: nobody holds it any more. -/
  | release
  deriving Inhabited

/-- The credit that each side of a new stream has. -/
def initialCredit : Nat := 256 * 1024

/-- The most bytes that go into one packet. -/
def packetShare : Nat := 16 * 1024

/-- How many orders an end may have outstanding: its queue holds ten, and one more for its one
sender. -/
def orderLimit : Nat := 11

structure StreamEnd where
  id : Nat
  announcement : Announcement
  phase : StreamPhase := .flowing false
  /-- What has arrived and was not read. -/
  inbox : ByteArray := ByteArray.empty
  /-- How much this side may send. -/
  sendCredit : Nat := initialCredit
  /-- How much the peer may send. -/
  receiveCredit : Nat := initialCredit
  /-- How many orders are outstanding. -/
  outstanding : Nat := 0
  /-- Whether somebody holds the end. -/
  held : Bool := true
  /-- Whether the connection still knows the stream. -/
  known : Bool := true
  deriving Inhabited

namespace StreamEnd

/-- The mark that messages show in place of the name of a stream, which means nothing outside its
connection. -/
def nameMark : String := "<STREAM>"

/-- The failure of a write to a stream that takes no more. -/
def writeFault : IoFault :=
  ⟨.writeZero, nameMark ++ ": connection is closed"⟩

/-- The credit to give the peer: what was read since the last time, once that is half of the
whole. -/
def renewal? (e : StreamEnd) : Option Nat :=
  let amount := initialCredit - e.receiveCredit - e.inbox.size
  if amount < initialCredit / 2 then none else some amount

/-- The end and its order to send a packet, which makes the announcement that is due. -/
def sending (e : StreamEnd) (packet : Marks → Packet) : StreamEnd × Option Order :=
  ({ e with announcement := .nothing, outstanding := e.outstanding + 1 },
    some (.send (packet e.announcement.marks)))

/-- Give the peer new credit if it is time to and there is room for the order. -/
def renew (e : StreamEnd) : StreamEnd × Option Order :=
  if orderLimit ≤ e.outstanding then (e, none)
  else
    match e.renewal? with
    | none => (e, none)
    | some amount =>
      let (e, order) := e.sending fun marks => .credit e.id marks amount
      ({ e with receiveCredit := e.receiveCredit + amount }, order)

/-- Take up to `room` bytes of what has arrived; no bytes at all mean the end. -/
def take (room : Nat) (e : StreamEnd) : Ready ByteArray × StreamEnd :=
  if e.inbox.size = 0 then
    if e.phase.canRead then (.later, e) else (.now .empty, e)
  else
    (.now (e.inbox.extract 0 room), { e with inbox := e.inbox.extract room e.inbox.size })

/-- Read up to `room` bytes; no bytes at all mean the end. While the peer may still send, an end
whose connection takes no more orders cannot be read. -/
def read (room : Nat) (running : Bool) (e : StreamEnd) :
    Ready ByteArray × StreamEnd × Option Order :=
  if e.phase.canRead then
    if running then
      let (e, order) := e.renew
      let (result, e) := e.take room
      (result, e, order)
    else (.failed writeFault, e, none)
  else
    let (result, e) := e.take room
    (result, e, none)

/-- Write as many of the bytes from `start` on as one packet and the credit allow; how many that
were. -/
def write (data : ByteArray) (start : Nat) (running : Bool) (e : StreamEnd) :
    Ready Nat × StreamEnd × Option Order :=
  if !running then (.failed writeFault, e, none)
  else if orderLimit ≤ e.outstanding then (.later, e, none)
  else if !e.phase.canWrite then (.failed writeFault, e, none)
  else if e.sendCredit = 0 then (.later, e, none)
  else
    let n := min (min e.sendCredit packetShare) (data.size - start)
    let body := data.extract start (start + n)
    let (e, order) := e.sending fun marks => .data e.id marks body
    (.now n, { e with sendCredit := e.sendCredit - n }, order)

def finish (running : Bool) (e : StreamEnd) : Ready Unit × StreamEnd × Option Order :=
  if e.phase = .ended then (.now (), e, none)
  else if !running then (.failed writeFault, e, none)
  else if orderLimit ≤ e.outstanding then (.later, e, none)
  else
    let acknowledge := e.announcement = .acknowledges
    (.now (),
      { e with
        announcement := if acknowledge then .nothing else e.announcement
        phase := e.phase.advance .saidAll
        outstanding := e.outstanding + 1 },
      some (.finish acknowledge))

/-- Whether this side began the stream and waits for the peer to acknowledge it. -/
def isPending (e : StreamEnd) : Bool :=
  e.phase = .flowing false

def receive (body : ByteArray) (e : StreamEnd) : StreamEnd :=
  { e with inbox := e.inbox ++ body, receiveCredit := e.receiveCredit - body.size }

def moved (next : StreamPhase) (e : StreamEnd) : StreamEnd :=
  { e with phase := e.phase.advance next }

end StreamEnd

end Switchboard.Mux
