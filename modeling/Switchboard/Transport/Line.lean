import Switchboard.Channel.Pipe
import Switchboard.Transport

/-!
# Lines

A line is a transport over a pair of pipes, with a clock in milliseconds and a far end that reads
and writes on its own. One task uses it. An operation that cannot be answered at once waits as long
as it may, and is tried again if the deadline of the transport wakes the task before.
-/

namespace Switchboard

/-- A part of the far end of a line: the end that feeds the transport, and the end that it writes
to. -/
inductive FarHalf where
  | feed
  | sink
  deriving DecidableEq, Repr

/-- A transport between two pipes. -/
structure Line where
  transport : Transport
  incoming : Pipe
  outgoing : Pipe
  /-- Whether the far end can still write. -/
  feedGone : Bool := false
  /-- Whether the far end can still read. -/
  sinkGone : Bool := false
  now : Int := 0

inductive LineStep where
  | write (data : ByteArray)
  | flush
  | read (n : Nat)
  | close
  | shutdown
  | info
  /-- Set the deadline, so many milliseconds from now, or clear it. -/
  | deadline (ms : Option Int)
  | advance (ms : Nat)
  | farWrite (data : ByteArray)
  | farRead (n : Nat)
  /-- The far end goes away, or one half of it. -/
  | farDrop (half : Option FarHalf)

inductive LineAnswer where
  | ok
  | data (bytes : ByteArray)
  | fault (fault : IoFault)
  | pending
  | gone
  | flag (value : Bool)
  | info (transport : Transport)

namespace Line

def ofKind (kind : TransportKind) (peerAddr : String) (capacity : Nat) : Line where
  transport := ⟨kind, if kind = .pipe then Transport.pipeAddr else peerAddr, none, false⟩
  incoming := { capacity }
  outgoing := { capacity }

def task : Waker := 0

/-- Let some time pass; whether the deadline wakes the task. -/
def elapse (ms : Nat) (line : Line) : Bool × Line :=
  let now := line.now + ms
  let (woken, transport) := line.transport.fire now
  (woken = some task, { line with now, transport })

def read (n : Nat) (line : Line) : Ready ByteArray × Line :=
  let (ready, transport, incoming) :=
    line.transport.read line.now task (·.read n) line.incoming
  (ready, { line with transport, incoming })

/-- Write bytes from `start` on until there is no more room; whether all were written, and how far
it came. -/
def writeFrom (data : ByteArray) (start : Nat) (line : Line) : Ready Unit × Nat × Line :=
  if data.size ≤ start then (.now (), start, line)
  else
    let (ready, transport, outgoing) :=
      line.transport.write line.now task (·.write data start) line.outgoing
    let line := { line with transport, outgoing }
    match ready with
    | .failed fault => (.failed fault, start, line)
    | .later => (.later, start, line)
    | .now n => (if start + n < data.size then .later else .now (), start + n, line)

def close (line : Line) : Ready Unit × Line :=
  let (ready, transport, outgoing) := line.transport.closeWith Pipe.shutdown line.outgoing
  (ready, { line with transport, outgoing })

def shutdown (line : Line) : Ready Unit × Line :=
  let (ready, transport, outgoing) := line.transport.shutdownWith Pipe.shutdown line.outgoing
  (ready, { line with transport, outgoing })

/-- The far end, or a half of it, goes away: what it feeds ends, and what it reads is broken. A
socket has no halves. -/
def farDrop (half : Option FarHalf) (line : Line) : Line :=
  let half := if line.transport.kind = .pipe then half else none
  let line := if half ≠ some .sink then
      { line with feedGone := true, incoming := line.incoming.close } else line
  if half ≠ some .feed then { line with sinkGone := true, outgoing := line.outgoing.close }
  else line

def readAnswer : Ready ByteArray → LineAnswer
  | .now data => .data data
  | .failed fault => .fault fault
  | .later => .pending

def answer : Ready Unit → LineAnswer
  | .now _ => .ok
  | .failed fault => .fault fault
  | .later => .pending

/-- Wait for so long, or until the deadline wakes the task; what is tried again then is answered. -/
def waitFor (wait : Nat) (again : Line → LineAnswer × Line) (line : Line) : LineAnswer × Line :=
  let ms := (line.transport.deadline.map fun due => min wait (due - line.now).toNat).getD wait
  let (woken, line) := line.elapse ms
  if woken then again line else (.pending, (line.elapse (wait - ms)).2)

/-- What comes of closing a line; it may wait for as long as it likes. -/
def closed (wait : Nat) (result : Ready Unit × Line) : LineAnswer × Line :=
  match result with
  | (.later, line) => (.pending, (line.elapse wait).2)
  | (ready, line) => (answer ready, line)

/-- Take a step that may wait so long for its answer. -/
def step (wait : Nat) (line : Line) : LineStep → LineAnswer × Line
  | .write data =>
    match line.writeFrom data 0 with
    | (.later, start, line) => line.waitFor wait fun line =>
      let (ready, _, line) := line.writeFrom data start
      (answer ready, line)
    | (ready, _, line) => (answer ready, line)
  | .flush => (.ok, line)
  | .read n =>
    match line.read n with
    | (.later, line) => line.waitFor wait fun line =>
      let (ready, line) := line.read n
      (readAnswer ready, line)
    | (ready, line) => (readAnswer ready, line)
  | .close => closed wait line.close
  | .shutdown => closed wait line.shutdown
  | .info => (.info line.transport, line)
  | .deadline ms =>
    let (set, transport) := line.transport.setDeadline (ms.map (line.now + ·))
    (.flag set, { line with transport })
  | .advance ms => (.ok, (line.elapse ms).2)
  | .farWrite data =>
    if line.feedGone then (.gone, line)
    else if data.size = 0 then (.ok, line)
    else
      match line.incoming.write data 0 with
      | (.failed fault, incoming) => (.fault fault, { line with incoming })
      | (.later, incoming) => (.pending, ({ line with incoming }.elapse wait).2)
      | (.now n, incoming) =>
        if n < data.size then (.pending, ({ line with incoming }.elapse wait).2)
        else (.ok, { line with incoming })
  | .farRead n =>
    if line.sinkGone then (.gone, line)
    else
      match line.outgoing.read n with
      | (.now data, outgoing) => (.data data, { line with outgoing })
      | (.failed fault, outgoing) => (.fault fault, { line with outgoing })
      | (.later, outgoing) => (.pending, ({ line with outgoing }.elapse wait).2)
  | .farDrop half =>
    (.ok, line.farDrop half)

end Line

end Switchboard
