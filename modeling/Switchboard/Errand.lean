import Switchboard.Fabric.Need
import Switchboard.Frame.Transfer
import Switchboard.Poller.Sweep
import Switchboard.Session

/-!
# Errands

Single things to do with a session or a stream: to open or accept a stream, to read and write on
it, to wait. An errand ends with an outcome. `Series` opens or accepts several streams one after
the other, each within a time.
-/

namespace Switchboard

inductive Outcome where
  | ok
  | fault (fault : Fault)
  | failed (fault : IoFault)
  | bytes (data : ByteArray)
  /-- A frame, or the end of the stream. -/
  | frame (frame? : Option Frame)
  /-- The connection has stopped. -/
  | closed
  /-- A session is not served any more. -/
  | served
  | flag (value : Bool)
  /-- The reply to a call, and how many milliseconds it took. -/
  | reply (outcome : Except Fault ByteArray) (elapsed : Nat)
  /-- How many streams a series brought, and how it ended. -/
  | count (done : Nat) (last : Outcome)
  /-- What a sweep counted, and the table after it. -/
  | swept (report : SweepTally) (table : Roster)
  /-- It did not end in time. -/
  | pending
  /-- There is no stream of that name. -/
  | noStream
  /-- There is no task of that name. -/
  | noTask
  /-- It goes on beside what follows. -/
  | spawned
  /-- The far end is gone. -/
  | gone
  | lines (lines : List String)
  /-- A session as others see it. -/
  | session (info : SessionInfo)
  deriving Inhabited

inductive Errand where
  /-- Open a stream, to be known by a name. -/
  | openNew (session : Nat) (name : String)
  | opening (session request : Nat) (name : String)
  /-- Accept a stream, to be known by a name. -/
  | acceptNext (session : Nat) (name : String)
  | accepting (session acceptor : Nat) (name : String)
  | write (stream : StreamRef) (data : ByteArray) (sent : Nat)
  /-- Read so many bytes. -/
  | readExact (stream : StreamRef) (size : Nat) (got : ByteArray)
  /-- Read to the end. -/
  | readAll (stream : StreamRef) (got : ByteArray)
  | readFrame (stream : StreamRef) (reader : FrameReader)
  | finish (stream : StreamRef)
  /-- Wait until a connection has stopped. -/
  | stopped (session : Nat)
  /-- Wait until a moment. -/
  | sleep (time : Nat)
  /-- Wait until a task has ended. -/
  | join (task : Nat)
  /-- Write to a pipe. -/
  | pour (pipe : Nat) (data : ByteArray) (sent : Nat)
  /-- Write to one pipe what the other brings, of which some is held and partly written. -/
  | relay (input output : Nat) (held : ByteArray) (sent : Nat)
  /-- Wait until a moment and close some pipes. -/
  | doze (time : Nat) (pipes : List Nat)
  | done (outcome : Outcome)
  deriving Inhabited

namespace Errand

/-- How many bytes are asked for at once by who reads to the end. -/
def wholeRoom : Nat := 1024 * 1024

def relayRoom : Nat := 64 * 1024

def writeFrame (stream : StreamRef) (frame : Frame) : Errand :=
  match frame.encode with
  | .error fault => .done (.failed fault)
  | .ok data => .write stream data 0

def needs : Errand → List Need
  | openNew session _ => [.request session]
  | opening session request _ => [.granted session request]
  | acceptNext session _ => [.queue session]
  | accepting session acceptor _ => [.accepted session acceptor]
  | write stream data sent => if data.size ≤ sent then [.turn] else [.write stream data sent]
  | readExact stream size got =>
    if size ≤ got.size then [.turn] else [.read stream (size - got.size)]
  | readAll stream _ => [.read stream wholeRoom]
  | readFrame stream reader => [.read stream reader.room]
  | finish stream => [.finish stream]
  | stopped session => [.stopped session]
  | sleep time => [.moment time]
  | join task => [.ended task]
  | pour pipe data sent => if data.size ≤ sent then [.turn] else [.pour pipe data sent]
  | relay input output held sent =>
    if held.size ≤ sent then [.draw input relayRoom] else [.pour output held sent]
  | doze time _ => [.moment time]
  | done _ => []

def received : Received → Outcome
  | .frame frame => .frame (some frame)
  | .ended => .frame none
  | .fault fault => .failed fault
  | .waiting => .pending

def hear (signal : Signal) (errand : Errand) : Errand × List Deed :=
  match errand, signal with
  | relay input output _ _, .failed _ => (.done .ok, [.shut input, .shut output])
  | relay input output _ _, .bytes data =>
    if data.size = 0 then (.done .ok, [.shut input, .shut output])
    else (.relay input output data 0, [])
  | relay input output held sent, .taken count => (.relay input output held (sent + count), [])
  | doze _ pipes, _ => (.done .ok, pipes.map .shut)
  | _, .refused fault => (.done (.fault fault), [])
  | _, .failed fault => (.done (.failed fault), [])
  | openNew session name, .ticket request => (.opening session request name, [])
  | acceptNext session name, .ticket acceptor => (.accepting session acceptor name, [])
  | opening _ _ name, .stream stream | accepting _ _ name, .stream stream =>
    (.done .ok, [.name name stream])
  | write stream data sent, .taken count =>
    let sent := sent + count
    (if data.size ≤ sent then .done .ok else .write stream data sent, [])
  | pour pipe data sent, .taken count =>
    let sent := sent + count
    (if data.size ≤ sent then .done .ok else .pour pipe data sent, [])
  | readExact _ _ got, .done => (.done (.bytes got), [])
  | readExact stream size got, .bytes data =>
    if data.size = 0 then (.done (.failed ⟨.unexpectedEof, "early eof"⟩), [])
    else
      let got := got ++ data
      (if size ≤ got.size then .done (.bytes got) else .readExact stream size got, [])
  | readAll stream got, .bytes data =>
    (if data.size = 0 then .done (.bytes got) else .readAll stream (got ++ data), [])
  | readFrame stream reader, .bytes data =>
    if data.size = 0 then (.done (received reader.ended), [])
    else
      match reader.feed data with
      | .inl frame => (.done (received frame), [])
      | .inr reader => (.readFrame stream reader, [])
  | stopped _, _ => (.done .closed, [])
  | _, _ => (.done .ok, [])

/-- What is let go of when an errand ends now. -/
def release : Errand → List Deed
  | opening session request _ => [.abandon session request]
  | accepting session acceptor _ => [.leave session acceptor]
  | _ => []

/-- The session that an errand holds on to. -/
def session? : Errand → Option Nat
  | openNew session _ | opening session _ _ | acceptNext session _ | accepting session _ _
  | stopped session => some session
  | _ => none

end Errand

/-- Several streams that are opened or accepted one after the other. -/
structure Series where
  session : Nat
  /-- Whether they are opened here, and not accepted. -/
  opens : Bool
  /-- The names begin so. -/
  name : String
  count : Nat
  /-- Whether a byte is written on each. -/
  pokes : Bool
  done : Nat := 0
  /-- What is under way, and how long it may take. -/
  errand : Errand
  deadline : Nat
  deriving Inhabited

namespace Series

def limit : Nat := 100

def next (series : Series) : Errand :=
  let name := series.name ++ toString series.done
  if series.opens then .openNew series.session name else .acceptNext series.session name

def start (session : Nat) (opens : Bool) (name : String) (count : Nat) (pokes : Bool)
    (now : Nat) : Series :=
  let series : Series :=
    { session, opens, name, count, pokes, errand := .done .ok, deadline := now + limit }
  if count = 0 then { series with errand := .done (.count 0 .ok) }
  else { series with errand := series.next }

def needs (series : Series) : List Need :=
  match series.errand with
  | .done _ => []
  | .write .. => series.errand.needs
  | errand => errand.needs ++ [.moment series.deadline]

def outcome? (series : Series) : Option Outcome :=
  match series.errand with
  | .done outcome => some outcome
  | _ => none

def proceed (now : Nat) (series : Series) : Series :=
  let series := { series with done := series.done + 1, deadline := now + limit }
  if series.count ≤ series.done then { series with errand := .done (.count series.done .ok) }
  else { series with errand := series.next }

def named? : List Deed → Option StreamRef
  | [.name _ stream] => some stream
  | _ => none

def hear (now : Nat) (need : Need) (signal : Signal) (series : Series) : Series × List Deed :=
  match need with
  | .moment _ =>
    ({ series with errand := .done (.count series.done .pending) }, series.errand.release)
  | _ =>
    match series.errand.hear signal with
    | (.done .ok, deeds) =>
      match named? deeds, series.pokes with
      | some stream, true =>
        ({ series with errand := .write stream "x".toUTF8 0 }, deeds)
      | _, _ => (series.proceed now, deeds)
    | (.done outcome, deeds) =>
      ({ series with errand := .done (.count series.done outcome) }, deeds)
    | (errand, deeds) => ({ series with errand }, deeds)

end Series

end Switchboard
