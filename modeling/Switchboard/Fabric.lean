import Switchboard.Fabric.Task
import Switchboard.Registry
import Switchboard.Session

/-!
# Fabrics

Sessions, the pipes between them and the tasks that use them, on one clock. A connection or a task
moves when something that it waits for is there; a fabric is settled when nothing can move, and then
its clock goes on to the next moment that somebody waits for. Members move in the order in which
they joined, each until it can go on no further, so a run is determined by what is put in.
-/

namespace Switchboard

/-- A session and the pipes that it reads and writes. -/
structure Seat where
  session : Session
  input : Nat
  output : Nat
  deriving Inhabited

structure Runner where
  id : Nat
  task : Task
  /-- The moment at which it is stopped. -/
  limit : Option Nat := none
  /-- Whether somebody will ask for its outcome. -/
  watched : Bool := false
  deriving Inhabited

/-- Who moves in a fabric. -/
inductive Member where
  | session (id : Nat)
  | task (id : Nat)
  deriving DecidableEq, Repr, Inhabited

/-- Sessions and tasks on one clock. -/
structure Fabric where
  /-- The time, in milliseconds. -/
  now : Nat := 0
  pipes : Array Pipe := #[]
  seats : Array Seat := #[]
  runners : List Runner := []
  /-- Who moves, in order. -/
  crew : List Member := []
  nextTask : Nat := 0
  /-- The outcomes of watched tasks that have ended. -/
  outcomes : List (Nat × Outcome) := []
  /-- Streams by name. -/
  streams : List (String × StreamRef) := []
  /-- What handlers have noted. -/
  log : List String := []
  registry : Registry := {}
  /-- Sessions that are closed once no task holds on to them. -/
  released : List Nat := []
  /-- The processes that were started, and the pipes of each. -/
  processes : List (Nat × List Nat) := []
  deriving Inhabited

namespace Fabric

/-! ## Members -/

def onSession (id : Nat) (f : Session → α × Session) (fabric : Fabric) : Option α × Fabric :=
  match fabric.seats[id]? with
  | none => (none, fabric)
  | some seat =>
    let (a, session) := f seat.session
    (some a, { fabric with seats := fabric.seats.set! id { seat with session } })

def modifySession (id : Nat) (f : Session → Session) (fabric : Fabric) : Fabric :=
  (fabric.onSession id fun s => ((), f s)).2

def session? (fabric : Fabric) (id : Nat) : Option Session :=
  fabric.seats[id]?.map (·.session)

def isClosed (fabric : Fabric) (id : Nat) : Bool :=
  match fabric.session? id with
  | some s => s.isClosed
  | none => true

/-- Add a pipe; its number. -/
def addPipe (capacity : Nat) (fabric : Fabric) : Nat × Fabric :=
  (fabric.pipes.size, { fabric with pipes := fabric.pipes.push { capacity } })

/-- Add a session that reads one pipe and writes another; its number. -/
def addSession (session : Session) (input output : Nat) (fabric : Fabric) : Nat × Fabric :=
  let id := fabric.seats.size
  (id, { fabric with
    seats := fabric.seats.push ⟨session, input, output⟩
    crew := fabric.crew ++ [.session id] })

def closePipe (id : Nat) (fabric : Fabric) : Fabric :=
  { fabric with pipes := fabric.pipes.modify id Pipe.close }

/-- Add a task at the end of the crew; its number. -/
def spawn (task : Task) (watched : Bool) (fabric : Fabric) : Nat × Fabric :=
  let id := fabric.nextTask
  (id, { fabric with
    nextTask := id + 1
    runners := fabric.runners ++ [{ id, task, watched }]
    crew := fabric.crew ++ [.task id] })

/-- End a process: its pipes are closed. -/
def kill (pid : Nat) (fabric : Fabric) : Fabric :=
  let pipes := (fabric.processes.lookup pid).getD []
  pipes.foldl (fun fabric id => fabric.closePipe id)
    { fabric with processes := fabric.processes.filter (·.1 ≠ pid) }

/-- Close a session, and end the process that it was started with (`close`). -/
def closeSession (id : Nat) (fabric : Fabric) : Fabric :=
  match fabric.onSession id Session.close with
  | (some (some pid), fabric) => fabric.kill pid
  | (_, fabric) => fabric

def closeSessions (ids : List Nat) (fabric : Fabric) : Fabric :=
  ids.foldl (fun fabric id => fabric.closeSession id) fabric

/-- Close the sessions that nobody holds on to any more. -/
def closeReleased (fabric : Fabric) : Fabric :=
  let held := fabric.runners.filterMap fun r => r.task.session?
  let free := fabric.released.filter fun id => !held.contains id
  { fabric with released := fabric.released.filter held.contains }.closeSessions free

def retire (id : Nat) (outcome : Outcome) (fabric : Fabric) : Fabric :=
  let watched := fabric.runners.any fun r => r.id = id && r.watched
  closeReleased { fabric with
    runners := fabric.runners.filter (·.id ≠ id)
    crew := fabric.crew.filter (· ≠ .task id)
    outcomes := if watched then (id, outcome) :: fabric.outcomes else fabric.outcomes }

/-! ## Needs and deeds -/

def signalOf (f : α → Signal) : Option (Ready α) → Option Signal
  | some (.now a) => some (f a)
  | some (.failed fault) => some (.failed fault)
  | some .later => none
  | none => some (.failed Mux.StreamEnd.writeFault)

def onStream (ref : StreamRef) (f : Nat → Mux.Connection → Ready α × Mux.Connection)
    (signal : α → Signal) (fabric : Fabric) : Option Signal × Fabric :=
  let (result, fabric) := fabric.onSession ref.session fun s =>
    let (result, connection) := f ref.stream s.connection
    (result, { s with connection })
  (signalOf signal result, fabric)

def ticketOf : Option (Except Fault Nat) → Signal
  | some (.ok number) => .ticket number
  | some (.error fault) => .refused fault
  | none => .refused .closed

def streamOf (session : Nat) : Option (Option (Except Fault Nat)) → Option Signal
  | some (some (.ok stream)) => some (.stream ⟨session, stream⟩)
  | some (some (.error fault)) => some (.refused fault)
  | some none => none
  | none => some (.refused .closed)

def signalIf (holds : Bool) : Option Signal :=
  if holds then some .done else none

/-- Meet a need, if it can be met now. -/
def meet (need : Need) (fabric : Fabric) : Option Signal × Fabric :=
  match need with
  | .turn => (some .done, fabric)
  | .cancelled id => (signalIf ((fabric.session? id).all (·.cancelled)), fabric)
  | .stopped id => (signalIf ((fabric.session? id).all (·.stopped)), fabric)
  | .request id =>
    let (result, fabric) := fabric.onSession id Session.request
    (some (ticketOf result), fabric)
  | .granted id request =>
    let (result, fabric) := fabric.onSession id (Session.collect request)
    (streamOf id result, fabric)
  | .queue id =>
    let (result, fabric) := fabric.onSession id Session.queue
    (some (ticketOf result), fabric)
  | .accepted id acceptor =>
    let (result, fabric) := fabric.onSession id (Session.accept acceptor)
    (streamOf id result, fabric)
  | .read ref room => fabric.onStream ref (fun id c => c.read id room) .bytes
  | .write ref data start => fabric.onStream ref (fun id c => c.write id data start) .taken
  | .finish ref => fabric.onStream ref (fun id c => c.finish id) fun _ => .done
  | .pour id data start =>
    match fabric.pipes[id]? with
    | none => (some (.failed (.bare .brokenPipe)), fabric)
    | some pipe =>
      let (result, pipe) := pipe.write data start
      (signalOf .taken (some result), { fabric with pipes := fabric.pipes.set! id pipe })
  | .draw id room =>
    match fabric.pipes[id]? with
    | none => (some (.bytes .empty), fabric)
    | some pipe =>
      let (result, pipe) := pipe.read room
      (signalOf .bytes (some result), { fabric with pipes := fabric.pipes.set! id pipe })
  | .ended id => (signalIf (fabric.runners.all (·.id ≠ id)), fabric)
  | .moment time => (signalIf (decide (time ≤ fabric.now)), fabric)
  | .peer key =>
    let (session?, registry) := fabric.registry.get fabric.isClosed key
    (some (.peer session?), { fabric with registry })
  | .keys => (some (.keys fabric.registry.keys), fabric)

def dropStream (ref : StreamRef) (fabric : Fabric) : Fabric :=
  { fabric with streams := fabric.streams.filter (·.2 ≠ ref) }.modifySession ref.session
    (Session.drop ref.stream)

/-- Give a stream a name. The stream that had it is let go of. -/
def nameStream (name : String) (ref : StreamRef) (fabric : Fabric) : Fabric :=
  let fabric := match fabric.streams.lookup name with
    | some old => fabric.dropStream old
    | none => fabric
  { fabric with streams := (name, ref) :: fabric.streams }

def perform (fabric : Fabric) : Deed → Fabric
  | .drop ref => fabric.dropStream ref
  | .abandon id request => fabric.modifySession id (Session.abandon request)
  | .leave id acceptor => fabric.modifySession id (Session.leave acceptor)
  | .note lines => { fabric with log := fabric.log ++ lines }
  | .answer stream responder => (fabric.spawn (.service { stream, responder }) false).2
  | .name name ref => fabric.nameStream name ref
  | .close id => fabric.closeSession id
  | .evict key id => { fabric with registry := fabric.registry.evict key id }
  | .release id => { fabric with released := id :: fabric.released }
  | .shut id => fabric.closePipe id

/-! ## Moves -/

/-- Meet the first of some needs that can be met. -/
def meetFirst (fabric : Fabric) :
    List (Nat × Need) → Option (Nat × Need × Signal) × Fabric
  | [] => (none, fabric)
  | (place, need) :: later =>
    match fabric.meet need with
    | (some signal, fabric) => (some (place, need, signal), fabric)
    | (none, fabric) => fabric.meetFirst later

def putTask (id : Nat) (task : Task) (fabric : Fabric) : Fabric :=
  { fabric with runners := fabric.runners.map fun r => if r.id = id then { r with task } else r }

def stop (id : Nat) (outcome : Outcome) (fabric : Fabric) : Fabric :=
  match fabric.runners.find? (·.id = id) with
  | none => fabric
  | some runner => (runner.task.release.foldl perform fabric).retire id outcome

def settleTask (id : Nat) (task : Task) (fabric : Fabric) : Fabric :=
  match task.outcome? fabric.now with
  | some outcome => fabric.retire id outcome
  | none => fabric.putTask id task

/-- One move of a task, if it can make one. -/
def stepTask (id : Nat) (fabric : Fabric) : Bool × Fabric :=
  match fabric.runners.find? (·.id = id) with
  | none => (false, fabric)
  | some runner =>
    if (runner.task.outcome? fabric.now).isSome then (true, fabric.settleTask id runner.task)
    else
      match fabric.meetFirst runner.task.needs with
      | (some (place, need, signal), fabric) =>
        let fabric := fabric.putTask id (.errand (.done .ok))
        let (task, deeds) := runner.task.hear fabric.now place need signal
        (true, (deeds.foldl perform fabric).settleTask id task)
      | (none, fabric) =>
        if runner.limit.any (· ≤ fabric.now) then (true, fabric.stop id .pending)
        else (false, fabric)

/-- One move of a connection, if it can make one. -/
def stepSession (id : Nat) (fabric : Fabric) : Bool × Fabric :=
  match fabric.seats[id]? with
  | none => (false, fabric)
  | some ⟨session, input, output⟩ =>
    match fabric.pipes[input]?, fabric.pipes[output]? with
    | some inPipe, some outPipe =>
      match session.step fabric.now inPipe outPipe with
      | none => (false, fabric)
      | some (session, inPipe, outPipe) =>
        (true, { fabric with
          seats := fabric.seats.set! id ⟨session, input, output⟩
          pipes := (fabric.pipes.set! input inPipe).set! output outPipe })
    | _, _ => (false, fabric)

def step (member : Member) (fabric : Fabric) : Bool × Fabric :=
  match member with
  | .session id => fabric.stepSession id
  | .task id => fabric.stepTask id

/-- Let the members move, those of the list first and then all in turn, until none can, but no
more often than the bound says. -/
def settleWithin (bound : Nat) (queue : List Member) (moved : Bool) (fabric : Fabric) : Fabric :=
  match bound with
  | 0 => fabric
  | bound + 1 =>
    match queue with
    | [] => if moved then settleWithin bound fabric.crew false fabric else fabric
    | member :: later =>
      match fabric.step member with
      | (true, fabric) => settleWithin bound queue true fabric
      | (false, fabric) => settleWithin bound later moved fabric

/-- How many moves are made between two moments at most. -/
def moveBound : Nat := 1000000000

/-- Let all members move until none can. -/
def settle (fabric : Fabric) : Fabric :=
  settleWithin moveBound fabric.crew false fabric

/-! ## Time -/

def earlier : Option Nat → Option Nat → Option Nat
  | some a, some b => some (min a b)
  | some a, none => some a
  | none, b => b

def moments (runner : Runner) : List Nat :=
  runner.limit.toList ++ runner.task.needs.filterMap fun
    | (_, .moment time) => some time
    | _ => none

/-- The next moment that somebody waits for. -/
def nextMoment (fabric : Fabric) : Option Nat :=
  let all := fabric.runners.flatMap moments ++
    fabric.seats.toList.filterMap fun seat => seat.session.alarm?
  (all.filter (fabric.now < ·)).foldl (fun first time => earlier first (some time)) none

/-- Go from moment to moment, settling at each, until something holds or the next moment is not
before the horizon; and no further than the bound says. -/
def runWithin (bound : Nat) (goal : Fabric → Bool) (horizon : Option Nat) (fabric : Fabric) :
    Fabric :=
  match bound with
  | 0 => fabric
  | bound + 1 =>
    let fabric := fabric.settle
    if goal fabric then fabric
    else
      match fabric.nextMoment with
      | none => fabric
      | some time =>
        if horizon.any (· ≤ time) then fabric
        else runWithin bound goal horizon { fabric with now := time }

def momentBound : Nat := 1000000000

/-- Let time go on up to a moment. What is due at that moment has not happened yet. -/
def elapse (time : Nat) (fabric : Fabric) : Fabric :=
  { fabric.runWithin momentBound (fun _ => false) (some time) with now := max fabric.now time }

def await (id : Nat) (fabric : Fabric) : Fabric :=
  fabric.runWithin momentBound (fun f => f.runners.all (·.id ≠ id)) none

def collect (id : Nat) (fabric : Fabric) : Option Outcome × Fabric :=
  (fabric.outcomes.lookup id,
    { fabric with outcomes := fabric.outcomes.filter (·.1 ≠ id) })

/-- Do a task now, before anybody else moves, and wait at most so many milliseconds for it. -/
def doTask (task : Task) (wait : Option Nat) (fabric : Fabric) : Outcome × Fabric :=
  let id := fabric.nextTask
  let limit := wait.map (fabric.now + ·)
  let fabric := { fabric with
    nextTask := id + 1
    runners := { id, task, limit, watched := true } :: fabric.runners
    crew := .task id :: fabric.crew }
  let (outcome, fabric) := (fabric.await id).collect id
  (outcome.getD .pending, if outcome.isSome then fabric else fabric.stop id .pending)

end Fabric

end Switchboard
