import Switchboard.Call
import Switchboard.Poller.Status

/-!
# Sweeps

A sweep pings every peer of a table once. Workers take slots from one queue; each (`worker`) looks
for the live session of the slot's peer, pings it and takes the next slot. What each has counted is
added to the report when the queue is empty (`merge`).
-/

namespace Switchboard

/-- What was counted (`SweepReport`). -/
structure SweepTally where
  attempted : Nat := 0
  succeeded : Nat := 0
  failed : Nat := 0
  skipped : Nat := 0
  lastError : Option String := none
  deriving DecidableEq, Repr, Inhabited

namespace SweepTally

/-- A report with another added to it; the later error counts. -/
def merge (r later : SweepTally) : SweepTally :=
  ⟨r.attempted + later.attempted, r.succeeded + later.succeeded, r.failed + later.failed,
    r.skipped + later.skipped, later.lastError.orElse fun _ => r.lastError⟩

def skip (r : SweepTally) : SweepTally :=
  { r with skipped := r.skipped + 1 }

def attempt (r : SweepTally) : SweepTally :=
  { r with attempted := r.attempted + 1 }

def succeed (r : SweepTally) : SweepTally :=
  { r with succeeded := r.succeeded + 1 }

def fail (hostname reason : String) (r : SweepTally) : SweepTally :=
  { r with failed := r.failed + 1, lastError := some (hostname ++ ": " ++ reason) }

end SweepTally

/-- What a `worker` is at, and what it has counted. -/
inductive SweepWorker where
  /-- It takes the next slot. -/
  | free (part : SweepTally)
  /-- It looks for the session of a slot's peer. -/
  | looking (slot : Nat) (hostname : String) (part : SweepTally)
  | pinging (slot : Nat) (hostname : String) (call : Call) (part : SweepTally)
  | done
  deriving Inhabited

/-- A sweep. -/
structure Sweep where
  table : Roster
  /-- The slots that no worker has taken. -/
  queue : List Nat
  workers : List SweepWorker
  report : SweepTally := {}
  /-- How long a peer may take to answer. -/
  limit : Duration
  /-- The time of day at which peers are seen. -/
  moment : Timestamp
  deriving Inhabited

namespace SweepWorker

def needs : SweepWorker → List Need
  | free _ => [.turn]
  | looking _ hostname _ => [.peer hostname]
  | pinging _ _ call _ => call.needs
  | done => []

def release : SweepWorker → List Deed
  | pinging _ _ call _ => call.release
  | _ => []

end SweepWorker

namespace Sweep

/-- A sweep of a table by some workers, at least one. More of them than there are slots would find
nothing to do. -/
def start (table : Roster) (workers : Nat) (limit : Duration) (moment : Timestamp) : Sweep :=
  { table, queue := List.range table.size, limit, moment
    workers := List.replicate (max (min workers table.size) 1) (.free {}) }

def needs (sweep : Sweep) : List (Nat × Need) :=
  sweep.workers.zipIdx.flatMap fun (worker, place) => worker.needs.map fun need => (place, need)

def release (sweep : Sweep) : List Deed :=
  sweep.workers.flatMap SweepWorker.release

/-- The report of a sweep whose workers are all done. -/
def report? (sweep : Sweep) : Option SweepTally :=
  if sweep.workers.all fun
    | .done => true
    | _ => false
  then some sweep.report else none

def put (place : Nat) (worker : SweepWorker) (sweep : Sweep) : Sweep :=
  { sweep with workers := sweep.workers.set place worker }

/-- A worker takes the next slot. When there is none its part is added to the report. -/
def next (place : Nat) (part : SweepTally) (sweep : Sweep) : Sweep :=
  match sweep.queue with
  | [] => { sweep with report := sweep.report.merge part }.put place .done
  | slot :: queue =>
    let sweep := { sweep with queue }
    match sweep.table[slot]? with
    | none => sweep.put place (.free part)
    | some status => sweep.put place (.looking slot status.hostname part)

def found (now place slot : Nat) (hostname : String) (part : SweepTally) (session? : Option Nat)
    (sweep : Sweep) : Sweep :=
  match session? with
  | none => sweep.put place (.free part.skip)
  | some session =>
    let call := Call.start session (Method.ping.envelope ()) sweep.limit now
    sweep.put place (.pinging slot hostname call part.attempt)

/-- The ping of a worker has ended. A fault that means that the connection is gone takes the session
out of the registry. -/
def answered (place slot : Nat) (hostname : String) (session : Nat) (part : SweepTally)
    (outcome : Except Fault ByteArray) (sweep : Sweep) : Sweep × List Deed :=
  match Method.ping.response? outcome with
  | .ok reply =>
    if reply.version.isEmpty then
      (sweep.put place (.free (part.fail hostname "empty version")), [])
    else
      ({ sweep with table := sweep.table.noteAlive slot reply.version sweep.moment }.put place
        (.free part.succeed), [])
  | .error fault =>
    (sweep.put place (.free (part.fail hostname fault.message)),
      if fault.isFatal then [.evict hostname session] else [])

def hear (now place : Nat) (need : Need) (signal : Signal) (sweep : Sweep) : Sweep × List Deed :=
  match sweep.workers[place]?, signal with
  | some (.free part), _ => (sweep.next place part, [])
  | some (.looking slot hostname part), .peer session? =>
    (sweep.found now place slot hostname part session?, [])
  | some (.pinging slot hostname call part), signal =>
    let (call, deeds) := call.hear need signal
    match call.outcome? with
    | none => (sweep.put place (.pinging slot hostname call part), deeds)
    | some outcome =>
      let (sweep, more) := sweep.answered place slot hostname call.session part outcome
      (sweep, deeds ++ more)
  | _, _ => (sweep, [])

end Sweep

end Switchboard
