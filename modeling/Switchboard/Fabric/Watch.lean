import Switchboard.Fabric.Directory

/-!
# Watches

A poller at work on the registry of a fabric, whose sessions talk to peers of known conduct. Sweeps
and heartbeats are run on it, and things happen to the sessions between them or while a heartbeat
goes on.
-/

namespace Switchboard

inductive Conduct where
  /-- It never answers. -/
  | silent
  /-- Its end of the channel is gone. -/
  | gone
  /-- The session with it is closed, and still registered. -/
  | closed
  | answers (responder : Responder)

/-- What happens to the sessions of a watch. -/
inductive Incident where
  /-- A peer connects. -/
  | plant (hostname : String) (conduct : Conduct)
  /-- The session with a peer is closed. -/
  | close (hostname : String)
  /-- The session with a peer is taken out of the registry. -/
  | remove (hostname : String)
  /-- A peer closes its side of the session. -/
  | farClose (hostname : String)
  | closeAll

/-- A poller, its table and the fabric that it works on. -/
structure Watch where
  fabric : Fabric := {}
  table : Roster := #[]
  workers : Nat := 1
  limit : Duration
  /-- The time of day at which peers are seen. -/
  moment : Timestamp
  /-- The sessions that peers have with this side, latest first. -/
  far : List (String × Nat) := []
  deriving Inhabited

inductive WatchStep where
  | sweep
  | snapshot
  | get (slot : Nat)
  | size
  /-- Renew the table for some peers. -/
  | refresh (hostnames : List String)
  /-- Renew the table for the peers that are registered. -/
  | refreshRegistered
  | incident (incident : Incident)
  /-- Run a heartbeat for so many milliseconds, with what happens after how many of them. -/
  | heartbeat (interval duration : Nat) (incidents : List (Nat × Incident))

inductive WatchOutcome where
  | ok
  | swept (report : SweepTally) (elapsed : Nat) (table : Roster)
  | table (table : Roster)
  | status (status? : Option PeerState)
  | size (size : Nat)
  /-- The sweeps of a heartbeat, whether it could run at all, and when it stopped. -/
  | beats (beats : List Beat) (ran : Bool) (elapsed : Nat)

namespace Watch

def session? (hostname : String) (watch : Watch) : Option Nat :=
  watch.fabric.registry.find? hostname

/-- A peer connects: its session is registered. -/
def plant (hostname : String) (conduct : Conduct) (watch : Watch) : Watch :=
  let capacity := DirectoryStep.capacity
  let (input, fabric) := watch.fabric.addPipe capacity
  let (output, fabric) := fabric.addPipe capacity
  let (id, fabric) := fabric.addSession (.start hostname "mem" .server) input output
  let fabric := fabric.register id
  match conduct with
  | .silent => { watch with fabric }
  | .gone => { watch with fabric := fabric.dropFarEnd id }
  | .closed => { watch with fabric := fabric.closeSession id }
  | .answers responder =>
    let (far, fabric) := fabric.addSession (.start hostname "mem" .client) output input
    let (_, fabric) := fabric.spawn (.serving { session := far, responder }) false
    { watch with fabric, far := (hostname, far) :: watch.far }

def suffer (incident : Incident) (watch : Watch) : Watch :=
  match incident with
  | .plant hostname conduct => watch.plant hostname conduct
  | .close hostname =>
    { watch with fabric := watch.fabric.closeSessions (watch.session? hostname).toList }
  | .remove hostname => { watch with fabric := (watch.fabric.unregister hostname).2 }
  | .farClose hostname =>
    { watch with fabric := watch.fabric.closeSessions (watch.far.lookup hostname).toList }
  | .closeAll => { watch with fabric := watch.fabric.closeAll }

def elapse (time : Nat) (watch : Watch) : Watch :=
  { watch with fabric := watch.fabric.elapse time }

/-- Let things happen, each so many milliseconds after a moment. -/
def sufferAll (since : Nat) (incidents : List (Nat × Incident)) (watch : Watch) : Watch :=
  incidents.foldl (fun watch (delay, incident) =>
    (watch.elapse (since + delay)).suffer incident) watch

def sweep (watch : Watch) : WatchOutcome × Watch :=
  let start := watch.fabric.now
  let task := Task.sweep (.start watch.table watch.workers watch.limit watch.moment)
  match watch.fabric.doTask task none with
  | (.swept report table, fabric) =>
    (.swept report (fabric.now - start) table, { watch with fabric, table })
  | (_, fabric) => (.ok, { watch with fabric })

/-- The sweeps of a heartbeat that runs as a task, earliest first. -/
def beatsOf (id : Nat) (fabric : Fabric) : List Beat :=
  match fabric.runners.find? (·.id = id) with
  | some { task := .heartbeat beat, .. } => beat.beats.reverse
  | _ => []

def heartbeat (interval duration : Nat) (incidents : List (Nat × Incident)) (watch : Watch) :
    WatchOutcome × Watch :=
  let start := watch.fabric.now
  match Heartbeat.start? interval watch.workers watch.limit watch.moment start with
  | none =>
    let watch := (watch.sufferAll start incidents).elapse (start + duration)
    (.beats [] false (watch.fabric.now - start), watch)
  | some beat =>
    let (id, fabric) := watch.fabric.spawn (.heartbeat beat) false
    let watch := ({ watch with fabric }.sufferAll start incidents).elapse (start + duration)
    let beats := (beatsOf id watch.fabric).map fun beat => { beat with time := beat.time - start }
    (.beats beats true (watch.fabric.now - start),
      { watch with fabric := watch.fabric.stop id .ok })

def apply (step : WatchStep) (watch : Watch) : WatchOutcome × Watch :=
  match step with
  | .sweep => watch.sweep
  | .snapshot => (.table watch.table, watch)
  | .get slot => (.status watch.table[slot]?, watch)
  | .size => (.size watch.table.size, watch)
  | .refresh hostnames =>
    let table := watch.table.renewed hostnames
    (.table table, { watch with table })
  | .refreshRegistered =>
    let table := watch.table.renewed watch.fabric.registry.keys
    (.table table, { watch with table })
  | .incident incident => (.ok, watch.suffer incident)
  | .heartbeat interval duration incidents => watch.heartbeat interval duration incidents

def rest (watch : Watch) : Watch :=
  watch.elapse (watch.fabric.now + 1)

/-- Take a step and let a millisecond pass. -/
def take (step : WatchStep) (watch : Watch) : WatchOutcome × Watch :=
  let (outcome, watch) := watch.apply step
  (outcome, watch.rest)

end Watch

end Switchboard
