import Switchboard.Fabric

/-!
# The registry of a fabric

What is done to the registry of a fabric, and to the sessions that it gives back to be closed. A
session that the registry has made talks to a far end that says nothing until it disappears.
-/

namespace Switchboard

namespace Fabric

/-- Add a session whose far end says nothing; its number. -/
def addSilent (capacity : Nat) (session : Session) (fabric : Fabric) : Nat × Fabric :=
  let (input, fabric) := fabric.addPipe capacity
  let (output, fabric) := fabric.addPipe capacity
  fabric.addSession session input output

def dropFarEnd (id : Nat) (fabric : Fabric) : Fabric :=
  match fabric.seats[id]? with
  | none => fabric
  | some seat => (fabric.closePipe seat.input).closePipe seat.output

/-- Register a session under its key, and close the one whose place it takes (`insert`). -/
def register (id : Nat) (fabric : Fabric) : Fabric :=
  match fabric.session? id with
  | none => fabric
  | some session =>
    let (stale?, registry) := fabric.registry.insert session.key id
    { fabric with registry }.closeSessions stale?.toList

/-- The live session of a key (`get`). -/
def lookup (key : String) (fabric : Fabric) : Option Nat × Fabric :=
  let (id?, registry) := fabric.registry.get fabric.isClosed key
  (id?, { fabric with registry })

/-- The live session of a key, or a new one, with a silent far end, unless that fails
(`get_or_create`). Whether one was asked for. -/
def lookupOrAdd (key : String) (supplier : Except Fault Session) (capacity : Nat)
    (fabric : Fabric) : Except Fault Nat × Bool × Fabric :=
  let next := fabric.seats.size
  let result := fabric.registry.findOrAdd fabric.isClosed key (supplier.map fun _ => next)
  let fabric := { fabric with registry := result.registry }
  let fabric := match result.asked, supplier with
    | true, .ok session => (fabric.addSilent capacity session).2
    | _, _ => fabric
  (result.outcome, result.asked, fabric.closeSessions result.stale?.toList)

/-- Take the session of a key out and close it (`remove`). -/
def unregister (key : String) (fabric : Fabric) : Option Nat × Fabric :=
  let (id?, registry) := fabric.registry.remove key
  (id?, { fabric with registry }.closeSessions id?.toList)

/-- Take the closed sessions out (`prune`); how many there were. -/
def prune (fabric : Fabric) : Nat × Fabric :=
  let (count, registry) := fabric.registry.prune fabric.isClosed
  (count, { fabric with registry })

/-- Take all sessions out and close them (`close_all`). -/
def closeAll (fabric : Fabric) : Fabric :=
  let (ids, registry) := fabric.registry.clear
  { fabric with registry }.closeSessions ids

end Fabric

/-- What is done to a registry. Sessions are numbered as they are made. -/
inductive DirectoryStep where
  | findOrAdd (key : String) (failure? : Option Fault)
  /-- Make a session and register it. -/
  | insertNew (key : String)
  | insert (id : Nat)
  | get (key : String)
  | remove (key : String)
  | evict (key : String) (id : Nat)
  | prune
  | closeAll
  | close (id : Nat)
  /-- The far end of a session disappears. -/
  | farDrop (id : Nat)

inductive DirectoryOutcome where
  | ok
  | found (id? : Option Nat)
  /-- A session that was there, or was made. -/
  | supplied (id : Nat) (made : Bool) (role : Role)
  | made (id : Nat)
  | fault (fault : Fault)
  | count (count : Nat)
  /-- There is no session of that number. -/
  | noSession

namespace DirectoryStep

def capacity : Nat := 64 * 1024

def onExisting (id : Nat) (f : Fabric → Fabric) (fabric : Fabric) : DirectoryOutcome × Fabric :=
  if id < fabric.seats.size then (.ok, f fabric) else (.noSession, fabric)

def apply (role : Role) (step : DirectoryStep) (fabric : Fabric) : DirectoryOutcome × Fabric :=
  match step with
  | .findOrAdd key failure? =>
    let supplier := match failure? with
      | some fault => .error fault
      | none => .ok (.start key "mem" role)
    match fabric.lookupOrAdd key supplier capacity with
    | (.error fault, _, fabric) => (.fault fault, fabric)
    | (.ok id, made, fabric) =>
      (.supplied id made (((fabric.session? id).map (·.role)).getD role), fabric)
  | .insertNew key =>
    let (id, fabric) := fabric.addSilent capacity (.start key "mem" role)
    (.made id, fabric.register id)
  | .insert id => onExisting id (·.register id) fabric
  | .get key =>
    let (id?, fabric) := fabric.lookup key
    (.found id?, fabric)
  | .remove key =>
    let (id?, fabric) := fabric.unregister key
    (.found id?, fabric)
  | .evict key id =>
    onExisting id (fun fabric => { fabric with registry := fabric.registry.evict key id }) fabric
  | .prune =>
    let (count, fabric) := fabric.prune
    (.count count, fabric)
  | .closeAll => (.ok, fabric.closeAll)
  | .close id => onExisting id (·.closeSession id) fabric
  | .farDrop id => onExisting id (·.dropFarEnd id) fabric

/-- Take a step and let a millisecond pass. -/
def take (role : Role) (step : DirectoryStep) (fabric : Fabric) : DirectoryOutcome × Fabric :=
  let (outcome, fabric) := step.apply role fabric
  (outcome, fabric.elapse (fabric.now + 1))

end DirectoryStep

end Switchboard
