import Switchboard.Fabric

/-!
# Scenes

A fabric in which steps are taken one after the other: on a side of a session, on a stream that was
given a name, or on the far end of a bare channel. A step waits at most so long, or goes on in the
background under a name and is joined later. After every step one millisecond passes, in which
whatever was set in motion comes to rest.
-/

namespace Switchboard

inductive SideStep where
  | openStream (name : String)
  | acceptStream (name : String)
  | openMany (name : String) (count : Nat) (pokes : Bool)
  | acceptMany (name : String) (count : Nat) (pokes : Bool)
  | call (envelope : Envelope) (limit : Duration)
  | serve (responder : Responder)
  | close
  | isClosed
  /-- Wait until the connection has stopped. -/
  | closed
  | info
  /-- Whether the scope is cancelled. -/
  | scope
  | cancelScope
  /-- Let go of the session. -/
  | release

inductive StreamStep where
  | write (data : ByteArray)
  | read (size : Nat)
  | readAll
  | finish
  | writeFrame (frame : Frame)
  | readFrame
  | drop

inductive SceneStep where
  | side (session : Nat) (step : SideStep)
  | stream (name : String) (step : StreamStep)
  | sleep (millis : Nat)
  /-- Wait for a step in the background. -/
  | join (name : String)
  /-- Take what was noted. -/
  | log
  /-- Write to the bare far end. -/
  | farWrite (data : ByteArray)
  /-- Let go of the bare far end. -/
  | farDrop

/-- How a step is taken: within so many milliseconds, or in the background under a name. -/
inductive Pace where
  | within (millis : Nat)
  | background (name : String)

/-- A fabric, its steps in the background and its bare far end, if it has one: the pipe that is
written there and the one that is read. -/
structure Scene where
  fabric : Fabric := {}
  tasks : List (String × Nat) := []
  far? : Option (Nat × Nat) := none
  deriving Inhabited

namespace Scene

def addPipes (capacity : Nat) (fabric : Fabric) : (Nat × Nat) × Fabric :=
  let (a, fabric) := fabric.addPipe capacity
  let (b, fabric) := fabric.addPipe capacity
  ((a, b), fabric)

/-- Two sessions with each other. The first is number 0. -/
def pair (capacity : Nat) (first second : Session) : Scene :=
  let ((a, b), fabric) := addPipes capacity {}
  let (_, fabric) := fabric.addSession first a b
  let (_, fabric) := fabric.addSession second b a
  { fabric }

/-- One session, number 0, whose far end is bare. -/
def bare (capacity : Nat) (session : Session) : Scene :=
  let ((a, b), fabric) := addPipes capacity {}
  let (_, fabric) := fabric.addSession session a b
  { fabric, far? := some (a, b) }

def modify (f : Fabric → Fabric) (scene : Scene) : Scene :=
  { scene with fabric := f scene.fabric }

/-- What a step comes to at first: its outcome, or a task to do. -/
abbrev Beginning := Outcome ⊕ Task

def beginSide (id : Nat) (step : SideStep) (scene : Scene) : Beginning × Scene :=
  let now := scene.fabric.now
  let session := (scene.fabric.session? id).getD default
  match step with
  | .openStream name => (.inr (.errand (.openNew id name)), scene)
  | .acceptStream name => (.inr (.errand (.acceptNext id name)), scene)
  | .openMany name count pokes => (.inr (.series (.start id true name count pokes now)), scene)
  | .acceptMany name count pokes => (.inr (.series (.start id false name count pokes now)), scene)
  | .call envelope limit => (.inr (.call (.start id envelope limit now) now), scene)
  | .serve responder =>
    let (task, fabric) := scene.fabric.spawn (.serving { session := id, responder }) true
    let name := "serve-" ++ (if session.role = .server then "server" else "client")
    (.inl .ok, { scene with fabric, tasks := (name, task) :: scene.tasks })
  | .close => (.inl .ok, scene.modify (·.closeSession id))
  | .isClosed => (.inl (.flag session.isClosed), scene)
  | .closed => (.inr (.errand (.stopped id)), scene)
  | .info => (.inl (.session session.info), scene)
  | .scope => (.inl (.flag session.cancelled), scene)
  | .cancelScope => (.inl .ok, scene.modify (·.modifySession id Session.cancel))
  | .release =>
    (.inl (.flag true), scene.modify fun fabric =>
      { fabric with released := id :: fabric.released }.closeReleased)

def beginStream (ref : StreamRef) (step : StreamStep) (scene : Scene) : Beginning × Scene :=
  match step with
  | .write data => (.inr (.errand (.write ref data 0)), scene)
  | .read size => (.inr (.errand (.readExact ref size .empty)), scene)
  | .readAll => (.inr (.errand (.readAll ref .empty)), scene)
  | .finish => (.inr (.errand (.finish ref)), scene)
  | .writeFrame frame => (.inr (.errand (.writeFrame ref frame)), scene)
  | .readFrame => (.inr (.errand (.readFrame ref {})), scene)
  | .drop => (.inl (.flag true), scene.modify (·.dropStream ref))

def beginStep (step : SceneStep) (scene : Scene) : Beginning × Scene :=
  match step with
  | .side id step => scene.beginSide id step
  | .stream name step =>
    match scene.fabric.streams.lookup name with
    | some ref => scene.beginStream ref step
    | none =>
      (.inl (match step with
        | .drop => .flag false
        | _ => .noStream), scene)
  | .sleep millis => (.inr (.errand (.sleep (scene.fabric.now + millis))), scene)
  | .join name =>
    match scene.tasks.lookup name with
    | none => (.inl .noTask, scene)
    | some task => (.inr (.errand (.join task)), scene)
  | .log =>
    (.inl (.lines scene.fabric.log), scene.modify fun fabric => { fabric with log := [] })
  | .farWrite data =>
    match scene.far? with
    | none => (.inl .gone, scene)
    | some (a, _) => (.inr (.errand (.pour a data 0)), scene)
  | .farDrop =>
    match scene.far? with
    | none => (.inl .gone, scene)
    | some (a, b) =>
      (.inl .ok, { scene with
        far? := none, fabric := (scene.fabric.closePipe a).closePipe b })

/-- What a join that has ended brings: the outcome of the step in the background. -/
def joined (step : SceneStep) (outcome : Outcome) (scene : Scene) : Outcome × Scene :=
  match step, outcome with
  | .join name, .ok =>
    match scene.tasks.lookup name with
    | none => (.noTask, scene)
    | some task =>
      let (result, fabric) := scene.fabric.collect task
      (result.getD .noTask, { scene with
        fabric, tasks := scene.tasks.filter (·.1 ≠ name) })
  | _, outcome => (outcome, scene)

/-- Take a step at a pace, and let a millisecond pass. -/
def take (pace : Pace) (step : SceneStep) (scene : Scene) : Outcome × Scene :=
  let (beginning, scene) := scene.beginStep step
  let (outcome, scene) : Outcome × Scene :=
    match pace, beginning with
    | .within _, .inl outcome => scene.joined step outcome
    | .within wait, .inr task =>
      let (outcome, fabric) := scene.fabric.doTask task (some wait)
      { scene with fabric }.joined step outcome
    | .background name, .inl outcome =>
      let (task, fabric) := scene.fabric.spawn (.errand (.done outcome)) true
      (.spawned, { scene with fabric, tasks := (name, task) :: scene.tasks })
    | .background name, .inr task =>
      let (task, fabric) := scene.fabric.spawn task true
      (.spawned, { scene with fabric, tasks := (name, task) :: scene.tasks })
  (outcome, scene.modify fun fabric => fabric.elapse (fabric.now + 1))

def takeAll (steps : List (Pace × SceneStep)) (scene : Scene) : List Outcome :=
  match steps with
  | [] => []
  | (pace, step) :: later =>
    let (outcome, scene) := scene.take pace step
    outcome :: scene.takeAll later

end Scene

end Switchboard
