import Switchboard.Fabric.Directory

/-!
# Receptions

A listener at work: agents dial it over a network, bare connections are made to it, and the sessions
that come of this are called, removed and closed. Where the network leads nowhere every dialer fails
and the registry stays empty.
-/

namespace Switchboard

inductive AgentRun where
  /-- It serves its session in a task. -/
  | serving (session task : Nat)
  | failed (fault : Fault)
  deriving Inhabited

/-- A listener at work. -/
structure Reception where
  listener : Listener
  network : Network
  /-- What answers the calls of agents. -/
  router : Router
  fabric : Fabric := {}
  /-- Whether connections are still accepted. -/
  listening : Bool := true
  /-- The sessions of agents, by name. -/
  agents : List (String × Nat) := []
  runs : List (String × AgentRun) := []
  /-- The far ends of bare connections, by name: the pipe to write and the pipe to read. -/
  bare : List (String × Nat × Nat) := []

inductive Party where
  /-- The one that is registered under a key. -/
  | key (key : String)
  /-- The one that an agent has. -/
  | agent (name : String)

inductive ReceptionStep where
  /-- Connect, send bytes, perhaps say that no more come, and read the head of the answer. -/
  | connect (name : String) (data : ByteArray) (ends : Bool)
  | send (name : String) (data : ByteArray)
  | disconnect (name : String)
  /-- An agent dials and serves. -/
  | agent (name : String) (dialer : Dialer) (router : Router)
  | closeAgent (name : String)
  | isAgentClosed (name : String)
  /-- An agent runs in the background. -/
  | run (name : String) (dialer : Dialer) (router : Router)
  | stopRun (name : String)
  | awaitRun (name : String)
  | call (party : Party) (envelope : Envelope) (limit : Duration)
  | info (key : String)
  | remove (key : String)
  | keys
  /-- Stop listening. -/
  | cancel

inductive ReceptionOutcome where
  | ok
  | flag (value : Bool)
  | fault (fault : Fault)
  | failed (fault : IoFault)
  /-- The head of an answer, and whether the connection ended. -/
  | answer (text : ByteArray) (ended : Bool)
  | reply (outcome : Except Fault ByteArray)
  | info (info : SessionInfo)
  | keys (keys : List String)
  | noSession
  /-- No agent has that name. -/
  | noAgent
  /-- Nothing of that name is under way. -/
  | noTask

namespace Reception

def remoteIp : String := "127.0.0.1"

def address : String := remoteIp ++ ":8008"

/-- The failure to connect where nobody listens. -/
def refused : IoFault := .ofNumber 111

/-- Register the session of a connection that was taken in, and serve it (`register_connection`).
Its number, and the pipes of its far end: the one to write and the one to read. -/
def host (session : Session) (reception : Reception) : Nat × (Nat × Nat) × Reception :=
  let (input, fabric) := reception.fabric.addPipe DirectoryStep.capacity
  let (output, fabric) := fabric.addPipe DirectoryStep.capacity
  let (id, fabric) := fabric.addSession session input output
  let fabric := fabric.register id
  let serving : Serving := { session := id, responder := .router reception.router }
  let (_, fabric) := fabric.spawn (.hosting ⟨session.key, serving⟩) false
  (id, (input, output), { reception with fabric })

def nextPort (reception : Reception) : Nat :=
  40000 + reception.fabric.seats.size

def dial (dialer : Dialer) (reception : Reception) : Except Fault Nat × Reception :=
  let attempt (source : Source) := (dialer.dial reception.network ⟨source, {}⟩)
  match attempt ⟨[], true⟩ with
  | (.failed fault, _) => (.error fault, reception)
  | (_, c) =>
    if !reception.listening then (.error (.transport refused), reception)
    else
      let there := Source.ofChunks [c.sink.written] true
      let (admission, c) := reception.listener.takeIn remoteIp reception.nextPort ⟨there, {}⟩
      match admission, attempt (.ofChunks [c.sink.written] false) with
      | .registered session, (.done own, _) =>
        let (_, (input, output), reception) := reception.host session
        let (id, fabric) := reception.fabric.addSession own output input
        (.ok id, { reception with fabric })
      | _, (.failed fault, _) => (.error fault, reception)
      | .rejected fault, _ => (.error fault, reception)
      | _, _ => (.error .closed, reception)

/-- An agent dials and serves its session in a task; the numbers of both. -/
def dialAndServe (dialer : Dialer) (router : Router) (reception : Reception) :
    Except Fault (Nat × Nat) × Reception :=
  match reception.dial dialer with
  | (.error fault, reception) => (.error fault, reception)
  | (.ok id, reception) =>
    let (task, fabric) :=
      reception.fabric.spawn (.serving { session := id, responder := .router router }) false
    (.ok (id, task), { reception with fabric })

def connect (name : String) (data : ByteArray) (ends : Bool) (reception : Reception) :
    ReceptionOutcome × Reception :=
  match reception.network.connect address with
  | .error fault => (.failed fault, reception)
  | .ok _ =>
    if !reception.listening then (.failed refused, reception)
    else
      let source := Source.ofChunks [data] (!ends)
      match reception.listener.takeIn remoteIp reception.nextPort ⟨source, {}⟩ with
      | (.registered session, c) =>
        let (_, far, reception) := reception.host session
        (.answer c.sink.written false, { reception with bare := (name, far) :: reception.bare })
      | (_, c) => (.answer c.sink.written true, reception)

def session? (party : Party) (reception : Reception) : Option Nat :=
  match party with
  | .key key => (reception.fabric.lookup key).1
  | .agent name => reception.agents.lookup name

def modify (f : Fabric → Fabric) (reception : Reception) : Reception :=
  { reception with fabric := f reception.fabric }

def withAgent (name : String) (reception : Reception)
    (f : Nat → ReceptionOutcome × Reception) : ReceptionOutcome × Reception :=
  match reception.agents.lookup name with
  | none => (.noAgent, reception)
  | some id => f id

/-- The outcome of a run that is over, or that is stopped. -/
def endRun (name : String) (stops : Bool) (reception : Reception) :
    ReceptionOutcome × Reception :=
  match reception.runs.lookup name with
  | none => (.noTask, reception)
  | some (.failed fault) => (.fault fault, reception)
  | some (.serving session task) =>
    let fabric := reception.fabric
    let fabric := if stops then fabric.stop task .served else fabric.await task
    (.ok, { reception with fabric := fabric.closeSession session })

/-- Stop listening: what serves a registered session ends. -/
def cancel (reception : Reception) : Reception :=
  let hostings := reception.fabric.runners.filterMap fun
    | { id, task := .hosting _, .. } => some id
    | _ => none
  { reception with
    listening := false
    fabric := hostings.foldl (fun fabric id => fabric.stop id .served) reception.fabric }

def call (id : Nat) (envelope : Envelope) (limit : Duration) (reception : Reception) :
    ReceptionOutcome × Reception :=
  let now := reception.fabric.now
  match reception.fabric.doTask (.call (.start id envelope limit now) now) none with
  | (.reply outcome _, fabric) => (.reply outcome, { reception with fabric })
  | (_, fabric) => (.noTask, { reception with fabric })

def apply (step : ReceptionStep) (reception : Reception) : ReceptionOutcome × Reception :=
  match step with
  | .connect name data ends => reception.connect name data ends
  | .send name data =>
    match reception.bare.lookup name with
    | none => (.noTask, reception)
    | some (there, _) =>
      match reception.fabric.doTask (.errand (.pour there data 0)) none with
      | (.failed fault, fabric) => (.failed fault, { reception with fabric })
      | (_, fabric) => (.ok, { reception with fabric })
  | .disconnect name =>
    match reception.bare.lookup name with
    | none => (.flag false, reception)
    | some (there, back) =>
      (.flag true, { reception with
        bare := reception.bare.filter (·.1 ≠ name)
        fabric := (reception.fabric.closePipe there).closePipe back })
  | .agent name dialer router =>
    match reception.dialAndServe dialer router with
    | (.error fault, reception) => (.fault fault, reception)
    | (.ok (id, _), reception) =>
      (.ok, { reception with agents := (name, id) :: reception.agents })
  | .closeAgent name =>
    reception.withAgent name fun id =>
      (.ok, reception.modify (·.closeSession id))
  | .isAgentClosed name =>
    reception.withAgent name fun id => (.flag (reception.fabric.isClosed id), reception)
  | .run name dialer router =>
    match reception.dialAndServe dialer router with
    | (.error fault, reception) =>
      (.ok, { reception with runs := (name, .failed fault) :: reception.runs })
    | (.ok (id, task), reception) =>
      (.ok, { reception with runs := (name, .serving id task) :: reception.runs })
  | .stopRun name => reception.endRun name true
  | .awaitRun name => reception.endRun name false
  | .call party envelope limit =>
    match reception.session? party, party with
    | some id, _ => reception.call id envelope limit
    | none, .key _ => (.noSession, reception)
    | none, .agent _ => (.noAgent, reception)
  | .info key =>
    match (reception.session? (.key key)).bind reception.fabric.session? with
    | some session => (.info session.info, reception)
    | none => (.noSession, reception)
  | .remove key =>
    let (id?, fabric) := reception.fabric.unregister key
    (.flag id?.isSome, { reception with fabric })
  | .keys => (.keys reception.fabric.registry.keys, reception)
  | .cancel => if reception.listening then (.flag true, reception.cancel) else (.noTask, reception)

/-- Take a step and let everybody come to rest. -/
def take (step : ReceptionStep) (reception : Reception) : ReceptionOutcome × Reception :=
  let (outcome, reception) := reception.apply step
  (outcome, reception.modify fun fabric => fabric.elapse (fabric.now + 1))

end Reception

end Switchboard
