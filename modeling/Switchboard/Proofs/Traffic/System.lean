import Switchboard.Fabric
import Switchboard.Proofs.Runs
import Switchboard.Proofs.Traffic.Strand

/-!
# The traffic of a session

Two ends of one session: at the near end any number of calls, at the far end a loop that has a
router answer whatever stream arrives. Everybody moves in any order. The multiplexer is what is
assumed of it: a request for a stream that was taken up is granted in its turn, a stream that was
begun arrives at the far end once, and what one end writes to a stream the other reads, in portions
of any size. A stream breaks when an end lets go of it before it was done writing, or when the
session is closed.

`Traffic.step` makes a move of one of the parties. What the calls, the services, the loop and the
requests for streams do is what `Call.hear`, `Service.hear`, `Serving.hear` and the operations of
`Session` and `Openings` make of it.
-/

namespace Switchboard

/-- A stream and who uses it. The near end writes to `up` and reads from `down`. -/
structure Strand where
  up : Flow := {}
  down : Flow := {}
  /-- Whether its use may fail. -/
  broken : Bool := false
  /-- The call that was told of it. -/
  caller? : Option Nat := none
  /-- Who answers it at the far end. -/
  service? : Option Service := none
  /-- The requests on which a router was set to work here. -/
  invoked : List Envelope := []

structure Caller where
  envelope : Envelope
  call : Call
  /-- Whether the session was closed when the call last moved. -/
  cut : Bool := false

def Caller.hear (closed : Bool) (need : Need) (signal : Signal) (c : Caller) : Caller :=
  { c with call := (c.call.hear need signal).1, cut := closed }

/-- The frame that asks for what an envelope names. -/
def Envelope.question (envelope : Envelope) : Frame :=
  .request envelope.encode

/-- The frame that a router answers an envelope with, when it is dispatched in place. -/
def Router.answer (router : Router) (envelope : Envelope) : Frame :=
  (router.dispatch envelope.method envelope.payload).frame

/-- To dispatch an envelope in place yields a frame: its work comes to an end, with that answer. -/
def Router.Yields (router : Router) (envelope : Envelope) (frame : Frame) : Prop :=
  (router.dispatch envelope.method envelope.payload).duration.isSome = true ∧
    router.answer envelope = frame

/-- Frames can carry an envelope and the answer to it. -/
def Envelope.Fits (router : Router) (envelope : Envelope) : Prop :=
  envelope.encode.size ≤ Frame.maxPayload ∧
    (router.answer envelope).payload.size ≤ Frame.maxPayload

/-- The envelope that came as the first frame of a stream. -/
def Received.envelope? : Received → Option Envelope
  | .frame (.request request) => (Envelope.decode request).toOption
  | _ => none

namespace Service

/-- The request on which a service sets its router to work when a signal comes. -/
def invocation? (service : Service) (need : Need) (signal : Signal) : Option Envelope :=
  match service.stage, need, signal with
  | .reading reader, .read .., .bytes data =>
    if data.size = 0 then none
    else
      match reader.feed data with
      | .inl received => received.envelope?
      | .inr _ => none
  | _, _, _ => none

variable {service : Service} {router : Router} {now : Nat} {need : Need} {signal : Signal}
  {work : Work ByteArray}

theorem iff_of_not_working {stage : ServiceStage} {envelope? : Option Envelope}
    (hidle : ∀ due, stage ≠ .working work due) (hnone : envelope? = none) :
    (∃ due, stage = .working work due) ↔ ∃ envelope, envelope? = some envelope ∧
      work = router.dispatch envelope.method envelope.payload := by
  subst hnone
  constructor
  · rintro ⟨due, hworking⟩
    exact absurd hworking (hidle due)
  · rintro ⟨envelope, hsome, -⟩
    cases hsome

theorem reply_not_working (frame : Frame) (due : Option Nat) :
    (service.reply frame).1.stage ≠ .working work due := by
  unfold reply
  split <;> exact fun heq => by cases heq

/-- A router is set to work on the envelope that came, if one did. -/
theorem route_working_iff (service : Service) (received : Received) :
    (∃ due, (service.route now router received).1.stage = .working work due) ↔
      ∃ envelope, received.envelope? = some envelope ∧
        work = router.dispatch envelope.method envelope.payload := by
  match received with
  | .frame (.request data) =>
    cases hdecode : Envelope.decode data with
    | error fault =>
      have hnone : Received.envelope? (.frame (.request data)) = none := by
        simp only [Received.envelope?, hdecode]
        rfl
      refine iff_of_not_working (fun due => ?_) hnone
      simp only [route, hdecode]
      exact reply_not_working _ due
    | ok envelope =>
      have hsome : Received.envelope? (.frame (.request data)) = some envelope := by
        simp only [Received.envelope?, hdecode]
        rfl
      simp only [route, hdecode, dispatch, hsome, Option.some.injEq]
      constructor
      · rintro ⟨due, heq⟩
        cases heq
        exact ⟨envelope, rfl, rfl⟩
      · rintro ⟨_, rfl, rfl⟩
        exact ⟨_, rfl⟩
  | .frame (.response data) => exact iff_of_not_working (reply_not_working _) rfl
  | .frame (.error text) => exact iff_of_not_working (reply_not_working _) rfl
  | .ended => exact iff_of_not_working (fun _ heq => by cases heq) rfl
  | .fault _ => exact iff_of_not_working (fun _ heq => by cases heq) rfl
  | .waiting => exact iff_of_not_working (fun _ heq => by cases heq) rfl

/-- A service that is not at work begins to work on what `invocation?` gives, and on nothing
else. -/
theorem working_iff_invocation (hresponder : service.responder = .router router)
    (hneed : need ∈ service.needs) (hidle : ∀ work due, service.stage ≠ .working work due) :
    (∃ due, (service.hear now need signal).1.stage = .working work due) ↔
      ∃ envelope, service.invocation? need signal = some envelope ∧
        work = router.dispatch envelope.method envelope.payload := by
  cases hstage : service.stage with
  | working work due => exact absurd hstage (hidle work due)
  | done => simp only [needs, hstage, List.not_mem_nil] at hneed
  | finishing =>
    refine iff_of_not_working ?_ (by simp only [invocation?, hstage])
    intro due
    simp only [hear, advance, hstage]
    split <;> exact fun heq => by cases heq
  | writing data sent =>
    refine iff_of_not_working ?_ (by simp only [invocation?, hstage])
    intro due
    simp only [hear, advance, hstage]
    split
    · exact fun heq => by cases heq
    · split
      · contradiction
      · contradiction
      · split <;> exact fun heq => by cases heq
      · exact fun heq => by cases heq
      · exact fun heq => by cases heq
  | reading reader =>
    simp only [needs, stageNeeds, hstage, List.mem_cons, List.not_mem_nil, or_false] at hneed
    rcases hneed with rfl | rfl
    · exact iff_of_not_working (fun _ heq => by cases heq) (by simp only [invocation?, hstage])
    · cases signal with
      | bytes data =>
        simp only [hear, advance, hstage, read, take, hresponder, invocation?]
        by_cases hsize : data.size = 0
        · rw [if_pos hsize, if_pos hsize]
          have hended : reader.ended.envelope? = none := by
            unfold FrameReader.ended
            split <;> rfl
          rw [← hended]
          exact route_working_iff _ _
        · rw [if_neg hsize, if_neg hsize]
          cases hfeed : reader.feed data with
          | inl received => exact route_working_iff _ received
          | inr next => exact iff_of_not_working (fun _ heq => by cases heq) rfl
      | _ =>
        refine iff_of_not_working ?_ (by simp only [invocation?, hstage])
        intro due
        simp only [hear, advance, hstage, conclude]
        exact fun heq => by cases heq

end Service

namespace Strand

def meet (need : Need) (portion : Portion) (strand : Strand) : Option (Signal × Strand) :=
  match need with
  | .read ref room =>
    if ref.session = 0 then
      (strand.down.read strand.broken room portion).map fun (signal, down) =>
        (signal, { strand with down })
    else
      (strand.up.read strand.broken room portion).map fun (signal, up) =>
        (signal, { strand with up })
  | .write ref data start =>
    if ref.session = 0 then
      (strand.up.write strand.broken data start portion).map fun (signal, up) =>
        (signal, { strand with up })
    else
      (strand.down.write strand.broken data start portion).map fun (signal, down) =>
        (signal, { strand with down })
  | .finish ref =>
    if ref.session = 0 then
      (strand.up.finish strand.broken portion).map fun (signal, up) => (signal, { strand with up })
    else
      (strand.down.finish strand.broken portion).map fun (signal, down) =>
        (signal, { strand with down })
  | _ => none

/-- Let go of a stream at one end. It breaks unless that end was done writing. -/
def drop (session : Nat) (strand : Strand) : Strand :=
  let own := if session = 0 then strand.up else strand.down
  { strand with broken := strand.broken || !own.ended }

def perform (strand : Strand) : Deed → Strand
  | .drop ref => strand.drop ref.session
  | _ => strand

/-- The stream after its service was told something: its service has gone on. -/
def hear (now : Nat) (service : Service) (need : Need) (signal : Signal) (strand : Strand) :
    Strand :=
  { strand with
    service? := some (service.hear now need signal).1
    invoked := strand.invoked ++ (service.invocation? need signal).toList }

end Strand

structure Traffic where
  now : Nat := 0
  near : Session
  far : Session
  callers : List Caller := []
  strands : List Strand := []
  /-- The streams of which the far end does not know yet. -/
  unseen : List Nat := []
  serving : Serving

namespace Traffic

inductive Move where
  /-- A call begins. -/
  | issue (envelope : Envelope) (limit : Duration)
  | tick
  /-- A call goes on with one of the things that it waits for. -/
  | call (i place : Nat) (portion : Portion)
  /-- The service of a stream goes on with one of the things that it waits for. -/
  | service (k place : Nat) (portion : Portion)
  /-- The loop that accepts streams goes on. -/
  | serve
  /-- The requests for streams are taken up. -/
  | takeUp
  /-- A stream is begun for the oldest of them. -/
  | grant
  /-- A stream arrives at the far end. -/
  | arrive (k : Nat)
  /-- An end closes the session. -/
  | close (id : Nat)
  /-- The connection of a closed session stops at an end. -/
  | fail (id : Nat)
  /-- A stream of a closed session breaks. -/
  | snap (k : Nat)

/-- Whether a move is none of those that are made from outside: that a call begins, that time goes
on, and that the session is closed. -/
def Move.isOwn : Move → Bool
  | issue .. | tick | close _ => false
  | _ => true

/-- A live session, before anything was done on it. -/
def start (router : Router) : Traffic where
  near := .start "far" "peer" .client
  far := .start "near" "peer" .server
  serving := { session := 1, responder := .router router }

def session (t : Traffic) (id : Nat) : Session :=
  if id = 0 then t.near else t.far

def setSession (id : Nat) (s : Session) (t : Traffic) : Traffic :=
  if id = 0 then { t with near := s } else { t with far := s }

def onStrand (k : Nat) (f : Strand → Strand) (t : Traffic) : Traffic :=
  { t with strands := t.strands.modify k f }

/-- Whether the session is closed at one of its ends. -/
def closed (t : Traffic) : Bool :=
  t.near.isClosed || t.far.isClosed

def meet (need : Need) (portion : Portion) (t : Traffic) : Option (Signal × Traffic) :=
  match need with
  | .turn => some (.done, t)
  | .cancelled id => if (t.session id).cancelled then some (.done, t) else none
  | .moment time => if time ≤ t.now then some (.done, t) else none
  | .request id =>
    let (result, s) := (t.session id).request
    some (Fabric.ticketOf (some result), t.setSession id s)
  | .granted id request =>
    let (result, s) := (t.session id).collect request
    (Fabric.streamOf id (some result)).map fun signal => (signal, t.setSession id s)
  | .queue id =>
    let (result, s) := (t.session id).queue
    some (Fabric.ticketOf (some result), t.setSession id s)
  | .accepted id acceptor =>
    let (result, s) := (t.session id).accept acceptor
    (Fabric.streamOf id (some result)).map fun signal => (signal, t.setSession id s)
  | .read ref _ | .write ref _ _ | .finish ref =>
    t.strands[ref.stream]?.bind fun strand =>
      (strand.meet need portion).map fun (signal, strand) =>
        (signal, { t with strands := t.strands.set ref.stream strand })
  | _ => none

def perform (t : Traffic) : Deed → Traffic
  | .drop ref => t.onStrand ref.stream (Strand.drop ref.session)
  | .abandon id request =>
    let after := t.setSession id ((t.session id).abandon request)
    match ((t.session id).openings.abandon request).1 with
    | some stream => after.onStrand stream (Strand.drop id)
    | none => after
  | .leave id acceptor => t.setSession id ((t.session id).leave acceptor)
  | .answer ref responder =>
    t.onStrand ref.stream fun strand =>
      { strand with service? := some { stream := ref, responder } }
  | .close id => t.setSession id (t.session id).close.2
  | _ => t

def tell (i : Nat) (signal : Signal) (t : Traffic) : Traffic :=
  match signal with
  | .stream ref => t.onStrand ref.stream fun strand => { strand with caller? := some i }
  | _ => t

def hearCall (i : Nat) (c : Caller) (need : Need) (signal : Signal) (t : Traffic) : Traffic :=
  (c.call.hear need signal).2.foldl perform
    { t.tell i signal with callers := t.callers.set i (c.hear t.closed need signal) }

def hearService (k : Nat) (service : Service) (need : Need) (signal : Signal) (t : Traffic) :
    Traffic :=
  (service.hear t.now need signal).2.foldl perform
    (t.onStrand k (Strand.hear t.now service need signal))

/-- The loop that accepts streams is told something. -/
def hearServing (signal : Signal) (t : Traffic) : Traffic :=
  (t.serving.hear signal).2.foldl perform { t with serving := (t.serving.hear signal).1 }

/-- Begin a stream for the oldest request. One that nobody takes is let go of. -/
def grantNext (t : Traffic) : Traffic :=
  let (back, openings) := t.near.openings.grant t.strands.length
  { t with
    near := { t.near with openings }
    strands := t.strands ++ [{ broken := back.isSome }]
    unseen := t.unseen ++ [t.strands.length] }

/-- What a move makes of the traffic, if it is possible. -/
def step (t : Traffic) : Move → Option Traffic
  | .issue envelope limit =>
    some { t with
      callers := t.callers ++ [{ envelope, call := .start 0 envelope limit t.now }] }
  | .tick => some { t with now := t.now + 1 }
  | .call i place portion =>
    t.callers[i]?.bind fun c =>
      c.call.needs[place]?.bind fun need =>
        (t.meet need portion).map fun (signal, t) => t.hearCall i c need signal
  | .service k place portion =>
    (t.strands[k]?.bind (·.service?)).bind fun service =>
      service.needs[place]?.bind fun need =>
        (t.meet need portion).map fun (signal, t) => t.hearService k service need signal
  | .serve =>
    t.serving.needs.head?.bind fun need =>
      (t.meet need .ended).map fun (signal, t) => t.hearServing signal
  | .takeUp =>
    if t.near.openings.queued = [] then none
    else some { t with near := { t.near with openings := t.near.openings.takeUp } }
  | .grant => if t.near.openings.waiting = [] then none else some t.grantNext
  | .arrive k =>
    if k ∈ t.unseen then
      some { t with
        unseen := t.unseen.erase k
        far := { t.far with arrived := t.far.arrived ++ [k] } }
    else none
  | .close id => some (t.setSession id (t.session id).close.2)
  | .fail id =>
    if t.closed && !(t.session id).stopped then some (t.setSession id (t.session id).fail)
    else none
  | .snap k =>
    if t.closed && t.strands[k]?.any (!·.broken) then
      some (t.onStrand k fun strand => { strand with broken := true })
    else none

def AtRest (t : Traffic) : Prop :=
  ∀ move : Move, move.isOwn = true → t.step move = none

end Traffic

end Switchboard
