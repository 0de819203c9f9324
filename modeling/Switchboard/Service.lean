import Switchboard.Fabric.Need
import Switchboard.Frame.Transfer

/-!
# Services

Who serves a session accepts the streams that the peer begins and answers one request on each.
`Service` is the answering of one stream (`handle_stream`): it reads a frame, has a router work on
the request that the frame carries, writes one frame back and finishes the stream. While the work is
under way it listens to the caller, and gives up as soon as anything comes, be it the end. `Serving`
is the loop that accepts streams (`serve`).
-/

namespace Switchboard

inductive ServiceStage where
  | reading (reader : FrameReader)
  /-- The work ends at a moment, or never. -/
  | working (work : Work ByteArray) (due : Option Nat)
  | writing (data : ByteArray) (sent : Nat)
  | finishing
  | done

/-- The answering of one stream (`handle_stream`). -/
structure Service where
  stream : StreamRef
  responder : Responder
  stage : ServiceStage := .reading {}

namespace Service

/-- What brings a stage to its end. While work is under way, its end goes before a word of the
caller. -/
def stageNeeds (service : Service) : List Need :=
  match service.stage with
  | .reading reader => [.read service.stream reader.room]
  | .working _ due => due.toList.map .moment ++ [.read service.stream 1]
  | .writing data sent => if data.size ≤ sent then [.turn] else [.write service.stream data sent]
  | .finishing => [.finish service.stream]
  | .done => []

def needs (service : Service) : List Need :=
  match service.stage with
  | .done => []
  | _ => .cancelled service.stream.session :: service.stageNeeds

/-- Whether the stream is answered, or given up. -/
def isDone (service : Service) : Bool :=
  match service.stage with
  | .done => true
  | _ => false

/-- Give the stream up, or be done with it. -/
def conclude (service : Service) : Service × List Deed :=
  ({ service with stage := .done }, [.drop service.stream])

/-- Write a frame back; one that is too large ends the stream. -/
def reply (frame : Frame) (service : Service) : Service × List Deed :=
  match frame.encode with
  | .error _ => service.conclude
  | .ok data => ({ service with stage := .writing data 0 }, [])

def dispatch (now : Nat) (router : Router) (envelope : Envelope) (service : Service) :
    Service × List Deed :=
  let work := router.dispatch envelope.method envelope.payload
  ({ service with stage := .working work (work.duration.map (now + ·)) }, [.note work.started])

/-- What a router makes of the first frame of a stream, or of its end. -/
def route (now : Nat) (router : Router) (received : Received) (service : Service) :
    Service × List Deed :=
  match received with
  | .frame (.request data) =>
    match Envelope.decode data with
    | .ok envelope => service.dispatch now router envelope
    | .error fault => service.reply (.error s!"malformed request: {fault.message}")
  | .frame _ => service.reply (.error "expected a request frame")
  | .ended | .fault _ | .waiting => service.conclude

def take (now : Nat) (received : Received) (service : Service) : Service × List Deed :=
  match service.responder with
  | .router router => service.route now router received
  | .fixed reply hangsUp =>
    ({ service with stage := .writing reply 0 },
      if hangsUp then [.close service.stream.session] else [])

def read (now : Nat) (reader : FrameReader) (data : ByteArray) (service : Service) :
    Service × List Deed :=
  if data.size = 0 then service.take now reader.ended
  else
    match reader.feed data with
    | .inl received => service.take now received
    | .inr reader => ({ service with stage := .reading reader }, [])

def advance (now : Nat) (need : Need) (signal : Signal) (service : Service) :
    Service × List Deed :=
  match service.stage, need, signal with
  | .working work _, .moment _, _ =>
    let (service, deeds) := service.reply work.frame
    (service, .note work.finished :: deeds)
  | .reading reader, _, .bytes data => { service with stage := .done }.read now reader data
  | .writing data sent, _, .taken count =>
    let sent := sent + count
    if data.size ≤ sent then ({ service with stage := .finishing }, [])
    else ({ service with stage := .writing data sent }, [])
  | .writing _ _, .turn, _ => ({ service with stage := .finishing }, [])
  | _, _, _ => service.conclude

def hear (now : Nat) (need : Need) (signal : Signal) (service : Service) : Service × List Deed :=
  match need with
  | .cancelled _ => service.conclude
  | need => service.advance now need signal

end Service

inductive ServingStage where
  | asking
  | accepting (acceptor : Nat)
  | done
  deriving DecidableEq, Repr, Inhabited

/-- The serving of a session (`serve`). -/
structure Serving where
  session : Nat
  responder : Responder
  stage : ServingStage := .asking

namespace Serving

def needs (serving : Serving) : List Need :=
  match serving.stage with
  | .asking => [.queue serving.session]
  | .accepting acceptor => [.accepted serving.session acceptor]
  | .done => []

/-- What the loop does when that has come: a stream is answered and the next one awaited. -/
def hear (signal : Signal) (serving : Serving) : Serving × List Deed :=
  match signal with
  | .ticket acceptor => ({ serving with stage := .accepting acceptor }, [])
  | .stream stream => ({ serving with stage := .asking }, [.answer stream serving.responder])
  | _ => ({ serving with stage := .done }, [])

def release (serving : Serving) : List Deed :=
  match serving.stage with
  | .accepting acceptor => [.leave serving.session acceptor]
  | .asking | .done => []

end Serving

end Switchboard
