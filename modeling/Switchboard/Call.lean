import Switchboard.Fabric.Need
import Switchboard.Frame.Transfer

/-!
# Calls

A call (`call_raw`) opens a stream, writes its request as one frame, reads one frame in reply and
finishes the stream. It ends early when its session is cancelled, and when its time is up; the
stream is let go of in any case. `Call.needs` is what a call waits for, first things first, and
`Call.hear` what it does when one of them comes.
-/

namespace Switchboard

inductive CallStage where
  /-- It asks for a stream. -/
  | asking
  | opening (request : Nat)
  | writing (stream : StreamRef) (data : ByteArray) (sent : Nat)
  | reading (stream : StreamRef) (reader : FrameReader)
  | finishing (stream : StreamRef) (outcome : Except Fault ByteArray)
  | done (outcome : Except Fault ByteArray)
  deriving Inhabited

/-- A call on a session (`call_raw`). -/
structure Call where
  session : Nat
  /-- The request: an envelope. -/
  request : ByteArray
  limit : Duration
  /-- The moment at which its time is up. -/
  deadline : Nat
  stage : CallStage := .asking
  deriving Inhabited

namespace CallStage

/-- What brings a stage to its end. -/
def need (session : Nat) : CallStage → Need
  | asking => .request session
  | opening request => .granted session request
  | writing stream data sent => .write stream data sent
  | reading stream reader => .read stream reader.room
  | finishing stream _ => .finish stream
  | done _ => .turn

def release (session : Nat) : CallStage → List Deed
  | asking | done _ => []
  | opening request => [.abandon session request]
  | writing stream _ _ | reading stream _ | finishing stream _ => [.drop stream]

end CallStage

namespace Call

def start (session : Nat) (envelope : Envelope) (limit : Duration) (now : Nat) : Call :=
  { session, request := envelope.encode, limit, deadline := now + limit.millis }

/-- What comes of the frame, or the end, that the peer sent in reply. -/
def reply : Received → Except Fault ByteArray
  | .frame (.response data) => .ok data
  | .frame (.error text) => .error (.remote text)
  | .frame (.request _) => .error (.malformed "peer answered with a request frame")
  | .ended => .error (.malformed "stream closed before a response arrived")
  | .fault fault => .error (.transport fault)
  | .waiting => .error .closed

/-- What a call waits for. That the session is cancelled goes before all else; that the time is up
counts only when nothing else comes. -/
def needs (call : Call) : List Need :=
  match call.stage with
  | .done _ => []
  | stage => [.cancelled call.session, stage.need call.session, .moment call.deadline]

def outcome? (call : Call) : Option (Except Fault ByteArray) :=
  match call.stage with
  | .done outcome => some outcome
  | _ => none

def release (call : Call) : List Deed :=
  call.stage.release call.session

def conclude (outcome : Except Fault ByteArray) (call : Call) : Call × List Deed :=
  ({ call with stage := .done outcome }, call.release)

/-- Go on with the stream that was opened: a request that no frame can carry is refused now. -/
def send (stream : StreamRef) (call : Call) : Call × List Deed :=
  match (Frame.request call.request).encode with
  | .error fault => ({ call with stage := .done (.error (.transport fault)) }, [.drop stream])
  | .ok data => ({ call with stage := .writing stream data 0 }, [])

def read (stream : StreamRef) (reader : FrameReader) (data : ByteArray) (call : Call) :
    Call × List Deed :=
  let settle (received : Received) : Call × List Deed :=
    match received with
    | .fault fault =>
      ({ call with stage := .done (.error (.transport fault)) }, [.drop stream])
    | received => ({ call with stage := .finishing stream (reply received) }, [])
  if data.size = 0 then settle reader.ended
  else
    match reader.feed data with
    | .inl received => settle received
    | .inr reader => ({ call with stage := .reading stream reader }, [])

def advance (signal : Signal) (call : Call) : Call × List Deed :=
  match call.stage, signal with
  | .finishing _ outcome, _ => call.conclude outcome
  | _, .refused fault => ({ call with stage := .done (.error fault) }, [])
  | _, .failed fault => call.conclude (.error (.transport fault))
  | .asking, .ticket request => ({ call with stage := .opening request }, [])
  | .opening _, .stream stream => call.send stream
  | .writing stream data sent, .taken count =>
    let sent := sent + count
    if data.size ≤ sent then ({ call with stage := .reading stream {} }, [])
    else ({ call with stage := .writing stream data sent }, [])
  | .reading stream reader, .bytes data =>
    { call with stage := .asking }.read stream reader data
  | _, _ => (call, [])

def hear (need : Need) (signal : Signal) (call : Call) : Call × List Deed :=
  match need with
  | .cancelled _ => call.conclude (.error .closed)
  | .moment _ => call.conclude (.error (.timeout call.limit))
  | _ => call.advance signal

end Call

namespace Method

def envelope (method : Method α β) (request : α) : Envelope :=
  ⟨method.name, method.request.encode request⟩

/-- The envelope that `call` sends, if the request can be written. -/
def envelope? (method : Method α β) (request : α) : Except Fault Envelope :=
  (method.request.write request).map fun payload => ⟨method.name, payload⟩

/-- What `call` makes of the bytes of a reply. -/
def response? (method : Method α β) (outcome : Except Fault ByteArray) : Except Fault β :=
  outcome.bind method.response.decode

end Method

end Switchboard
