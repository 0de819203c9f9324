import Switchboard.Frame
import Switchboard.Payload
import Switchboard.Text.Quoted

/-!
# Routers

A router maps the names of methods to handlers. A handler makes a piece of work of a payload: what
it notes when it starts and when it is done, how long it takes, and what comes of it. A typed
handler sees its request only if the payload reads as one, and what it gives is the answer only if
it can be written.
-/

namespace Switchboard

/-- A piece of work that gives a value or the words of an error. -/
structure Work (α : Type) where
  outcome : Except String α
  /-- How many milliseconds it takes; none if it never ends. -/
  duration : Option Nat := some 0
  /-- What is noted when it starts. -/
  started : List String := []
  /-- What is noted when it is done. -/
  finished : List String := []

namespace Work

def map (f : Except String α → Except String β) (work : Work α) : Work β :=
  ⟨f work.outcome, work.duration, work.started, work.finished⟩

/-- The frame that answers a request whose work this was. -/
def frame (work : Work ByteArray) : Frame :=
  match work.outcome with
  | .ok data => .response data
  | .error text => .error text

end Work

abbrev Handler := ByteArray → Work ByteArray

/-- A method: its name and how its requests and responses are written. -/
structure Method (α β : Type) where
  name : String
  request : Codec α
  response : Codec β

def Method.ping : Method Unit PingReply :=
  ⟨"ping", Codec.nothing, PingReply.codec⟩

structure Router where
  handlers : List (String × Handler) := []

namespace Router

def handler? (router : Router) (method : String) : Option Handler :=
  router.handlers.lookup method

/-- Add a handler, in place of the one that the method had (`route_raw`). -/
def onRaw (router : Router) (method : String) (handler : Handler) : Router :=
  ⟨(method, handler) :: router.handlers.filter (·.1 ≠ method)⟩

/-- The handler of payloads that a handler of requests makes. -/
def typed (method : Method α β) (handler : α → Work β) : Handler := fun payload =>
  match method.request.decode payload with
  | .error fault => ⟨.error s!"bad {method.name} request: {fault.message}", some 0, [], []⟩
  | .ok request => (handler request).map fun outcome => outcome.bind fun response =>
    (method.response.write response).mapError Fault.message

/-- Add a handler of typed requests (`route`). -/
def on (router : Router) (method : Method α β) (handler : α → Work β) : Router :=
  router.onRaw method.name (typed method handler)

def version : String := "0.1.0"

/-- A router that answers pings with the version and the name of the host (`with_ping`). -/
def answeringPing (hostname : String) : Router :=
  ({} : Router).on .ping fun _ => { outcome := .ok ⟨version, some hostname⟩ }

def methods (router : Router) : List String :=
  (router.handlers.map Prod.fst).mergeSort fun a b => decide (a ≤ b)

/-- The work that a request asks for. -/
def dispatch (router : Router) (method : String) (payload : ByteArray) : Work ByteArray :=
  match router.handler? method with
  | some handler => handler payload
  | none => { outcome := .error s!"unknown method: {method}" }

def debugText (router : Router) : String :=
  let names := ", ".intercalate (router.methods.map Text.quoted)
  "Router \x7b methods: [" ++ names ++ "] \x7d"

end Router

end Switchboard
