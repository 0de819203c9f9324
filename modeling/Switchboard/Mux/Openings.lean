import Switchboard.Fault

/-!
# Requests for streams

Who wants a new stream asks for one and waits for the answer (`open_stream`). The connection takes
the requests in the order in which they were made and answers each at most once (`drive`). A request
may be given up while it waits: a stream that comes for it then belongs to nobody and is handed
back.
-/

namespace Switchboard.Mux

/-- The requests for new streams of a connection. Each has a number. -/
structure Openings where
  /-- The number of the next request. -/
  next : Nat := 0
  /-- The requests that the connection has not taken up, oldest first. -/
  queued : List Nat := []
  /-- The requests that it has taken up, oldest first. -/
  waiting : List Nat := []
  /-- The requests that somebody waits for. -/
  awaited : List Nat := []
  /-- The answers that nobody has collected: a stream, or word that the connection is closed. -/
  answers : List (Nat × Option Nat) := []
  deriving Inhabited

namespace Openings

def ask (o : Openings) : Nat × Openings :=
  (o.next, { o with
    next := o.next + 1
    queued := o.queued ++ [o.next]
    awaited := o.next :: o.awaited })

def takeUp (o : Openings) : Openings :=
  { o with queued := [], waiting := o.waiting ++ o.queued }

/-- Answer a request, if somebody waits for it. -/
def answer (request : Nat) (stream? : Option Nat) (o : Openings) : Bool × Openings :=
  if o.awaited.contains request then
    (true, { o with
      awaited := o.awaited.erase request
      answers := (request, stream?) :: o.answers })
  else (false, o)

/-- Give a stream to the oldest request that was taken up. It is handed back if nobody waits for
it. -/
def grant (stream : Nat) (o : Openings) : Option Nat × Openings :=
  match o.waiting with
  | [] => (some stream, o)
  | request :: waiting =>
    let (taken, o) := { o with waiting }.answer request (some stream)
    (if taken then none else some stream, o)

/-- Tell everybody who waits that the connection is closed. -/
def refuse (o : Openings) : Openings :=
  (o.waiting ++ o.queued).foldl (fun o request => (o.answer request none).2)
    { o with waiting := [], queued := [] }

def collect (request : Nat) (o : Openings) : Option (Option Nat) × Openings :=
  match o.answers.lookup request with
  | none => (none, o)
  | some stream? => (some stream?, { o with answers := o.answers.filter (·.1 ≠ request) })

/-- Give a request up. A stream that had come for it is handed back. -/
def abandon (request : Nat) (o : Openings) : Option Nat × Openings :=
  let (answer, o) := o.collect request
  (answer.join, { o with awaited := o.awaited.erase request })

end Openings

end Switchboard.Mux
