import Switchboard.Channel.Pipe
import Switchboard.Text.Quoted

/-!
# Transports

A transport is the byte channel under a connection: what kind of channel it is, who is at the other
end, the deadline of its reads and writes, and whether its writing side was closed. The functions
here say what the transport itself adds to the channel: each operation is given the one of the
channel, tries it once if at all, and may be tried again when it has to wait. Times are in
milliseconds.

A deadline is one timer for reads and writes alike, and a timer wakes one task when it goes off: the
one that looked at it last (`poll_deadline`). Whoever waits to read or write has looked at it first.
-/

namespace Switchboard

inductive TransportKind where
  /-- A socket. -/
  | socket
  /-- A socket that was taken over after a handshake. -/
  | upgraded
  /-- Two pipes, one for each direction. -/
  | pipe
  deriving DecidableEq, Repr, Inhabited

def TransportKind.name : TransportKind → String
  | socket => "Socket"
  | upgraded => "Upgraded"
  | pipe => "Pipe"

/-- A task that may be woken, by its number. -/
abbrev Waker := Nat

/-- A timer that goes off once. -/
structure Timer where
  due : Int
  /-- The task that is woken then. -/
  waker : Option Waker := none
  deriving DecidableEq, Repr, Inhabited

namespace Timer

/-- Whether the timer has gone off. If not, it is to wake the task that asks, and no other. -/
def poll (timer : Timer) (now : Int) (task : Waker) : Bool × Timer :=
  if timer.due ≤ now then (true, timer) else (false, { timer with waker := some task })

/-- Let the clock show `now`. If the timer goes off, it tells the task to wake and forgets it. -/
def fire (timer : Timer) (now : Int) : Option Waker × Timer :=
  if timer.due ≤ now then (timer.waker, { timer with waker := none }) else (none, timer)

end Timer

/-- A transport, without its channel. -/
structure Transport where
  kind : TransportKind
  peerAddr : String
  timer : Option Timer := none
  closed : Bool := false
  deriving DecidableEq, Repr, Inhabited

namespace Transport

def pipeAddr : String := "pipe"

def debugText (t : Transport) : String :=
  let fields := s!"kind: {t.kind.name}, peer_addr: {Text.quoted t.peerAddr}, closed: {t.closed}"
  "Transport \x7b " ++ fields ++ " \x7d"

/-- When reads and writes begin to fail, if they do. -/
def deadline (t : Transport) : Option Int :=
  t.timer.map Timer.due

/-- A read or write came too late. -/
def overdue (t : Transport) : IoFault :=
  ⟨.timedOut, s!"deadline exceeded on transport to {t.peerAddr}"⟩

/-- Fail if the deadline has come (`poll_deadline`). If not, the task that asks is woken when it
does. -/
def pollDeadline (t : Transport) (now : Int) (task : Waker) : Option IoFault × Transport :=
  match t.timer with
  | none => (none, t)
  | some timer =>
    let (expired, timer) := timer.poll now task
    (if expired then some t.overdue else none, { t with timer := some timer })

/-- Let the clock show `now`; the task that the deadline wakes, if it comes. -/
def fire (t : Transport) (now : Int) : Option Waker × Transport :=
  match t.timer with
  | none => (none, t)
  | some timer =>
    let (woken, timer) := timer.fire now
    (woken, { t with timer := some timer })

/-- Set or clear the deadline (`set_deadline`); pipes have none. Whether it was set is told. Each
deadline has a timer of its own, at which nobody has looked yet. -/
def setDeadline (t : Transport) (deadline : Option Int) : Bool × Transport :=
  if t.kind = .pipe then (false, t)
  else (true, { t with timer := deadline.map fun due => { due } })

/-- Close the writing side; whether the channel has to be shut down for it is told. -/
def close (t : Transport) : Bool × Transport :=
  (!t.closed, { t with closed := true })

section

variable {σ α : Type}

/-- Do something with the channel, unless the deadline has come. -/
def beforeDeadline (t : Transport) (now : Int) (task : Waker) (io : σ → Ready α × σ)
    (channel : σ) : Ready α × Transport × σ :=
  match t.pollDeadline now task with
  | (some fault, t) => (.failed fault, t, channel)
  | (none, t) =>
    let (ready, channel) := io channel
    (ready, t, channel)

/-- Read from the channel (`poll_read`). -/
def read (t : Transport) (now : Int) (task : Waker) (io : σ → Ready α × σ) (channel : σ) :
    Ready α × Transport × σ :=
  t.beforeDeadline now task io channel

/-- Write to the channel (`poll_write`). A transport that is closed does not look at its deadline.
-/
def write (t : Transport) (now : Int) (task : Waker) (io : σ → Ready α × σ) (channel : σ) :
    Ready α × Transport × σ :=
  if t.closed then (.failed (.bare .brokenPipe), t, channel)
  else t.beforeDeadline now task io channel

/-- Close the writing side and shut the channel down for it (`close`). The transport counts as
closed from now on, also while the channel is still being shut down; only the shutting down goes on
then. -/
def closeWith (t : Transport) (io : σ → Ready Unit × σ) (channel : σ) :
    Ready Unit × Transport × σ :=
  let (mustShutDown, t) := t.close
  if mustShutDown then
    let (ready, channel) := io channel
    (ready, t, channel)
  else (.now (), t, channel)

/-- Shut the writing side down (`poll_shutdown`). It counts as closed when the channel has been shut
down. -/
def shutdownWith (t : Transport) (io : σ → Ready Unit × σ) (channel : σ) :
    Ready Unit × Transport × σ :=
  if t.closed then (.now (), t, channel)
  else
    let (ready, channel) := io channel
    (ready, { t with closed := ready.isReady }, channel)

end

end Transport

end Switchboard
