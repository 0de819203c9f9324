import Switchboard.Proofs.Bytes
import Switchboard.Proofs.Runs
import Switchboard.Transport

/-!
# A transport in use

Tasks try operations on a transport in any order. One that the channel under it keeps waiting may be
tried again, by the same task or by another, or given up; time passes, the deadline is set, and the
far end sends. What the channel answers is not foreseen: it may pass any bytes that are there, fail
or keep waiting, whether it is read, written, flushed or shut down. All that is assumed of it is
that it gives what the far end wrote in order, and that an operation that fails has passed no bytes.

`Passage.attempt` tries an operation once, as `Transport.read`, `Transport.write`,
`Transport.closeWith` and `Transport.shutdownWith` have it, and `Passage.step` makes a move. When
time passes, `Transport.fire` says whom the deadline wakes: an operation is heard of again only if
the timer remembers its task.
-/

namespace Switchboard

def Ready.map {α β : Type} (f : α → β) : Ready α → Ready β
  | .now value => .now (f value)
  | .failed fault => .failed fault
  | .later => .later

/-- The byte channel under a transport, and what has passed over it. -/
structure Medium where
  /-- What the far end has written. -/
  fed : ByteArray := ByteArray.empty
  /-- How much of it was read. -/
  taken : Nat := 0
  /-- What was handed to it to write. -/
  handed : ByteArray := ByteArray.empty
  /-- How often the shutting down of it came to an end. -/
  shutdowns : Nat := 0

/-- What a channel answers when an operation is tried. -/
inductive Reply where
  /-- It is done; so many bytes pass at most. -/
  | done (count : Nat)
  | failed (fault : IoFault)
  | later

namespace Medium

def read (reply : Reply) (room : Nat) (m : Medium) : Ready ByteArray × Medium :=
  match reply with
  | .done count =>
    let n := min (min count room) (m.fed.size - m.taken)
    (.now (m.fed.extract m.taken (m.taken + n)), { m with taken := m.taken + n })
  | .failed fault => (.failed fault, m)
  | .later => (.later, m)

def write (reply : Reply) (data : ByteArray) (m : Medium) : Ready Nat × Medium :=
  match reply with
  | .done count =>
    let n := min count data.size
    (.now n, { m with handed := m.handed ++ data.extract 0 n })
  | .failed fault => (.failed fault, m)
  | .later => (.later, m)

def flush (reply : Reply) (m : Medium) : Ready Unit × Medium :=
  match reply with
  | .done _ => (.now (), m)
  | .failed fault => (.failed fault, m)
  | .later => (.later, m)

/-- Shut the channel down, which may come to an end with a failure too. -/
def shutdown (reply : Reply) (m : Medium) : Ready Unit × Medium :=
  match reply with
  | .done _ => (.now (), { m with shutdowns := m.shutdowns + 1 })
  | .failed fault => (.failed fault, { m with shutdowns := m.shutdowns + 1 })
  | .later => (.later, m)

end Medium

namespace Transport

variable {t : Transport} {now deadline : Int} {task : Waker}

/-- The same transport, with a deadline that is to wake a task. -/
def watchedBy (t : Transport) (task : Waker) : Transport :=
  { t with timer := t.timer.map fun timer => { timer with waker := some task } }

@[simp] theorem deadline_watchedBy : (t.watchedBy task).deadline = t.deadline := by
  simp only [deadline, watchedBy, Option.map_map]
  rfl

/-- Who looks at the deadline before it comes is the one that it is to wake. -/
theorem pollDeadline_timely (h : ∀ deadline ∈ t.deadline, now < deadline) :
    t.pollDeadline now task = (none, t.watchedBy task) := by
  obtain ⟨kind, peerAddr, timer, closed⟩ := t
  cases timer with
  | none => rfl
  | some timer =>
    have hnot : ¬ timer.due ≤ now := Int.not_le.2 (h timer.due rfl)
    simp only [pollDeadline, Timer.poll, if_neg hnot, watchedBy, Option.map_some,
      Bool.false_eq_true, if_false]

/-- Who looks at it from then on learns of it, and changes nothing. -/
theorem pollDeadline_late (hdeadline : t.deadline = some deadline) (h : deadline ≤ now) :
    t.pollDeadline now task = (some t.overdue, t) := by
  obtain ⟨timer, htimer, rfl⟩ := Option.map_eq_some_iff.1 hdeadline
  simp only [pollDeadline, htimer, Timer.poll, if_pos h, if_true]
  rw [← htimer]

@[simp] theorem kind_fire : (t.fire now).2.kind = t.kind := by
  unfold fire
  cases t.timer <;> rfl

@[simp] theorem closed_fire : (t.fire now).2.closed = t.closed := by
  unfold fire
  cases t.timer <;> rfl

@[simp] theorem deadline_fire : (t.fire now).2.deadline = t.deadline := by
  obtain ⟨kind, peerAddr, timer, closed⟩ := t
  cases timer with
  | none => rfl
  | some timer =>
    simp only [deadline, fire, Timer.fire]
    split <;> rfl

/-- A deadline that comes wakes the task that looked at it last. -/
theorem fire_due {timer : Timer} (htimer : t.timer = some timer) (hdue : timer.due ≤ now) :
    (t.fire now).1 = timer.waker := by
  simp only [fire, htimer, Timer.fire, if_pos hdue]

theorem fire_timer_of_early {timer : Timer} (htimer : (t.fire now).2.timer = some timer)
    (hearly : now < timer.due) : t.timer = some timer := by
  obtain ⟨kind, peerAddr, old, closed⟩ := t
  cases old with
  | none => exact htimer
  | some old =>
    simp only [fire, Timer.fire] at htimer ⊢
    split at htimer
    · rename_i hdue
      cases htimer
      exact absurd hdue (Int.not_le.2 hearly)
    · exact htimer

end Transport

inductive Operation where
  | read (room : Nat)
  | write (data : ByteArray)
  | flush
  | shutdown
  | close
  /-- A close that has begun, and waits for the channel. -/
  | closing

namespace Operation

/-- Whether an operation is none that is begun, but goes on closing. -/
def isClosing : Operation → Bool
  | closing => true
  | _ => false

/-- Whether an operation passes bytes, and so is subject to a deadline. -/
def isTransfer : Operation → Bool
  | read _ | write _ => true
  | _ => false

/-- Whether an operation closes the transport when it is done. -/
def closes : Operation → Bool
  | shutdown | close | closing => true
  | _ => false

/-- What an operation goes on as when it has to wait. -/
def goesOn : Operation → Operation
  | close => closing
  | op => op

end Operation

inductive Passed where
  | bytes (data : ByteArray)
  | taken (count : Nat)
  | done

def Ready.bytes : Ready Passed → ByteArray
  | .now (.bytes data) => data
  | _ => ByteArray.empty

structure Waiter where
  /-- The task that tried it last. -/
  task : Waker
  op : Operation
  /-- Whether the deadline has woken the task since. -/
  woken : Bool := false

def Waiter.hear (woken : Option Waker) (waiter : Waiter) : Waiter :=
  { waiter with woken := waiter.woken || woken = some waiter.task }

/-- A transport over a channel, as those see it who use it. -/
structure Passage where
  transport : Transport
  medium : Medium := {}
  now : Int := 0
  waiting : List Waiter := []
  /-- The bytes that reads have given. -/
  delivered : ByteArray := ByteArray.empty
  /-- Whether a close or a shutdown has come to its end. -/
  concluded : Bool := false

namespace Passage

/-- The moves of those who use a transport, of time and of the far end. -/
inductive Move where
  /-- A task begins an operation. -/
  | begin (task : Waker) (op : Operation) (reply : Reply)
  /-- An operation that had to wait is tried again. -/
  | again (place : Nat) (task : Waker) (reply : Reply)
  /-- It is given up. -/
  | abandon (place : Nat)
  | setDeadline (deadline : Option Int)
  | elapse (ms : Nat)
  /-- The far end sends something. -/
  | feed (data : ByteArray)

def Move.setsDeadline : Move → Bool
  | setDeadline _ => true
  | _ => false

def start (kind : TransportKind) (peerAddr : String) : Passage where
  transport := { kind, peerAddr }

/-- What trying an operation makes of the transport and its channel. -/
def outcome (task : Waker) (op : Operation) (reply : Reply) (s : Passage) :
    Ready Passed × Transport × Medium :=
  match op with
  | .read room =>
    let (ready, transport, medium) :=
      s.transport.read s.now task (Medium.read reply room) s.medium
    (ready.map .bytes, transport, medium)
  | .write data =>
    let (ready, transport, medium) :=
      s.transport.write s.now task (Medium.write reply data) s.medium
    (ready.map .taken, transport, medium)
  | .flush =>
    let (ready, medium) := s.medium.flush reply
    (ready.map fun _ => .done, s.transport, medium)
  | .shutdown =>
    let (ready, transport, medium) := s.transport.shutdownWith (Medium.shutdown reply) s.medium
    (ready.map fun _ => .done, transport, medium)
  | .close =>
    let (ready, transport, medium) := s.transport.closeWith (Medium.shutdown reply) s.medium
    (ready.map fun _ => .done, transport, medium)
  | .closing =>
    let (ready, medium) := s.medium.shutdown reply
    (ready.map fun _ => .done, s.transport, medium)

/-- Try an operation once. One that is not done waits from now on. -/
def attempt (task : Waker) (op : Operation) (reply : Reply) (s : Passage) :
    Ready Passed × Passage :=
  let (ready, transport, medium) := s.outcome task op reply
  (ready,
    { s with
      transport, medium
      waiting := if ready.isReady then s.waiting else s.waiting ++ [{ task, op := op.goesOn }]
      delivered := s.delivered ++ ready.bytes
      concluded := s.concluded || op.closes && ready.isReady })

def withdraw (place : Nat) (s : Passage) : Passage :=
  { s with waiting := s.waiting.eraseIdx place }

/-- Let some time pass. If the deadline comes, it wakes the task that its timer remembers. -/
def elapse (ms : Nat) (s : Passage) : Passage :=
  let now := s.now + ms
  let woken := (s.transport.fire now).1
  { s with
    now
    transport := (s.transport.fire now).2
    waiting := s.waiting.map (·.hear woken) }

/-- What a move makes of a transport in use, if it is possible. To set the deadline takes the
transport for oneself, so that nothing waits meanwhile. -/
def step (s : Passage) : Move → Option Passage
  | .begin task op reply => if op.isClosing then none else some (s.attempt task op reply).2
  | .again place task reply =>
    s.waiting[place]?.map fun waiter => ((s.withdraw place).attempt task waiter.op reply).2
  | .abandon place => if place < s.waiting.length then some (s.withdraw place) else none
  | .setDeadline deadline =>
    if s.waiting = [] then some { s with transport := (s.transport.setDeadline deadline).2 }
    else none
  | .elapse ms => some (s.elapse ms)
  | .feed data => some { s with medium := { s.medium with fed := s.medium.fed ++ data } }

/-! ## Trying an operation -/

variable {s s' : Passage} {task : Waker} {op : Operation} {reply : Reply} {room : Nat}
  {data : ByteArray} {fault : IoFault}

def Timely (s : Passage) : Prop :=
  ∀ deadline ∈ s.transport.deadline, s.now < deadline

theorem not_timely (h : ¬ s.Timely) :
    ∃ deadline, s.transport.deadline = some deadline ∧ deadline ≤ s.now := by
  cases hdeadline : s.transport.deadline with
  | none => exact absurd (fun deadline h => by rw [hdeadline] at h; cases h) h
  | some deadline =>
    refine ⟨deadline, rfl, Int.not_lt.1 fun hlt => h fun other hother => ?_⟩
    rw [hdeadline] at hother
    cases hother
    exact hlt

/-- A read passes to the channel before the deadline, whether the transport is closed or not. It is
the one that the deadline is to wake. -/
theorem outcome_read (htimely : s.Timely) :
    s.outcome task (.read room) reply = ((s.medium.read reply room).1.map .bytes,
      s.transport.watchedBy task, (s.medium.read reply room).2) := by
  simp only [outcome, Transport.read, Transport.beforeDeadline,
    Transport.pollDeadline_timely htimely]

theorem outcome_read_late (hlate : ¬ s.Timely) :
    s.outcome task (.read room) reply = (.failed s.transport.overdue, s.transport, s.medium) := by
  obtain ⟨deadline, hdeadline, hcome⟩ := not_timely hlate
  simp only [outcome, Transport.read, Transport.beforeDeadline,
    Transport.pollDeadline_late hdeadline hcome, Ready.map]

/-- A write passes to the channel before the deadline, unless the transport is closed. -/
theorem outcome_write (hopen : s.transport.closed = false) (htimely : s.Timely) :
    s.outcome task (.write data) reply = ((s.medium.write reply data).1.map .taken,
      s.transport.watchedBy task, (s.medium.write reply data).2) := by
  simp only [outcome, Transport.write, hopen, Bool.false_eq_true, if_false,
    Transport.beforeDeadline, Transport.pollDeadline_timely htimely]

/-- A write that comes too late fails, unless it fails because the transport is closed. -/
theorem outcome_write_late (hopen : s.transport.closed = false) (hlate : ¬ s.Timely) :
    s.outcome task (.write data) reply = (.failed s.transport.overdue, s.transport, s.medium) := by
  obtain ⟨deadline, hdeadline, hcome⟩ := not_timely hlate
  simp only [outcome, Transport.write, hopen, Bool.false_eq_true, if_false,
    Transport.beforeDeadline, Transport.pollDeadline_late hdeadline hcome, Ready.map]

/-- A write to a transport that is closed fails, whatever the time is. -/
theorem outcome_write_closed (hclosed : s.transport.closed = true) :
    s.outcome task (.write data) reply =
      (.failed (.bare .brokenPipe), s.transport, s.medium) := by
  simp only [outcome, Transport.write, hclosed, if_true, Ready.map]

/-- To close or shut down a transport that is closed is granted, and nothing is done for it. -/
theorem outcome_closed (hclosed : s.transport.closed = true) (hop : op = .close ∨ op = .shutdown) :
    s.outcome task op reply = (.now .done, s.transport, s.medium) := by
  have hsame : ({ s.transport with closed := true } : Transport) = s.transport := by rw [← hclosed]
  rcases hop with rfl | rfl
  · simp only [outcome, Transport.closeWith, Transport.close, hclosed, Bool.not_true,
      Bool.false_eq_true, if_false, Ready.map, hsame]
  · simp only [outcome, Transport.shutdownWith, hclosed, if_true, Ready.map]

theorem outcome_close (hopen : s.transport.closed = false) :
    s.outcome task .close reply = ((s.medium.shutdown reply).1.map fun _ => .done,
      { s.transport with closed := true }, (s.medium.shutdown reply).2) := by
  simp only [outcome, Transport.closeWith, Transport.close, hopen, Bool.not_false, if_true]

/-- To shut one down closes it once the channel has been shut down. -/
theorem outcome_shutdown (hopen : s.transport.closed = false) :
    s.outcome task .shutdown reply = ((s.medium.shutdown reply).1.map fun _ => .done,
      { s.transport with closed := (s.medium.shutdown reply).1.isReady },
      (s.medium.shutdown reply).2) := by
  simp only [outcome, Transport.shutdownWith, hopen, Bool.false_eq_true, if_false]

/-- All that a task can do to a transport and its channel by trying an operation. -/
inductive Effect (s : Passage) (task : Waker) (op : Operation) :
    Ready Passed → Transport → Medium → Prop where
  /-- Nothing is done. -/
  | idle {ready : Ready Passed} (bytes : ready.bytes = ByteArray.empty)
      (granted : op.closes = true → ready.isReady = true → s.transport.closed = true)
      (begun : op = .close → ready.isReady = true)
      (transfer : op.isTransfer = true → ready.isReady = true) :
      Effect s task op ready s.transport s.medium
  /-- The channel was asked for bytes or for room, and gave none. -/
  | tried {ready : Ready Passed} (bytes : ready.bytes = ByteArray.empty)
      (transfer : op.isTransfer = true) (timely : s.Timely) :
      Effect s task op ready (s.transport.watchedBy task) s.medium
  /-- Bytes are read. -/
  | read {room n : Nat} (read : op = .read room) (timely : s.Timely)
      (few : n ≤ s.medium.fed.size - s.medium.taken) :
      Effect s task op
        (.now (.bytes (s.medium.fed.extract s.medium.taken (s.medium.taken + n))))
        (s.transport.watchedBy task) { s.medium with taken := s.medium.taken + n }
  /-- Bytes are written. -/
  | wrote {data : ByteArray} {n : Nat} (write : op = .write data)
      (possible : s.transport.closed = false) (timely : s.Timely) (few : n ≤ data.size) :
      Effect s task op (.now (.taken n)) (s.transport.watchedBy task)
        { s.medium with handed := s.medium.handed ++ data.extract 0 n }
  /-- A close has to wait until the channel is shut down. -/
  | begins (close : op = .close) (possible : s.transport.closed = false) :
      Effect s task op .later { s.transport with closed := true } s.medium
  /-- The channel was shut down. -/
  | shut {ready : Ready Passed} (bytes : ready.bytes = ByteArray.empty)
      (done : ready.isReady = true) (closes : op.closes = true)
      (possible : op = .closing ∨ s.transport.closed = false) :
      Effect s task op ready { s.transport with closed := true }
        { s.medium with shutdowns := s.medium.shutdowns + 1 }

/-- **What trying an operation does**: an operation that goes on closing finds the transport
closed. -/
theorem effect_outcome (task : Waker) (hclosing : op = .closing → s.transport.closed = true)
    (reply : Reply) :
    s.Effect task op (s.outcome task op reply).1 (s.outcome task op reply).2.1
      (s.outcome task op reply).2.2 := by
  have hsame : s.transport.closed = true → s.transport = { s.transport with closed := true } := by
    intro hclosed
    rw [← hclosed]
  have hopen : s.transport.closed = false → s.transport = { s.transport with closed := false } := by
    intro hopen
    rw [← hopen]
  cases op with
  | read room =>
    by_cases htimely : s.Timely
    · rw [outcome_read htimely]
      cases reply with
      | done count => exact .read rfl htimely (Nat.min_le_right ..)
      | failed fault => exact .tried rfl rfl htimely
      | later => exact .tried rfl rfl htimely
    · rw [outcome_read_late htimely]
      exact .idle rfl nofun nofun fun _ => rfl
  | write data =>
    cases hclosed : s.transport.closed with
    | true =>
      rw [outcome_write_closed hclosed]
      exact .idle rfl nofun nofun fun _ => rfl
    | false =>
      by_cases htimely : s.Timely
      · rw [outcome_write hclosed htimely]
        cases reply with
        | done count => exact .wrote rfl hclosed htimely (Nat.min_le_right ..)
        | failed fault => exact .tried rfl rfl htimely
        | later => exact .tried rfl rfl htimely
      · rw [outcome_write_late hclosed htimely]
        exact .idle rfl nofun nofun fun _ => rfl
  | flush => cases reply <;> exact .idle rfl nofun nofun nofun
  | shutdown =>
    cases hclosed : s.transport.closed with
    | true =>
      rw [outcome_closed hclosed (.inr rfl)]
      exact .idle rfl (fun _ _ => hclosed) nofun nofun
    | false =>
      rw [outcome_shutdown hclosed]
      cases reply with
      | done count => exact .shut rfl rfl rfl (.inr hclosed)
      | failed fault => exact .shut rfl rfl rfl (.inr hclosed)
      | later =>
        have hidle : s.Effect task .shutdown .later s.transport s.medium :=
          .idle rfl nofun nofun nofun
        rw [hopen hclosed] at hidle
        exact hidle
  | close =>
    cases hclosed : s.transport.closed with
    | true =>
      rw [outcome_closed hclosed (.inl rfl)]
      exact .idle rfl (fun _ _ => hclosed) (fun _ => rfl) nofun
    | false =>
      rw [outcome_close hclosed]
      cases reply with
      | done count => exact .shut rfl rfl rfl (.inr hclosed)
      | failed fault => exact .shut rfl rfl rfl (.inr hclosed)
      | later => exact .begins rfl hclosed
  | closing =>
    have hclosed := hclosing rfl
    cases reply with
    | done count =>
      have hshut : s.Effect task .closing (.now .done) { s.transport with closed := true }
          { s.medium with shutdowns := s.medium.shutdowns + 1 } := .shut rfl rfl rfl (.inl rfl)
      rw [← hsame hclosed] at hshut
      exact hshut
    | failed fault =>
      have hshut : s.Effect task .closing (.failed fault) { s.transport with closed := true }
          { s.medium with shutdowns := s.medium.shutdowns + 1 } := .shut rfl rfl rfl (.inl rfl)
      rw [← hsame hclosed] at hshut
      exact hshut
    | later => exact .idle rfl nofun nofun nofun

end Passage

end Switchboard
