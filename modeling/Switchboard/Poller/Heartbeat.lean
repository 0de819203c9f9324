import Switchboard.Poller.Sweep

/-!
# Heartbeats

A heartbeat (`run_heartbeat`) sweeps again and again, until it is cancelled. At every tick its table
is renewed for the peers that are registered, keeping what is known of those that stay. Ticks are an
interval apart; one that comes too late puts off those after it.
-/

namespace Switchboard

/-- How many milliseconds a tick may be late and count as in time. -/
def tickTolerance : Nat := 5

/-- The moment of the tick after the one that was due at a moment. -/
def nextTick (interval due now : Nat) : Nat :=
  if due + tickTolerance < now then now + interval else due + interval

inductive HeartbeatStage where
  /-- It waits for the tick that is due. -/
  | waiting
  /-- It asks which peers are registered. -/
  | ticking
  | sweeping (sweep : Sweep)
  | done
  deriving Inhabited

/-- One sweep of a heartbeat: when it ended, what it counted and the table after it. -/
structure Beat where
  time : Nat
  report : SweepTally
  table : Roster
  deriving Inhabited

/-- A heartbeat (`run_heartbeat`). -/
structure Heartbeat where
  /-- How many milliseconds lie between two ticks. -/
  interval : Nat
  workers : Nat
  limit : Duration
  /-- The time of day at which peers are seen. -/
  moment : Timestamp
  table : Roster := #[]
  /-- When the next tick is due. -/
  due : Nat
  stage : HeartbeatStage
  /-- The sweeps that are over, latest first. -/
  beats : List Beat := []
  deriving Inhabited

namespace Heartbeat

/-- A heartbeat that begins at a moment, with a tick at once. Without an interval there is none. -/
def start? (interval workers : Nat) (limit : Duration) (moment : Timestamp) (now : Nat) :
    Option Heartbeat :=
  if interval = 0 then none
  else some { interval, workers, limit, moment, due := now, stage := .waiting }

/-- What a heartbeat waits for, with the worker that it is for. -/
def needs (beat : Heartbeat) : List (Nat × Need) :=
  match beat.stage with
  | .waiting => [(0, .moment beat.due)]
  | .ticking => [(0, .keys)]
  | .sweeping sweep => sweep.needs
  | .done => []

def release (beat : Heartbeat) : List Deed :=
  match beat.stage with
  | .sweeping sweep => sweep.release
  | _ => []

/-- A heartbeat that is cancelled; the sweep that was under way does not count. -/
def cancel (beat : Heartbeat) : Heartbeat × List Deed :=
  ({ beat with stage := .done }, beat.release)

/-- Sweep the peers that are registered. -/
def tick (keys : List String) (beat : Heartbeat) : Heartbeat :=
  let table := beat.table.renewed keys
  { beat with table, stage := .sweeping (.start table beat.workers beat.limit beat.moment) }

/-- Go on with a sweep. When it is over it counts, and the next tick is awaited. -/
def resume (now : Nat) (sweep : Sweep) (beat : Heartbeat) : Heartbeat :=
  match sweep.report? with
  | none => { beat with stage := .sweeping sweep }
  | some report =>
    { beat with
      table := sweep.table, stage := .waiting
      beats := ⟨now, report, sweep.table⟩ :: beat.beats }

def hear (now place : Nat) (need : Need) (signal : Signal) (beat : Heartbeat) :
    Heartbeat × List Deed :=
  match beat.stage, signal with
  | .waiting, _ =>
    ({ beat with due := nextTick beat.interval beat.due now, stage := .ticking }, [])
  | .ticking, .keys keys => (beat.tick keys, [])
  | .sweeping sweep, signal =>
    let (sweep, deeds) := sweep.hear now place need signal
    (beat.resume now sweep, deeds)
  | _, _ => (beat, [])

end Heartbeat

end Switchboard
