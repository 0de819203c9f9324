import Switchboard.Fabric
import Switchboard.Proofs.Calls
import Switchboard.Proofs.Lists

/-!
# The visits of a sweep

Workers of a sweep hear what they waited for, in any order. `Sweep.visits` reads off a run how each
slot was done with, and `Turn` lists what one worker can do when it hears something: it takes a
slot, looks for the session of the slot's peer, pings it and is done with the slot, until there is
none left.

A ping takes as many moves as it takes. All others are bounded: what is `left` of a sweep only gets
less (`Turn.left_le`), and every worker that is not done waits for something that comes and makes it
less (`goes_on`).
-/

namespace Switchboard

inductive Verdict where
  /-- Its peer had no live session. -/
  | skipped
  | answered (version : String)
  | failed (reason : String)
  deriving DecidableEq, Repr

def Verdict.ofPing (outcome : Except Fault ByteArray) : Verdict :=
  match Method.ping.response? outcome with
  | .ok reply => if reply.version.isEmpty then .failed "empty version" else .answered reply.version
  | .error fault => .failed fault.message

structure Visit where
  slot : Nat
  hostname : String
  verdict : Verdict
  deriving DecidableEq, Repr

/-- A worker hears at a moment that something which it waits for has come. -/
structure Hearing where
  now : Nat
  place : Nat
  need : Need
  signal : Signal

namespace SweepWorker

/-- What a worker has counted and not added to the report. -/
def part : SweepWorker → SweepTally
  | free part | looking _ _ part | pinging _ _ _ part => part
  | done => {}

/-- The slot that a worker is at, and the name of its peer. -/
def slot? : SweepWorker → Option (Nat × String)
  | looking slot hostname _ | pinging slot hostname _ _ => some (slot, hostname)
  | _ => none

def pings : SweepWorker → Nat
  | pinging .. => 1
  | _ => 0

/-- How many moves a worker is from being done, if there is no further slot and a ping is one. -/
def left : SweepWorker → Nat
  | free _ => 1
  | looking .. => 3
  | pinging .. => 2
  | done => 0

end SweepWorker

namespace Sweep

/-- A sweep that begins with a number of workers. -/
def manned (table : Roster) (count : Nat) (limit : Duration) (moment : Timestamp) : Sweep :=
  { table, queue := List.range table.size, limit, moment
    workers := List.replicate count (.free {}) }

/-- The sweep after a worker has heard something. -/
def after (s : Sweep) (m : Hearing) : Sweep :=
  (s.hear m.now m.place m.need m.signal).1

/-- The visit that ends with what a worker hears, if one does. -/
def visit? (s : Sweep) (m : Hearing) : Option Visit :=
  match s.workers[m.place]?, m.signal with
  | some (.looking slot hostname _), .peer none => some ⟨slot, hostname, .skipped⟩
  | some (.pinging slot hostname call _), signal =>
    (call.hear m.need signal).1.outcome?.map fun outcome => ⟨slot, hostname, .ofPing outcome⟩
  | _, _ => none

def visits (s : Sweep) : List Hearing → List Visit
  | [] => []
  | m :: moves => (s.visit? m).toList ++ (s.after m).visits moves

/-- How many moves a sweep is from its end, if a ping is one. -/
def left (s : Sweep) : Nat :=
  3 * s.queue.length + (s.workers.map SweepWorker.left).sum

/-- How many moves of a run bring a sweep nearer to its end. -/
def passings (s : Sweep) : List Hearing → Nat
  | [] => 0
  | m :: moves => (if (s.after m).left < s.left then 1 else 0) + (s.after m).passings moves

variable {s s' : Sweep} {m : Hearing} {place slot : Nat} {hostname : String} {part : SweepTally}
  {visit? : Option Visit}

/-- What the worker at a place can do when it hears something. -/
inductive Turn (s : Sweep) (place : Nat) : Option Visit → Sweep → Prop where
  | rests : Turn s place none s
  /-- It takes a slot. -/
  | takes {part : SweepTally} {slot : Nat} {queue : List Nat} {status : PeerState}
      (hw : s.workers[place]? = some (.free part)) (hq : s.queue = slot :: queue)
      (hstatus : s.table[slot]? = some status) :
      Turn s place none ({ s with queue }.put place (.looking slot status.hostname part))
  /-- It passes by a slot that is not in the table. -/
  | passesBy {part : SweepTally} {slot : Nat} {queue : List Nat}
      (hw : s.workers[place]? = some (.free part)) (hq : s.queue = slot :: queue)
      (hstatus : s.table[slot]? = none) :
      Turn s place none ({ s with queue }.put place (.free part))
  /-- There is no slot any more, and it adds what it has counted to the report. -/
  | leaves {part : SweepTally} (hw : s.workers[place]? = some (.free part)) (hq : s.queue = []) :
      Turn s place none ({ s with report := s.report.merge part }.put place .done)
  | skips {slot : Nat} {hostname : String} {part : SweepTally}
      (hw : s.workers[place]? = some (.looking slot hostname part)) :
      Turn s place (some ⟨slot, hostname, .skipped⟩) (s.put place (.free part.skip))
  | pings {slot : Nat} {hostname : String} {part : SweepTally} {call : Call}
      (hw : s.workers[place]? = some (.looking slot hostname part)) (hcall : call.outcome? = none) :
      Turn s place none (s.put place (.pinging slot hostname call part.attempt))
  /-- It goes on with a ping. -/
  | goesOn {slot : Nat} {hostname : String} {part : SweepTally} {call call' : Call}
      (hw : s.workers[place]? = some (.pinging slot hostname call part))
      (hcall : call'.outcome? = none) :
      Turn s place none (s.put place (.pinging slot hostname call' part))
  | answers {slot : Nat} {hostname version : String} {part : SweepTally} {call : Call}
      (hw : s.workers[place]? = some (.pinging slot hostname call part))
      (hversion : version.isEmpty = false) :
      Turn s place (some ⟨slot, hostname, .answered version⟩)
        ({ s with table := s.table.noteAlive slot version s.moment }.put place (.free part.succeed))
  | fails {slot : Nat} {hostname reason : String} {part : SweepTally} {call : Call}
      (hw : s.workers[place]? = some (.pinging slot hostname call part)) :
      Turn s place (some ⟨slot, hostname, .failed reason⟩)
        (s.put place (.free (part.fail hostname reason)))

theorem turn_next (hw : s.workers[place]? = some (.free part)) :
    Turn s place none (s.next place part) := by
  unfold next
  split
  · rename_i hq
    exact .leaves hw hq
  · rename_i slot queue hq
    dsimp only
    split
    · rename_i hstatus
      exact .passesBy hw hq hstatus
    · rename_i status hstatus
      exact .takes hw hq hstatus

theorem turn_answered {call : Call} {outcome : Except Fault ByteArray} {session : Nat}
    (hw : s.workers[place]? = some (.pinging slot hostname call part)) :
    Turn s place (some ⟨slot, hostname, .ofPing outcome⟩)
      (s.answered place slot hostname session part outcome).1 := by
  unfold answered Verdict.ofPing
  cases Method.ping.response? outcome with
  | error fault => exact .fails hw
  | ok reply =>
    cases hversion : reply.version.isEmpty with
    | true =>
      simp only [hversion, if_true]
      exact .fails hw
    | false =>
      simp only [hversion, Bool.false_eq_true, if_false]
      exact .answers hw hversion

theorem turn (s : Sweep) (m : Hearing) : Turn s m.place (s.visit? m) (s.after m) := by
  obtain ⟨now, place, need, signal⟩ := m
  cases hw : s.workers[place]? with
  | none =>
    simp only [after, hear, Sweep.visit?, hw]
    exact .rests
  | some worker =>
    cases worker with
    | free part =>
      simp only [after, hear, Sweep.visit?, hw]
      exact turn_next hw
    | looking slot hostname part =>
      cases signal with
      | peer session? =>
        cases session? with
        | none =>
          simp only [after, hear, Sweep.visit?, hw, found]
          exact .skips hw
        | some session =>
          simp only [after, hear, Sweep.visit?, hw, found]
          exact .pings hw rfl
      | _ =>
        simp only [after, hear, Sweep.visit?, hw]
        exact .rests
    | pinging slot hostname call part =>
      simp only [after, hear, Sweep.visit?, hw]
      cases houtcome : (call.hear need signal).1.outcome? with
      | none =>
        simp only [Option.map_none]
        exact .goesOn hw houtcome
      | some outcome =>
        simp only [Option.map_some]
        exact turn_answered hw
    | done =>
      simp only [after, hear, Sweep.visit?, hw]
      exact .rests

/-! ## How far a sweep is from its end -/

theorem left_put {w : SweepWorker} (hw : s.workers[place]? = some w) (new : SweepWorker) :
    (s.put place new).left + w.left = s.left + new.left := by
  have hsum := Lists.sum_map_set (b := new) hw SweepWorker.left
  simp only [left, put]
  omega

theorem left_next (hw : s.workers[place]? = some (.free part)) :
    (s.next place part).left < s.left := by
  unfold next
  split
  · have hput := left_put (s := { s with report := s.report.merge part }) hw .done
    simp only [left, SweepWorker.left] at hput ⊢
    omega
  · rename_i slot queue hq
    have hlength : s.queue.length = queue.length + 1 := by simp [hq]
    dsimp only
    split
    · have hput := left_put (s := { s with queue }) hw (.free part)
      simp only [left] at hput ⊢
      omega
    · rename_i status _
      have hput := left_put (s := { s with queue }) hw (.looking slot status.hostname part)
      simp only [left, SweepWorker.left] at hput ⊢
      omega

theorem left_found (hw : s.workers[place]? = some (.looking slot hostname part)) (now : Nat)
    (session? : Option Nat) : (s.found now place slot hostname part session?).left < s.left := by
  unfold found
  cases session? with
  | none =>
    have hput := left_put hw (.free part.skip)
    simp only [SweepWorker.left] at hput ⊢
    omega
  | some session =>
    have hput := left_put hw (.pinging slot hostname
      (.start session (Method.ping.envelope ()) s.limit now) part.attempt)
    simp only [SweepWorker.left] at hput ⊢
    omega

theorem left_answered {call : Call}
    (hw : s.workers[place]? = some (.pinging slot hostname call part))
    (session : Nat) (outcome : Except Fault ByteArray) :
    (s.answered place slot hostname session part outcome).1.left < s.left := by
  have hput : ∀ table part', ({ s with table }.put place (.free part')).left < s.left := by
    intro table part'
    have hput := left_put (s := { s with table }) hw (.free part')
    simp only [left, SweepWorker.left] at hput ⊢
    omega
  unfold answered
  split
  · split
    · exact hput s.table _
    · exact hput _ _
  · exact hput s.table _

theorem left_after (s : Sweep) (m : Hearing) : (s.after m).left ≤ s.left := by
  obtain ⟨now, place, need, signal⟩ := m
  simp only [after]
  cases hw : s.workers[place]? with
  | none => simp [hear, hw]
  | some worker =>
    cases worker with
    | free part =>
      simp only [hear, hw]
      exact Nat.le_of_lt (left_next hw)
    | looking slot hostname part =>
      cases signal with
      | peer session? =>
        simp only [hear, hw]
        exact Nat.le_of_lt (left_found hw now session?)
      | _ => simp [hear, hw]
    | pinging slot hostname call part =>
      simp only [hear, hw]
      split
      · have hput := left_put hw (.pinging slot hostname (call.hear need signal).1 part)
        simp only [SweepWorker.left] at hput
        exact Nat.le_of_eq (Nat.add_right_cancel hput)
      · exact Nat.le_of_lt (left_answered hw _ _)
    | done => simp [hear, hw]

/-- There are no more of the moves that bring the end nearer than were left. -/
theorem passings_le (s : Sweep) (moves : List Hearing) :
    s.passings moves + (moves.foldl after s).left ≤ s.left := by
  induction moves generalizing s with
  | nil => simp [passings]
  | cons m moves ih =>
    have hrest := ih (s.after m)
    have hle := s.left_after m
    simp only [passings, List.foldl_cons]
    split <;> omega

theorem left_manned (table : Roster) (count : Nat) (limit : Duration) (moment : Timestamp) :
    (manned table count limit moment).left = 3 * table.size + count := by
  simp [left, manned, SweepWorker.left]

/-- What a worker is at can be brought nearer to its end: it has something to wait for that comes
in any fabric, for a ping at its deadline at the latest. -/
theorem goes_on {w : SweepWorker} (hw : s.workers[place]? = some w)
    (hleft : w.left ≠ 0)
    (hcall : ∀ slot hostname call part, w = .pinging slot hostname call part →
      call.outcome? = none) :
    ∃ need ∈ w.needs, ∃ time, ∀ f : Fabric, time ≤ f.now → ∃ signal,
      (f.meet need).1 = some signal ∧ (s.after ⟨f.now, place, need, signal⟩).left < s.left := by
  cases w with
  | free part =>
    refine ⟨.turn, by simp [SweepWorker.needs], 0, ?_⟩
    intro f _
    refine ⟨.done, rfl, ?_⟩
    simp only [after, hear, hw]
    exact left_next hw
  | looking slot hostname part =>
    refine ⟨.peer hostname, by simp [SweepWorker.needs], 0, ?_⟩
    intro f _
    refine ⟨.peer (f.registry.get f.isClosed hostname).1, rfl, ?_⟩
    simp only [after, hear, hw]
    exact left_found hw _ _
  | pinging slot hostname call part =>
    refine ⟨.moment call.deadline, ?_, call.deadline, ?_⟩
    · simp [SweepWorker.needs, Call.needs_of_pending (hcall slot hostname call part rfl)]
    · intro f hnow
      refine ⟨.done, by simp [Fabric.meet, Fabric.signalIf, hnow], ?_⟩
      simp only [after, hear, hw, Call.hear, Call.conclude, Call.outcome?]
      exact left_answered hw _ _
  | done => simp [SweepWorker.left] at hleft

end Sweep

end Switchboard
