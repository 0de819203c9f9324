import Switchboard.Errand
import Switchboard.Listener
import Switchboard.Poller.Heartbeat
import Switchboard.Service

/-!
# Tasks

Everything that runs beside the connections: calls, services, hostings, errands, sweeps and
heartbeats. A task waits for some needs at a time, and its outcome, if it has one, is kept for who
asks for it.
-/

namespace Switchboard

inductive Task where
  /-- A call that began at a moment. -/
  | call (call : Call) (since : Nat)
  | serving (serving : Serving)
  | hosting (hosting : Hosting)
  | service (service : Service)
  | errand (errand : Errand)
  | series (series : Series)
  | sweep (sweep : Sweep)
  | heartbeat (beat : Heartbeat)
  deriving Inhabited

namespace Task

/-- What a task waits for, first things first. The number tells the parts of a task apart. -/
def needs : Task → List (Nat × Need)
  | call c _ => c.needs.map ((0, ·))
  | serving s => s.needs.map ((0, ·))
  | hosting h => h.serving.needs.map ((0, ·))
  | service s => s.needs.map ((0, ·))
  | errand e => e.needs.map ((0, ·))
  | series s => s.needs.map ((0, ·))
  | sweep s => s.needs
  | heartbeat b => b.needs

def hear (now place : Nat) (need : Need) (signal : Signal) : Task → Task × List Deed
  | call c since => (c.hear need signal).map (call · since) id
  | serving s => (s.hear signal).map serving id
  | hosting h => (h.hear signal).map hosting id
  | service s => (s.hear now need signal).map service id
  | errand e => (e.hear signal).map errand id
  | series s => (s.hear now need signal).map series id
  | sweep s => (s.hear now place need signal).map sweep id
  | heartbeat b => (b.hear now place need signal).map heartbeat id

def release : Task → List Deed
  | call c _ => c.release
  | serving s => s.release
  | hosting h => h.release
  | service s => s.conclude.2
  | errand e => e.release
  | series s => s.errand.release
  | sweep s => s.release
  | heartbeat b => b.release

def outcome? (now : Nat) : Task → Option Outcome
  | call c since => c.outcome?.map fun outcome => .reply outcome (now - since)
  | serving s => if s.stage = .done then some .served else none
  | hosting h => if h.serving.stage = .done then some .served else none
  | service s => if s.isDone then some .ok else none
  | errand (.done outcome) => some outcome
  | errand _ => none
  | series s => s.outcome?
  | sweep s => s.report?.map fun report => .swept report s.table
  | heartbeat b =>
    match b.stage with
    | .done => some .ok
    | _ => none

/-- The session that a task holds on to. -/
def session? : Task → Option Nat
  | call c _ => some c.session
  | serving s => some s.session
  | hosting h => some h.serving.session
  | service _ => none
  | errand e => e.session?
  | series s => some s.session
  | sweep _ | heartbeat _ => none

end Task

end Switchboard
