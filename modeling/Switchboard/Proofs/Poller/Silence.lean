import Switchboard.Proofs.Lifetime.Needs
import Switchboard.Proofs.Streams.Ends

/-!
# Calls that nobody answers

A peer that is there but says nothing: its session is open, takes requests and may grant a stream
and carry what is written, but nothing comes back. A call on such a session gets as far as it can
and then waits for its time to be up. `Call.turn` lists what it may hear until then; each of it but
the last brings the call nearer to where there is nothing left but the time (`Call.ahead`).
-/

namespace Switchboard

/-! ## Streams on which nothing is heard -/

namespace Mux

variable {c : Connection} {id room : Nat}

namespace Connection

/-- A stream is there and open both ways, and nothing has come that was not read. -/
def isMute (c : Connection) (id : Nat) : Bool :=
  c.running && (c.ends.find? (·.id = id)).any fun e =>
    e.phase.canRead && e.phase.canWrite && e.inbox.size = 0

theorem isMute_iff : c.isMute id = true ↔ c.running = true ∧
    ∃ e, c.ends.find? (·.id = id) = some e ∧
      e.phase.canRead = true ∧ e.phase.canWrite = true ∧ e.inbox.size = 0 := by
  unfold isMute
  cases c.ends.find? (·.id = id) <;> simp [and_assoc]

theorem read_of_mute (h : c.isMute id = true) (room : Nat) : (c.read id room).1 = .later := by
  obtain ⟨hrunning, e, he, hread, -, hempty⟩ := isMute_iff.1 h
  have hreads := e.reads_read room
  rw [hread] at hreads
  unfold read
  rw [act_fst, he, hrunning]
  dsimp only
  generalize (e.read room true).1 = result, (e.read room true).2.1.inbox = left at hreads
  cases hreads with
  | bytes there => exact absurd hempty there
  | ended nothing isOver => cases isOver
  | later => rfl

/-- Such a stream takes some of the bytes, or none as yet. -/
theorem write_of_mute (h : c.isMute id = true) {data : ByteArray} {start : Nat}
    (hstart : start < data.size) :
    (c.write id data start).1 = .later ∨ ∃ n, 0 < n ∧ (c.write id data start).1 = .now n := by
  obtain ⟨hrunning, e, he, -, hwrite, -⟩ := isMute_iff.1 h
  have hwrites := (e.writes_write hstart).1
  unfold write
  rw [act_fst, he, hrunning]
  dsimp only
  generalize (e.write data start true).1 = result at hwrites
  cases hwrites with
  | taken some_ bound => exact .inr ⟨_, some_, rfl⟩
  | refused isShut => rw [hwrite] at isShut; cases isShut
  | later => exact .inl rfl

end Connection

end Mux

namespace Fabric

/-- Nothing was heard on a stream of an open session. -/
def isMute (f : Fabric) (ref : StreamRef) : Bool :=
  (f.session? ref.session).any fun s => s.connection.isMute ref.stream

variable {f : Fabric} {ref : StreamRef} {id : Nat}

theorem meet_read_of_mute (h : f.isMute ref = true) (room : Nat) :
    (f.meet (.read ref room)).1 = none := by
  unfold isMute at h
  cases hs : f.session? ref.session with
  | none => simp [hs] at h
  | some s =>
    rw [hs, Option.any_some] at h
    change (f.onStream ref _ _).1 = none
    rw [meet_stream, hs, Option.map_some, Mux.Connection.read_of_mute h]
    rfl

theorem meet_write_of_mute (h : f.isMute ref = true) {data : ByteArray} {start : Nat}
    (hstart : start < data.size) :
    (f.meet (.write ref data start)).1 = none ∨
      ∃ n, 0 < n ∧ (f.meet (.write ref data start)).1 = some (.taken n) := by
  unfold isMute at h
  cases hs : f.session? ref.session with
  | none => simp [hs] at h
  | some s =>
    rw [hs, Option.any_some] at h
    have hmeet : (f.meet (.write ref data start)).1 =
        signalOf .taken (some (s.connection.write ref.stream data start).1) := by
      change (f.onStream ref _ _).1 = _
      rw [meet_stream, hs, Option.map_some]
    rw [hmeet]
    rcases Mux.Connection.write_of_mute h hstart with hlater | ⟨n, hn, hnow⟩
    · exact .inl (by rw [hlater]; rfl)
    · exact .inr ⟨n, hn, by rw [hnow]; rfl⟩

end Fabric

/-! ## Calls -/

/-- Nothing was said in reply at a stage: the request is on its way, or has gone. -/
def CallStage.IsUnanswered (request : ByteArray) : CallStage → Prop
  | asking | opening _ | reading .. => True
  | writing _ data sent => sent < data.size ∧ data.size ≤ request.size + 5
  | finishing .. | done _ => False

namespace Call

/-- The session of a call is open, and on its stream nothing was heard. -/
def isUnheard (f : Fabric) (call : Call) : Bool :=
  !f.isClosed call.session && match call.stage with
    | .writing ref _ _ | .reading ref _ => f.isMute ref
    | _ => true

/-- How far a call is from where there is nothing left but the time. -/
def ahead (call : Call) : Nat :=
  match call.stage with
  | .asking => call.request.size + 9
  | .opening _ => call.request.size + 8
  | .writing _ data sent => data.size - sent + 1
  | _ => 0

structure Unanswered (call : Call) : Prop where
  fits : call.request.size ≤ Frame.maxPayload
  stage : call.stage.IsUnanswered call.request

inductive Turn (now : Nat) (call : Call) (need : Need) (signal : Signal) : Prop where
  /-- It gets on. -/
  | goesOn (stage : CallStage) (hcall : call.hear need signal = ({ call with stage }, []))
      (hstage : stage.IsUnanswered call.request) (hahead : { call with stage }.ahead < call.ahead)
  /-- Its time is up. -/
  | givesUp (htime : call.deadline ≤ now) (hneed : need = .moment call.deadline)

variable {f f' : Fabric} {call : Call} {need : Need} {signal : Signal} {place : Nat}

theorem Unanswered.pending (h : call.Unanswered) : call.outcome? = none := by
  have hstage := h.stage
  unfold outcome?
  split
  · rename_i heq
    rw [heq] at hstage
    exact hstage.elim
  · rfl

/-- What brings the stage of an unanswered call to its end brings the call on. -/
theorem turn_of_meet (h : call.Unanswered) (hf : f.Sound) (hunheard : call.isUnheard f = true)
    (hmeet : (f.meet (call.stage.need call.session)).1 = some signal) (now : Nat) :
    Turn now call (call.stage.need call.session) signal := by
  obtain ⟨hopen, hstream⟩ := Bool.and_eq_true_iff.1 hunheard
  rw [Bool.not_eq_true'] at hopen
  have hstage := h.stage
  cases heq : call.stage with
  | asking =>
    rw [heq] at hmeet
    obtain ⟨n, hn⟩ := Fabric.meet_request_of_open hopen
    cases hn.symm.trans hmeet
    refine .goesOn (.opening n) (by simp [hear, CallStage.need, advance, heq]) trivial ?_
    simp [ahead, heq]
  | opening n =>
    rw [heq] at hmeet
    rcases Fabric.meet_granted_of_open hf hopen n with hnone | ⟨ref, href⟩
    · cases hnone.symm.trans hmeet
    · cases href.symm.trans hmeet
      obtain ⟨data, hsend, hsize⟩ := send_of_fits h.fits ref
      refine .goesOn (.writing ref data 0) ?_ ⟨by omega, by omega⟩ ?_
      · simp [hear, CallStage.need, advance, heq, hsend]
      · simp only [ahead, heq]
        omega
  | writing ref data sent =>
    rw [heq] at hmeet hstream hstage
    rcases Fabric.meet_write_of_mute hstream hstage.1 with hnone | ⟨n, hn, htaken⟩
    · cases hnone.symm.trans hmeet
    · cases htaken.symm.trans hmeet
      by_cases hall : data.size ≤ sent + n
      · refine .goesOn (.reading ref {}) ?_ trivial (by simp [ahead, heq])
        simp [hear, CallStage.need, advance, heq, hall]
      · refine .goesOn (.writing ref data (sent + n)) ?_ ⟨by omega, hstage.2⟩ ?_
        · simp [hear, CallStage.need, advance, heq, hall]
        · simp only [ahead, heq]
          omega
  | reading ref reader =>
    rw [heq] at hmeet hstream
    cases (Fabric.meet_read_of_mute hstream reader.room).symm.trans hmeet
  | finishing ref outcome =>
    rw [heq] at hstage
    exact hstage.elim
  | done outcome =>
    rw [heq] at hstage
    exact hstage.elim

theorem turn (h : call.Unanswered) (hf : f.Sound) (hunheard : call.isUnheard f = true)
    {p : Nat} (hmeet : f.meetFirst (call.needs.map (place, ·)) = (some (p, need, signal), f')) :
    Turn f.now call need signal := by
  obtain ⟨hopen, -⟩ := Bool.and_eq_true_iff.1 hunheard
  rw [Bool.not_eq_true'] at hopen
  rw [meetFirst_of_open h.pending hopen] at hmeet
  have hnow := f.meet_now (call.stage.need call.session)
  split at hmeet
  · rename_i heq
    cases hmeet
    exact turn_of_meet h hf hunheard (by rw [heq]) f.now
  · rename_i g heq
    rw [heq] at hnow
    split at hmeet
    · rename_i htime
      cases hmeet
      exact .givesUp (hnow ▸ htime) rfl
    · cases hmeet

end Call

end Switchboard
