import Mathlib.Data.List.Nodup
import Switchboard.Proofs.Envelope
import Switchboard.Proofs.Lifetime.Tasks
import Switchboard.Proofs.Traffic.Bystanders
import Switchboard.Proofs.Traffic.Hearing

/-!
# How calls end

Whatever the peer of a call sends on its stream, in whatever pieces, and whatever happens meanwhile,
a call ends for a reason that its peer, its session or the time has given, and leaves its session as
it was unless that is closed: `call_ends_for_a_reason`. `Follows.sound` carries the invariant along
a course, and `Promise` is what follows from it at each moment of the course. The moves of the task
that a call is on its fabric make up such a course (`Follows.stepTask`).

The reasons exclude each other as long as the peer says nothing after its end (`Ends.unique`). A
reply that has arrived in time is the outcome in all cases but one: while the stream is full, the
call cannot pass on that it is done, and its time may be up before it can
(`Ends.timeout_of_crowded`). `reply_lost` is a course that comes to this.
-/

namespace Switchboard

structure Session.TakesCalls (s : Session) : Prop where
  isOpen : s.isClosed = false
  sound : s.Sound
  tidy : s.Tidy

theorem Session.TakesCalls.start (key peerAddr : String) (role : Role) :
    (Session.start key peerAddr role).TakesCalls where
  isOpen := rfl
  sound := .start key peerAddr role
  tidy := .start key peerAddr role

/-- A session goes on to take calls as long as it is open, whatever its connection does. -/
theorem Session.TakesCalls.step {s s' : Session} {now : Nat} {input output input' output' : Pipe}
    (h : s.TakesCalls) (hstep : s.step now input output = some (s', input', output'))
    (hopen : s'.isClosed = false) : s'.TakesCalls where
  isOpen := hopen
  sound := (becomes_step hstep).sound h.sound
  tidy := (proceeds_step h.tidy hstep (Bool.or_eq_false_iff.1 hopen).1).tidy

namespace Exchange

open Mux

variable {t t₀ t' : Exchange} {f : Fabric} {s : Session} {n : Nat}
  {outcome : Except Fault ByteArray}

def start (session : Nat) (envelope : Envelope) (limit : Duration) (f : Fabric) : Exchange :=
  { fabric := f, call := .start session envelope limit f.now }

/-- The exchange once the call has looked so many times in a row. -/
def polls (t : Exchange) : Nat → Exchange
  | 0 => t
  | n + 1 => t.poll.2.polls n

theorem Others.takesCalls {s' : Session} (hothers : t.Others f) (hs : t.session? = some s)
    (h : s.TakesCalls) (hs' : f.session? t.call.session = some s') (hopen : s'.isClosed = false) :
    s'.TakesCalls := by
  obtain ⟨r, hr, hbecomes⟩ := hothers.becomes.goOn _ s hs
  cases hr.symm.trans hs'
  exact ⟨hopen, hbecomes.sound h.sound, (hothers.leaves s s' hs hs' hopen h.tidy).tidy⟩

theorem Sound.start {session : Nat} (hs : f.session? session = some s) (h : s.TakesCalls)
    (envelope : Envelope) (limit : Duration) : (start session envelope limit f).Sound where
  session := ⟨s, hs, h.sound, fun _ => ⟨h.tidy, nofun⟩⟩
  place := trivial
  stands := ⟨rfl, rfl⟩

/-! ## Polls -/

/-- **What a poll comes to**, whatever the stage. -/
theorem Sound.turns (h : t.Sound) (hpending : t.call.outcome? = none) :
    t.Turns t.poll.2 t.poll.1 := by
  cases hclosed : t.isClosed with
  | true => exact (turns_of_closed h hpending hclosed).1
  | false =>
    cases hstage : t.call.stage with
    | asking => exact turns_asking h hstage hclosed
    | opening request => exact turns_opening h hstage hclosed
    | writing ref data sent => exact turns_writing h hstage hclosed
    | reading ref reader => exact turns_reading h hstage hclosed
    | finishing ref outcome => exact turns_finishing h hstage hclosed
    | done outcome => rw [Call.outcome?, hstage] at hpending; cases hpending

theorem outcome?_cases (t : Exchange) :
    t.call.outcome? = none ∨ ∃ outcome, t.call.outcome? = some outcome := by
  cases t.call.outcome? with
  | none => exact .inl rfl
  | some outcome => exact .inr ⟨outcome, rfl⟩

/-! ## Only one reason -/

/-- What an exchange has come to if its peer says nothing more once it is done: nothing yet, or an
outcome. -/
def verdict? (t : Exchange) : Option (Except Fault ByteArray) :=
  if t.sent < t.call.request.size + Frame.headerSize then
    if t.streamEnd?.isNone then none
    else if Frame.maxPayload < t.call.request.size then
      some (.error (.transport (Frame.tooLarge .invalidInput t.call.request.size)))
    else if t.isShut && !t.isFull then some (.error (.transport StreamEnd.writeFault))
    else none
  else
    match Frame.decode t.arrived with
    | .error fault => some (.error (.transport fault))
    | .ok (some (frame, _)) => if t.isCrowded then none else some (Call.reply (.frame frame))
    | .ok none =>
      if !t.isOver then none
      else if t.arrived.size ≠ 0 then some (.error (.transport (endedInside t.arrived.size)))
      else if t.isCrowded then none
      else some (Call.reply .ended)

theorem verdict?_of_frame {frame : Frame} {rest : ByteArray}
    (written : t.sent = t.call.request.size + Frame.headerSize)
    (begins : Frame.decode t.arrived = .ok (some (frame, rest))) :
    t.verdict? = if t.isCrowded then none else some (Call.reply (.frame frame)) := by
  rw [verdict?, if_neg (Nat.not_lt.2 (Nat.le_of_eq written.symm)), begins]

theorem verdict?_of_none (written : t.sent = t.call.request.size + Frame.headerSize)
    (undecided : Frame.decode t.arrived = .ok none) :
    t.verdict? =
      if !t.isOver then none
      else if t.arrived.size ≠ 0 then some (.error (.transport (endedInside t.arrived.size)))
      else if t.isCrowded then none
      else some (Call.reply .ended) := by
  rw [verdict?, if_neg (Nat.not_lt.2 (Nat.le_of_eq written.symm)), undecided]

theorem decode_of_empty {data : ByteArray} (h : data.size = 0) : Frame.decode data = .ok none := by
  rw [ByteArray.size_eq_zero_iff.1 h]
  rfl

theorem streamEnd?_of_any {p : StreamEnd → Bool} (h : t.streamEnd?.any p = true) :
    t.streamEnd?.isNone = false := by
  cases hend : t.streamEnd? with
  | none => rw [hend] at h; cases h
  | some e => rfl

theorem Waits.verdict? (h : t.Waits) (hopen : t.isClosed = false) (hquiet : t.spokeOn = false) :
    t.verdict? = none := by
  cases h with
  | opens nothing unopened =>
    have hleft : t.sent < t.call.request.size + Frame.headerSize := by
      rw [nothing]
      exact Nat.lt_add_left _ (by decide)
    rw [Exchange.verdict?, if_pos hleft, unopened]
    rfl
  | writes fits left full =>
    rw [Exchange.verdict?, if_pos left, streamEnd?_of_any full, if_neg (Nat.not_lt.2 fits), full]
    simp
  | listens written undecided goesOn =>
    rw [verdict?_of_none written undecided, goesOn]
    rfl
  | finishes written settles crowded =>
    cases settles with
    | frame begins =>
      have harrived := Frame.decode_append_some
        ((t.streamEnd?.map (·.inbox)).getD ByteArray.empty) begins
      rw [verdict?_of_frame written harrived, if_pos crowded]
    | ended unread isOver empty =>
      have hempty := empty hopen hquiet
      rw [verdict?_of_none written (decode_of_empty hempty), isOver hopen, hempty, crowded]
      rfl

/-- An outcome is what the exchange has come to, or that its time is up. -/
theorem Ends.eq_verdict (h : t.Ends outcome) (hopen : t.isClosed = false)
    (hquiet : t.spokeOn = false) :
    outcome = t.verdict?.getD (.error (.timeout t.call.limit)) := by
  have hframe : ∀ {frame : Frame} {rest : ByteArray}, t.Written →
      Frame.decode t.arrived = .ok (some (frame, rest)) →
      Call.reply (.frame frame) = t.verdict?.getD (.error (.timeout t.call.limit)) := by
    intro frame rest written begins
    rw [verdict?_of_frame written.all begins, written.free]
    rfl
  cases h with
  | closed closed => rw [hopen] at closed; cases closed
  | tooLarge large nothing opened =>
    have hleft : t.sent < t.call.request.size + Frame.headerSize := by
      rw [nothing]
      exact Nat.lt_add_left _ (by decide)
    have hsome : t.streamEnd?.isNone = false := by
      cases hend : t.streamEnd? with
      | none => rw [hend] at opened; cases opened
      | some e => rfl
    rw [verdict?, if_pos hleft, hsome, if_pos large]
    rfl
  | unwritten fits left shut room =>
    rw [verdict?, if_pos left, streamEnd?_of_any shut, if_neg (Nat.not_lt.2 fits), shut, room]
    rfl
  | response written begins => exact hframe written begins
  | remote written begins => exact hframe written begins
  | request written begins => exact hframe written begins
  | nothing written isOver unread empty =>
    rw [verdict?_of_none written.all (decode_of_empty (empty hquiet)), isOver, empty hquiet,
      written.free]
    rfl
  | invalid written header kind =>
    rw [verdict?, if_neg (Nat.not_lt.2 (Nat.le_of_eq written.symm)), header]
    rfl
  | cutOff written isOver begun inside =>
    rw [verdict?_of_none written inside, isOver, if_pos begun]
    rfl
  | late due waits =>
    rw [waits.verdict? hopen hquiet]
    rfl

theorem Ends.unique {outcome' : Except Fault ByteArray} (h : t.Ends outcome)
    (h' : t.Ends outcome') (hopen : t.isClosed = false) (hquiet : t.spokeOn = false) :
    outcome = outcome' :=
  (h.eq_verdict hopen hquiet).trans (h'.eq_verdict hopen hquiet).symm

/-- A reply that is there in time is lost as long as the call cannot pass on that it is done. -/
theorem Ends.timeout_of_crowded {frame : Frame} {rest : ByteArray} (h : t.Ends outcome)
    (hopen : t.isClosed = false) (hquiet : t.spokeOn = false)
    (hwritten : t.sent = t.call.request.size + Frame.headerSize)
    (hbegins : Frame.decode t.arrived = .ok (some (frame, rest))) (hcrowded : t.isCrowded = true) :
    outcome = .error (.timeout t.call.limit) := by
  rw [h.eq_verdict hopen hquiet, verdict?_of_frame hwritten hbegins, if_pos hcrowded]
  rfl

/-! ## Courses -/

/-- What a course keeps: the exchange is sound, and each time that the call heard something it got
on. -/
theorem Follows.sound (h : t₀.Follows n t) (h₀ : t₀.Sound) : t.Sound ∧ n ≤ t.progress := by
  induction h with
  | here => exact ⟨h₀, Nat.zero_le _⟩
  | @poll n t h ih =>
    obtain ⟨hsound, hprogress⟩ := ih
    rcases t.outcome?_cases with hpending | ⟨outcome, hdone⟩
    · have hturns := hsound.turns hpending
      exact ⟨hturns.sound, Nat.le_trans (Nat.add_le_add_right hprogress _) hturns.progress⟩
    · rw [poll_of_done hdone]
      exact ⟨hsound, hprogress⟩
  | work h ih => exact ⟨ih.1.worked.1, ih.2⟩
  | others h hothers ih => exact ⟨(ih.1.others hothers).1, ih.2⟩

theorem Follows.call (h : t₀.Follows n t) (h₀ : t₀.Sound) :
    ∃ stage, t.call = { t₀.call with stage } := by
  induction h with
  | here => exact ⟨t₀.call.stage, rfl⟩
  | @poll n t h ih =>
    obtain ⟨stage, hcall⟩ := ih
    rcases t.outcome?_cases with hpending | ⟨outcome, hdone⟩
    · obtain ⟨stage', hcall'⟩ := ((h.sound h₀).1.turns hpending).call
      exact ⟨stage', by rw [hcall', hcall]⟩
    · rw [poll_of_done hdone]
      exact ⟨stage, hcall⟩
  | work h ih => exact ih
  | others h hothers ih => exact ih

/-- A call that ends while it cannot pass on that it is done has lost its reply. -/
theorem Follows.timeout_of_crowded {frame : Frame} {rest : ByteArray} (h : t₀.Follows n t)
    (h₀ : t₀.Sound) (hpending : t.call.outcome? = none) (hopen : t.isClosed = false)
    (hquiet : t.spokeOn = false) (hwritten : t.sent = t₀.call.request.size + Frame.headerSize)
    (hbegins : Frame.decode t.arrived = .ok (some (frame, rest))) (hcrowded : t.isCrowded = true)
    (hdone : t.poll.2.call.outcome?.isSome = true) :
    t.poll.2.call.outcome? = some (.error (.timeout t₀.call.limit)) := by
  obtain ⟨outcome, houtcome⟩ := Option.isSome_iff_exists.1 hdone
  obtain ⟨stage, hcall⟩ := h.call h₀
  have hends := ((h.sound h₀).1.turns hpending).ends outcome houtcome
  have hall : t.sent = t.call.request.size + Frame.headerSize := by rw [hwritten, hcall]
  rw [houtcome, hends.timeout_of_crowded hopen hquiet hall hbegins hcrowded, hcall]

theorem poll_now (t : Exchange) : t.poll.2.fabric.now = t.fabric.now := by
  have hmeet := Fabric.meetFirst_now (t.call.needs.map ((0, ·))) t.fabric
  unfold poll
  split
  · rename_i heq
    rw [heq] at hmeet
    exact (Fabric.performs_now _ _).trans hmeet
  · rename_i heq
    rw [heq] at hmeet
    exact hmeet

/-- A call that goes on has not got further than what there is to write and to read. -/
theorem Sound.progress_lt (h : t.Sound) (hpending : t.call.outcome? = none) :
    t.progress < t.call.request.size + Frame.headerSize + t.arrived.size + 5 := by
  have hsent : t.sent ≤ t.call.request.size + Frame.headerSize := by
    have hstands := h.stands
    cases hstage : t.call.stage with
    | asking => rw [hstage] at hstands; rw [hstands.1]; exact Nat.zero_le _
    | opening request => rw [hstage] at hstands; rw [hstands.1]; exact Nat.zero_le _
    | writing ref data sent =>
      rw [hstage] at hstands
      obtain ⟨hencode, hsent, hlt, -⟩ := hstands
      rw [← size_of_encode hencode, hsent]
      exact Nat.le_of_lt hlt
    | reading ref reader => rw [hstage] at hstands; exact Nat.le_of_eq hstands.1
    | finishing ref outcome => rw [hstage] at hstands; exact Nat.le_of_eq hstands.1
    | done outcome => rw [Call.outcome?, hstage] at hpending; cases hpending
  have hread : t.read.size ≤ t.arrived.size := ByteArray.size_append ▸ Nat.le_add_right _ _
  have hrank := rank_lt_of_pending hpending
  unfold progress
  omega

/-- Looks that a call gets on by come to an end: it ends, or there is nothing more to hear. -/
theorem Sound.soon (h : t.Sound) (hpending : t.call.outcome? = none) (budget : Nat)
    (hbudget : t.call.request.size + Frame.headerSize + t.arrived.size + 5 ≤ t.progress + budget) :
    ∃ m ≤ budget, (t.polls m).call.outcome? = none ∧ (t.polls m).arrived = t.arrived ∧
      ((t.polls m).poll.2.call.outcome?.isSome = true ∨
        t.fabric.now < t.call.deadline ∧ (t.polls m).Waits) := by
  induction budget generalizing t with
  | zero => exact absurd (h.progress_lt hpending) (Nat.not_lt.2 hbudget)
  | succ budget ih =>
    have hturns := h.turns hpending
    rcases t.poll.2.outcome?_cases with hgoesOn | ⟨outcome, hdone⟩
    · cases hheard : t.poll.1 with
      | false => exact ⟨0, Nat.zero_le _, hpending, rfl, .inr (hturns.rests hheard)⟩
      | true =>
        have hopen : t.isClosed = false := by
          cases hclosed : t.isClosed with
          | false => rfl
          | true => cases hgoesOn.symm.trans (turns_of_closed h hpending hclosed).2
        have harrived := hturns.arrived hopen hgoesOn
        have hprogress := hturns.progress
        obtain ⟨stage, hcall⟩ := hturns.call
        rw [hheard, Bool.toNat_true] at hprogress
        obtain ⟨m, hm, hm_pending, hm_arrived, hm_rests⟩ :=
          ih hturns.sound hgoesOn (by rw [harrived, hcall]; dsimp only; omega)
        rw [t.poll_now, hcall] at hm_rests
        exact ⟨m + 1, Nat.succ_le_succ hm, hm_pending, hm_arrived.trans harrived, hm_rests⟩
    · exact ⟨0, Nat.zero_le _, hpending, rfl, .inl (Option.isSome_iff_exists.2 ⟨_, hdone⟩)⟩

theorem Sound.open_of_becomes (h : t.Sound) (hbecomes : t.fabric.Becomes f)
    (hopen : (t.on f).isClosed = false) : t.isClosed = false := by
  obtain ⟨s, hs, -⟩ := h.session
  cases hclosed : t.isClosed with
  | false => rfl
  | true => cases hopen.symm.trans (hbecomes.isClosed hs hclosed)

theorem Follows.arrived (h : t₀.Follows n t) (h₀ : t₀.Sound) (hpending : t.call.outcome? = none)
    (hopen : t.isClosed = false) : ∃ more, t.arrived = t₀.arrived ++ more := by
  induction h with
  | here => exact ⟨.empty, ByteArray.append_empty.symm⟩
  | @poll n t h ih =>
    obtain ⟨hsound, -⟩ := h.sound h₀
    rcases t.outcome?_cases with hgoesOn | ⟨outcome, hdone⟩
    · have hturns := hsound.turns hgoesOn
      have hopen := hturns.closed.symm.trans hopen
      obtain ⟨more, hmore⟩ := ih hgoesOn hopen
      exact ⟨more, (hturns.arrived hopen hpending).trans hmore⟩
    · rw [poll_of_done hdone] at hpending
      cases hpending.symm.trans hdone
  | @work n t h ih =>
    obtain ⟨hsound, -⟩ := h.sound h₀
    obtain ⟨more, hmore⟩ := hsound.worked.2 hopen
    obtain ⟨more₀, hmore₀⟩ := ih hpending
      (hsound.open_of_becomes (Fabric.becomes_stepSession _ _) hopen)
    exact ⟨more₀ ++ more, by rw [hmore, hmore₀, ByteArray.append_assoc]⟩
  | @others n t f h hothers ih =>
    obtain ⟨hsound, -⟩ := h.sound h₀
    obtain ⟨more, hmore⟩ := ih hpending (hsound.open_of_becomes hothers.becomes hopen)
    exact ⟨more, ((hsound.others hothers).2 hopen).trans hmore⟩

/-! ## The promise -/

/-- What is said of a call that has not ended and has heard something so many times. -/
structure Promise (n : Nat) (t : Exchange) : Prop where
  /-- If it ends now, there is a reason for it, -/
  ends : ∀ outcome, t.poll.2.call.outcome? = some outcome → t.Ends outcome
  /-- and not two, unless the peer has said something after its end. -/
  only : t.isClosed = false → t.spokeOn = false →
    ∀ outcome outcome', t.Ends outcome → t.Ends outcome' → outcome = outcome'
  /-- That its session is closed goes before all else. -/
  closed : t.isClosed = true → t.poll.2.call.outcome? = some (.error .closed)
  /-- It waits only while its time is not up, for a reason too, -/
  waits : t.poll.1 = false → t.isClosed = false ∧ t.fabric.now < t.call.deadline ∧ t.Waits
  /-- and ends or waits after so many looks at most that bring something; when its time is up, it
  ends. -/
  soon : ∃ m ≤ t.call.request.size + Frame.headerSize + t.arrived.size + 5,
    (t.polls m).call.outcome? = none ∧ (t.polls m).arrived = t.arrived ∧
      ((t.polls m).poll.2.call.outcome?.isSome = true ∨
        t.fabric.now < t.call.deadline ∧ (t.polls m).Waits)
  bounded : n < t.call.request.size + Frame.headerSize + t.arrived.size + 5
  /-- Nothing that has arrived is lost. -/
  keeps : ∀ n' t', t.Follows n' t' → t'.call.outcome? = none → t'.isClosed = false →
    ∃ more, t'.arrived = t.arrived ++ more
  /-- When it ends, calls can be made on its session as before, and its stream is let go of, unless
  it ends because the session is closed. -/
  usable : ∀ outcome, t.poll.2.call.outcome? = some outcome → outcome ≠ .error .closed →
    ∃ s, t.poll.2.session? = some s ∧ s.TakesCalls ∧
      ∀ r k, t.session? = some r → t.call.stage.stream? r = some k → ¬ s.connection.Holds k

theorem Sound.usable (h : t.Sound) (hpending : t.call.outcome? = none)
    (hdone : t.poll.2.call.outcome? = some outcome) (hreason : outcome ≠ .error .closed) :
    ∃ s, t.poll.2.session? = some s ∧ s.TakesCalls ∧
      ∀ r k, t.session? = some r → t.call.stage.stream? r = some k → ¬ s.connection.Holds k := by
  have hturns := h.turns hpending
  have hopen : t.isClosed = false := by
    cases hclosed : t.isClosed with
    | false => rfl
    | true =>
      cases hdone.symm.trans (turns_of_closed h hpending hclosed).2
      exact absurd rfl hreason
  obtain ⟨s, hs, hsound, hserves⟩ := hturns.sound.session
  have hopens : s.isClosed = false :=
    (isClosed_eq hs).symm.trans (hturns.closed.trans hopen)
  exact ⟨s, hs, ⟨hopens, hsound, (hserves hopens).tidy⟩, fun r k hr hk =>
    hturns.letsGo hopen (Option.isSome_iff_exists.2 ⟨_, hdone⟩) r s k hr hs hk⟩

/-- **How calls end.** A call is made on an open session. Its peer does what it likes and so do all
others, so long as they leave the call its stream, and anybody moves at any time. Then whenever the
call looks, `Promise` holds of it. -/
theorem call_ends_for_a_reason {session : Nat} {envelope : Envelope} {limit : Duration}
    (hs : f.session? session = some s) (h : s.TakesCalls)
    (hcourse : (start session envelope limit f).Follows n t) (hpending : t.call.outcome? = none) :
    (∃ stage, t.call = { Call.start session envelope limit f.now with stage }) ∧ t.Promise n := by
  have h₀ := Sound.start hs h envelope limit
  obtain ⟨hsound, hprogress⟩ := hcourse.sound h₀
  have hturns := hsound.turns hpending
  refine ⟨hcourse.call h₀, ⟨hturns.ends, fun hopen hquiet _ _ ho ho' => ho.unique ho' hopen hquiet,
    fun hclosed => (turns_of_closed hsound hpending hclosed).2, fun hrests => ?_,
    hsound.soon hpending _ (Nat.le_add_left _ _),
    Nat.lt_of_le_of_lt hprogress (hsound.progress_lt hpending),
    fun _ _ hmore => hmore.arrived hsound, fun _ => hsound.usable hpending⟩⟩
  obtain ⟨hdue, hwaits⟩ := hturns.rests hrests
  refine ⟨?_, hdue, hwaits⟩
  cases hclosed : t.isClosed with
  | false => rfl
  | true =>
    obtain ⟨s, hs, hsound', -⟩ := hsound.session
    have hcancelled := hsound'.cancelled ((isClosed_eq hs).symm.trans hclosed)
    rw [poll_of_closed hpending hs hcancelled] at hrests
    cases hrests

/-! ## The task of a call -/

/-- A move of the task of a call is a look of the call, after which the task ends or goes on; a task
that there is no time for is stopped. -/
theorem stepTask_eq_poll {i since : Nat} {r : Runner} (hr : t.fabric.runner? i = some r)
    (htask : r.task = .call t.call since) (hpending : t.call.outcome? = none) :
    t.fabric.stepTask i =
      if t.poll.1 then (true, t.poll.2.fabric.settleTask i (.call t.poll.2.call since))
      else if r.limit.any (· ≤ t.poll.2.fabric.now) then (true, t.poll.2.fabric.stop i .pending)
      else (false, t.poll.2.fabric) := by
  have hfind : t.fabric.runners.find? (·.id = i) = some r := hr
  have hrunning : (Task.call t.call since).outcome? t.fabric.now = none := by
    rw [Task.outcome?, hpending]
    rfl
  unfold Fabric.stepTask poll
  rw [hfind]
  simp only [htask, hrunning, Option.isSome_none, Bool.false_eq_true, if_false, Task.needs]
  rcases t.fabric.meetFirst (t.call.needs.map ((0, ·))) with ⟨_ | ⟨place, need, signal⟩, f⟩
  · rfl
  · -- A call only lets go of things, so what the task is meanwhile does not matter.
    have hdeeds : ∀ deed ∈ (t.call.hear need signal).2,
        (∃ ref, deed = .drop ref) ∨ ∃ id request, deed = .abandon id request :=
      fun _ => Call.deeds_of_hear
    simp only [if_true, Task.hear, Prod.map, id]
    rw [Fabric.performs_putTask hdeeds, Fabric.settleTask_putTask]
    rfl

theorem poll_call (h : t.poll.1 = false) : t.poll.2.call = t.call := by
  unfold poll at h ⊢
  split at h
  · cases h
  · rfl

theorem poll_runner? {i : Nat} {r : Runner} (hf : t.fabric.Orderly)
    (hr : t.fabric.runner? i = some r) : t.poll.2.fabric.runner? i = some r := by
  have hi := hf.lt_next hr
  have hmeet : t.fabric.Spares none (t.fabric.meetFirst (t.call.needs.map ((0, ·)))).2 :=
    Fabric.spares_meetFirst hf _
  unfold poll
  split
  · rename_i f heq
    rw [heq] at hmeet
    have hdeeds (deeds : List Deed) : f.Spares none (deeds.foldl Fabric.perform f) :=
      .foldl Fabric.spares_perform deeds hmeet.orderly
    exact ((hmeet.trans (hdeeds _)).others i hi (by simp)).1.trans hr
  · rename_i heq
    rw [heq] at hmeet
    exact (hmeet.others i hi (by simp)).1.trans hr

/-- Each move of the task of a call is one of the course that its call takes, until the task ends
with what the call has come to. -/
theorem Follows.stepTask {i since : Nat} {r : Runner} (h : t₀.Follows n t) (h₀ : t₀.Sound)
    (hf : t.fabric.Orderly) (hr : t.fabric.runner? i = some r)
    (htask : r.task = .call t.call since) (hlimit : r.limit = none)
    (hpending : t.call.outcome? = none) :
    (t.poll.2.call.outcome? = none ∧
      (∃ n', t₀.Follows n' (t.poll.2.on (t.fabric.stepTask i).2)) ∧
      (t.fabric.stepTask i).2.runner? i = some { r with task := .call t.poll.2.call since }) ∨
    ∃ outcome, t.Ends outcome ∧ (t.fabric.stepTask i).2 =
      t.poll.2.fabric.retire i (.reply outcome (t.fabric.now - since)) := by
  have hrunner := poll_runner? hf hr
  have hstep : (t.fabric.stepTask i).2 =
      if t.poll.1 then t.poll.2.fabric.settleTask i (.call t.poll.2.call since)
      else t.poll.2.fabric := by
    rw [stepTask_eq_poll hr htask hpending, hlimit]
    cases t.poll.1 <;> rfl
  rw [hstep]
  rcases t.poll.2.outcome?_cases with hgoesOn | ⟨outcome, hdone⟩
  · refine .inl ⟨hgoesOn, ?_⟩
    cases hheard : t.poll.1 with
    | false =>
      refine ⟨⟨_, h.poll⟩, ?_⟩
      rw [poll_call hheard, ← htask]
      exact hrunner
    | true =>
      have hsettle : t.poll.2.fabric.settleTask i (.call t.poll.2.call since) =
          t.poll.2.fabric.putTask i (.call t.poll.2.call since) := by
        rw [Fabric.settleTask, Task.outcome?, hgoesOn]
        rfl
      rw [if_pos rfl, hsettle]
      refine ⟨⟨_, h.poll.others (others_of_seats rfl (Nat.le_refl _))⟩, ?_⟩
      rw [Fabric.runner?_putTask, if_pos rfl, hrunner]
      rfl
  · refine .inr ⟨outcome, ((h.sound h₀).1.turns hpending).ends outcome hdone, ?_⟩
    have hheard : t.poll.1 = true := by
      cases hheard : t.poll.1 with
      | true => rfl
      | false => cases (poll_call hheard ▸ hdone).symm.trans hpending
    rw [if_pos hheard, Fabric.settleTask, Task.outcome?, hdone, t.poll_now]
    rfl

/-! ## A course -/

/-- What comes next in a course: the call looks, the connection makes a move, the peer puts bytes
into the channel that the session of the call reads, or time passes. -/
inductive Event where
  | look
  | work
  | send (bytes : ByteArray)
  | pass (time : Nat)

def after (t : Exchange) : Event → Exchange
  | .look => t.poll.2
  | .work => t.worked
  | .send bytes => t.on { t.fabric with
      pipes := t.fabric.pipes.modify 0 fun pipe => { pipe with data := pipe.data ++ bytes } }
  | .pass time => t.on { t.fabric with now := t.fabric.now + time }

theorem follows_events (events : List Event) (h : t₀.Follows n t) :
    ∃ n', t₀.Follows n' (events.foldl after t) := by
  induction events generalizing n t with
  | nil => exact ⟨n, h⟩
  | cons event events ih =>
    cases event with
    | look => exact ih h.poll
    | work => exact ih h.work
    | send bytes => exact ih (h.others (others_of_seats rfl (Nat.le_refl _)))
    | pass time => exact ih (h.others (others_of_seats rfl (Nat.le_add_right _ _)))

/-- A session and the two channels between it and its peer, of which the second has some room. -/
def wire (room : Nat) : Fabric :=
  { pipes := #[{ capacity := 4096 }, { capacity := room }]
    seats := #[⟨Session.start "nas01" "mem" .client, 0, 1⟩] }

def answered : List Event :=
  [.look, .work, .work, .work, .work, .look, .look] ++ List.replicate 8 .work ++
    [.send (Packet.data 1 { acknowledges := true } ⟨#[2, 0, 0]⟩).encode, .work, .work, .work, .work,
      .work, .look, .pass 2999, .look, .send (Packet.data 1 {} ⟨#[0, 2, 7, 9]⟩).encode,
      .work, .work, .work, .work, .work, .pass 1, .look]

theorem call_ends_for_a_reason_answered : ∃ n t,
    (start 0 ⟨"ping", .empty⟩ (.ofSecs 3) (wire 4096)).Follows n t ∧
      t.call.deadline ≤ t.fabric.now ∧ t.poll.2.call.outcome? = some (.ok ⟨#[7, 9]⟩) ∧
      t.Promise n := by
  obtain ⟨n, hcourse⟩ := follows_events answered
    (.here : (start 0 ⟨"ping", .empty⟩ (.ofSecs 3) (wire 4096)).Follows 0 _)
  have hrun : (let t := answered.foldl after (start 0 ⟨"ping", .empty⟩ (.ofSecs 3) (wire 4096))
      (t.call.outcome?, decide (t.call.deadline ≤ t.fabric.now), t.poll.2.call.outcome?)) =
        (none, true, some (.ok ⟨#[7, 9]⟩)) := by decide +kernel
  obtain ⟨hpending, hlate, hanswer⟩ : _ ∧ _ ∧ _ := by simpa only [Prod.mk.injEq] using hrun
  exact ⟨n, _, hcourse, of_decide_eq_true hlate, hanswer,
    (call_ends_for_a_reason rfl (.start _ _ _) hcourse hpending).2⟩

/-! ## A reply that is lost

A peer that takes nothing lets the connection write nothing, so the packets of a request pile up
until no word fits behind them that the call is done. What the peer sends is read all the same.
-/

/-- What a look comes to when the call lets go of nothing. -/
theorem look_of_hear {signal : Signal} {call : Call} (hpending : t.call.outcome? = none)
    (hopen : t.isClosed = false)
    (hmeet : t.fabric.meet (t.call.stage.need t.call.session) = (some signal, f))
    (hhear : t.call.hear (t.call.stage.need t.call.session) signal = (call, [])) :
    t.after .look = { t.told signal with fabric := f, call } := by
  unfold after
  rw [poll_of_met hpending hopen hmeet]
  exact hear_eq hhear f

/-- A connection that writes the answer to a ping, behind which waits word that an earlier stream
was let go of. -/
def blocked (c : Mux.Connection) : Mux.Connection :=
  { c with
    outbox := ({ kind := .ping, marks := { acknowledges := true } } : Packet).encode
    packet? := some (.data 1 { resets := true } .empty) }

/-- A session with such a connection, before the call. -/
def idle : Session :=
  { Session.start "nas01" "mem" .client with
    connection := blocked { Mux.Connection.ofRole .client with nextStream := 3 } }

theorem idle_takesCalls : idle.TakesCalls where
  isOpen := rfl
  sound := ⟨nofun, nofun, nofun⟩
  tidy := ⟨⟨rfl, rfl, nofun, nofun⟩, ⟨List.nodup_nil, nofun⟩⟩

/-- The session and its channels, of which the second takes nothing. -/
def stalled (s : Session) : Fabric :=
  { pipes := #[{ capacity := 4096 }, { capacity := 0 }]
    seats := #[⟨s, 0, 1⟩] }

/-- The call on it, when the stream has taken so many full packets of its request. -/
def calling (envelope : Envelope) (s : Session) (k : Nat) (stage : CallStage) : Exchange :=
  { fabric := stalled s
    call := { Call.start 0 envelope (.ofSecs 3) 0 with stage }
    sent := k * packetShare }

section Crowding

variable {envelope : Envelope} {data : ByteArray} {k : Nat}

/-- The packet that takes the next part of the frame of the request. -/
def part (data : ByteArray) (k : Nat) : Packet :=
  .data 3 (if k = 0 then Announcement.opens else .nothing).marks
    (data.extract (k * packetShare) (k * packetShare + packetShare))

/-- The end of the stream when so many of them wait. -/
def filling (k : Nat) : StreamEnd :=
  { id := 3
    announcement := if k = 0 then .opens else .nothing
    sendCredit := initialCredit - k * packetShare
    outstanding := k }

def crowding (data : ByteArray) (k : Nat) : Session :=
  { idle with
    openings := { next := 1 }
    activity := .granting
    connection := { idle.connection with
      nextStream := 5
      ends := [filling k]
      orders := (List.range k).map fun i => (3, .send (part data i))
      woken := k ≠ 0 } }

/-- The session when the stream was granted and the call does not know it yet. -/
def granting (data : ByteArray) : Session :=
  { crowding data 0 with openings := { next := 1, answers := [(0, some 3)] } }

/-- The call asks for a stream, and the connection grants it one. -/
theorem asks (envelope : Envelope) (data : ByteArray) :
    [Event.look, .work, .work].foldl after (start 0 envelope (.ofSecs 3) (stalled idle)) =
      calling envelope (granting data) 0 (.opening 0) := by
  let queued : Session :=
    { idle with openings := { next := 1, queued := [0], awaited := [0] } }
  let waiting : Session :=
    { idle with
      openings := { next := 1, waiting := [0], awaited := [0] }
      connection := { idle.connection with woken := false }
      activity := .granting }
  have hask : (start 0 envelope (.ofSecs 3) (stalled idle)).after .look =
      calling envelope queued 0 (.opening 0) := by
    rfl
  have hbegin : (calling envelope queued 0 (.opening 0)).after .work =
      calling envelope waiting 0 (.opening 0) := by
    rfl
  have hgrant : (calling envelope waiting 0 (.opening 0)).after .work =
      calling envelope (granting data) 0 (.opening 0) := by
    rfl
  rw [List.foldl_cons, hask, List.foldl_cons, hbegin, List.foldl_cons, hgrant, List.foldl_nil]

/-- What the call is at when the stream has taken so many packets of eleven. -/
def putting (data : ByteArray) (k : Nat) : CallStage :=
  if k < orderLimit then .writing ⟨0, 3⟩ data (k * packetShare) else .reading ⟨0, 3⟩ {}

theorem look_of_granting (hencode : (Frame.request envelope.encode).encode = .ok data) :
    (calling envelope (granting data) 0 (.opening 0)).after .look =
      calling envelope (crowding data 0) 0 (putting data 0) := by
  have hhear : (calling envelope (granting data) 0 (.opening 0)).call.hear (.granted 0 0)
      (.stream ⟨0, 3⟩) = ((calling envelope (crowding data 0) 0 (putting data 0)).call, []) := by
    have hstage : putting data 0 = .writing ⟨0, 3⟩ data 0 := rfl
    simp only [Call.hear, Call.advance, Call.send, calling, Call.start, hencode, hstage]
  have hmeet : (stalled (granting data)).meet (.granted 0 0) =
      (some (.stream ⟨0, 3⟩), stalled (crowding data 0)) := by
    rfl
  rw [look_of_hear (t := calling envelope (granting data) 0 (.opening 0)) rfl rfl hmeet hhear]
  rfl

theorem write_filling (hsize : data.size = orderLimit * packetShare) (hk : k < orderLimit) :
    (filling k).write data (k * packetShare) true =
      (.now packetShare, filling (k + 1), some (.send (part data k))) := by
  have hcredit : packetShare ≤ initialCredit - k * packetShare := by
    unfold initialCredit packetShare orderLimit at *
    omega
  have hsome : initialCredit - k * packetShare ≠ 0 :=
    Nat.ne_of_gt (Nat.lt_of_lt_of_le (by decide) hcredit)
  have hleft : packetShare ≤ data.size - k * packetShare := by
    rw [hsize, ← Nat.sub_mul]
    exact Nat.le_mul_of_pos_left _ (Nat.sub_pos_of_lt hk)
  simp [StreamEnd.write, StreamEnd.sending, StreamPhase.canWrite, filling, part,
    Nat.not_le.2 hk, hsome, Nat.min_eq_right hcredit, Nat.min_eq_left hleft, Nat.succ_mul,
    Nat.sub_sub]

/-- While no order is taken up, the stream takes one packet after the other. -/
theorem meet_crowding (hsize : data.size = orderLimit * packetShare) (hk : k < orderLimit) :
    (stalled (crowding data k)).meet (.write ⟨0, 3⟩ data (k * packetShare)) =
      (some (.taken packetShare), stalled (crowding data (k + 1))) := by
  have hwrite : (crowding data k).connection.write 3 data (k * packetShare) =
      (.now packetShare, (crowding data (k + 1)).connection) := by
    have hid : (filling k).id = 3 := rfl
    simp [Mux.Connection.write, Mux.Connection.act, crowding, idle, blocked, updateEnd, hid,
      Mux.Connection.ofRole, write_filling hsize hk, List.range_succ]
  have hon (f : Session → Ready Nat × Session) : (stalled (crowding data k)).onSession 0 f =
      (some (f (crowding data k)).1, stalled (f (crowding data k)).2) := rfl
  simp only [Fabric.meet, Fabric.onStream, hon, hwrite, Fabric.signalOf]
  rfl

theorem look_of_crowding (hsize : data.size = orderLimit * packetShare) (hk : k < orderLimit) :
    (calling envelope (crowding data k) k (putting data k)).after .look =
      calling envelope (crowding data (k + 1)) (k + 1) (putting data (k + 1)) := by
  have hstage : putting data k = .writing ⟨0, 3⟩ data (k * packetShare) := if_pos hk
  have hhear : (calling envelope (crowding data k) k (putting data k)).call.hear
      (.write ⟨0, 3⟩ data (k * packetShare)) (.taken packetShare) =
        ((calling envelope (crowding data (k + 1)) (k + 1) (putting data (k + 1))).call, []) := by
    have hleft : data.size ≤ k * packetShare + packetShare ↔ ¬ k + 1 < orderLimit := by
      rw [hsize, ← Nat.succ_mul, Nat.mul_le_mul_right_iff (by decide), Nat.not_lt]
    by_cases hlast : k + 1 < orderLimit <;>
      simp [Call.hear, Call.advance, calling, putting, hk, hleft, hlast, Nat.succ_mul]
  rw [hstage] at hhear ⊢
  rw [look_of_hear (t := calling envelope (crowding data k) k (.writing ⟨0, 3⟩ data _)) rfl rfl
    (meet_crowding hsize hk) hhear]
  simp only [calling, told, Nat.succ_mul]

/-- A request of as many full packets as may be outstanding is written without anyone taking one of
them. -/
theorem looks_of_crowding (hsize : data.size = orderLimit * packetShare) (hk : k ≤ orderLimit) :
    (List.replicate k Event.look).foldl after
        (calling envelope (crowding data 0) 0 (putting data 0)) =
      calling envelope (crowding data k) k (putting data k) := by
  induction k with
  | zero => rfl
  | succ k ih =>
    rw [List.replicate_succ', List.foldl_append, ih (Nat.le_of_lt hk)]
    exact look_of_crowding hsize hk

end Crowding

/-- A request whose frame fills as many packets as may be outstanding. -/
def bulky : Envelope :=
  ⟨"big", ⟨Array.replicate 180194 0⟩⟩

def bulkyFrame : ByteArray :=
  Frame.header .request bulky.encode.size ++ bulky.encode

theorem size_bulky : bulky.encode.size = 180219 := by
  have hpayload : bulky.payload.size = 180194 := Array.size_replicate
  have hbytes := congrArg List.length bulky.bytesOf_encode
  rw [MessagePack.Writer.bytes] at hbytes
  simp only [length_bytesOf, List.length_append, ByteArray.size_append, hpayload] at hbytes
  exact hbytes

theorem encode_bulky : (Frame.request bulky.encode).encode = .ok bulkyFrame :=
  Frame.encode_fits (Nat.le_trans (Nat.le_of_eq size_bulky) (by decide))

theorem size_bulkyFrame : bulkyFrame.size = orderLimit * packetShare := by
  rw [size_of_encode encode_bulky, size_bulky]
  rfl

/-- The call is made, and its request is written. -/
def crowds : List Event :=
  [.look, .work, .work] ++ .look :: List.replicate orderLimit .look

def crowded : Exchange :=
  calling bulky (crowding bulkyFrame orderLimit) orderLimit (putting bulkyFrame orderLimit)

theorem foldl_crowds : crowds.foldl after (start 0 bulky (.ofSecs 3) (stalled idle)) = crowded := by
  rw [crowds, List.foldl_append, asks bulky bulkyFrame, List.foldl_cons,
    look_of_granting encode_bulky, looks_of_crowding size_bulkyFrame (Nat.le_refl _)]
  rfl

/-- The peer answers at once, and the call reads the answer. -/
def replies : List Event :=
  [.send (Packet.data 3 { acknowledges := true } ⟨#[2, 0, 0, 0, 1, 7]⟩).encode, .work, .work, .work,
    .look, .look]

/-- **A reply that is lost**: all of it is there and read before the time is up, and the call ends
all the same because its time is up. -/
theorem reply_lost : ∃ n t n' t',
    (start 0 bulky (.ofSecs 3) (stalled idle)).Follows n t ∧ t.isClosed = false ∧
      t.call.outcome? = none ∧ t.fabric.now + 3000 = t.call.deadline ∧
      Frame.decode t.read = .ok (some (.response ⟨#[7]⟩, .empty)) ∧
      t.Follows n' t' ∧ t'.poll.2.call.outcome? = some (.error (.timeout (.ofSecs 3))) := by
  have hencode : (Frame.response ⟨#[7]⟩).encode = .ok ⟨#[2, 0, 0, 0, 1, 7]⟩ := rfl
  have hdecode := Frame.decode_encode hencode .empty
  rw [ByteArray.append_empty] at hdecode
  have hread : (let t := replies.foldl after crowded
      (t.isClosed, t.call.outcome?, t.fabric.now, t.call.deadline, t.read)) =
        (false, none, 0, 3000, ⟨#[2, 0, 0, 0, 1, 7]⟩) := by decide +kernel
  have hlate : (let t := (replies.foldl after crowded).after (.pass 3000)
      (t.isClosed, t.call.outcome?, t.spokeOn, t.sent, t.arrived, t.isCrowded,
        t.poll.2.call.outcome?.isSome)) =
        (false, none, false, 180224, ⟨#[2, 0, 0, 0, 1, 7]⟩, true, true) := by decide +kernel
  have hsound : (start 0 bulky (.ofSecs 3) (stalled idle)).Sound := .start rfl idle_takesCalls _ _
  obtain ⟨n, hcourse⟩ := follows_events (crowds ++ replies)
    (.here : (start 0 bulky (.ofSecs 3) (stalled idle)).Follows 0 _)
  rw [List.foldl_append, foldl_crowds] at hcourse
  -- from here on only what was found of the two moments counts
  generalize replies.foldl after crowded = t at hread hlate hcourse
  obtain ⟨n', hlater⟩ := follows_events [.pass 3000] (.here : t.Follows 0 t)
  obtain ⟨m, hcourse'⟩ := follows_events [.pass 3000] hcourse
  rw [List.foldl_cons, List.foldl_nil] at hlater hcourse'
  generalize t.after (.pass 3000) = t' at hlate hlater hcourse'
  simp only [Prod.mk.injEq] at hread hlate
  obtain ⟨hopen, hpending, hnow, hdeadline, hread⟩ := hread
  obtain ⟨hopen', hpending', hquiet, hsent, harrived, hcrowded, hdone⟩ := hlate
  have hrequest : (start 0 bulky (.ofSecs 3) (stalled idle)).call.request = bulky.encode := rfl
  refine ⟨n, t, n', t', hcourse, hopen, hpending, ?_, hread ▸ hdecode, hlater, ?_⟩
  · rw [hnow, hdeadline]
  · refine hcourse'.timeout_of_crowded hsound hpending' hopen' hquiet ?_ (harrived ▸ hdecode)
      hcrowded hdone
    rw [hsent, hrequest, size_bulky, Frame.headerSize]

end Exchange

end Switchboard
