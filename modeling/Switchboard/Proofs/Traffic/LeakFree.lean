import Switchboard.Proofs.Traffic.Holding

/-!
# Calls leave nothing behind

A call that has ended, however it did, holds no stream and no request for one. Once the near end has
let go of a stream, the service on it has a move to make that does not wait for its work, until it
is done; and it makes only so many. So where nothing moves by itself and every call has ended, no
stream is held at either end and no work is under way.

What is assumed of the multiplexer is in the moves: a stream that an end lets go of before it was
done writing breaks for the other end, and one that it was done writing ends there.
-/

namespace Switchboard

namespace Strand

/-- The far end holds a stream: a service is not done with it. -/
def HeldFar (strand : Strand) : Prop :=
  ∃ service, strand.service? = some service ∧ service.isDone = false

def AtWork (strand : Strand) : Prop :=
  ∃ service work due, strand.service? = some service ∧ service.stage = .working work due

theorem AtWork.heldFar {strand : Strand} (h : strand.AtWork) : strand.HeldFar := by
  obtain ⟨service, work, due, hs, hstage⟩ := h
  exact ⟨service, hs, by simp only [Service.isDone, hstage]⟩

end Strand

/-- A call has not ended, and uses a stream or waits for the request that it is the answer to. -/
def Caller.NeedsStream (o : Mux.Openings) (k : Nat) (c : Caller) : Prop :=
  c.call.outcome? = none ∧ (c.stream? = some ⟨0, k⟩ ∨
    ∃ request, c.call.stage = .opening request ∧ (request, some k) ∈ o.answers)

namespace Flow

variable {flow : Flow} {reader : FrameReader}

/-- A flow that has ended, or is broken, can always be read: there is more, or its end. -/
theorem read_of_released {room : Nat} (broken : Bool) (hroom : 0 < room)
    (htaken : flow.taken ≤ flow.written.size) (h : flow.ended = true ∨ broken = true) :
    ∃ portion, (flow.read broken room portion).isSome = true := by
  by_cases hmore : flow.taken < flow.written.size
  · refine ⟨.bytes 1, ?_⟩
    have hone : 0 < 1 ∧ 1 ≤ room ∧ flow.taken + 1 ≤ flow.written.size := ⟨Nat.one_pos, hroom, hmore⟩
    simp only [read, if_pos hone, Option.isSome_some]
  · refine ⟨.ended, ?_⟩
    have hend : flow.ended = true ∧ flow.taken = flow.written.size ∨ broken = true :=
      h.imp_left fun hended => ⟨hended, by omega⟩
    simp only [read, if_pos hend, Option.isSome_some]

end Flow

namespace Traffic

variable {router : Router} {t t' : Traffic} {i k : Nat} {c : Caller} {strand : Strand}
  {service : Service} {need : Need} {portion : Portion} {moves more : List Move}

/-- The service of a stream has a move to make that does not wait for its work. -/
def CanWindUp (t : Traffic) (k : Nat) : Prop :=
  ∃ (strand : Strand) (service : Service) (place : Nat) (need : Need) (portion : Portion),
    t.strands[k]? = some strand ∧ strand.service? = some service ∧
      service.needs[place]? = some need ∧ (∀ time, need ≠ .moment time) ∧
      (t.step (.service k place portion)).isSome = true

theorem canWindUp_of_meet (hk : t.strands[k]? = some strand) (hs : strand.service? = some service)
    (hneed : need ∈ service.needs) (hmoment : ∀ time, need ≠ .moment time)
    (hmeet : (t.meet need portion).isSome = true) : t.CanWindUp k := by
  obtain ⟨place, hplace⟩ := List.mem_iff_getElem?.1 hneed
  refine ⟨strand, service, place, need, portion, hk, hs, hplace, hmoment, ?_⟩
  simp only [step, hk, hs, hplace, Option.bind_some, Option.isSome_map]
  exact hmeet

/-- A stream that the near end holds is held for a call that has not ended. -/
theorem Kept.held_for_call (h : t.Kept) (hheld : HeldNear t.callers t.near.openings k) :
    ∃ (i : Nat) (c : Caller), t.callers[i]? = some c ∧ c.NeedsStream t.near.openings k := by
  rcases hheld with ⟨i, c, hc, hstream⟩ | ⟨request, hmem⟩
  · refine ⟨i, c, hc, ?_, .inl hstream⟩
    unfold Caller.stream? at hstream
    unfold Call.outcome?
    cases hs : c.call.stage with
    | done outcome =>
      rw [hs] at hstream
      cases hstream
    | _ => rfl
  · obtain ⟨i, c, hc, hstage⟩ :=
      h.tended.opening request (Mux.Openings.mem_remembered.2 (.inr ⟨_, hmem⟩))
    exact ⟨i, c, hc, by simp only [Call.outcome?, hstage], .inr ⟨request, hstage, hmem⟩⟩

theorem meet_isSome {ref : StreamRef}
    (hneed : (∃ room, need = .read ref room) ∨ (∃ data start, need = .write ref data start) ∨
      need = .finish ref)
    (hk : t.strands[ref.stream]? = some strand) (portion : Portion)
    (h : (strand.meet need portion).isSome = true) : (t.meet need portion).isSome = true := by
  rcases hneed with ⟨room, rfl⟩ | ⟨data, start, rfl⟩ | rfl <;>
  · simp only [meet, hk, Option.bind_some, Option.isSome_map]
    exact h

namespace Sound

/-- **A service winds up once the near end has let go of its stream**, whatever its work does. -/
theorem canWindUp (h : Sound router t) (hk : t.strands[k]? = some strand)
    (hreleased : strand.Released) (hheld : strand.HeldFar) : t.CanWindUp k := by
  obtain ⟨service, hs, hopen⟩ := hheld
  have hlinked := h.linked k strand hk
  obtain ⟨hstream, -, hserved⟩ := (Strand.Served.of_some _ hs).1 hlinked.far
  have hneeds : ∀ need ∈ service.stageNeeds, need ∈ service.needs := by
    intro need hneed
    unfold Service.needs
    split
    · rename_i hdone
      simp only [Service.isDone, hdone, Bool.true_eq_false] at hopen
    · exact List.mem_cons_of_mem _ hneed
  have hreads : ∀ room, 0 < room → .read ⟨1, k⟩ room ∈ service.needs → t.CanWindUp k := by
    intro room hroom hneed
    obtain ⟨portion, hportion⟩ :=
      Flow.read_of_released strand.broken hroom hlinked.up_taken hreleased
    refine canWindUp_of_meet hk hs hneed (fun _ heq => by cases heq)
      (meet_isSome (.inl ⟨room, rfl⟩) hk portion ?_)
    simp only [Strand.meet, Nat.one_ne_zero, if_false, Option.isSome_map]
    exact hportion
  cases hst : service.stage with
  | reading reader =>
    refine hreads reader.room reader.room_pos (hneeds _ ?_)
    simp only [Service.stageNeeds, hst, hstream, List.mem_singleton]
  | working work due =>
    -- what it hears of the caller does not wait for the work
    refine hreads 1 Nat.one_pos (hneeds _ ?_)
    simp only [Service.stageNeeds, hst, hstream, List.mem_append, List.mem_singleton, or_true]
  | writing data sent =>
    rw [hst] at hserved
    obtain ⟨-, -, -, -, -, -, hlt, -⟩ := hserved
    have hneed : Need.write ⟨1, k⟩ data sent ∈ service.needs := hneeds _ (by
      simp only [Service.stageNeeds, hst, hstream, if_neg (Nat.not_le.2 hlt), List.mem_singleton])
    refine canWindUp_of_meet hk hs hneed (fun _ heq => by cases heq)
      (meet_isSome (.inr (.inl ⟨data, sent, rfl⟩)) hk (.bytes 1) ?_)
    have hone : 0 < 1 ∧ sent + 1 ≤ data.size := ⟨Nat.one_pos, hlt⟩
    simp only [Strand.meet, Nat.one_ne_zero, if_false, Flow.write, if_pos hone, Option.map_some,
      Option.isSome_some]
  | finishing =>
    have hneed : Need.finish ⟨1, k⟩ ∈ service.needs := hneeds _ (by
      simp only [Service.stageNeeds, hst, hstream, List.mem_singleton])
    refine canWindUp_of_meet hk hs hneed (fun _ heq => by cases heq)
      (meet_isSome (.inr (.inr rfl)) hk .ended ?_)
    simp only [Strand.meet, Nat.one_ne_zero, if_false, Flow.finish, Option.map_some,
      Option.isSome_some]
  | done => simp only [Service.isDone, hst, Bool.true_eq_false] at hopen

theorem far_released (h : Sound router t) (hk : t.strands[k]? = some strand)
    (hs : strand.service? = some service) (hfree : ¬ strand.HeldFar) :
    strand.down.ended = true ∨ strand.broken = true := by
  obtain ⟨-, -, hserved⟩ := (Strand.Served.of_some _ hs).1 (h.linked k strand hk).far
  cases hst : service.stage with
  | done =>
    rw [hst] at hserved
    exact hserved.1
  | _ => exact absurd ⟨service, hs, by simp only [Service.isDone, hst]⟩ hfree

theorem not_held (h : Sound router t) (hc : t.callers[i]? = some c)
    (hended : c.call.outcome?.isSome = true) (hk : t.strands[k]? = some strand)
    (hcaller : strand.caller? = some i) : ¬ HeldNear t.callers t.near.openings k := by
  rintro (⟨j, d, hd, hstream⟩ | ⟨request, hmem⟩)
  · obtain ⟨s, hs, hj⟩ := h.placed j d ⟨0, k⟩ hd hstream
    rw [hk] at hs
    cases hs
    rw [hcaller] at hj
    cases hj
    rw [hc] at hd
    cases hd
    unfold Caller.stream? at hstream
    unfold Call.outcome? at hended
    cases hst : c.call.stage with
    | done outcome =>
      rw [hst] at hstream
      cases hstream
    | _ =>
      rw [hst] at hended
      cases hended
  · obtain ⟨s, hs, hfree⟩ := h.fair.promised request k hmem
    rw [hk] at hs
    cases hs
    rw [hcaller] at hfree
    cases hfree

end Sound

namespace AtRest

/-- What the near end does not hold is released, also on a session that is closed. -/
theorem released (h : t.AtRest) (hkept : t.Kept) (hk : t.strands[k]? = some strand)
    (hfree : ¬ HeldNear t.callers t.near.openings k) : strand.Released := by
  rcases hkept.released k strand hk with hheld | hreleased | hclosed
  · exact absurd hheld hfree
  · exact hreleased
  · refine .inr ?_
    have hsnap := h (.snap k) rfl
    simp only [step, hclosed, hk, Option.any_some, Bool.true_and, ite_eq_right_iff, reduceCtorEq,
      imp_false, Bool.not_eq_true, Bool.not_eq_false'] at hsnap
    exact hsnap

theorem not_heldFar (h : t.AtRest) (hsound : Sound router t) (hk : t.strands[k]? = some strand)
    (hreleased : strand.Released) : ¬ strand.HeldFar := by
  intro hheld
  obtain ⟨-, -, place, -, portion, -, -, -, -, hsome⟩ := hsound.canWindUp hk hreleased hheld
  rw [h (.service k place portion) rfl] at hsome
  cases hsome

/-- Every stream has arrived, and on a live session was accepted. -/
theorem none_underway (h : t.AtRest) (hsound : Sound router t) :
    t.unseen = [] ∧ (t.closed = false → t.far.arrived = []) := by
  constructor
  · refine List.eq_nil_iff_forall_not_mem.2 fun k hk => ?_
    have harrive := h (.arrive k) rfl
    simp only [step, if_pos hk, reduceCtorEq] at harrive
  · intro hlive
    refine List.eq_nil_iff_forall_not_mem.2 fun k hk => ?_
    obtain ⟨strand, hstrand, hnone⟩ :=
      (hsound.arrivals.mem_iff k).1 (List.mem_append_right _ hk)
    exact h.accepted hsound hlive hstrand hnone

end AtRest

/-- What the calls on a session leave behind: nothing. -/
structure LeakFree (t : Traffic) : Prop where
  /-- The near end holds a stream only for a call that has not ended and needs that stream. -/
  held : ∀ k, HeldNear t.callers t.near.openings k →
    ∃ (i : Nat) (c : Caller), t.callers[i]? = some c ∧ c.NeedsStream t.near.openings k
  /-- A call that has ended does not hold its stream, and has let go of it. -/
  ended : ∀ (i : Nat) (c : Caller) (k : Nat) (strand : Strand), t.callers[i]? = some c →
    c.call.outcome?.isSome = true → t.strands[k]? = some strand → strand.caller? = some i →
    ¬ HeldNear t.callers t.near.openings k ∧ (strand.Released ∨ t.closed = true)
  /-- Any other stream that it does not hold, it has let go of too. -/
  released : ∀ (k : Nat) (strand : Strand), t.strands[k]? = some strand →
    HeldNear t.callers t.near.openings k ∨ strand.Released ∨ t.closed = true
  /-- A request for a stream is remembered only for a call that waits for it. -/
  requests : ∀ request ∈ t.near.openings.remembered,
    ∃ (i : Nat) (c : Caller), t.callers[i]? = some c ∧ c.call.stage = .opening request
  /-- Once a stream is let go of, its service makes only so many moves, whatever else happens, and
  has one to make until it is done with the stream and has let go of it too. -/
  winds_up : ∀ (k : Nat) (strand : Strand), t.strands[k]? = some strand → strand.Released →
    ∀ (more : List Move) (t' : Traffic), runFrom step t more = some t' →
      more.countP (Move.isService k) ≤ Strand.most ∧
      ∃ after : Strand, t'.strands[k]? = some after ∧
        (after.HeldFar → t'.CanWindUp k) ∧
        (after.service?.isSome = true → ¬ after.HeldFar →
          ¬ after.AtWork ∧ (after.down.ended = true ∨ after.broken = true))
  /-- Where nothing moves by itself and every call has ended, neither end holds a stream and no work
  is under way. -/
  nothing_left : t.AtRest → (∀ (i : Nat) (c : Caller), t.callers[i]? = some c →
      c.call.outcome?.isSome = true) →
    (∀ k, ¬ HeldNear t.callers t.near.openings k) ∧ t.near.openings.remembered = [] ∧
      (∀ strand ∈ t.strands, strand.Released ∧ ¬ strand.HeldFar ∧ ¬ strand.AtWork) ∧
      t.unseen = [] ∧ (t.closed = false → t.far.arrived = [])
  /-- It comes to that: of the moves that are made from here on, only so many are not made from
  outside. -/
  settles : ∀ (more : List Move) (t' : Traffic), runFrom step t more = some t' →
    more.countP Move.isOwn ≤ t'.callers.length * (Strand.most + 8) + 4

theorem Sound.leakFree (h : Sound router t) (hkept : t.Kept) : t.LeakFree := by
  have hkeeps : ∀ t move t', Sound router t → t.step move = some t' → Sound router t' :=
    fun _ _ _ h hstep => (h.step hstep).1
  refine ⟨fun k => hkept.held_for_call, fun i c k strand hc hended hk hcaller => ?_,
    hkept.released, hkept.tended.opening, fun k strand hk hreleased more t' hrun => ?_,
    fun hrest hended => ?_, fun more t' hrun => ?_⟩
  · have hfree := h.not_held hc hended hk hcaller
    exact ⟨hfree, (hkept.released k strand hk).resolve_left hfree⟩
  · obtain ⟨after, hafter, hstays⟩ := h.released_stays hrun hk hreleased
    have hlater := runFrom_keeps hkeeps h hrun
    refine ⟨h.service_moves_le hrun k, after, hafter, hlater.canWindUp hafter hstays, ?_⟩
    intro hsome hfree
    obtain ⟨service, hs⟩ := Option.isSome_iff_exists.1 hsome
    exact ⟨fun hwork => hfree hwork.heldFar, hlater.far_released hafter hs hfree⟩
  · have hnone : ∀ k, ¬ HeldNear t.callers t.near.openings k := by
      intro k hheld
      obtain ⟨i, c, hc, hopen, -⟩ := hkept.held_for_call hheld
      have := hended i c hc
      rw [hopen] at this
      cases this
    obtain ⟨hunseen, harrived⟩ := hrest.none_underway h
    refine ⟨hnone, List.eq_nil_iff_forall_not_mem.2 fun request hrequest => ?_,
      fun strand hmem => ?_, hunseen, harrived⟩
    · obtain ⟨i, c, hc, hstage⟩ := hkept.tended.opening request hrequest
      have := hended i c hc
      simp only [Call.outcome?, hstage, Option.isSome_none, Bool.false_eq_true] at this
    · obtain ⟨k, hk⟩ := List.mem_iff_getElem?.1 hmem
      have hreleased := hrest.released hkept hk (hnone k)
      have hfree := hrest.not_heldFar h hk hreleased
      exact ⟨hreleased, hfree, fun hwork => hfree hwork.heldFar⟩
  · have hcount := runFrom_counts hkeeps Move.isOwn progress
      (fun _ _ _ h hstep => (h.step hstep).2) h hrun
    have hle := (runFrom_keeps hkeeps h hrun).progress_le
    omega

/-- **Calls never leak streams or work**, for every router, whatever calls are begun on a session,
however they end, and in whatever order everybody moves. -/
theorem calls_leave_nothing (router : Router) (moves : List Move) (t : Traffic)
    (hrun : runFrom step (start router) moves = some t) : t.LeakFree := by
  have hkeeps : ∀ (t : Traffic) (move : Move) (t' : Traffic),
      Sound router t ∧ t.Kept → t.step move = some t' → Sound router t' ∧ t'.Kept :=
    fun t move t' h hstep => ⟨(h.1.step hstep).1, h.1.kept h.2 hstep⟩
  obtain ⟨hsound, hkept⟩ := runFrom_keeps hkeeps ⟨Sound.start router, Kept.start router⟩ hrun
  exact hsound.leakFree hkept

def hanging : Router :=
  ({} : Router).onRaw "hang" fun _ => { outcome := .ok ByteArray.empty, duration := none }

/-- A call whose time is up while the router is at work for it, and one whose request for a stream
is still queued then. -/
def timeouts : List Move :=
  [.issue ⟨"hang", ⟨#[1]⟩⟩ (.ofMillis 1), .call 0 1 .ended, .takeUp, .grant, .arrive 0,
    .call 0 1 .ended, .serve, .serve, .call 0 1 (.bytes 29), .service 0 1 (.bytes 29),
    .issue ⟨"hang", ⟨#[2]⟩⟩ (.ofMillis 1), .call 1 1 .ended, .tick, .call 0 2 .ended,
    .call 1 2 .ended, .service 0 1 .ended, .takeUp, .grant]

theorem calls_leave_nothing_timeouts :
    ∃ t, runFrom step (start hanging) timeouts = some t ∧
      t.callers.map (·.call.outcome?.isSome) = [true, true] ∧
      t.strands.map (fun strand => (strand.broken, strand.service?.map (·.isDone))) =
        [(true, some true), (true, none)] ∧ t.LeakFree := by
  have hmap : (runFrom step (start hanging) timeouts).map (fun t =>
      (t.callers.map (·.call.outcome?.isSome),
        t.strands.map (fun strand => (strand.broken, strand.service?.map (·.isDone))))) =
      some ([true, true], [(true, some true), (true, none)]) := by decide +kernel
  obtain ⟨t, hrun, heq⟩ := Option.map_eq_some_iff.1 hmap
  obtain ⟨hcallers, hstrands⟩ := Prod.mk.inj heq
  exact ⟨t, hrun, hcallers, hstrands, calls_leave_nothing hanging timeouts t hrun⟩

end Traffic

end Switchboard
