import Switchboard.Proofs.Traffic.Moves

/-!
# What is left when nothing moves

Progress has a bound, so that the parties make only so many moves of their own. Where none of them
can make another one and the session is live, a call has ended, or its router is still at work on
its envelope: whatever else a call could wait for is there.
-/

namespace Switchboard

def Strand.most : Nat :=
  4 * (Frame.headerSize + Frame.maxPayload) + 8

/-- A service on a stream of a call is at work on the envelope of that call, and the time at which
the work ends has not come. -/
def Strand.WorkedOn (router : Router) (now : Nat) (c : Caller) (strand : Strand) : Prop :=
  ∃ (service : Service) (due : Option Nat), strand.service? = some service ∧
    service.stage = .working (router.dispatch c.envelope.method c.envelope.payload) due ∧
    due.isSome = (router.dispatch c.envelope.method c.envelope.payload).duration.isSome ∧
    ∀ time ∈ due, now < time

namespace Linked

variable {router : Router} {closed : Bool} {promised : Prop} {c? : Option Caller} {k : Nat}
  {strand : Strand}

theorem progress_le (h : Linked router closed promised c? k strand) :
    strand.progress ≤ Strand.most := by
  have hup : strand.up.written.size ≤ Frame.headerSize + Frame.maxPayload := by
    have hnear := h.near
    cases c? with
    | none => exact Nat.le_trans (Nat.le_of_eq hnear.1.size_eq) (Nat.zero_le _)
    | some c =>
      rcases Caller.AtStrand.carries hnear with hfresh | hcarries
      · exact Nat.le_trans (Nat.le_of_eq hfresh.size_eq) (Nat.zero_le _)
      · exact hcarries.size_le
  have hdown : strand.down.written.size ≤ Frame.headerSize + Frame.maxPayload := by
    have hfar := h.far
    unfold Strand.Served at hfar
    split at hfar
    · exact Nat.le_trans (Nat.le_of_eq hfar.2.1.size_eq) (Nat.zero_le _)
    · rcases hfar.carries with hfresh | ⟨_, _, -, -, hcarries, -⟩
      · exact Nat.le_trans (Nat.le_of_eq hfresh.size_eq) (Nat.zero_le _)
      · exact hcarries.size_le
  have hservice : (strand.service?.map Service.rank).getD 0 ≤ 7 := by
    cases strand.service? with
    | none => exact Nat.zero_le _
    | some service => exact service.rank_le
  have hbroken := Bool.toNat_le strand.broken
  have := h.up_taken
  have := h.down_taken
  simp only [Strand.progress, Strand.most]
  omega

end Linked

namespace Traffic

variable {router : Router} {t : Traffic} {i k : Nat} {c : Caller} {strand : Strand}
  {service : Service} {need : Need}

theorem Sound.progress_le (h : Sound router t) :
    t.progress ≤ t.callers.length * (Strand.most + 8) + 4 := by
  have hcalls : (t.callers.map Caller.rank).sum ≤ t.callers.length * 5 :=
    Lists.sum_map_le fun _ _ => Caller.rank_le
  have hstrands : (t.strands.map Strand.progress).sum ≤ t.strands.length * Strand.most := by
    refine Lists.sum_map_le fun strand hmem => ?_
    obtain ⟨k, hk⟩ := List.mem_iff_getElem?.1 hmem
    exact (h.linked k strand hk).progress_le
  have hcount := List.countP_le_length (p := Caller.hasAsked) (l := t.callers)
  have hserving : servingRank t.serving ≤ 2 := by
    unfold servingRank
    split <;> omega
  have hnear := Bool.toNat_le t.near.stopped
  have hfar := Bool.toNat_le t.far.stopped
  have hfew := h.arrivals.few
  have := h.requested
  have := h.asked
  have hlength : t.strands.length * Strand.most ≤ t.callers.length * Strand.most :=
    Nat.mul_le_mul_right _ (by omega)
  rw [Nat.mul_add]
  simp only [progress, requestProgress]
  omega

/-! ## At rest -/

namespace AtRest

theorem call_waits (h : t.AtRest) (hc : t.callers[i]? = some c) (hneed : need ∈ c.call.needs)
    (portion : Portion) : t.meet need portion = none := by
  obtain ⟨place, hplace⟩ := List.mem_iff_getElem?.1 hneed
  have hnone := h (.call i place portion) rfl
  simp only [step, hc, hplace, Option.bind_some, Option.map_eq_none_iff] at hnone
  exact hnone

theorem service_waits (h : t.AtRest) (hk : t.strands[k]? = some strand)
    (hs : strand.service? = some service) (hneed : need ∈ service.needs) (portion : Portion) :
    t.meet need portion = none := by
  obtain ⟨place, hplace⟩ := List.mem_iff_getElem?.1 hneed
  have hnone := h (.service k place portion) rfl
  simp only [step, hk, hs, hplace, Option.bind_some, Option.map_eq_none_iff] at hnone
  exact hnone

/-- What waits for a use of a stream waits for the stream. -/
theorem strand_waits {ref : StreamRef} {portion : Portion}
    (hneed : (∃ room, need = .read ref room) ∨ (∃ data start, need = .write ref data start) ∨
      need = .finish ref)
    (hk : t.strands[ref.stream]? = some strand) (hnone : t.meet need portion = none) :
    strand.meet need portion = none := by
  rcases hneed with ⟨room, rfl⟩ | ⟨data, start, rfl⟩ | rfl <;>
  · simp only [meet, hk, Option.bind_some, Option.map_eq_none_iff] at hnone
    exact hnone

theorem no_requests (h : t.AtRest) :
    t.near.openings.waiting = [] ∧ t.near.openings.queued = [] := by
  have hgrant := h .grant rfl
  have htakeUp := h .takeUp rfl
  simp only [step, ite_eq_left_iff, reduceCtorEq, imp_false, Decidable.not_not] at hgrant htakeUp
  exact ⟨hgrant, htakeUp⟩

theorem accepted (h : t.AtRest) (hsound : Sound router t) (hlive : t.closed = false)
    (hk : t.strands[k]? = some strand) : strand.service? ≠ none := by
  intro hnone
  obtain ⟨hsession, -, hstage, -, hmem, -⟩ := hsound.arrivals
  rcases List.mem_append.1 ((hmem k).2 ⟨strand, hk, hnone⟩) with hunseen | harrived
  · have harrive := h (.arrive k) rfl
    simp only [step, if_pos hunseen, reduceCtorEq] at harrive
  · have hserve := h .serve rfl
    have hopen : t.far.isClosed = false := by
      simp only [closed, Bool.or_eq_false_iff] at hlive
      exact hlive.2
    simp only [Session.isClosed, Bool.or_eq_false_iff] at hopen
    cases hs : t.serving.stage with
    | asking =>
      simp only [step, Serving.needs, hs, hsession, List.head?_cons, Option.bind_some, meet,
        Option.map_some, reduceCtorEq] at hserve
    | accepting acceptor =>
      obtain ⟨stream, arrived, harrived⟩ := List.exists_cons_of_ne_nil (List.ne_nil_of_mem harrived)
      rw [hs] at hstage
      have haccept : (t.far.accept acceptor).1 = some (.ok stream) := by
        simp only [Session.accept, hopen.1, hstage, List.head?_cons, if_true, harrived,
          Bool.false_eq_true, if_false]
      simp only [step, Serving.needs, hs, hsession, List.head?_cons, Option.bind_some, meet,
        session, Nat.one_ne_zero, if_false, haccept, Fabric.streamOf, Option.map_some,
        reduceCtorEq] at hserve
    | done =>
      rw [hs, hlive] at hstage
      cases hstage

/-- A call that waits for its answer has read all that was written, and more may come. -/
theorem answer_read (h : t.AtRest) (hc : t.callers[i]? = some c) {reader : FrameReader}
    (hstage : c.call.stage = .reading ⟨0, k⟩ reader) (hk : t.strands[k]? = some strand)
    (htaken : strand.down.taken ≤ strand.down.written.size) :
    strand.broken = false ∧ strand.down.ended = false ∧
      strand.down.taken = strand.down.written.size := by
  have hneed : Need.read ⟨0, k⟩ reader.room ∈ c.call.needs := by
    simp only [Call.needs, hstage, CallStage.need, List.mem_cons, true_or, or_true]
  have hwaits : ∀ portion, strand.down.read strand.broken reader.room portion = none := by
    intro portion
    have hnone := strand_waits (.inl ⟨_, rfl⟩) hk (h.call_waits hc hneed portion)
    simpa only [Strand.meet, if_true, Option.map_eq_none_iff] using hnone
  have hroom := reader.room_pos
  have hone := hwaits (.bytes 1)
  have hend := hwaits .ended
  simp only [Flow.read, ite_eq_right_iff, reduceCtorEq, imp_false] at hone hend
  have hall : strand.down.taken = strand.down.written.size := by omega
  simp only [hall, and_true, not_or, Bool.not_eq_true] at hend
  exact ⟨hend.2, hend.1, hall⟩

/-- A service on the stream of a call that waits for its answer is at work on it. -/
theorem worked_on (h : t.AtRest) (hk : t.strands[k]? = some strand)
    (hs : strand.service? = some service)
    (hserved : service.AtStrand router (some c.envelope) k strand)
    (hencode : c.envelope.question.encode = .ok strand.up.written)
    (htaken : strand.up.taken ≤ strand.up.written.size)
    (hopen : strand.broken = false ∧ strand.down.ended = false) :
    strand.WorkedOn router t.now c := by
  obtain ⟨hstream, -, hserved⟩ := hserved
  have hwaits : ∀ need ∈ service.stageNeeds, ∀ portion, t.meet need portion = none := by
    intro need hneed
    refine h.service_waits hk hs ?_
    unfold Service.needs
    split
    · rename_i hdone
      simp only [Service.stageNeeds, hdone, List.not_mem_nil] at hneed
    · exact List.mem_cons_of_mem _ hneed
  cases hst : service.stage with
  | reading reader =>
    -- the whole question is there to be read
    rw [hst] at hserved
    have hlt := (Flow.carries_of_whole hencode).taken_lt hencode hserved.1 htaken
    have hroom := reader.room_pos
    have hnone := strand_waits (.inl ⟨_, rfl⟩) hk
      (hwaits (.read ⟨1, k⟩ reader.room) (by simp [Service.stageNeeds, hst, hstream]) (.bytes 1))
    simp only [Strand.meet, Nat.one_ne_zero, if_false, Option.map_eq_none_iff, Flow.read,
      ite_eq_right_iff, reduceCtorEq, imp_false] at hnone
    omega
  | working work due =>
    rw [hst] at hserved
    obtain ⟨envelope, hsent, rfl, hdue, -⟩ := hserved
    cases hsent
    refine ⟨service, due, hs, hst, hdue, fun time htime => ?_⟩
    have hnone := hwaits (.moment time)
      (by simp [Service.stageNeeds, hst, Option.mem_def.1 htime]) .ended
    simp only [meet, ite_eq_right_iff, reduceCtorEq, imp_false] at hnone
    omega
  | writing data sent =>
    rw [hst] at hserved
    obtain ⟨-, -, -, -, -, -, hlt, -⟩ := hserved
    have hnone := strand_waits (.inr (.inl ⟨_, _, rfl⟩)) hk
      (hwaits (.write ⟨1, k⟩ data sent)
        (by simp [Service.stageNeeds, hst, hstream, Nat.not_le.2 hlt]) (.bytes 1))
    simp only [Strand.meet, Nat.one_ne_zero, if_false, Option.map_eq_none_iff, Flow.write,
      ite_eq_right_iff, reduceCtorEq, imp_false] at hnone
    omega
  | finishing =>
    have hnone := strand_waits (.inr (.inr rfl)) hk
      (hwaits (.finish ⟨1, k⟩) (by simp [Service.stageNeeds, hst, hstream]) .ended)
    simp only [Strand.meet, Nat.one_ne_zero, if_false, Option.map_eq_none_iff, Flow.finish,
      reduceCtorEq] at hnone
  | done =>
    rw [hst] at hserved
    rcases hserved.1 with hended | hbroken
    · rw [hopen.2] at hended
      cases hended
    · rw [hopen.1] at hbroken
      cases hbroken

theorem not_opening (h : t.AtRest) (hsound : Sound router t) (hlive : t.closed = false)
    (hc : t.callers[i]? = some c) (request : Nat) : c.call.stage ≠ .opening request := by
  intro hstage
  obtain ⟨hsession, -, -⟩ := hsound.begun i c hc
  have hopen : t.near.cancelled = false := by
    simp only [closed, Session.isClosed, Bool.or_eq_false_iff] at hlive
    exact hlive.1.1
  have hneed : Need.granted 0 request ∈ c.call.needs := by
    simp [Call.needs, hstage, CallStage.need, hsession]
  have hnone := h.call_waits hc hneed .ended
  rcases hsound.fair.pending hlive i request ⟨c, hc, hstage⟩ with ⟨-, hqueue⟩ | ⟨stream?, hmem⟩
  · obtain ⟨hwaiting, hqueued⟩ := h.no_requests
    rw [hwaiting, hqueued] at hqueue
    cases hqueue
  · obtain ⟨answer?, hlookup⟩ :=
      Option.ne_none_iff_exists'.1 (Mux.Openings.lookup_ne_none hmem)
    simp only [meet, session, if_true, Session.collect, hopen, Bool.false_eq_true, if_false,
      Mux.Openings.collect_of_some hlookup] at hnone
    cases answer? with
    | none => simp only [Fabric.streamOf, Option.map_some, reduceCtorEq] at hnone
    | some stream => simp only [Fabric.streamOf, Option.map_some, reduceCtorEq] at hnone

/-- What brings the stage of a call to its end is not there. -/
theorem stage_waits (h : t.AtRest) (hsound : Sound router t) (hc : t.callers[i]? = some c)
    (hnone : c.call.outcome? = none) (portion : Portion) :
    t.meet (c.call.stage.need 0) portion = none := by
  obtain ⟨hsession, -, -⟩ := hsound.begun i c hc
  refine h.call_waits hc ?_ portion
  unfold Call.needs
  split
  · rename_i hdone
    simp only [Call.outcome?, hdone, reduceCtorEq] at hnone
  · simp only [hsession, List.mem_cons, true_or, or_true]

theorem not_writing (h : t.AtRest) (hsound : Sound router t) (hc : t.callers[i]? = some c)
    (ref : StreamRef) (data : ByteArray) (sent : Nat) :
    c.call.stage ≠ .writing ref data sent := by
  intro hs
  obtain ⟨strand, hk, -, hlinked⟩ :=
    hsound.strand_of_stream hc ref (by simp only [Caller.stream?, hs])
  have hnear := hlinked.near
  simp only [Strand.Asked, Caller.AtStrand, hs] at hnear
  obtain ⟨href, -, -, hlt, -⟩ := hnear
  have hwaits := h.stage_waits hsound hc (by simp only [Call.outcome?, hs]) (.bytes 1)
  rw [hs] at hwaits
  have hnone := strand_waits (.inr (.inl ⟨data, sent, rfl⟩)) hk hwaits
  rw [href] at hnone
  simp only [Strand.meet, if_true, Option.map_eq_none_iff, Flow.write, ite_eq_right_iff,
    reduceCtorEq, imp_false] at hnone
  omega

theorem not_finishing (h : t.AtRest) (hsound : Sound router t) (hc : t.callers[i]? = some c)
    (ref : StreamRef) (outcome : Except Fault ByteArray) :
    c.call.stage ≠ .finishing ref outcome := by
  intro hs
  obtain ⟨strand, hk, -, hlinked⟩ :=
    hsound.strand_of_stream hc ref (by simp only [Caller.stream?, hs])
  have hnear := hlinked.near
  simp only [Strand.Asked, Caller.AtStrand, hs] at hnear
  obtain ⟨href, -⟩ := hnear
  have hwaits := h.stage_waits hsound hc (by simp only [Call.outcome?, hs]) .ended
  rw [hs] at hwaits
  have hnone := strand_waits (.inr (.inr rfl)) hk hwaits
  rw [href] at hnone
  simp only [Strand.meet, if_true, Option.map_eq_none_iff, Flow.finish, reduceCtorEq] at hnone

/-- **Nothing but the work itself holds an answer back.** -/
theorem ended_or_worked_on (h : t.AtRest) (hsound : Sound router t) (hlive : t.closed = false)
    (hc : t.callers[i]? = some c) : c.call.outcome?.isSome = true ∨
      ∃ (k : Nat) (strand : Strand), t.strands[k]? = some strand ∧ strand.caller? = some i ∧
        strand.WorkedOn router t.now c := by
  cases hs : c.call.stage with
  | done outcome => exact .inl (by simp only [Call.outcome?, hs, Option.isSome_some])
  | asking =>
    have hwaits := h.stage_waits hsound hc (by simp only [Call.outcome?, hs]) .ended
    simp only [hs, CallStage.need, meet, reduceCtorEq] at hwaits
  | opening request => exact absurd hs (h.not_opening hsound hlive hc request)
  | writing ref data sent => exact absurd hs (h.not_writing hsound hc ref data sent)
  | finishing ref outcome => exact absurd hs (h.not_finishing hsound hc ref outcome)
  | reading ref reader =>
    obtain ⟨strand, hk, hcaller, hlinked⟩ :=
      hsound.strand_of_stream hc ref (by simp only [Caller.stream?, hs])
    have hnear := hlinked.near
    simp only [Strand.Asked, Caller.AtStrand, hs] at hnear
    obtain ⟨href, hencode, -, -⟩ := hnear
    rw [href] at hs
    obtain ⟨hbroken, hended, -⟩ := h.answer_read hc hs hk hlinked.down_taken
    obtain ⟨service, hservice⟩ := Option.ne_none_iff_exists'.1 (h.accepted hsound hlive hk)
    have hserved := (Strand.Served.of_some _ hservice).1 hlinked.far
    exact .inr ⟨_, strand, hk, hcaller,
      h.worked_on hk hservice hserved hencode hlinked.up_taken ⟨hbroken, hended⟩⟩

end AtRest

end Traffic

end Switchboard
