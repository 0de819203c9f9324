import Switchboard.Proofs.Traffic.Exchange

/-!
# What a call makes of what it hears

`Turns` is what a poll comes to: the exchange stays sound, nothing that arrived is lost, the call
has got on if it heard anything, and if it ends there is a reason for it (`Ends`). There is one
lemma for what each stage waits for; that a call lets go of its stream when it ends, and that time
may be up at any stage, is shown once for all of them (`turns_of_end`, `turns_of_nothing`). The
stages at which the call has its stream differ in what they do with it, not in what comes of that
(`Handled`).
-/

namespace Switchboard.Exchange

open Mux

structure Turns (t t' : Exchange) (heard : Bool) : Prop where
  sound : t'.Sound
  call : ∃ stage, t'.call = { t.call with stage }
  progress : t.progress + heard.toNat ≤ t'.progress
  closed : t'.isClosed = t.isClosed
  arrived : t.isClosed = false → t'.call.outcome? = none → t'.arrived = t.arrived
  ends : ∀ outcome, t'.call.outcome? = some outcome → t.Ends outcome
  letsGo : t.isClosed = false → t'.call.outcome?.isSome = true → ∀ s s' k, t.session? = some s →
    t'.session? = some s' → t.call.stage.stream? s = some k → ¬ s'.connection.Holds k
  rests : heard = false → t.fabric.now < t.call.deadline ∧ t.Waits

variable {t : Exchange} {f : Fabric} {s s' : Session} {stage : CallStage} {e e' : StreamEnd}
  {need : Need} {signal : Signal} {outcome : Except Fault ByteArray} {ref : StreamRef} {k : Nat}

theorem arrived_of_carries (hs : t.session? = some s) (hk : t.call.stage.stream? s = some k)
    (h : s.connection.Carries k e) : t.arrived = t.read ++ e.inbox := by
  unfold arrived
  rw [streamEnd?_of_carries hs hk h]
  rfl

/-- What has arrived is the same if nothing was read and what waits at the end is the same. -/
theorem arrived_of_inbox {t' : Exchange} (hs : t.session? = some s)
    (hk : t.call.stage.stream? s = some k) (h : s.connection.Carries k e)
    (hs' : t'.session? = some s') (hk' : t'.call.stage.stream? s' = some k)
    (h' : s'.connection.Carries k e') (hread : t'.read = t.read) (hinbox : e'.inbox = e.inbox) :
    t'.arrived = t.arrived := by
  rw [arrived_of_carries hs' hk' h', arrived_of_carries hs hk h, hread, hinbox]

theorem arrived_of_none (hs : t.session? = some s) (hk : t.call.stage.stream? s = none) :
    t.arrived = t.read := by
  unfold arrived
  rw [streamEnd?_of_none hs hk]
  exact ByteArray.append_empty

theorem arrived_of_same {t' : Exchange} (hs : t.session? = some s) (hs' : t'.session? = some s)
    (hstage : t'.call.stage = t.call.stage) (hread : t'.read = t.read) :
    t'.arrived = t.arrived := by
  unfold arrived streamEnd?
  rw [hs, hs', hstage, hread]

theorem rank_lt_of_pending (h : t.call.outcome? = none) : t.call.stage.rank < 5 := by
  unfold Call.outcome? at h
  cases hstage : t.call.stage with
  | done outcome => rw [hstage] at h; cases h
  | _ => simp [CallStage.rank]

/-! ## Going on and ending -/

theorem hear_eq {call : Call} (hcall : t.call.hear need signal = (call, [])) (f : Fabric) :
    t.hear need signal f = { t.told signal with fabric := f, call } := by
  unfold hear
  rw [hcall]
  rfl

theorem turns_of_stage {t' : Exchange} (hcall : t'.call = { t.call with stage })
    (hrank : stage.rank < 5) (hopen : t.isClosed = false) (hs' : t'.session? = some s')
    (hsound : s'.Sound) (hopen' : s'.isClosed = false) (hserves : Serves stage s')
    (hplace : stage.IsOn t.call.session) (hstands : t'.Stands stage)
    (hprogress : t.progress < t'.progress) (harrived : t'.arrived = t.arrived) :
    t.Turns t' true := by
  have hstage : t'.call.stage = stage := by rw [hcall]
  have hsession : t'.call.session = t.call.session := by rw [hcall]
  have hpending : t'.call.outcome? = none := by
    unfold Call.outcome?
    rw [hstage]
    cases stage with
    | done outcome => exact absurd hrank (by simp [CallStage.rank])
    | _ => rfl
  refine ⟨⟨⟨s', hs', hsound, fun _ => hstage ▸ hserves⟩, ?_, hstage ▸ hstands⟩, ⟨stage, hcall⟩,
    hprogress, ?_, fun _ _ => harrived, ?_, ?_, nofun⟩
  · rw [hstage, hsession]
    exact hplace
  · rw [isClosed_eq hs', hopen, hopen']
  · intro outcome hdone
    rw [hpending] at hdone
    cases hdone
  · intro _ hdone
    rw [hpending] at hdone
    cases hdone

/-- What is let go of at the end of a call was all that it had of its session. -/
theorem letGo (hs : f.session? k = some s) (hsound : s.Sound) (hopen : s.isClosed = false)
    (hserves : Serves stage s) (hplace : stage.IsOn k) :
    ∃ s', ((stage.release k).foldl Fabric.perform f).session? k = some s' ∧ s'.Sound ∧
      s'.isClosed = false ∧ s'.Tidy ∧
      ∀ j, stage.stream? s = some j → ¬ s'.connection.Holds j := by
  have hdrop : ∀ ref : StreamRef, ref.session = k → stage.stream? s = some ref.stream →
      ∃ s', (f.perform (.drop ref)).session? k = some s' ∧ s'.Sound ∧ s'.isClosed = false ∧
        s'.Tidy ∧ ∀ j, stage.stream? s = some j → ¬ s'.connection.Holds j := by
    rintro ref rfl hstream
    obtain ⟨e, hcarries⟩ := hserves.carries _ hstream
    refine ⟨s.drop ref.stream, ?_, (s.becomes_drop _).sound hsound, hopen,
      ⟨Connection.tidy_drop hserves.tidy.connection fun _ => hcarries.begun, hserves.tidy.openings⟩,
      fun j hj => ?_⟩
    · change (Fabric.modifySession _ _ _).session? _ = _
      unfold Fabric.modifySession
      rw [Fabric.session?_onSession, if_pos rfl]
      change (f.session? _).map _ = _
      rw [hs]
      rfl
    · cases hstream.symm.trans hj
      exact Connection.not_holds_drop _ _
  cases stage with
  | asking => exact ⟨s, hs, hsound, hopen, hserves.tidy, nofun⟩
  | done outcome => exact ⟨s, hs, hsound, hopen, hserves.tidy, nofun⟩
  | opening request =>
    obtain ⟨htidy, hclosed, hholds⟩ := Session.tidy_abandon hserves.tidy fun j hj =>
      (hserves.carries j hj).elim fun _ h _ => h.begun
    refine ⟨s.abandon request, ?_, (s.becomes_abandon _).sound hsound, hclosed.trans hopen, htidy,
      hholds⟩
    change (Fabric.modifySession _ _ _).session? _ = _
    unfold Fabric.modifySession
    rw [Fabric.session?_onSession, if_pos rfl, hs]
    rfl
  | writing ref data sent => exact hdrop ref hplace rfl
  | reading ref reader => exact hdrop ref hplace rfl
  | finishing ref outcome => exact hdrop ref hplace rfl

/-- A call that ends, and lets go of what it has at a stage. -/
theorem turns_of_end (stage : CallStage) (hpending : t.call.outcome? = none)
    (hcall : t.call.hear need signal =
      ({ t.call with stage := .done outcome }, stage.release t.call.session))
    (hopen : t.isClosed = false) (hs' : f.session? t.call.session = some s') (hsound : s'.Sound)
    (hopen' : s'.isClosed = false) (hserves : Serves stage s')
    (hplace : stage.IsOn t.call.session)
    (hstream : ∀ s k, t.session? = some s → t.call.stage.stream? s = some k →
      stage.stream? s' = some k)
    (hends : t.Ends outcome) : t.Turns (t.hear need signal f) true := by
  have hcall' : (t.hear need signal f).call = { t.call with stage := .done outcome } :=
    congrArg Prod.fst hcall
  obtain ⟨s'', hs'', hsound'', hopen'', htidy, hholds⟩ := letGo hs' hsound hopen' hserves hplace
  have hsession : (t.hear need signal f).session? = some s'' := by
    unfold session?
    rw [hcall']
    unfold hear
    rw [hcall]
    exact hs''
  have hdone : (t.hear need signal f).call.outcome? = some outcome := by
    rw [hcall']
    rfl
  refine ⟨⟨⟨s'', hsession, hsound'', fun _ => ⟨htidy, ?_⟩⟩, ?_, ?_⟩, ⟨_, hcall'⟩, ?_, ?_,
    fun _ hnone => ?_, fun outcome' houtcome => ?_, fun _ _ r r' k hr hr' hk => ?_, nofun⟩
  · rw [hcall']
    exact nofun
  · rw [hcall']
    trivial
  · rw [hcall']
    trivial
  · have hrank := rank_lt_of_pending hpending
    have htold : t.sent + t.read.size ≤ (t.told signal).sent + (t.told signal).read.size := by
      unfold told
      split
      · exact Nat.add_le_add_right (Nat.le_add_right _ _) _
      · exact Nat.add_le_add_left (ByteArray.size_append ▸ Nat.le_add_right _ _) _
      · exact Nat.le_refl _
    have hfive : (t.hear need signal f).call.stage.rank = 5 := by rw [hcall']; rfl
    unfold progress
    rw [hfive, Bool.toNat_true]
    change _ ≤ (t.told signal).sent + (t.told signal).read.size + 5
    omega
  · rw [isClosed_eq hsession, hopen, hopen'']
  · rw [hdone] at hnone
    cases hnone
  · cases hdone.symm.trans houtcome
    exact hends
  · cases hsession.symm.trans hr'
    exact hholds k (hstream r k hr hk)

/-- A call that finds nothing of what its stage waits for ends if its time is up, and else waits
on. -/
theorem turns_of_nothing (h : t.Sound) (hpending : t.call.outcome? = none)
    (hs : t.session? = some s) (hopen : s.isClosed = false)
    (hs' : f.session? t.call.session = some s') (hbecomes : s.Becomes s')
    (hopen' : s'.isClosed = false) (htends : Tends t.call.stage s s')
    (harrived : (t.on f).arrived = t.arrived)
    (hnow : f.now = t.fabric.now) (hwaits : t.Waits)
    (hmeet : t.fabric.meet (t.call.stage.need t.call.session) = (none, f)) :
    t.Turns t.poll.2 t.poll.1 := by
  have hclosed : t.isClosed = false := (isClosed_eq hs).trans hopen
  obtain ⟨r, hr, hsound, hserves⟩ := h.session
  cases hr.symm.trans hs
  rw [poll_of_open hpending hclosed, hmeet]
  dsimp only
  split
  · rename_i hdue
    refine turns_of_end t.call.stage hpending rfl hclosed hs' (hbecomes.sound hsound)
      hopen' (htends.serves (hserves hopen)) h.place (fun r k hr hk => ?_)
      (.late (hnow ▸ hdue) hwaits)
    cases hr.symm.trans hs
    obtain ⟨e, hcarries⟩ := (hserves hopen).carries k hk
    exact (htends.stays k e hk hcarries).1
  · rename_i hdue
    obtain ⟨hsound', -⟩ := h.tends hs hs' hbecomes (fun _ _ => htends) t.spokeOn
      fun _ _ hquiet => ⟨hquiet, harrived⟩
    refine ⟨hsound', ⟨t.call.stage, rfl⟩, Nat.le_refl _, ?_, fun _ _ => harrived,
      fun outcome hdone => ?_, fun _ hdone => ?_, fun _ => ⟨?_, hwaits⟩⟩
    · rw [isClosed_eq (t := t.on f) hs', hopen', hclosed]
    · cases hpending.symm.trans hdone
    · simp [hpending] at hdone
    · rw [← hnow]
      exact Nat.lt_of_not_le hdue

/-! ## The stages -/

theorem turns_of_closed (h : t.Sound) (hpending : t.call.outcome? = none)
    (hclosed : t.isClosed = true) :
    t.Turns t.poll.2 t.poll.1 ∧ t.poll.2.call.outcome? = some (.error .closed) := by
  obtain ⟨s, hs, hsound, -⟩ := h.session
  have hcancelled : s.cancelled = true := hsound.cancelled ((isClosed_eq hs).symm.trans hclosed)
  rw [poll_of_closed hpending hs hcancelled]
  have hbecomes : t.fabric.Becomes
      (t.hear (.cancelled t.call.session) .done t.fabric).fabric :=
    .foldl Fabric.becomes_perform _ _
  obtain ⟨s', hs', hgoes⟩ := hbecomes.goOn _ s hs
  have hstill : s'.isClosed = true := hgoes.isClosed ((isClosed_eq hs).symm.trans hclosed)
  have hstill' : (t.hear (.cancelled t.call.session) .done t.fabric).isClosed = true :=
    (isClosed_eq hs').trans hstill
  refine ⟨⟨⟨⟨s', hs', hgoes.sound hsound, fun hopen => ?_⟩, trivial, trivial⟩,
    ⟨.done (.error .closed), rfl⟩, ?_, hstill'.trans hclosed.symm, fun hopen => ?_,
    fun outcome houtcome => ?_, fun hopen => ?_, nofun⟩, rfl⟩
  · rw [hstill] at hopen
    cases hopen
  · exact Nat.add_le_add_left (rank_lt_of_pending hpending) _
  · rw [hclosed] at hopen
    cases hopen
  · cases houtcome
    exact .closed hclosed
  · rw [hclosed] at hopen
    cases hopen

theorem turns_asking (h : t.Sound) (hstage : t.call.stage = .asking) (hopen : t.isClosed = false) :
    t.Turns t.poll.2 t.poll.1 := by
  obtain ⟨s, hs, hsound, hserves⟩ := h.session
  have hopens := (isClosed_eq hs).symm.trans hopen
  obtain ⟨s', hrequest, hopen', htidy, hnone⟩ :=
    Session.request_of_open (hserves hopens).tidy hopens
  obtain ⟨f, hon, hs', -⟩ := Fabric.onSession_of hs Session.request
  have hbecomes := s.becomes_request
  rw [hrequest] at hon hs' hbecomes
  have hmeet : t.fabric.meet (t.call.stage.need t.call.session) =
      (some (.ticket s.openings.next), f) := by
    rw [hstage]
    simp only [CallStage.need, Fabric.meet, hon, Fabric.ticketOf]
  have hpending : t.call.outcome? = none := by rw [Call.outcome?, hstage]
  have hstands := h.stands
  rw [hstage] at hstands
  have hcall : t.call.hear (t.call.stage.need t.call.session) (.ticket s.openings.next) =
      ({ t.call with stage := .opening s.openings.next }, []) := by
    simp [Call.hear, CallStage.need, Call.advance, hstage]
  rw [poll_of_met hpending hopen hmeet, hear_eq hcall]
  refine turns_of_stage rfl (by simp [CallStage.rank]) hopen hs' (hbecomes.sound hsound) hopen'
    ⟨htidy, fun k hk => absurd (hk.symm.trans hnone) (Option.some_ne_none k)⟩ trivial hstands ?_ ?_
  · simp [progress, told, hstage, CallStage.rank]
  · exact Eq.trans (arrived_of_none hs' hnone) (arrived_of_none hs (by rw [hstage]; rfl)).symm

theorem turns_opening (h : t.Sound) {n : Nat} (hstage : t.call.stage = .opening n)
    (hopen : t.isClosed = false) : t.Turns t.poll.2 t.poll.1 := by
  obtain ⟨s, hs, hsound, hserves⟩ := h.session
  have hopens := (isClosed_eq hs).symm.trans hopen
  have hserves := hserves hopens
  have hpending : t.call.outcome? = none := by rw [Call.outcome?, hstage]
  obtain ⟨hsent, hread⟩ : t.sent = 0 ∧ t.read = ByteArray.empty := by
    have hstands := h.stands
    rw [hstage] at hstands
    exact hstands
  obtain ⟨f, hon, hs', hnow⟩ := Fabric.onSession_of hs (Session.collect n)
  have hbecomes := s.becomes_collect n
  rcases Session.collect_of_open hserves.tidy hsound hopens n with
    ⟨hnone, hcollect⟩ | ⟨k, s', hgranted, hcollect, hopen', htidy, hconnection⟩
  · rw [hcollect] at hon hs' hbecomes
    have hmeet : t.fabric.meet (t.call.stage.need t.call.session) = (none, f) := by
      rw [hstage]
      simp only [CallStage.need, Fabric.meet, hon, Fabric.streamOf]
    refine turns_of_nothing h hpending hs hopens hs' hbecomes hopens (.refl hserves.tidy _)
      (arrived_of_same hs hs' rfl rfl) hnow (.opens hsent (streamEnd?_of_none hs ?_)) hmeet
    rw [hstage]
    exact hnone
  · rw [hcollect] at hon hs' hbecomes
    have hmeet : t.fabric.meet (t.call.stage.need t.call.session) =
        (some (.stream ⟨t.call.session, k⟩), f) := by
      rw [hstage]
      simp only [CallStage.need, Fabric.meet, hon, Fabric.streamOf]
    have hstream : t.call.stage.stream? s = some k := by
      rw [hstage]
      exact hgranted
    obtain ⟨e, hcarries⟩ := hserves.carries k hstream
    have hcarries' : s'.connection.Carries k e := hconnection ▸ hcarries
    have hheld : ∀ stage : CallStage, stage.stream? s' = some k → Serves stage s' := fun stage hk =>
      ⟨htidy, fun j hj => ⟨e, Option.some.inj (hk.symm.trans hj) ▸ hcarries'⟩⟩
    have hhear : t.call.hear (t.call.stage.need t.call.session) (.stream ⟨t.call.session, k⟩) =
        t.call.send ⟨t.call.session, k⟩ := by
      simp [Call.hear, CallStage.need, Call.advance, hstage]
    rw [poll_of_met hpending hopen hmeet]
    by_cases hlarge : Frame.maxPayload < t.call.request.size
    · have hencode : (Frame.request t.call.request).encode = _ := Frame.encode_large hlarge
      refine turns_of_end (.writing ⟨t.call.session, k⟩ .empty 0) hpending ?_ hopen hs'
        (hbecomes.sound hsound) hopen' (hheld _ rfl) rfl (fun r j hr hj => ?_)
        (.tooLarge hlarge hsent (by rw [streamEnd?_of_carries hs hstream hcarries]; rfl))
      · rw [hhear, Call.send, hencode]
        rfl
      · cases hr.symm.trans hs
        exact hstream.symm.trans hj
    · have hencode : (Frame.request t.call.request).encode = _ :=
        Frame.encode_fits (Nat.not_lt.1 hlarge)
      rw [Call.send, hencode] at hhear
      rw [hear_eq hhear]
      refine turns_of_stage rfl (by simp [CallStage.rank]) hopen hs' (hbecomes.sound hsound) hopen'
        (hheld _ rfl) rfl ⟨hencode, hsent, ?_, hread⟩ ?_ ?_
      · rw [ByteArray.size_append, Frame.size_header]
        exact Nat.lt_add_right _ (by decide)
      · simp [progress, told, hstage, CallStage.rank]
      · exact arrived_of_inbox hs hstream hcarries hs' rfl hcarries' rfl rfl

/-! ### With a stream -/

/-- A call has its stream, and has done something with it. -/
structure Handled (t : Exchange) (ref : StreamRef) (f : Fabric) (s : Session) (c : Mux.Connection)
    (e e' : StreamEnd) : Prop where
  before : t.session? = some s
  isOpen : s.isClosed = false
  sound : s.Sound
  tidy : s.Tidy
  stream : ∀ s, t.call.stage.stream? s = some ref.stream
  place : t.call.stage.IsOn t.call.session
  carries : s.connection.Carries ref.stream e
  after : f.session? t.call.session = some { s with connection := c }
  tidy' : c.Tidy
  carries' : c.Carries ref.stream e'
  now : f.now = t.fabric.now

theorem meet_in_use {α : Type} (g : Nat → Mux.Connection → Ready α × Mux.Connection)
    (give : α → Signal) {result : StreamEnd → Ready α} {next : StreamEnd → StreamEnd}
    (h : t.Sound) (hopen : t.isClosed = false) (hplace : ref.session = t.call.session)
    (hstream : ∀ s, t.call.stage.stream? s = some ref.stream)
    (hneed : t.fabric.meet (t.call.stage.need t.call.session) = t.fabric.onStream ref g give)
    (hg : ∀ c e, Mux.Connection.Carries c ref.stream e → c.Tidy →
      (g ref.stream c).1 = result e ∧ (g ref.stream c).2.Tidy ∧
        (g ref.stream c).2.Carries ref.stream (next e)) :
    ∃ f s c e, t.Handled ref f s c e (next e) ∧
      t.fabric.meet (t.call.stage.need t.call.session) =
        (Fabric.signalOf give (some (result e)), f) := by
  obtain ⟨s, hs, hsound, hserves⟩ := h.session
  have hopens := (isClosed_eq hs).symm.trans hopen
  obtain ⟨e, hcarries⟩ := (hserves hopens).carries _ (hstream s)
  have hs' : t.fabric.session? ref.session = some s := hplace ▸ hs
  obtain ⟨f, hon, hf, hnow⟩ := Fabric.onStream_of hs' g give
  obtain ⟨hresult, htidy', hcarries'⟩ := hg _ e hcarries (hserves hopens).tidy.connection
  exact ⟨f, s, _, e, ⟨hs, hopens, hsound, (hserves hopens).tidy, hstream, h.place, hcarries,
    hplace ▸ hf, htidy', hcarries', hnow⟩, hneed.trans (hresult ▸ hon)⟩

namespace Handled

variable {c : Mux.Connection}

theorem streamEnd? (h : t.Handled ref f s c e e') : t.streamEnd? = some e :=
  streamEnd?_of_carries h.before (h.stream s) h.carries

theorem isOver (h : t.Handled ref f s c e e') : t.isOver = !e.phase.canRead := by
  rw [Exchange.isOver, h.streamEnd?, Option.any_some]

theorem arrived (h : t.Handled ref f s c e e') : t.arrived = t.read ++ e.inbox := by
  unfold Exchange.arrived
  rw [h.streamEnd?]
  rfl

theorem serves (h : t.Handled ref f s c e e') (hstream : ∀ s, stage.stream? s = some ref.stream) :
    Serves stage { s with connection := c } :=
  ⟨⟨h.tidy', h.tidy.openings⟩, fun _ hj =>
    ⟨e', Option.some.inj ((hstream _).symm.trans hj) ▸ h.carries'⟩⟩

section After

variable {t' : Exchange}

theorem session?_after (h : t.Handled ref f s c e e') (hcall : t'.call = { t.call with stage })
    (hfabric : t'.fabric = f) : t'.session? = some { s with connection := c } := by
  rw [session?, hcall, hfabric]
  exact h.after

theorem streamEnd?_after (h : t.Handled ref f s c e e') (hcall : t'.call = { t.call with stage })
    (hfabric : t'.fabric = f) (hstream : ∀ s, stage.stream? s = some ref.stream) :
    t'.streamEnd? = some e' :=
  streamEnd?_of_carries (h.session?_after hcall hfabric) (hcall ▸ hstream _) h.carries'

theorem isOver_after (h : t.Handled ref f s c e e') (hcall : t'.call = { t.call with stage })
    (hfabric : t'.fabric = f) (hstream : ∀ s, stage.stream? s = some ref.stream) :
    t'.isOver = !e'.phase.canRead := by
  rw [Exchange.isOver, h.streamEnd?_after hcall hfabric hstream, Option.any_some]

theorem arrived_after (h : t.Handled ref f s c e e') (hcall : t'.call = { t.call with stage })
    (hfabric : t'.fabric = f) (hstream : ∀ s, stage.stream? s = some ref.stream) :
    t'.arrived = t'.read ++ e'.inbox := by
  unfold Exchange.arrived
  rw [h.streamEnd?_after hcall hfabric hstream]
  rfl

end After

theorem goesOn (h : t.Handled ref f s c e e') {t' : Exchange}
    (hcall : t'.call = { t.call with stage }) (hfabric : t'.fabric = f)
    (hstream : ∀ s, stage.stream? s = some ref.stream) (hplace : stage.IsOn t.call.session)
    (hstands : t'.Stands stage) (hprogress : t.progress < t'.progress)
    (hwhole : t'.read ++ e'.inbox = t.read ++ e.inbox) : t.Turns t' true := by
  have hrank : stage.rank < 5 := by
    cases stage with
    | done outcome => cases hstream s
    | _ => simp [CallStage.rank]
  have harrived : t'.arrived = t.arrived := by
    rw [h.arrived_after hcall hfabric hstream, hwhole, h.arrived]
  exact turns_of_stage hcall hrank ((isClosed_eq h.before).trans h.isOpen)
    (h.session?_after hcall hfabric) ((s.becomes_connection c).sound h.sound) h.isOpen
    (h.serves hstream) hplace hstands hprogress harrived

theorem ends (h : t.Handled ref f s c e e') (hpending : t.call.outcome? = none)
    (hcall : t.call.hear need signal = t.call.conclude outcome) (hends : t.Ends outcome) :
    t.Turns (t.hear need signal f) true :=
  turns_of_end t.call.stage hpending hcall ((isClosed_eq h.before).trans h.isOpen) h.after
    ((s.becomes_connection c).sound h.sound) h.isOpen (h.serves h.stream) h.place
    (fun _ _ _ hk => (h.stream _).trans ((h.stream _).symm.trans hk)) hends

/-- The call has found nothing, and waits on unless its time is up. -/
theorem waits (h : t.Handled ref f s c e e') (hsound : t.Sound) (hpending : t.call.outcome? = none)
    (hgrows : e.Grows .empty e')
    (hmeet : t.fabric.meet (t.call.stage.need t.call.session) = (none, f)) (hwaits : t.Waits) :
    t.Turns t.poll.2 t.poll.1 := by
  have htends : Tends t.call.stage s { s with connection := c } := by
    refine ⟨⟨h.tidy', h.tidy.openings⟩, fun j d hj hd => ?_, fun hnone => ?_⟩
    · cases (h.stream s).symm.trans hj
      cases hd.unique h.carries
      exact ⟨h.stream _, _, e', h.carries', hgrows⟩
    · exact absurd ((h.stream s).symm.trans hnone) (Option.some_ne_none _)
  have harrived : (t.on f).arrived = t.arrived := by
    have hafter : (t.on f).arrived = t.read ++ e'.inbox := h.arrived_after rfl rfl h.stream
    rw [hafter, h.arrived, hgrows.inbox, ByteArray.append_empty]
  exact turns_of_nothing hsound hpending h.before h.isOpen h.after (s.becomes_connection c) h.isOpen
    htends harrived h.now hwaits hmeet

end Handled

theorem size_of_encode {request data : ByteArray}
    (h : (Frame.request request).encode = .ok data) :
    data.size = request.size + Frame.headerSize := by
  obtain ⟨-, rfl⟩ := Frame.encode_ok h
  rw [ByteArray.size_append, Frame.size_header, Nat.add_comm]
  rfl

theorem turns_writing (h : t.Sound) {data : ByteArray} {sent : Nat}
    (hstage : t.call.stage = .writing ref data sent) (hopen : t.isClosed = false) :
    t.Turns t.poll.2 t.poll.1 := by
  have hpending : t.call.outcome? = none := by rw [Call.outcome?, hstage]
  have hplace := h.place
  have hstands := h.stands
  rw [hstage] at hplace hstands
  obtain ⟨hencode, hsent, hlt, hread⟩ := hstands
  have hfits : t.call.request.size ≤ Frame.maxPayload := (Frame.encode_ok hencode).1
  have hsize := size_of_encode hencode
  have hleft : t.sent < t.call.request.size + Frame.headerSize := by
    rw [← hsize, hsent]
    exact hlt
  obtain ⟨f, s, c, e, hhandled, hmeet⟩ := meet_in_use (fun id c => c.write id data sent) .taken
    h hopen hplace (fun s => by rw [hstage]; rfl) (by rw [hstage]; rfl)
    fun _ _ he hc => he.write hc hlt
  obtain ⟨hwrites, hgrows, -⟩ := e.writes_write hlt
  generalize (e.write data sent true).1 = result at hmeet hwrites
  cases hwrites with
  | @taken n hsome hbound =>
    have hcall : t.call.hear (t.call.stage.need t.call.session) (.taken n) =
        ({ t.call with stage := if data.size ≤ sent + n then .reading ref {}
            else .writing ref data (sent + n) }, []) := by
      rw [hstage]
      simp only [Call.hear, CallStage.need, Call.advance, hstage]
      split <;> rfl
    have hwhole : t.read ++ (e.write data sent true).2.1.inbox = t.read ++ e.inbox := by
      rw [hgrows.inbox, ByteArray.append_empty]
    rw [poll_of_met hpending hopen hmeet, hear_eq hcall]
    split
    · rename_i hall
      have hdone : t.sent + n = t.call.request.size + Frame.headerSize := by omega
      have hbegins : Frame.decode t.read = .ok none := by rw [hread]; rfl
      refine hhandled.goesOn rfl rfl (fun _ => rfl) hplace ⟨hdone, hread.symm, hbegins⟩ ?_ hwhole
      simp only [progress, told, hstage, CallStage.rank]
      omega
    · rename_i hmore
      refine hhandled.goesOn rfl rfl (fun _ => rfl) hplace
        ⟨hencode, congrArg (· + n) hsent, Nat.lt_of_not_le hmore, hread⟩ ?_ hwhole
      simp only [progress, told, hstage, CallStage.rank]
      omega
  | refused shut room =>
    have hshut : t.isShut = true := by
      rw [isShut, hhandled.streamEnd?, Option.any_some, shut]
      rfl
    have hroom : t.isFull = false := by rw [isFull, hhandled.streamEnd?, Option.any_some, room]
    rw [poll_of_met hpending hopen hmeet]
    refine hhandled.ends hpending ?_ (.unwritten hfits hleft hshut hroom)
    rw [hstage]
    simp only [Call.hear, CallStage.need, Call.advance, hstage]
  | later full =>
    have hfull : t.isFull = true := by rw [isFull, hhandled.streamEnd?, Option.any_some, full]
    exact hhandled.waits h hpending hgrows hmeet (.writes hfits hleft hfull)

theorem turns_reading (h : t.Sound) {reader : FrameReader}
    (hstage : t.call.stage = .reading ref reader) (hopen : t.isClosed = false) :
    t.Turns t.poll.2 t.poll.1 := by
  have hpending : t.call.outcome? = none := by rw [Call.outcome?, hstage]
  have hplace := h.place
  have hstands := h.stands
  rw [hstage] at hplace hstands
  obtain ⟨hsent, hbuffer, hdecode⟩ := hstands
  obtain ⟨f, s, c, e, hhandled, hmeet⟩ := meet_in_use (fun id c => c.read id reader.room) .bytes
    h hopen hplace (fun s => by rw [hstage]; rfl) (by rw [hstage]; rfl)
    fun _ _ he hc => he.read hc reader.room
  obtain ⟨hid, hphase, -⟩ := e.read_rest reader.room
  have hreads := e.reads_read reader.room
  have harrived := hhandled.arrived
  have hhear : ∀ data, t.call.hear (t.call.stage.need t.call.session) (.bytes data) =
      { t.call with stage := .asking }.read ref reader data := fun data => by
    rw [hstage]
    simp only [Call.hear, CallStage.need, Call.advance, hstage]
  generalize hleft : (e.read reader.room true).2.1.inbox = left at hreads
  generalize (e.read reader.room true).1 = result at hmeet hreads
  cases hreads with
  | bytes there =>
    have hroom := reader.room_pos
    have hsome : (e.inbox.extract 0 reader.room).size ≠ 0 := by
      rw [ByteArray.size_extract]
      omega
    have hcall := hhear (e.inbox.extract 0 reader.room)
    rw [Call.read, if_neg hsome] at hcall
    have hwhole : t.read ++ e.inbox.extract 0 reader.room ++
        (e.read reader.room true).2.1.inbox = t.read ++ e.inbox := by
      rw [hleft, ByteArray.append_assoc, Bytes.extract_append_rest]
    rw [poll_of_met hpending hopen hmeet]
    rcases reader.feed_cases (e.inbox.extract 0 reader.room) with ⟨fault, hfault, hfeed⟩ |
      ⟨frame, rest, hframe, hfeed⟩ | ⟨hnone, hfeed⟩
    · have herror := Frame.decode_append_error (e.inbox.extract reader.room e.inbox.size) hfault
      rw [hbuffer, ← hleft, hwhole, ← harrived] at herror
      refine hhandled.ends hpending ?_ (.invalid hsent herror (Frame.invalidData_of_decode herror))
      rw [hcall, hfeed, Call.conclude, Call.release, hstage]
      rfl
    · rw [hfeed] at hcall
      rw [hbuffer] at hframe
      rw [hear_eq hcall]
      refine hhandled.goesOn rfl rfl (fun _ => rfl) hplace ⟨hsent, .frame hframe⟩ ?_ hwhole
      simp only [progress, told, hstage, CallStage.rank, ByteArray.size_append]
      omega
    · rw [hfeed] at hcall
      rw [hear_eq hcall]
      refine hhandled.goesOn rfl rfl (fun _ => rfl) hplace
        ⟨hsent, congrArg (· ++ _) hbuffer, hbuffer ▸ hnone⟩ ?_ hwhole
      simp only [progress, told, hstage, CallStage.rank, ByteArray.size_append]
      omega
  | ended nothing done =>
    have hover := hhandled.isOver.trans done
    have hall : t.arrived = t.read := by
      rw [harrived, ByteArray.size_eq_zero_iff.1 nothing, ByteArray.append_empty]
    have hcall := hhear ByteArray.empty
    rw [Call.read, if_pos ByteArray.size_empty] at hcall
    rw [poll_of_met hpending hopen hmeet]
    by_cases hempty : reader.buffer.size = 0
    · have hunread : (t.read ++ ByteArray.empty).size = 0 := by
        rw [ByteArray.append_empty, ← hbuffer, hempty]
      have hstill : (!(e.read reader.room true).2.1.phase.canRead) = true := by rw [hphase, done]
      have hwhole : t.read ++ ByteArray.empty ++ (e.read reader.room true).2.1.inbox =
          t.read ++ e.inbox := by rw [ByteArray.append_empty, hleft]
      have hnothing : t.read ++ ByteArray.empty ++ (e.read reader.room true).2.1.inbox =
          t.read ++ ByteArray.empty := by
        rw [hleft, ByteArray.size_eq_zero_iff.1 nothing, ByteArray.append_empty]
      rw [FrameReader.ended, if_pos hempty] at hcall
      rw [hear_eq hcall]
      refine hhandled.goesOn rfl rfl (fun _ => rfl) hplace
        ⟨hsent, .ended hunread (fun _ => ?_) fun _ _ => ?_⟩ ?_ hwhole
      · exact Eq.trans (hhandled.isOver_after rfl rfl fun _ => rfl) hstill
      · refine Eq.trans (congrArg ByteArray.size (hhandled.arrived_after rfl rfl fun _ => rfl)) ?_
        exact (congrArg ByteArray.size hnothing).trans hunread
      · simp only [progress, told, hstage, CallStage.rank, ByteArray.size_append]
        omega
    · have hbegun : t.arrived.size ≠ 0 := by
        rw [hall, ← hbuffer]
        exact hempty
      have hinside : Frame.decode t.arrived = .ok none := by rw [hall, hdecode]
      refine hhandled.ends hpending ?_ (.cutOff hsent hover hbegun hinside)
      rw [hcall, FrameReader.ended, if_neg hempty, hall, ← hbuffer, Call.conclude, Call.release,
        hstage]
      rfl
  | later nothing goesOn =>
    have hgrows : e.Grows .empty (e.read reader.room true).2.1 := .of_same hid hleft (.inl hphase)
    refine hhandled.waits h hpending hgrows hmeet (.listens hsent ?_ ?_)
    · rw [harrived, ByteArray.size_eq_zero_iff.1 nothing, ByteArray.append_empty, hdecode]
    · rw [hhandled.isOver, goesOn]

/-- What a call has come to is how it ends, once it can say that it is done. -/
theorem Settles.ends (h : t.Settles outcome) (hwritten : t.Written) (hopen : t.isClosed = false) :
    t.Ends outcome := by
  cases h with
  | @frame frame rest begins =>
    have harrived := Frame.decode_append_some
      ((t.streamEnd?.map (·.inbox)).getD ByteArray.empty) begins
    cases frame with
    | request data => exact .request hwritten harrived
    | response data => exact .response hwritten harrived
    | error text => exact .remote hwritten harrived
  | ended unread isOver empty => exact .nothing hwritten (isOver hopen) unread (empty hopen)

theorem turns_finishing (h : t.Sound) (hstage : t.call.stage = .finishing ref outcome)
    (hopen : t.isClosed = false) : t.Turns t.poll.2 t.poll.1 := by
  have hpending : t.call.outcome? = none := by rw [Call.outcome?, hstage]
  have hplace := h.place
  have hstands := h.stands
  rw [hstage] at hplace hstands
  obtain ⟨hsent, hsettles⟩ := hstands
  obtain ⟨f, s, c, e, hhandled, hmeet⟩ := meet_in_use (fun id c => c.finish id) (fun _ => .done)
    h hopen hplace (fun s => by rw [hstage]; rfl) (by rw [hstage]; rfl)
    fun _ _ he hc => he.finish hc
  obtain ⟨hfinish, hgrows, -⟩ := e.finish_cases
  have hcrowded : t.isCrowded = (e.phase ≠ .ended && orderLimit ≤ e.outstanding : Bool) := by
    rw [isCrowded, hhandled.streamEnd?, Option.any_some]
  rcases hfinish with ⟨hdone, hfree⟩ | ⟨hlater, hphase, hlimit⟩
  · rw [hdone] at hmeet
    rw [poll_of_met hpending hopen hmeet]
    have hwritten : t.Written := by
      refine ⟨hsent, ?_⟩
      rw [hcrowded]
      rcases hfree with hended | hroom
      · simp [hended]
      · simp [Nat.not_le.2 hroom]
    refine hhandled.ends hpending ?_ (hsettles.ends hwritten hopen)
    rw [hstage]
    simp only [Call.hear, CallStage.need, Call.advance, hstage]
  · rw [hlater] at hmeet
    refine hhandled.waits h hpending hgrows hmeet (.finishes hsent hsettles ?_)
    rw [hcrowded]
    simp [hphase, hlimit]

end Switchboard.Exchange
