import Switchboard.Proofs.Calls
import Switchboard.Proofs.Registry.Concourse

/-!
# The grounds of an eviction

A task that evicts a session has found it closed: the serving of a session ends, and a ping fails
with a fault of the connection, only when the session refuses a stream or its scope is cancelled
(`Fabric.meet_refused`, `Sweep.evict_of_hear`). `Task.Sound` is what a task has to know for that,
and `Task.Sound.hear` and `Task.Sound.isShut` say that it goes on to know it, and that whomever it
evicts is closed.
-/

namespace Switchboard

def Need.asks? : Need → Option Nat
  | .request id | .granted id _ | .queue id | .accepted id _ => some id
  | _ => none

namespace Fabric

variable {f f' : Fabric} {need : Need} {signal : Signal} {fault : Fault} {id : Nat}

def Has (id : Nat) (f : Fabric) : Prop :=
  ∃ s, f.session? id = some s

def IsShut (id : Nat) (f : Fabric) : Prop :=
  f.Has id ∧ f.isClosed id = true

theorem Has.becomes (h : f.Has id) (hbecomes : f.Becomes f') : f'.Has id := by
  obtain ⟨s, hs⟩ := h
  obtain ⟨s', hs', -⟩ := hbecomes.goOn id s hs
  exact ⟨s', hs'⟩

theorem IsShut.becomes (h : f.IsShut id) (hbecomes : f.Becomes f') : f'.IsShut id := by
  obtain ⟨s, hs⟩ := h.1
  exact ⟨h.1.becomes hbecomes, hbecomes.isClosed hs h.2⟩

theorem signalIf_ne (holds : Bool) (h : signal ≠ .done) : signalIf holds ≠ some signal := by
  unfold signalIf
  split <;> simp [h.symm]

theorem signalOf_ne {α : Type} {g : α → Signal} (hg : ∀ a, g a ≠ signal)
    (hfailed : ∀ fault, signal ≠ .failed fault) (result : Option (Ready α)) :
    signalOf g result ≠ some signal := by
  unfold signalOf
  split <;> simp [hg, Ne.symm (hfailed _)]

theorem meet_refused (hf : f.Sound) (h : (f.meet need).1 = some (.refused fault)) :
    ∃ id, need.asks? = some id ∧ f.isClosed id = true := by
  have hclosed : ∀ id, (∀ s, f.session? id = some s → s.isClosed = true) →
      f.isClosed id = true := by
    intro id hs
    unfold isClosed
    split
    · rename_i s heq
      exact hs s heq
    · rfl
  cases need with
  | request id =>
    refine ⟨id, rfl, hclosed id ?_⟩
    intro s hs
    simp only [meet, onSession_fst, hs, Option.map_some] at h
    cases hrequest : s.request.1 with
    | error fault => exact (Session.request_eq_error hrequest).1
    | ok number => simp [hrequest, ticketOf] at h
  | granted id request =>
    refine ⟨id, rfl, hclosed id ?_⟩
    intro s hs
    simp only [meet, onSession_fst, hs, Option.map_some] at h
    cases hcollect : (s.collect request).1 with
    | none => simp [hcollect, streamOf] at h
    | some result =>
      cases result with
      | error fault => exact (Session.collect_eq_error (hf id s hs) hcollect).1
      | ok stream => simp [hcollect, streamOf] at h
  | queue id =>
    refine ⟨id, rfl, hclosed id ?_⟩
    intro s hs
    simp only [meet, onSession_fst, hs, Option.map_some] at h
    cases hqueue : s.queue.1 with
    | error fault => exact (Session.queue_eq_error hqueue).1
    | ok number => simp [hqueue, ticketOf] at h
  | accepted id acceptor =>
    refine ⟨id, rfl, hclosed id ?_⟩
    intro s hs
    simp only [meet, onSession_fst, hs, Option.map_some] at h
    cases haccept : (s.accept acceptor).1 with
    | none => simp [haccept, streamOf] at h
    | some result =>
      cases result with
      | error fault => exact (Session.accept_eq_error haccept).1
      | ok stream => simp [haccept, streamOf] at h
  | turn => simp [meet] at h
  | cancelled id => exact absurd h (signalIf_ne _ (by simp))
  | stopped id => exact absurd h (signalIf_ne _ (by simp))
  | read ref room => exact absurd h (signalOf_ne (by simp) (by simp) _)
  | write ref data start => exact absurd h (signalOf_ne (by simp) (by simp) _)
  | finish ref => exact absurd h (signalOf_ne (by simp) (by simp) _)
  | pour id data start =>
    simp only [meet] at h
    split at h
    · simp at h
    · exact absurd h (signalOf_ne (by simp) (by simp) _)
  | draw id room =>
    simp only [meet] at h
    split at h
    · simp at h
    · exact absurd h (signalOf_ne (by simp) (by simp) _)
  | ended id => exact absurd h (signalIf_ne _ (by simp))
  | moment time => exact absurd h (signalIf_ne _ (by simp))
  | peer key => simp [meet] at h
  | keys => simp [meet] at h

/-- Only who asks for the session of a key is told of one. -/
theorem meet_peer {session? : Option Nat} (h : (f.meet need).1 = some (.peer session?)) :
    ∃ key, need = .peer key := by
  have hticket : ∀ result, ticketOf result ≠ .peer session? := by
    intro result
    unfold ticketOf
    split <;> simp
  have hstream : ∀ id result, streamOf id result ≠ some (.peer session?) := by
    intro id result
    unfold streamOf
    split <;> simp
  cases need with
  | peer key => exact ⟨key, rfl⟩
  | request id => exact absurd (Option.some.inj h) (hticket _)
  | queue id => exact absurd (Option.some.inj h) (hticket _)
  | granted id request => exact absurd h (hstream _ _)
  | accepted id acceptor => exact absurd h (hstream _ _)
  | read ref room => exact absurd h (signalOf_ne (by simp) (by simp) _)
  | write ref data start => exact absurd h (signalOf_ne (by simp) (by simp) _)
  | finish ref => exact absurd h (signalOf_ne (by simp) (by simp) _)
  | pour id data start =>
    simp only [meet] at h
    split at h
    · simp at h
    · exact absurd h (signalOf_ne (by simp) (by simp) _)
  | draw id room =>
    simp only [meet] at h
    split at h
    · simp at h
    · exact absurd h (signalOf_ne (by simp) (by simp) _)
  | turn => simp [meet] at h
  | keys => simp [meet] at h
  | cancelled id => exact absurd h (signalIf_ne _ (by simp))
  | stopped id => exact absurd h (signalIf_ne _ (by simp))
  | ended id => exact absurd h (signalIf_ne _ (by simp))
  | moment time => exact absurd h (signalIf_ne _ (by simp))

theorem isClosed_of_meet_cancelled (h : (f.meet (.cancelled id)).1 = some signal) :
    f.isClosed id = true := by
  simp only [meet, signalIf] at h
  split at h
  · rename_i hcancelled
    unfold isClosed
    split
    · rename_i s hs
      rw [hs, Option.all_some] at hcancelled
      exact Session.isClosed_of_cancelled hcancelled
    · rfl
  · cases h

end Fabric

/-! ## Calls and sweeps -/

theorem Call.evict_not_mem (call : Call) (need : Need) (signal : Signal) (key : String) (id : Nat) :
    Deed.evict key id ∉ (call.hear need signal).2 := by
  have hrelease : ∀ c : Call, Deed.evict key id ∉ c.release := by
    intro c
    unfold release CallStage.release
    split <;> simp
  have hread : ∀ stream reader data (c : Call),
      Deed.evict key id ∉ (c.read stream reader data).2 := by
    intro stream reader data c
    unfold read
    split
    · cases reader.ended <;> simp
    · split
      · rename_i received _
        cases received <;> simp
      · simp
  unfold hear
  split
  · exact hrelease call
  · exact hrelease call
  · unfold advance
    split
    · exact hrelease call
    · simp
    · exact hrelease call
    · simp
    · unfold send
      split <;> simp
    · dsimp only
      split <;> simp
    · exact hread _ _ _ _
    · simp

/-- A reply that cannot be read is no fault of the connection. -/
theorem Method.isFatal_of_response {outcome : Except Fault ByteArray} {fault : Fault}
    (h : Method.ping.response? outcome = .error fault) (hfatal : fault.isFatal = true) :
    IsFatal outcome := by
  cases outcome with
  | error cause =>
    cases h
    exact ⟨fault, rfl, hfatal⟩
  | ok data =>
    simp only [response?, Except.bind, Codec.decode, Codec.decodeStrict] at h
    generalize MessagePack.decode _ _ = result at h
    cases result with
    | error flaw =>
      cases h
      cases hfatal
    | ok reply => cases h

namespace Sweep

variable {s : Sweep} {now place : Nat} {need : Need} {signal : Signal} {key hostname : String}
  {id slot : Nat} {part : SweepTally} {call : Call}

/-- A worker evicts the session of its ping, and only after a fault of the connection. -/
theorem evict_of_hear (h : Deed.evict key id ∈ (s.hear now place need signal).2) :
    ∃ slot call part, s.workers[place]? = some (.pinging slot key call part) ∧ call.session = id ∧
      ∃ outcome, (call.hear need signal).1.outcome? = some outcome ∧ IsFatal outcome := by
  cases hw : s.workers[place]? with
  | none => simp [hear, hw] at h
  | some worker =>
    cases worker with
    | free part => simp [hear, hw] at h
    | looking slot hostname part => cases signal <;> simp [hear, hw] at h
    | done => simp [hear, hw] at h
    | pinging slot hostname call part =>
      simp only [hear, hw] at h
      split at h
      · exact absurd h (call.evict_not_mem _ _ _ _)
      · rename_i outcome houtcome
        rcases List.mem_append.1 h with hcall | hanswer
        · exact absurd hcall (call.evict_not_mem _ _ _ _)
        · unfold answered at hanswer
          split at hanswer
          · split at hanswer <;> cases hanswer
          · rename_i fault hresponse
            dsimp only at hanswer
            split at hanswer
            · rename_i hfatal
              obtain ⟨rfl, rfl⟩ : key = hostname ∧ id = (call.hear need signal).1.session := by
                simpa using hanswer
              exact ⟨slot, call, part, rfl, (call.hear_session need signal).symm, outcome,
                houtcome, Method.isFatal_of_response hresponse hfatal⟩
            · cases hanswer

/-- Where the pings of a sweep come from: they were under way, or one of them went on, or a session
was found for it. -/
theorem pinging_of_hear
    (h : .pinging slot hostname call part ∈ (s.hear now place need signal).1.workers) :
    .pinging slot hostname call part ∈ s.workers ∨
      (∃ old, s.workers[place]? = some (.pinging slot hostname old part) ∧
        call = (old.hear need signal).1 ∧ call.outcome? = none) ∨
      ∃ session, signal = .peer (some session) ∧
        call = .start session (Method.ping.envelope ()) s.limit now := by
  -- Each answer of the sweep puts one worker in its place.
  have hput : ∀ (s' : Sweep) (w : SweepWorker), s'.workers = s.workers →
      .pinging slot hostname call part ∈ (s'.put place w).workers →
      w = .pinging slot hostname call part ∨ .pinging slot hostname call part ∈ s.workers := by
    intro s' w hworkers hmem
    rcases List.mem_or_eq_of_mem_set hmem with hold | heq
    · exact .inr (hworkers ▸ hold)
    · exact .inl heq.symm
  unfold hear at h
  split at h
  · rename_i part' hw
    dsimp only at h
    unfold next at h
    split at h
    · exact .inl ((hput _ _ rfl h).resolve_left (by simp))
    · dsimp only at h
      split at h
      · exact .inl ((hput _ _ rfl h).resolve_left (by simp))
      · exact .inl ((hput _ _ rfl h).resolve_left (by simp))
  · rename_i slot' hostname' part' session? hw
    dsimp only at h
    unfold found at h
    split at h
    · exact .inl ((hput _ _ rfl h).resolve_left (by simp))
    · rename_i session
      rcases hput _ _ rfl h with heq | hold
      · cases heq
        exact .inr (.inr ⟨session, rfl, rfl⟩)
      · exact .inl hold
  · rename_i slot' hostname' old part' hw
    dsimp only at h
    split at h
    · rename_i houtcome
      rcases hput _ _ rfl h with heq | hold
      · cases heq
        exact .inr (.inl ⟨old, hw, rfl, houtcome⟩)
      · exact .inl hold
    · unfold answered at h
      split at h
      · split at h <;> exact .inl ((hput _ _ rfl h).resolve_left (by simp))
      · exact .inl ((hput _ _ rfl h).resolve_left (by simp))
  · exact .inl h

/-- The pings of a sweep are on sessions that are there, have not ended and hold no fault of the
connection. -/
def Pings (f : Fabric) (s : Sweep) : Prop :=
  ∀ slot hostname call part, .pinging slot hostname call part ∈ s.workers →
    f.Has call.session ∧ call.outcome? = none ∧ call.Mild

variable {f f' : Fabric}

theorem Pings.becomes (h : s.Pings f) (hbecomes : f.Becomes f') : s.Pings f' := by
  intro slot hostname call part hw
  obtain ⟨hhas, hrest⟩ := h slot hostname call part hw
  exact ⟨hhas.becomes hbecomes, hrest⟩

theorem Pings.hear (h : s.Pings f) (hpeer : ∀ id, signal = .peer (some id) → f.Has id) :
    (s.hear now place need signal).1.Pings f := by
  intro slot hostname call part hw
  rcases pinging_of_hear hw with hold | ⟨old, hold, rfl, hpending⟩ | ⟨session, hsignal, rfl⟩
  · exact h slot hostname call part hold
  · obtain ⟨hhas, -, hmild⟩ := h slot hostname old part (List.mem_of_getElem? hold)
    refine ⟨by rwa [Call.hear_session], hpending, ?_⟩
    -- What would bring a fault of the connection would have ended the call.
    refine Call.hear_mild hmild ?_ ?_
    · rintro id rfl
      simp [Option.isSome_iff_ne_none.1 (Call.ended_of_hear (.inl ⟨id, rfl⟩))] at hpending
    · rintro fault rfl
      simp [Option.isSome_iff_ne_none.1 (Call.ended_of_hear (.inr ⟨fault, rfl⟩))] at hpending
  · exact ⟨hpeer session hsignal, rfl,
      Call.mild_of_other (by simp [Call.start]) (by simp [Call.start])⟩

/-- A worker evicts a session because its scope was cancelled, or because it refused a stream. -/
theorem Pings.grounds (h : s.Pings f)
    (hevict : Deed.evict key id ∈ (s.hear now place need signal).2) :
    ∃ slot call part, s.workers[place]? = some (.pinging slot key call part) ∧ call.session = id ∧
      ((∃ session, need = .cancelled session) ∨ ∃ fault, signal = .refused fault) := by
  obtain ⟨slot, call, part, hw, hsession, outcome, houtcome, hfatal⟩ := evict_of_hear hevict
  refine ⟨slot, call, part, hw, hsession, ?_⟩
  obtain ⟨-, -, hmild⟩ := h slot key call part (List.mem_of_getElem? hw)
  by_cases hneed : ∃ session, need = .cancelled session
  · exact .inl hneed
  · by_cases hsignal : ∃ fault, signal = .refused fault
    · exact .inr hsignal
    · have hafter : (call.hear need signal).1.Mild := Call.hear_mild hmild
        (fun session heq => hneed ⟨session, heq⟩) (fun fault heq => hsignal ⟨fault, heq⟩)
      have hstage : (call.hear need signal).1.stage = .done outcome := by
        unfold Call.outcome? at houtcome
        split at houtcome
        · rename_i hstage
          cases houtcome
          exact hstage
        · cases houtcome
      exact absurd hfatal (hafter outcome (.inl hstage))

theorem mem_needs (h : (place, need) ∈ s.needs) :
    ∃ w, s.workers[place]? = some w ∧ need ∈ w.needs := by
  obtain ⟨⟨w, p⟩, hw, hneed⟩ := List.mem_flatMap.1 h
  obtain ⟨need', hmem, heq⟩ := List.mem_map.1 hneed
  cases heq
  exact ⟨w, List.mem_zipIdx_iff_getElem?.1 hw, hmem⟩

theorem Pings.isShut (h : s.Pings f) (hf : f.Sound) (hneed : (place, need) ∈ s.needs)
    (hmeet : (f.meet need).1 = some signal)
    (hevict : Deed.evict key id ∈ (s.hear now place need signal).2) : f.IsShut id := by
  obtain ⟨slot, call, part, hw, rfl, hgrounds⟩ := h.grounds hevict
  obtain ⟨hhas, hpending, -⟩ := h slot key call part (List.mem_of_getElem? hw)
  refine ⟨hhas, ?_⟩
  have hcall : need ∈ call.needs := by
    obtain ⟨w, hw', hmem⟩ := mem_needs hneed
    rw [hw] at hw'
    cases hw'
    exact hmem
  rw [Call.needs_of_pending hpending] at hcall
  rcases hgrounds with ⟨session, rfl⟩ | ⟨fault, rfl⟩
  · have hsession : session = call.session := by
      cases hstage : call.stage <;> simpa [hstage, CallStage.need] using hcall
    rw [← hsession]
    exact Fabric.isClosed_of_meet_cancelled hmeet
  · obtain ⟨session, hasks, hclosed⟩ := Fabric.meet_refused hf hmeet
    have hsession : session = call.session := by
      simp only [List.mem_cons, List.not_mem_nil, or_false] at hcall
      rcases hcall with rfl | rfl | rfl
      · cases hasks
      · cases hstage : call.stage <;> simp_all [CallStage.need, Need.asks?]
      · cases hasks
    rw [← hsession]
    exact hclosed

theorem Pings.evict_not_mem (h : s.Pings f) (session? : Option Nat) (peer : String) :
    Deed.evict key id ∉ (s.hear now place (.peer peer) (.peer session?)).2 := by
  intro hevict
  obtain ⟨-, -, -, -, -, hgrounds⟩ := h.grounds hevict
  simp at hgrounds

theorem evict_not_mem_release (s : Sweep) : Deed.evict key id ∉ s.release := by
  intro hevict
  obtain ⟨w, -, hw⟩ := List.mem_flatMap.1 hevict
  unfold SweepWorker.release Call.release CallStage.release at hw
  split at hw
  · split at hw <;> simp at hw
  · cases hw

end Sweep

namespace Heartbeat

variable {b : Heartbeat} {f : Fabric} {now place : Nat} {need : Need} {signal : Signal}
  {key : String} {id : Nat}

def Pings (f : Fabric) (b : Heartbeat) : Prop :=
  ∀ s, b.stage = .sweeping s → s.Pings f

theorem Pings.hear (h : b.Pings f) (hpeer : ∀ id, signal = .peer (some id) → f.Has id) :
    (b.hear now place need signal).1.Pings f := by
  intro s hs
  cases hstage : b.stage with
  | waiting => simp [Heartbeat.hear, hstage] at hs
  | ticking =>
    cases signal with
    | keys keys =>
      simp only [Heartbeat.hear, hstage, tick, HeartbeatStage.sweeping.injEq] at hs
      subst hs
      intro slot hostname call part hw
      cases (List.mem_replicate.1 hw).2
    | _ => simp [Heartbeat.hear, hstage] at hs
  | sweeping sweep =>
    simp only [Heartbeat.hear, hstage, resume] at hs
    split at hs
    · cases hs
      exact (h sweep hstage).hear hpeer
    · cases hs
  | done => simp [Heartbeat.hear, hstage] at hs

theorem evict_of_hear (hevict : Deed.evict key id ∈ (b.hear now place need signal).2) :
    ∃ s, b.stage = .sweeping s ∧ Deed.evict key id ∈ (s.hear now place need signal).2 := by
  cases hstage : b.stage with
  | waiting => simp [Heartbeat.hear, hstage] at hevict
  | ticking => cases signal <;> simp [Heartbeat.hear, hstage] at hevict
  | sweeping sweep => exact ⟨sweep, rfl, by simpa [Heartbeat.hear, hstage] using hevict⟩
  | done => simp [Heartbeat.hear, hstage] at hevict

theorem Pings.isShut (h : b.Pings f) (hf : f.Sound) (hneed : (place, need) ∈ b.needs)
    (hmeet : (f.meet need).1 = some signal)
    (hevict : Deed.evict key id ∈ (b.hear now place need signal).2) : f.IsShut id := by
  obtain ⟨s, hstage, hevict⟩ := evict_of_hear hevict
  rw [needs, hstage] at hneed
  exact (h s hstage).isShut hf hneed hmeet hevict

theorem Pings.evict_not_mem (h : b.Pings f) (session? : Option Nat) (peer : String) :
    Deed.evict key id ∉ (b.hear now place (.peer peer) (.peer session?)).2 := by
  intro hevict
  obtain ⟨s, hstage, hevict⟩ := evict_of_hear hevict
  exact (h s hstage).evict_not_mem session? peer hevict

theorem evict_not_mem_release (b : Heartbeat) : Deed.evict key id ∉ b.release := by
  unfold release
  split
  · exact Sweep.evict_not_mem_release _
  · simp

end Heartbeat

/-! ## Servings -/

namespace Hosting

variable {h : Hosting} {signal : Signal} {need : Need} {key : String} {id : Nat}

theorem hear_keeps (h : Hosting) (signal : Signal) :
    (h.hear signal).1.key = h.key ∧ (h.hear signal).1.serving.session = h.serving.session := by
  cases signal <;> exact ⟨rfl, rfl⟩

theorem evict_of_hear (hevict : Deed.evict key id ∈ (h.hear signal).2) :
    key = h.key ∧ id = h.serving.session ∧ (∀ number, signal ≠ .ticket number) ∧
      ∀ stream, signal ≠ .stream stream := by
  cases signal with
  | ticket number => simp [hear, Serving.hear] at hevict
  | stream stream => simp [hear, Serving.hear] at hevict
  | _ =>
    obtain ⟨rfl, rfl⟩ : key = h.key ∧ id = h.serving.session := by
      simpa [hear, Serving.hear, farewell] using hevict
    exact ⟨rfl, rfl, by simp, by simp⟩

theorem evict_of_release (hevict : Deed.evict key id ∈ h.release) :
    key = h.key ∧ id = h.serving.session := by
  rcases List.mem_append.1 hevict with hserving | hfarewell
  · unfold Serving.release at hserving
    split at hserving <;> simp at hserving
  · simpa [farewell] using hfarewell

variable {f : Fabric}

theorem isShut (hhas : f.Has h.serving.session) (hf : f.Sound) (hneed : need ∈ h.serving.needs)
    (hmeet : (f.meet need).1 = some signal) (hevict : Deed.evict key id ∈ (h.hear signal).2) :
    f.IsShut id := by
  obtain ⟨-, rfl, hticket, hstream⟩ := evict_of_hear hevict
  refine ⟨hhas, ?_⟩
  have hasks : need.asks? = some h.serving.session ∧ ∃ fault, signal = .refused fault := by
    unfold Serving.needs at hneed
    split at hneed
    · obtain rfl := List.mem_singleton.1 hneed
      refine ⟨rfl, ?_⟩
      simp only [Fabric.meet, Option.some.injEq] at hmeet
      unfold Fabric.ticketOf at hmeet
      split at hmeet
      · exact absurd hmeet.symm (hticket _)
      · exact ⟨_, hmeet.symm⟩
      · exact ⟨_, hmeet.symm⟩
    · obtain rfl := List.mem_singleton.1 hneed
      refine ⟨rfl, ?_⟩
      simp only [Fabric.meet] at hmeet
      unfold Fabric.streamOf at hmeet
      split at hmeet
      · exact absurd (Option.some.inj hmeet).symm (hstream _)
      · exact ⟨_, (Option.some.inj hmeet).symm⟩
      · cases hmeet
      · exact ⟨_, (Option.some.inj hmeet).symm⟩
    · cases hneed
  obtain ⟨hasks, fault, rfl⟩ := hasks
  obtain ⟨id, hid, hclosed⟩ := Fabric.meet_refused hf hmeet
  cases hasks.symm.trans hid
  exact hclosed

end Hosting

/-! ## Tasks -/

namespace Task

/-- A task serves the session of a key that a listener has taken in. -/
def Hosts (key : String) (id : Nat) : Task → Prop
  | .hosting h => h.key = key ∧ h.serving.session = id
  | _ => False

/-- A task that uses a registry, and what it has to know. -/
inductive Sound (f : Fabric) : Task → Prop where
  | hosting {h : Hosting} (hhas : f.Has h.serving.session) : Sound f (.hosting h)
  | sweep {s : Sweep} (hpings : s.Pings f) : Sound f (.sweep s)
  | heartbeat {b : Heartbeat} (hpings : b.Pings f) : Sound f (.heartbeat b)
  /-- It is done with everything. -/
  | done {outcome : Outcome} : Sound f (.errand (.done outcome))

variable {f f' : Fabric} {task : Task} {now place : Nat} {need : Need} {signal : Signal}
  {key : String} {id : Nat}

theorem Sound.becomes (h : task.Sound f) (hbecomes : f.Becomes f') : task.Sound f' := by
  cases h with
  | hosting hhas => exact .hosting (hhas.becomes hbecomes)
  | sweep hpings => exact .sweep (hpings.becomes hbecomes)
  | heartbeat hpings => exact .heartbeat fun s hs => (hpings s hs).becomes hbecomes
  | done => exact .done

theorem sound_of_isFresh (h : task.isFresh = true) (f : Fabric) : task.Sound f := by
  cases task with
  | sweep s =>
    refine .sweep ?_
    intro slot hostname call part hw
    have := List.all_eq_true.1 h _ hw
    simp at this
  | heartbeat b =>
    refine .heartbeat ?_
    intro s hs
    simp [isFresh, hs] at h
  | _ => cases h

theorem Sound.hear (h : task.Sound f) (hpeer : ∀ id, signal = .peer (some id) → f.Has id) :
    (task.hear now place need signal).1.Sound f := by
  cases h with
  | @hosting host hhas =>
    have hsession := (host.hear_keeps signal).2
    exact .hosting (hsession.symm ▸ hhas)
  | sweep hpings => exact .sweep (hpings.hear hpeer)
  | heartbeat hpings => exact .heartbeat (hpings.hear hpeer)
  | done => cases signal <;> exact .done

theorem hosts_hear : (task.hear now place need signal).1.Hosts key id ↔ task.Hosts key id := by
  cases task with
  | hosting host =>
    obtain ⟨hkey, hsession⟩ := host.hear_keeps signal
    change (host.hear signal).1.key = key ∧ (host.hear signal).1.serving.session = id ↔ _
    rw [hkey, hsession]
    exact Iff.rfl
  | _ => exact Iff.rfl

theorem not_hosts_of_peer {peer : String} (hneed : (place, .peer peer) ∈ task.needs) :
    ¬ task.Hosts key id := by
  cases task with
  | hosting host =>
    simp only [needs, Serving.needs] at hneed
    split at hneed <;> simp at hneed
  | _ => exact not_false

/-- Whomever a task evicts because of what it has heard is closed. -/
theorem Sound.isShut (h : task.Sound f) (hf : f.Sound) (hneed : (place, need) ∈ task.needs)
    (hmeet : (f.meet need).1 = some signal)
    (hevict : Deed.evict key id ∈ (task.hear now place need signal).2) : f.IsShut id := by
  cases h with
  | hosting hhas =>
    obtain ⟨need', hmem, heq⟩ := List.mem_map.1 hneed
    cases heq
    exact Hosting.isShut hhas hf hmem hmeet hevict
  | sweep hpings => exact hpings.isShut hf hneed hmeet hevict
  | heartbeat hpings => exact hpings.isShut hf hneed hmeet hevict
  | done => cases hneed

theorem Sound.evict_not_mem (h : task.Sound f) (hhosts : ∀ key id, ¬ task.Hosts key id)
    (session? : Option Nat) (peer : String) :
    Deed.evict key id ∉ (task.hear now place (.peer peer) (.peer session?)).2 := by
  cases h with
  | @hosting host hhas => exact absurd ⟨rfl, rfl⟩ (hhosts host.key host.serving.session)
  | sweep hpings => exact hpings.evict_not_mem session? peer
  | heartbeat hpings => exact hpings.evict_not_mem session? peer
  | done => exact List.not_mem_nil

theorem Sound.evict_not_mem_release (h : task.Sound f) (hhosts : ∀ key id, ¬ task.Hosts key id) :
    Deed.evict key id ∉ task.release := by
  cases h with
  | @hosting host hhas => exact absurd ⟨rfl, rfl⟩ (hhosts host.key host.serving.session)
  | @sweep s _ => exact s.evict_not_mem_release
  | @heartbeat b _ => exact b.evict_not_mem_release
  | done => exact List.not_mem_nil

end Task

end Switchboard
