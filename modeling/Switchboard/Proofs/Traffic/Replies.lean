import Mathlib.Data.List.Nodup
import Switchboard.Proofs.Traffic.Rest

/-!
# A call gives what its router gives in place

What comes of the calls on a live session whose far end serves a router, whatever the order in which
everybody moves. `Faithful` puts it together: each call that is neither timed out nor cut short, and
whose envelope and answer a frame can carry, gives what the router makes of its own envelope; the
router is set to work on that envelope once; and nothing but the work itself keeps a call from
ending.
-/

namespace Switchboard

namespace Call

theorem reply_eq_ok_iff {frame : Frame} {data : ByteArray} :
    reply (.frame frame) = .ok data ↔ frame = .response data := by
  cases frame <;> simp [reply]

theorem reply_eq_remote_iff {frame : Frame} {text : String} :
    reply (.frame frame) = .error (.remote text) ↔ frame = .error text := by
  cases frame <;> simp [reply]

end Call

namespace Caller

variable {router : Router} {closed : Bool} {c : Caller} {outcome : Except Fault ByteArray}

def terms (c : Caller) : Envelope × Duration :=
  (c.envelope, c.call.limit)

/-- A call was neither timed out nor cut short, and frames can carry what it sends and gets. -/
def Spared (router : Router) (c : Caller) (outcome : Except Fault ByteArray) : Prop :=
  c.cut = false ∧ outcome ≠ .error (.timeout c.call.limit) ∧ c.envelope.Fits router

/-- What came of a call, next to what its router makes of its envelope in place. -/
structure Answered (router : Router) (c : Caller) (outcome : Except Fault ByteArray) : Prop where
  own : IsReply outcome → c.IsDue router outcome
  ok_iff : c.Spared router outcome → ∀ data,
    outcome = .ok data ↔ router.Yields c.envelope (.response data)
  remote_iff : c.Spared router outcome → ∀ text,
    outcome = .error (.remote text) ↔ router.Yields c.envelope (.error text)

/-- Whatever the outcome of a call is due to, it is that of its own envelope. -/
theorem IsDue.eq_iff (h : c.IsDue router outcome) {frame : Frame}
    {other : Except Fault ByteArray}
    (hreply : ∀ frame', Call.reply (.frame frame') = other ↔ frame' = frame) :
    outcome = other ↔ router.Yields c.envelope frame := by
  obtain ⟨frame', hyields, rfl⟩ := h
  rw [hreply]
  constructor
  · rintro rfl
    exact hyields
  · intro hother
    exact hyields.2.symm.trans hother.2

theorem Proper.answered (h : c.Proper router closed) (hdone : c.call.outcome? = some outcome) :
    c.Answered router outcome := by
  have hproper : c.IsDue router outcome ∨ ¬ IsReply outcome ∧
      (c.cut = true ∨ outcome = .error (.timeout c.call.limit) ∨ ¬ c.envelope.Fits router) := by
    unfold Call.outcome? at hdone
    unfold Proper at h
    split at hdone
    · rename_i hs
      cases hdone
      rw [hs] at h
      exact h
    · cases hdone
  have hdue : c.Spared router outcome → c.IsDue router outcome := by
    rintro ⟨huncut, hintime, hfits⟩
    rcases hproper with hdue | ⟨-, hcut | htimeout | hlarge⟩
    · exact hdue
    · rw [huncut] at hcut
      cases hcut
    · exact absurd htimeout hintime
    · exact absurd hfits hlarge
  refine ⟨fun hreply => hproper.resolve_right fun hother => hother.1 hreply, fun hspared data => ?_,
    fun hspared text => ?_⟩
  · exact (hdue hspared).eq_iff fun _ => Call.reply_eq_ok_iff
  · exact (hdue hspared).eq_iff fun _ => Call.reply_eq_remote_iff

end Caller

namespace Traffic

variable {router : Router} {t t' : Traffic}

/-! ## The calls are those that were begun -/

/-- What the call is begun with that a move begins. -/
def Move.terms? : Move → Option (Envelope × Duration)
  | issue envelope limit => some (envelope, limit)
  | _ => none

theorem setSession_callers (id : Nat) (s : Session) : (t.setSession id s).callers = t.callers := by
  unfold setSession
  split <;> rfl

theorem perform_callers (t : Traffic) (deed : Deed) : (t.perform deed).callers = t.callers := by
  unfold perform
  split
  · rfl
  · dsimp only
    split <;> exact setSession_callers _ _
  · exact setSession_callers _ _
  · rfl
  · exact setSession_callers _ _
  · rfl

theorem foldl_perform_callers (deeds : List Deed) (t : Traffic) :
    (deeds.foldl perform t).callers = t.callers := by
  induction deeds generalizing t with
  | nil => rfl
  | cons deed deeds ih => exact (ih _).trans (perform_callers t deed)

theorem meet_callers {need : Need} {portion : Portion} {signal : Signal}
    (h : t.meet need portion = some (signal, t')) : t'.callers = t.callers := by
  have hsession : ∀ {id : Nat} {s : Session} {answer? : Option Signal},
      (answer?.map fun signal => (signal, t.setSession id s)) = some (signal, t') →
      t'.callers = t.callers := by
    intro id s answer? hmap
    obtain ⟨_, -, heq⟩ := Option.map_eq_some_iff.1 hmap
    cases heq
    exact setSession_callers id s
  have hstrand : ∀ {k : Nat} {meet : Strand → Option (Signal × Strand)},
      (t.strands[k]?.bind fun strand => (meet strand).map fun met =>
        (met.1, { t with strands := t.strands.set k met.2 })) = some (signal, t') →
      t'.callers = t.callers := by
    intro k meet hbind
    obtain ⟨strand, -, hmap⟩ := Option.bind_eq_some_iff.1 hbind
    obtain ⟨_, -, heq⟩ := Option.map_eq_some_iff.1 hmap
    cases heq
    rfl
  cases need with
  | turn => cases h; rfl
  | cancelled id =>
    obtain ⟨-, -, rfl⟩ := meet_cancelled h
    rfl
  | moment time =>
    obtain ⟨-, rfl⟩ := meet_moment h
    rfl
  | request id => cases h; exact setSession_callers _ _
  | granted id request => exact hsession h
  | queue id => cases h; exact setSession_callers _ _
  | accepted id acceptor => exact hsession h
  | read ref room => exact hstrand h
  | write ref data start => exact hstrand h
  | finish ref => exact hstrand h
  | _ => cases h

theorem hearCall_callers (i : Nat) (c : Caller) (need : Need) (signal : Signal) (t : Traffic) :
    (t.hearCall i c need signal).callers = t.callers.set i (c.hear t.closed need signal) := by
  unfold hearCall
  rw [foldl_perform_callers]

theorem step_terms {move : Move} (h : t.step move = some t') :
    t'.callers.map Caller.terms = t.callers.map Caller.terms ++ move.terms?.toList := by
  have hsame : t'.callers = t.callers → move.terms? = none →
      t'.callers.map Caller.terms = t.callers.map Caller.terms ++ move.terms?.toList := by
    intro hcallers hnone
    rw [hcallers, hnone, Option.toList_none, List.append_nil]
  cases move with
  | issue envelope limit => cases h; exact List.map_append
  | tick => cases h; exact hsame rfl rfl
  | call i place portion =>
    simp only [step] at h
    obtain ⟨c, hc, h⟩ := Option.bind_eq_some_iff.1 h
    obtain ⟨need, -, h⟩ := Option.bind_eq_some_iff.1 h
    obtain ⟨⟨signal, between⟩, hmeet, rfl⟩ := Option.map_eq_some_iff.1 h
    have hterms : (c.hear between.closed need signal).terms = c.terms :=
      congrArg (c.envelope, ·) (c.call.hear_keeps need signal).2.2
    rw [hearCall_callers, meet_callers hmeet, List.map_set, hterms,
      Lists.set_same (by rw [List.getElem?_map, hc]; rfl)]
    exact (List.append_nil _).symm
  | service k place portion =>
    simp only [step] at h
    obtain ⟨service, -, h⟩ := Option.bind_eq_some_iff.1 h
    obtain ⟨need, -, h⟩ := Option.bind_eq_some_iff.1 h
    obtain ⟨⟨signal, between⟩, hmeet, rfl⟩ := Option.map_eq_some_iff.1 h
    have hcallers : (between.hearService k service need signal).callers = between.callers :=
      foldl_perform_callers _ _
    exact hsame (hcallers.trans (meet_callers hmeet)) rfl
  | serve =>
    simp only [step] at h
    obtain ⟨need, -, h⟩ := Option.bind_eq_some_iff.1 h
    obtain ⟨⟨signal, between⟩, hmeet, rfl⟩ := Option.map_eq_some_iff.1 h
    have hcallers : (between.hearServing signal).callers = between.callers :=
      foldl_perform_callers _ _
    exact hsame (hcallers.trans (meet_callers hmeet)) rfl
  | takeUp =>
    simp only [step] at h
    split at h <;> cases h
    exact hsame rfl rfl
  | grant =>
    simp only [step] at h
    split at h <;> cases h
    exact hsame rfl rfl
  | arrive k =>
    simp only [step] at h
    split at h <;> cases h
    exact hsame rfl rfl
  | close id => cases h; exact hsame (setSession_callers _ _) rfl
  | fail id =>
    simp only [step] at h
    split at h <;> cases h
    exact hsame (setSession_callers _ _) rfl
  | snap k =>
    simp only [step] at h
    split at h <;> cases h
    exact hsame rfl rfl

theorem run_terms {moves : List Move} {t t' : Traffic} (h : runFrom step t moves = some t') :
    t'.callers.map Caller.terms = t.callers.map Caller.terms ++ moves.filterMap Move.terms? := by
  induction moves generalizing t with
  | nil =>
    cases h
    rw [List.filterMap_nil, List.append_nil]
  | cons move moves ih =>
    obtain ⟨between, hmove, hrest⟩ := runFrom_cons h
    rw [ih hrest, step_terms hmove, List.append_assoc]
    cases hterms : move.terms? with
    | none => rw [List.filterMap_cons_none hterms]; rfl
    | some terms => rw [List.filterMap_cons_some hterms]; rfl

/-! ## A router is set to work for calls, and once for each -/

/-- The envelopes on which the router was set to work at the far end, each with the call that was
told of the stream. -/
def dispatched (t : Traffic) : List (Option Nat × Envelope) :=
  t.strands.flatMap fun strand => strand.invoked.map (strand.caller?, ·)

theorem mem_dispatched {entry : Option Nat × Envelope} : entry ∈ t.dispatched ↔
    ∃ (k : Nat) (strand : Strand), t.strands[k]? = some strand ∧ strand.caller? = entry.1 ∧
      entry.2 ∈ strand.invoked := by
  simp only [dispatched, List.mem_flatMap, List.mem_map]
  constructor
  · rintro ⟨strand, hin, envelope, hmem, rfl⟩
    obtain ⟨k, hk⟩ := List.mem_iff_getElem?.1 hin
    exact ⟨k, strand, hk, rfl, hmem⟩
  · rintro ⟨k, strand, hk, hcaller, hmem⟩
    exact ⟨strand, List.mem_of_getElem? hk, entry.2, hmem, by rw [hcaller]⟩

namespace Sound

variable {k i : Nat} {strand : Strand} {c : Caller}

/-- Where a router was set to work, it was so once, on the envelope of the call that was told of the
stream. -/
theorem invoked_eq (h : Sound router t) (hk : t.strands[k]? = some strand)
    (hworked : strand.invoked ≠ []) : ∃ (i : Nat) (c : Caller), strand.caller? = some i ∧
      t.callers[i]? = some c ∧ strand.invoked = [c.envelope] := by
  have hfar := (h.linked k strand hk).far
  have hinvoked : ∃ envelope, (asker t.callers strand).map Caller.envelope = some envelope ∧
      strand.invoked = [envelope] := by
    unfold Strand.Served at hfar
    split at hfar
    · exact absurd hfar.2.2 hworked
    · exact hfar.invoked.resolve_left hworked
  obtain ⟨envelope, hsent, hinvoked⟩ := hinvoked
  obtain ⟨c, hasker, rfl⟩ := Option.map_eq_some_iff.1 hsent
  obtain ⟨i, hcaller, hc⟩ := Option.bind_eq_some_iff.1 hasker
  exact ⟨i, c, hcaller, hc, hinvoked⟩

theorem dispatched_nodup (h : Sound router t) : (t.dispatched.map Prod.fst).Nodup := by
  have hcallers : t.dispatched.map Prod.fst =
      t.strands.flatMap fun strand => strand.invoked.map fun _ => strand.caller? := by
    simp only [dispatched, List.map_flatMap, List.map_map, Function.comp_def]
  rw [hcallers, List.nodup_flatMap]
  constructor
  · intro strand hmem
    obtain ⟨k, hk⟩ := List.mem_iff_getElem?.1 hmem
    by_cases hworked : strand.invoked = []
    · rw [hworked]
      exact List.nodup_nil
    · obtain ⟨i, c, -, -, hinvoked⟩ := h.invoked_eq hk hworked
      rw [hinvoked]
      exact List.nodup_singleton _
  · rw [List.pairwise_iff_getElem]
    intro j j' hj hj' hlt who hwho hwho'
    obtain ⟨envelope, hmem, rfl⟩ := List.mem_map.1 hwho
    obtain ⟨envelope', hmem', hsame⟩ := List.mem_map.1 hwho'
    have hk := List.getElem?_eq_getElem hj
    have hk' := List.getElem?_eq_getElem hj'
    obtain ⟨i, c, hcaller, -, -⟩ := h.invoked_eq hk (List.ne_nil_of_mem hmem)
    have := h.one j j' _ _ i hk hk' hcaller (hsame.trans hcaller)
    omega

/-- A call that knows a reply had the router set to work on its envelope. -/
theorem dispatched_of_reply (h : Sound router t) (hc : t.callers[i]? = some c)
    (hreply : c.HasReply) : (some i, c.envelope) ∈ t.dispatched := by
  obtain ⟨k, strand, hk, hcaller, hworked⟩ := h.heard i c hc hreply
  obtain ⟨i', c', hcaller', hc', hinvoked⟩ := h.invoked_eq hk hworked
  rw [hcaller] at hcaller'
  cases hcaller'
  rw [hc] at hc'
  cases hc'
  exact mem_dispatched.2 ⟨k, strand, hk, hcaller, by rw [hinvoked]; exact List.mem_singleton_self _⟩

end Sound

/-! ## All of it -/

/-- What the calls on a session make of a router at the far end, after some moves. -/
structure Faithful (router : Router) (moves : List Move) (t : Traffic) : Prop where
  /-- The calls are those that were begun, in order. -/
  begun : t.callers.map Caller.terms = moves.filterMap Move.terms?
  /-- A call that has ended has what the router makes of its own envelope. -/
  answered : ∀ (i : Nat) (c : Caller) (outcome : Except Fault ByteArray),
    t.callers[i]? = some c → c.call.outcome? = some outcome →
    c.Answered router outcome ∧ (IsReply outcome → (some i, c.envelope) ∈ t.dispatched)
  /-- The router was set to work for calls only, each time on the envelope of that call. -/
  exact : ∀ entry ∈ t.dispatched, ∃ (i : Nat) (c : Caller), t.callers[i]? = some c ∧
    entry = (some i, c.envelope)
  /-- It was so once for a call at most. -/
  once : (t.dispatched.map Prod.fst).Nodup
  /-- Where nothing moves by itself, each call on a live session has ended, or the work on its
  envelope has not. -/
  ends : t.closed = false → t.AtRest → ∀ (i : Nat) (c : Caller), t.callers[i]? = some c →
    c.call.outcome?.isSome = true ∨
      ∃ (k : Nat) (strand : Strand), t.strands[k]? = some strand ∧ strand.caller? = some i ∧
        strand.WorkedOn router t.now c
  /-- So it comes to that: the moves of the parties themselves have a bound. -/
  bounded : moves.countP Move.isOwn ≤ t.callers.length * (Strand.most + 8) + 4

/-- **A call gives what its router gives in place**, for every router, whatever calls are begun on
a session and in whatever order everybody moves. -/
theorem calls_faithful (router : Router) (moves : List Move) (t : Traffic)
    (hrun : runFrom step (start router) moves = some t) : t.Faithful router moves := by
  have hkeeps : ∀ t move t', Sound router t → t.step move = some t' → Sound router t' :=
    fun _ _ _ h hstep => (h.step hstep).1
  have hstart := Sound.start router
  have h := runFrom_keeps hkeeps hstart hrun
  have hcount := runFrom_counts hkeeps Move.isOwn progress
    (fun _ _ _ h hstep => (h.step hstep).2) hstart hrun
  refine ⟨run_terms hrun, fun i c outcome hc houtcome => ⟨?_, fun hreply => ?_⟩,
    fun entry hentry => ?_, h.dispatched_nodup, fun hlive hrest i c hc =>
      hrest.ended_or_worked_on h hlive hc, ?_⟩
  · exact (h.begun i c hc).2.2.answered houtcome
  · refine h.dispatched_of_reply hc ?_
    unfold Call.outcome? at houtcome
    split at houtcome
    · rename_i hs
      cases houtcome
      simp only [Caller.HasReply, hs]
      exact hreply
    · cases houtcome
  · obtain ⟨k, strand, hk, hcaller, hmem⟩ := mem_dispatched.1 hentry
    obtain ⟨i, c, hi, hc, hinvoked⟩ := h.invoked_eq hk (List.ne_nil_of_mem hmem)
    rw [hinvoked, List.mem_singleton] at hmem
    exact ⟨i, c, hc, Prod.ext (hcaller.symm.trans hi) hmem⟩
  · have hle := h.progress_le
    omega

/-- A router that gives back what it gets, or fails after a while. -/
def echoing : Router :=
  (({} : Router).onRaw "echo" fun payload => { outcome := .ok payload }).onRaw "fail" fun _ =>
    { outcome := .error "no", duration := some 1 }

/-- Two calls of which the second is first to ask for a stream, and whose bytes come in pieces. -/
def crossing : List Move :=
  [.issue ⟨"echo", ⟨#[1, 2]⟩⟩ (.ofSecs 5), .issue ⟨"fail", ⟨#[3]⟩⟩ (.ofSecs 5),
    .call 1 1 .ended, .call 0 1 .ended, .takeUp, .grant, .grant, .arrive 1, .arrive 0,
    .call 0 1 .ended, .call 1 1 .ended, .serve, .serve, .serve, .serve,
    .call 0 1 (.bytes 7), .call 1 1 (.bytes 29), .service 1 1 (.bytes 7), .service 0 1 (.bytes 29),
    .call 0 1 (.bytes 23), .service 1 1 (.bytes 23), .service 1 1 .ended, .tick,
    .service 0 1 .ended, .service 0 1 (.bytes 7), .service 1 1 (.bytes 7), .call 0 1 (.bytes 7),
    .call 0 1 .ended, .call 1 1 (.bytes 3), .call 1 1 (.bytes 4), .call 1 1 .ended]

theorem calls_faithful_crossing : ∃ t, runFrom step (start echoing) crossing = some t ∧
    t.callers.map (·.call.outcome?) =
      [some (.ok ⟨#[1, 2]⟩), some (.error (.remote "no"))] ∧
    t.Faithful echoing crossing := by
  have hmap : (runFrom step (start echoing) crossing).map
      (fun t => t.callers.map (·.call.outcome?)) =
        some [some (.ok ⟨#[1, 2]⟩), some (.error (.remote "no"))] := by decide +kernel
  obtain ⟨t, hrun, houtcomes⟩ := Option.map_eq_some_iff.1 hmap
  exact ⟨t, hrun, houtcomes, calls_faithful echoing crossing t hrun⟩

end Traffic

end Switchboard
