import Switchboard.Proofs.Traffic.Steps

/-!
# The moves of the multiplexer and of the loop that accepts streams

What the requests for streams, the streams on their way, the loop at the far end and the closing of
the session do, and with the moves of calls and services, `Sound.step`. What the multiplexer does
here is the work of the connections of the two sessions as others see it: `works_of_step`.
-/

namespace Switchboard

namespace Session

variable (s : Session)

theorem close_keeps : s.close.2.openings = s.openings ∧ s.close.2.arrived = s.arrived ∧
    s.close.2.acceptors = s.acceptors ∧ s.close.2.stopped = s.stopped ∧
    (s.isClosed = true → s.close.2.isClosed = true) := by
  unfold close
  split
  · exact ⟨rfl, rfl, rfl, rfl, id⟩
  · unfold cancel
    split
    · exact ⟨rfl, rfl, rfl, rfl, id⟩
    · exact ⟨rfl, rfl, rfl, rfl, fun _ => rfl⟩

/-! ## The work of a connection -/

/-- What others see of a session for which its connection works. -/
def seen (s : Session) : Mux.Openings × List Nat × List Nat × Bool × Bool :=
  (s.openings, s.arrived, s.acceptors, s.cancelled, s.stopped)

/-- What the work of a connection may do to its session: what one of the moves of the traffic does
that are not made by calls, services and the loop, or nothing that others see. -/
inductive Works (s s' : Session) : Prop where
  | hidden (h : s'.seen = s.seen)
  | takenUp (h : s'.seen = { s with openings := s.openings.takeUp }.seen)
  | granted (k : Nat) (h : s'.seen = { s with openings := (s.openings.grant k).2 }.seen)
  | arrived (k : Nat) (h : s'.seen = { s with arrived := s.arrived ++ [k] }.seen)
  | cancelled (h : s'.seen = { s with cancelled := true }.seen)
  | failed (h : s'.seen = s.fail.seen)

theorem begin_works (now : Nat) : s.Works (s.begin now) := by
  unfold begin
  dsimp only
  split
  · rename_i hcancelled
    refine .failed ?_
    simp only [seen, halt, fail, hcancelled]
  · exact .takenUp rfl

theorem grant_works : s.Works s.grant := by
  unfold grant
  split
  · exact .hidden rfl
  · split
    · exact .failed rfl
    · exact .hidden rfl
    · rename_i stream connection hbegin
      refine .granted stream ?_
      split
      · rename_i heq
        simp only [seen, heq]
      · rename_i heq
        simp only [seen, heq]

theorem works_of_step {s' : Session} {now : Nat} {input output input' output' : Pipe}
    (h : s.step now input output = some (s', input', output')) : s.Works s' := by
  unfold step at h
  split at h
  · cases h
  · split at h <;> cases h
    exact s.begin_works now
  · have heq : s' = s.grant := by
      dsimp only at h
      split at h <;> cases h <;> rfl
    rw [heq]
    exact s.grant_works
  · split at h <;> cases h
    · exact .hidden rfl
    · exact .arrived _ rfl
    · exact .hidden rfl
    · exact .failed rfl
  · dsimp only at h
    split at h
    · cases h
      exact .cancelled rfl
    · split at h
      · cases h
        exact .hidden rfl
      · cases h
        exact .cancelled rfl
      · split at h <;> cases h
        exact .cancelled rfl

end Session

/-! ## The moves -/

namespace Traffic.Sound

variable {router : Router} {t t' : Traffic} {k : Nat} {strand : Strand}

theorem issue (h : Sound router t) (envelope : Envelope) (limit : Duration) :
    let c : Caller := { envelope, call := .start 0 envelope limit t.now }
    Sound router { t with callers := t.callers ++ [c] } ∧
      t.progress ≤ progress { t with callers := t.callers ++ [c] } := by
  intro c
  constructor
  · refine ⟨h.toPairing.issue rfl id, fun k strand hk => ?_, fun i d hd => ?_, ?_, h.requested, ?_,
      h.arrivals⟩
    · have hasker : asker (t.callers ++ [c]) strand = asker t.callers strand := by
        unfold asker
        cases hcaller : strand.caller? with
        | none => rfl
        | some i => exact List.getElem?_append_left (h.known k strand i hk hcaller)
      change Linked router t.closed _ (asker (t.callers ++ [c]) strand) k strand
      rw [hasker]
      exact h.linked k strand hk
    · rcases Lists.getElem?_concat_cases hd with hold | ⟨-, rfl⟩
      · exact h.begun i d hold
      · exact ⟨rfl, rfl, trivial⟩
    · refine h.fair.mono id ?_ fun _ hf => hf
      rintro i r ⟨d, hd, hstage⟩
      rcases Lists.getElem?_concat_cases hd with hold | ⟨-, rfl⟩
      · exact ⟨d, hold, hstage⟩
      · cases hstage
    · have := h.asked
      rw [List.countP_append]
      change t.near.openings.next ≤ _
      omega
  · simp only [progress, List.map_append, List.sum_append]
    omega

theorem takeUp (h : Sound router t) (hqueued : t.near.openings.queued ≠ []) :
    let near := { t.near with openings := t.near.openings.takeUp }
    Sound router { t with near } ∧ t.progress < progress { t with near } := by
  intro near
  have hpos := List.length_pos_iff.2 hqueued
  have hrequested := h.requested
  have hwaiting : near.openings.waiting.length =
      t.near.openings.waiting.length + t.near.openings.queued.length := List.length_append
  have hqueue : near.openings.queued = [] := rfl
  have hnext : near.openings.next = t.near.openings.next := rfl
  constructor
  · refine ⟨h.toPairing, h.linked, h.begun, h.fair.takeUp, ?_, h.asked, h.arrivals⟩
    change t.strands.length + near.openings.queued.length + near.openings.waiting.length ≤
      near.openings.next
    rw [hwaiting, hqueue, hnext, List.length_nil]
    omega
  · have hstopped : near.stopped = t.near.stopped := rfl
    simp only [progress, requestProgress, hwaiting, hqueue, hnext, hstopped, List.length_nil]
    omega

theorem grant (h : Sound router t) (hwaiting : t.near.openings.waiting ≠ []) :
    Sound router t.grantNext ∧ t.progress < t.grantNext.progress := by
  obtain ⟨request, waiting, hqueue⟩ := List.exists_cons_of_ne_nil hwaiting
  obtain ⟨hnext, hqueued, hrest, hanswers⟩ :=
    Mux.Openings.grant_keeps hqueue t.strands.length
  have hrequested := h.requested
  rw [hqueue, List.length_cons] at hrequested
  have hnew : ∀ {strand : Strand}, t.strands[t.strands.length]? ≠ some strand := by
    intro strand hk
    have := (List.getElem?_eq_some_iff.1 hk).1
    omega
  have hfree : ¬ Free t.strands t.strands.length := fun ⟨strand, hk, _⟩ => hnew hk
  constructor
  · refine ⟨h.toPairing.begin rfl, fun k strand hk => ?_, h.begun, ?_, ?_, ?_, h.arrivals.begin rfl⟩
    · rcases Lists.getElem?_concat_cases hk with hk | ⟨rfl, rfl⟩
      · refine (h.linked k strand hk).mono id ?_
        rintro ⟨r, hr⟩
        rcases hanswers r k hr with hbefore | ⟨rfl, -⟩
        · exact ⟨r, hbefore⟩
        · exact absurd hk hnew
      · refine Linked.fresh router _ _ _ ?_
        rintro ⟨r, hr⟩
        rcases hanswers r _ hr with hbefore | ⟨-, hnone⟩
        · exact absurd (h.fair.promised r _ hbefore) hfree
        · exact congrArg Option.isSome hnone
    · refine h.fair.grant hqueue hfree ?_
      rintro j (⟨strand, hk, hcaller⟩ | rfl)
      · exact ⟨strand,
          (List.getElem?_append_left (List.getElem?_eq_some_iff.1 hk).1).trans hk, hcaller⟩
      · exact ⟨_, List.getElem?_concat_length, rfl⟩
    · change (t.strands ++ [_]).length + (t.near.openings.grant t.strands.length).2.queued.length +
        (t.near.openings.grant t.strands.length).2.waiting.length ≤
        (t.near.openings.grant t.strands.length).2.next
      rw [hnext, hqueued, hrest, List.length_append, List.length_singleton]
      omega
    · change (t.near.openings.grant t.strands.length).2.next ≤ _
      rw [hnext]
      exact h.asked
  · simp only [progress, grantNext, requestProgress, List.map_append, List.sum_append, hnext,
      hqueued, hrest, hqueue, List.length_cons]
    omega

theorem arrive (h : Sound router t) (hk : k ∈ t.unseen) :
    let far := { t.far with arrived := t.far.arrived ++ [k] }
    Sound router { t with far, unseen := t.unseen.erase k } ∧
      t.progress < progress { t with far, unseen := t.unseen.erase k } := by
  intro far
  refine ⟨h.setFar rfl (h.arrivals.arrive hk), ?_⟩
  have hlength : far.arrived.length = t.far.arrived.length + 1 := by
    change (t.far.arrived ++ [k]).length = _
    rw [List.length_append, List.length_singleton]
  have hstopped : far.stopped = t.far.stopped := rfl
  simp only [progress, hlength, hstopped]
  omega

theorem snap (h : Sound router t) (hclosed : t.closed = true) (hk : t.strands[k]? = some strand)
    (hbroken : strand.broken = false) :
    Sound router { t with strands := t.strands.set k { strand with broken := true } } ∧
      t.progress < progress
        { t with strands := t.strands.set k { strand with broken := true } } := by
  have hsum := Lists.sum_map_set hk Strand.progress (b := { strand with broken := true })
  have hone : Strand.progress { strand with broken := true } = strand.progress + 1 := by
    simp only [Strand.progress, hbroken, Bool.toNat_true, Bool.toNat_false]
    omega
  refine ⟨h.setStrand hk ((h.linked k strand hk).snap hclosed) rfl id Iff.rfl, ?_⟩
  rw [hone] at hsum
  simp only [progress]
  omega

/-- The loop that accepts streams has come to its end, because the session is closed. -/
theorem serve_ends (h : Sound router t) (hrank : servingRank t.serving < 2)
    (hclosed : t.closed = true) (far : Session) (hopen : far.isClosed = t.far.isClosed)
    (hstopped : far.stopped = t.far.stopped) (harrived : far.arrived = t.far.arrived)
    (fault : Fault) :
    let t' := hearServing (.refused fault) { t with far }
    Sound router t' ∧ t.progress < t'.progress := by
  let serving := { t.serving with stage := .done }
  change Sound router { t with far, serving } ∧ t.progress < progress { t with far, serving }
  constructor
  · obtain ⟨hsession, hresponder, hstage, honce, hmem, hfew⟩ := h.arrivals
    refine h.setFar hopen ⟨hsession, hresponder, hclosed, ?_, ?_, ?_⟩
    · rw [harrived]; exact honce
    · rw [harrived]; exact hmem
    · rw [harrived]; exact hfew
  · have hdone : servingRank serving = 2 := rfl
    simp only [progress, harrived, hstopped, hdone]
    omega

theorem serve_accepts (h : Sound router t) {acceptor : Nat}
    (hstage : t.serving.stage = .accepting acceptor) {arrived : List Nat}
    (harrived : t.far.arrived = k :: arrived) :
    let t' := hearServing (.stream ⟨1, k⟩)
      { t with far := { t.far with arrived }.leave acceptor }
    Sound router t' ∧ t.progress < t'.progress := by
  intro t'
  have harrivals := h.arrivals
  have hacceptors := harrivals.stage
  rw [hstage] at hacceptors
  rw [harrived] at harrivals
  obtain ⟨strand, hk, hs⟩ :=
    (harrivals.mem_iff k).1 (List.mem_append_right _ (List.mem_cons_self ..))
  let after : Strand :=
    { strand with service? := some { stream := ⟨1, k⟩, responder := .router router } }
  let far := { t.far with arrived }.leave acceptor
  let serving := { t.serving with stage := .asking }
  have ht' : t' = { t with far, serving, strands := t.strands.set k after } := by
    change List.foldl perform { t with far, serving } [.answer ⟨1, k⟩ t.serving.responder] = _
    rw [harrivals.responder]
    simp only [List.foldl_cons, List.foldl_nil, perform, onStrand, Lists.modify_eq_set hk]
    rfl
  rw [ht']
  constructor
  · have hnone : far.acceptors = [] := by
      change t.far.acceptors.erase acceptor = []
      rw [hacceptors, List.erase_cons_head]
    refine h.setStrandFar hk ((h.linked k strand hk).accept hs) rfl id rfl ?_
    rw [hnone]
    exact harrivals.accept fun heq => by cases heq
  · have hsum := Lists.sum_map_set hk Strand.progress (b := after)
    have hafter : after.progress = strand.progress + 3 := by
      simp only [Strand.progress, after, hs, Option.map_none, Option.map_some, Option.getD_none,
        Option.getD_some]
      rfl
    rw [hafter] at hsum
    have hfar : far.arrived.length + 1 = t.far.arrived.length := by rw [harrived]; rfl
    have hrank : servingRank t.serving = 1 := by simp only [servingRank, hstage]
    have hrank' : servingRank serving = 0 := rfl
    have hstopped : far.stopped = t.far.stopped := rfl
    simp only [progress, hrank, hrank', hstopped]
    omega

/-- The loop that accepts streams queues up for the next one. -/
theorem serve_queues (h : Sound router t) (hstage : t.serving.stage = .asking) (acceptor : Nat) :
    let far := { t.far with
      acceptors := t.far.acceptors ++ [acceptor], nextAcceptor := t.far.nextAcceptor + 1 }
    let serving := { t.serving with stage := .accepting acceptor }
    Sound router { t with far, serving } ∧ t.progress < progress { t with far, serving } := by
  intro far serving
  constructor
  · obtain ⟨hsession, hresponder, hacceptors, honce, hmem, hfew⟩ := h.arrivals
    rw [hstage] at hacceptors
    refine h.setFar rfl ⟨hsession, hresponder, ?_, honce, hmem, hfew⟩
    change t.far.acceptors ++ [acceptor] = [acceptor]
    rw [hacceptors, List.nil_append]
  · have hrank : servingRank t.serving = 0 := by simp only [servingRank, hstage]
    have hrank' : servingRank serving = 1 := rfl
    have harrived : far.arrived = t.far.arrived := rfl
    have hstopped : far.stopped = t.far.stopped := rfl
    simp only [progress, hrank, hrank', harrived, hstopped]
    omega

theorem serve (h : Sound router t) (hstep : t.step .serve = some t') :
    Sound router t' ∧ t.progress < t'.progress := by
  obtain ⟨hsession, hresponder, hstage, -⟩ := h.arrivals
  simp only [step] at hstep
  obtain ⟨need, hneed, hstep⟩ := Option.bind_eq_some_iff.1 hstep
  obtain ⟨⟨signal, t₁⟩, hmeet, rfl⟩ := Option.map_eq_some_iff.1 hstep
  have hother : ¬ (1 : Nat) = 0 := by decide
  cases hs : t.serving.stage with
  | asking =>
    simp only [Serving.needs, hs, List.head?_cons, hsession, Option.some.injEq] at hneed
    subst hneed
    simp only [meet, session, setSession, Session.queue, if_neg hother] at hmeet
    by_cases hclosed : t.far.isClosed = true
    · rw [if_pos hclosed] at hmeet
      cases hmeet
      exact h.serve_ends (by simp only [servingRank, hs]; omega) (by simp [closed, hclosed])
        t.far rfl rfl rfl .closed
    · rw [if_neg hclosed] at hmeet
      cases hmeet
      exact h.serve_queues hs t.far.nextAcceptor
  | accepting acceptor =>
    have hlast : servingRank t.serving < 2 := by simp only [servingRank, hs]; omega
    have hhead : t.far.acceptors.head? = some acceptor := by
      rw [hs] at hstage
      rw [hstage, List.head?_cons]
    simp only [Serving.needs, hs, List.head?_cons, hsession, Option.some.injEq] at hneed
    subst hneed
    simp only [meet, session, setSession, Session.accept, hhead, if_neg hother, if_true] at hmeet
    split at hmeet
    · rename_i hcancelled
      cases hmeet
      exact h.serve_ends hlast (by simp [closed, Session.isClosed, hcancelled])
        (t.far.leave acceptor) rfl rfl rfl .closed
    · split at hmeet
      · rename_i k arrived harrived
        cases hmeet
        exact h.serve_accepts hs harrived
      · split at hmeet
        · rename_i hstopped
          cases hmeet
          exact h.serve_ends hlast (by simp [closed, Session.isClosed, hstopped])
            (t.far.leave acceptor) rfl rfl rfl .closed
        · cases hmeet
  | done => simp only [Serving.needs, hs, List.head?_nil, reduceCtorEq] at hneed

theorem close_at (h : Sound router t) (id : Nat) :
    Sound router (t.setSession id (t.session id).close.2) ∧
      t.progress ≤ (t.setSession id (t.session id).close.2).progress := by
  obtain ⟨hopenings, harrived, hacceptors, hstopped, hclosed⟩ := (t.session id).close_keeps
  unfold setSession session at *
  split
  · rename_i hid
    rw [if_pos hid] at *
    refine ⟨h.close hopenings rfl rfl fun hc => ?_, ?_⟩
    · simp only [closed, Bool.or_eq_true] at hc ⊢
      exact hc.imp_left hclosed
    · simp only [progress, hopenings, hstopped]
      exact Nat.le_refl _
  · rename_i hid
    rw [if_neg hid] at *
    refine ⟨h.close rfl harrived hacceptors fun hc => ?_, ?_⟩
    · simp only [closed, Bool.or_eq_true] at hc ⊢
      exact hc.imp_right hclosed
    · simp only [progress, harrived, hstopped]
      exact Nat.le_refl _

theorem fail_at (h : Sound router t) {id : Nat} (hstopped : (t.session id).stopped = false) :
    Sound router (t.setSession id (t.session id).fail) ∧
      t.progress < (t.setSession id (t.session id).fail).progress := by
  unfold setSession session at *
  split
  · rename_i hid
    rw [if_pos hid] at *
    obtain ⟨hnext, hqueued, hwaiting, hanswers⟩ := t.near.openings.refuse_keeps
    have hopenings : t.near.fail.openings = t.near.openings.refuse := rfl
    have hclosed : closed { t with near := t.near.fail } = true := rfl
    constructor
    · refine ⟨h.toPairing, fun k s hs => ?_, fun i c hc => ?_, ?_, ?_, ?_, ?_⟩
      · refine (h.linked k s hs).mono (fun _ => hclosed) ?_
        rintro ⟨r, hr⟩
        exact ⟨r, (hanswers r k).1 hr⟩
      · obtain ⟨hsession, hrequest, hproper⟩ := h.begun i c hc
        exact ⟨hsession, hrequest, hproper.mono fun _ => hclosed⟩
      · exact h.fair.refuse
      · have := h.requested
        rw [hopenings, hnext, hqueued, hwaiting, List.length_nil]
        change t.strands.length + 0 + 0 ≤ _
        omega
      · rw [hopenings, hnext]
        exact h.asked
      · exact h.arrivals.mono fun _ => hclosed
    · have := h.requested
      have hnow : t.near.fail.stopped = true := rfl
      simp only [progress, requestProgress, hopenings, hnext, hqueued, hwaiting, hnow, hstopped,
        List.length_nil, Bool.toNat_true, Bool.toNat_false]
      omega
  · rename_i hid
    rw [if_neg hid] at *
    have hclosed : t.far.fail.isClosed = true := rfl
    refine ⟨h.close rfl rfl rfl fun _ => ?_, ?_⟩
    · simp [closed, hclosed]
    · have harrived : t.far.fail.arrived = t.far.arrived := rfl
      have hnow : t.far.fail.stopped = true := rfl
      simp only [progress, harrived, hnow, hstopped, Bool.toNat_true, Bool.toNat_false]
      omega

/-- **Every move keeps what holds**, and one that the parties make themselves is progress. -/
theorem step (h : Sound router t) {move : Move} (hstep : t.step move = some t') :
    Sound router t' ∧ t.progress + (if move.isOwn then 1 else 0) ≤ t'.progress := by
  cases move with
  | issue envelope limit => cases hstep; exact h.issue envelope limit
  | tick =>
    cases hstep
    exact ⟨⟨h.toPairing, h.linked, h.begun, h.fair, h.requested, h.asked, h.arrivals⟩,
      Nat.le_refl _⟩
  | call i place portion => exact h.call_step hstep
  | service k place portion => exact h.service_step hstep
  | serve => exact h.serve hstep
  | takeUp =>
    simp only [Traffic.step] at hstep
    split at hstep
    · cases hstep
    · rename_i hqueued
      cases hstep
      exact h.takeUp hqueued
  | grant =>
    simp only [Traffic.step] at hstep
    split at hstep
    · cases hstep
    · rename_i hwaiting
      cases hstep
      exact h.grant hwaiting
  | arrive k =>
    simp only [Traffic.step] at hstep
    split at hstep
    · rename_i hk
      cases hstep
      exact h.arrive hk
    · cases hstep
  | close id => cases hstep; exact h.close_at id
  | fail id =>
    simp only [Traffic.step] at hstep
    split at hstep
    · rename_i hcond
      cases hstep
      exact h.fail_at (by simpa using (Bool.and_eq_true_iff.1 hcond).2)
    · cases hstep
  | snap k =>
    simp only [Traffic.step] at hstep
    split at hstep
    · rename_i hcond
      cases hstep
      obtain ⟨hclosed, hany⟩ := Bool.and_eq_true_iff.1 hcond
      obtain ⟨strand, hk, hbroken⟩ := (Option.any_eq_true _ _).1 hany
      have hsnap := h.snap hclosed hk (by simpa using hbroken)
      simp only [onStrand, Lists.modify_eq_set hk]
      exact ⟨hsnap.1, hsnap.2⟩
    · cases hstep

end Traffic.Sound

end Switchboard
