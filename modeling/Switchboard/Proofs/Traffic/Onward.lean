import Switchboard.Proofs.Calls
import Switchboard.Proofs.Traffic.Rest

/-!
# Streams only go on

What is written to a stream and what is read of it grows, a flow that has ended stays ended, and a
broken stream stays broken: `Strand.Onward`. No move takes any of it back, whoever makes it, and a
move of the service of a stream is progress on that stream. So a service makes only so many moves,
whatever the others do meanwhile.
-/

namespace Switchboard

namespace Flow

structure Onward (flow after : Flow) : Prop where
  taken : flow.taken ≤ after.taken
  written : flow.written.size ≤ after.written.size
  ended : flow.ended = true → after.ended = true

variable {flow after : Flow} {broken : Bool} {portion : Portion} {signal : Signal}

theorem Onward.refl (flow : Flow) : flow.Onward flow :=
  ⟨Nat.le_refl _, Nat.le_refl _, id⟩

theorem read_onward {room : Nat} (h : flow.read broken room portion = some (signal, after)) :
    flow.Onward after := by
  rcases read_cases h with ⟨n, -, -, -, rfl⟩ | ⟨-, rfl, -⟩ | ⟨_, -, rfl, -⟩
  · exact ⟨Nat.le_add_right _ _, Nat.le_refl _, id⟩
  · exact .refl _
  · exact .refl _

theorem write_onward {data : ByteArray} {start : Nat}
    (h : flow.write broken data start portion = some (signal, after)) : flow.Onward after := by
  rcases write_cases h with ⟨n, -, -, -, rfl⟩ | ⟨_, -, rfl, -⟩
  · refine ⟨Nat.le_refl _, ?_, id⟩
    rw [ByteArray.size_append]
    exact Nat.le_add_right _ _
  · exact .refl _

theorem finish_onward (h : flow.finish broken portion = some (signal, after)) :
    flow.Onward after := by
  rcases finish_cases h with ⟨-, rfl⟩ | ⟨_, -, rfl, -⟩
  · exact ⟨Nat.le_refl _, Nat.le_refl _, fun _ => rfl⟩
  · exact .refl _

end Flow

namespace Strand

/-- The near end has let go of a stream, and the far end can tell: the near end was done writing, or
the stream broke. -/
def Released (strand : Strand) : Prop :=
  strand.up.ended = true ∨ strand.broken = true

structure Onward (strand after : Strand) : Prop where
  released : strand.Released → after.Released
  progress : strand.progress ≤ after.progress

variable {strand after : Strand} {need : Need} {portion : Portion} {signal : Signal}

theorem Onward.refl (strand : Strand) : strand.Onward strand :=
  ⟨id, Nat.le_refl _⟩

theorem Onward.trans {last : Strand} (h : strand.Onward after) (h' : after.Onward last) :
    strand.Onward last :=
  ⟨fun hr => h'.released (h.released hr), Nat.le_trans h.progress h'.progress⟩

theorem drop_onward (strand : Strand) (id : Nat) : strand.Onward (strand.drop id) :=
  ⟨fun h => h.imp_right broken_drop, strand.progress_drop id⟩

theorem released_drop (strand : Strand) : (strand.drop 0).Released := by
  cases h : strand.up.ended with
  | true => exact .inl h
  | false => exact .inr (by simp [drop, h])

theorem onward_up {up : Flow} (h : strand.up.Onward up) : strand.Onward { strand with up } := by
  refine ⟨fun hr => hr.imp_left h.ended, ?_⟩
  have := h.taken
  have := h.written
  simp only [progress]
  omega

theorem onward_down {down : Flow} (h : strand.down.Onward down) :
    strand.Onward { strand with down } := by
  refine ⟨id, ?_⟩
  have := h.taken
  have := h.written
  simp only [progress]
  omega

theorem meet_onward (h : strand.meet need portion = some (signal, after)) :
    strand.Onward after := by
  unfold meet at h
  split at h
  · split at h <;> obtain ⟨⟨_, flow⟩, hflow, heq⟩ := Option.map_eq_some_iff.1 h <;> cases heq
    · exact onward_down (Flow.read_onward hflow)
    · exact onward_up (Flow.read_onward hflow)
  · split at h <;> obtain ⟨⟨_, flow⟩, hflow, heq⟩ := Option.map_eq_some_iff.1 h <;> cases heq
    · exact onward_up (Flow.write_onward hflow)
    · exact onward_down (Flow.write_onward hflow)
  · split at h <;> obtain ⟨⟨_, flow⟩, hflow, heq⟩ := Option.map_eq_some_iff.1 h <;> cases heq
    · exact onward_up (Flow.finish_onward hflow)
    · exact onward_down (Flow.finish_onward hflow)
  · cases h

theorem foldl_perform_onward (deeds : List Deed) (strand : Strand) :
    strand.Onward (deeds.foldl perform strand) := by
  induction deeds generalizing strand with
  | nil => exact .refl strand
  | cons deed deeds ih =>
    have hdeed : strand.Onward (strand.perform deed) := by
      unfold perform
      split
      · exact strand.drop_onward _
      · exact .refl strand
    exact hdeed.trans (ih (strand.perform deed))

theorem Meets.onward {closed : Bool} {id : Nat} (h : strand.Meets closed id need signal after) :
    strand.Onward after := by
  cases h with
  | cancelled _ => exact .refl strand
  | moment _ => exact .refl strand
  | stream hmeet => exact meet_onward hmeet

end Strand

namespace Traffic

def Onward (t t' : Traffic) : Prop :=
  ∀ (k : Nat) (strand : Strand), t.strands[k]? = some strand →
    ∃ after : Strand, t'.strands[k]? = some after ∧ strand.Onward after

variable {router : Router} {t t' : Traffic} {i k id : Nat} {c : Caller} {strand after : Strand}
  {need : Need} {portion : Portion} {signal : Signal} {move : Move}

theorem Onward.of_eq (h : t'.strands = t.strands) : t.Onward t' := by
  intro k strand hk
  exact ⟨strand, by rw [h]; exact hk, .refl strand⟩

theorem Onward.trans {last : Traffic} (h : t.Onward t') (h' : t'.Onward last) : t.Onward last := by
  intro k strand hk
  obtain ⟨between, hbetween, hone⟩ := h k strand hk
  obtain ⟨after, hafter, htwo⟩ := h' k between hbetween
  exact ⟨after, hafter, hone.trans htwo⟩

theorem Onward.of_set (hk : t.strands[k]? = some strand) (h : strand.Onward after)
    (hset : t'.strands = t.strands.set k after) : t.Onward t' := by
  intro j s hj
  rw [hset]
  rcases Lists.getElem?_set_of hj k after with ⟨rfl, hafter⟩ | ⟨-, hsame⟩
  · rw [hk] at hj
    cases hj
    exact ⟨after, hafter, h⟩
  · exact ⟨s, hsame, .refl s⟩

theorem onStrand_onward (k : Nat) {f : Strand → Strand}
    (h : ∀ strand, t.strands[k]? = some strand → strand.Onward (f strand)) :
    t.Onward (t.onStrand k f) := by
  cases hk : t.strands[k]? with
  | none =>
    refine .of_eq ?_
    simp only [onStrand]
    rw [List.modify_eq_self]
    exact List.getElem?_eq_none_iff.1 hk
  | some strand => exact .of_set hk (h strand hk) (Lists.modify_eq_set hk f)

theorem setSession_strands (id : Nat) (s : Session) : (t.setSession id s).strands = t.strands := by
  unfold setSession
  split <;> rfl

theorem setSession_onward (id : Nat) (s : Session) : t.Onward (t.setSession id s) :=
  .of_eq (setSession_strands id s)

theorem meet_onward (h : t.meet need portion = some (signal, t')) : t.Onward t' := by
  have hsession : ∀ {id : Nat} {s : Session} {answer? : Option Signal},
      (answer?.map fun signal => (signal, t.setSession id s)) = some (signal, t') →
      t.Onward t' := by
    intro id s answer? hmap
    obtain ⟨_, -, heq⟩ := Option.map_eq_some_iff.1 hmap
    cases heq
    exact setSession_onward id s
  have hstrand : ∀ {need : Need} {ref : StreamRef},
      (t.strands[ref.stream]?.bind fun strand => (strand.meet need portion).map fun met =>
        (met.1, { t with strands := t.strands.set ref.stream met.2 })) = some (signal, t') →
      t.Onward t' := by
    intro need ref hbind
    obtain ⟨strand, hk, hmap⟩ := Option.bind_eq_some_iff.1 hbind
    obtain ⟨⟨_, after⟩, hmeet, heq⟩ := Option.map_eq_some_iff.1 hmap
    cases heq
    exact .of_set hk (Strand.meet_onward hmeet) rfl
  cases need with
  | turn => cases h; exact .of_eq rfl
  | cancelled id =>
    obtain ⟨-, -, rfl⟩ := meet_cancelled h
    exact .of_eq rfl
  | moment time =>
    obtain ⟨-, rfl⟩ := meet_moment h
    exact .of_eq rfl
  | request id => cases h; exact setSession_onward _ _
  | granted id request => exact hsession h
  | queue id => cases h; exact setSession_onward _ _
  | accepted id acceptor => exact hsession h
  | read ref room => exact hstrand h
  | write ref data start => exact hstrand h
  | finish ref => exact hstrand h
  | _ => cases h

/-- A deed that has no stream answered takes nothing back. -/
theorem perform_onward {deed : Deed} (h : ∀ ref responder, deed ≠ .answer ref responder) :
    t.Onward (t.perform deed) := by
  unfold perform
  split
  · exact onStrand_onward _ fun strand _ => strand.drop_onward _
  · dsimp only
    split
    · exact (setSession_onward _ _).trans (onStrand_onward _ fun strand _ => strand.drop_onward _)
    · exact setSession_onward _ _
  · exact setSession_onward _ _
  · rename_i ref responder
    exact absurd rfl (h ref responder)
  · exact setSession_onward _ _
  · exact .of_eq rfl

theorem foldl_perform_onward {deeds : List Deed}
    (h : ∀ deed ∈ deeds, ∀ ref responder, deed ≠ .answer ref responder) (t : Traffic) :
    t.Onward (deeds.foldl perform t) := by
  induction deeds generalizing t with
  | nil => exact .of_eq rfl
  | cons deed deeds ih =>
    exact (perform_onward (h deed List.mem_cons_self)).trans
      (ih (fun d hd => h d (List.mem_cons_of_mem _ hd)) (t.perform deed))

theorem tell_onward (i : Nat) (signal : Signal) (t : Traffic) : t.Onward (t.tell i signal) := by
  unfold tell
  split
  · exact onStrand_onward _ fun strand _ => ⟨id, Nat.le_refl _⟩
  · exact .of_eq rfl

/-- Whether a move is made by the service of a stream. -/
def Move.isService (k : Nat) : Move → Bool
  | service j .. => j = k
  | _ => false

/-- How much has happened on a stream, if it was begun. -/
def progressOn (k : Nat) (t : Traffic) : Nat :=
  (t.strands[k]?.map Strand.progress).getD 0

namespace Sound

/-- What a move of the loop that accepts streams makes of the traffic: the far end goes on, and the
loop is told something. If it is told of a stream, that one has no service yet. -/
theorem serve_after (h : Sound router t) (hstep : t.step .serve = some t') :
    ∃ (far : Session) (signal : Signal), far.isClosed = t.far.isClosed ∧
      t' = hearServing signal { t with far } ∧
      ∀ ref, signal = .stream ref →
        ∃ strand, t.strands[ref.stream]? = some strand ∧ strand.service? = none := by
  obtain ⟨hsession, -, -, -, hmem, -⟩ := h.arrivals
  simp only [Traffic.step] at hstep
  obtain ⟨need, hneed, hstep⟩ := Option.bind_eq_some_iff.1 hstep
  obtain ⟨⟨signal, between⟩, hmeet, rfl⟩ := Option.map_eq_some_iff.1 hstep
  unfold Serving.needs at hneed
  split at hneed <;> cases hneed
  · rw [hsession] at hmeet
    simp only [meet, session, setSession, Session.queue, Nat.one_ne_zero, if_false] at hmeet
    split at hmeet
    · cases hmeet
      exact ⟨t.far, .refused .closed, rfl, rfl, fun _ heq => by cases heq⟩
    · cases hmeet
      exact ⟨{ t.far with
        acceptors := t.far.acceptors ++ [t.far.nextAcceptor]
        nextAcceptor := t.far.nextAcceptor + 1 }, .ticket t.far.nextAcceptor, rfl, rfl,
        fun _ heq => by cases heq⟩
  · rename_i acceptor _
    rw [hsession] at hmeet
    simp only [meet, session, setSession, Session.accept, Nat.one_ne_zero, if_false] at hmeet
    split at hmeet
    · cases hmeet
      exact ⟨t.far.leave acceptor, .refused .closed, rfl, rfl, fun _ heq => by cases heq⟩
    · split at hmeet
      · split at hmeet
        · rename_i k arrived harrived
          cases hmeet
          refine ⟨{ t.far with arrived }.leave acceptor, .stream ⟨1, k⟩, rfl, rfl, ?_⟩
          intro ref heq
          cases heq
          exact (hmem k).1 (List.mem_append_right _ (by rw [harrived]; exact List.mem_cons_self))
        · split at hmeet
          · cases hmeet
            exact ⟨t.far.leave acceptor, .refused .closed, rfl, rfl, fun _ heq => by cases heq⟩
          · cases hmeet
      · cases hmeet

/-- The loop that accepts streams sets a service on a stream that has none. -/
theorem serve_onward (h : Sound router t) (hstep : t.step .serve = some t') : t.Onward t' := by
  obtain ⟨far, signal, -, rfl, hfree⟩ := h.serve_after hstep
  have hfar : t.Onward { t with far } := .of_eq rfl
  refine hfar.trans ?_
  unfold hearServing
  cases signal with
  | stream ref =>
    obtain ⟨strand, hk, hnone⟩ := hfree ref rfl
    refine .trans (.of_eq rfl) (onStrand_onward ref.stream fun s hs => ?_)
    change t.strands[ref.stream]? = some s at hs
    rw [hk] at hs
    cases hs
    refine ⟨id, ?_⟩
    simp only [Strand.progress, hnone, Option.map_none, Option.getD_none]
    omega
  | _ => exact .of_eq rfl

theorem service_onward (h : Sound router t) {place : Nat}
    (hstep : t.step (.service k place portion) = some t') :
    ∃ strand after : Strand, t.strands[k]? = some strand ∧ strand.Onward after ∧
      strand.progress < after.progress ∧ t' = { t with strands := t.strands.set k after } := by
  simp only [Traffic.step] at hstep
  obtain ⟨service, hservice, hstep⟩ := Option.bind_eq_some_iff.1 hstep
  obtain ⟨strand, hk, hs⟩ := Option.bind_eq_some_iff.1 hservice
  obtain ⟨need, hplace, hstep⟩ := Option.bind_eq_some_iff.1 hstep
  obtain ⟨⟨signal, between⟩, hmeet, rfl⟩ := Option.map_eq_some_iff.1 hstep
  obtain ⟨after, hmeets, hkeeps, hafter⟩ :=
    h.service_after hk hs (List.mem_of_getElem? hplace) hmeet
  refine ⟨strand, _, hk, ⟨fun hr => ?_, Nat.le_of_lt hkeeps.grown⟩, hkeeps.grown, hafter⟩
  exact (Strand.foldl_perform_onward _ _).released (hmeets.onward.released hr)

/-- **No move takes back what has happened on a stream.** -/
theorem onward (h : Sound router t) (hstep : t.step move = some t') : t.Onward t' := by
  cases move with
  | issue envelope limit => cases hstep; exact .of_eq rfl
  | tick => cases hstep; exact .of_eq rfl
  | call i place portion =>
    simp only [Traffic.step] at hstep
    obtain ⟨c, -, hstep⟩ := Option.bind_eq_some_iff.1 hstep
    obtain ⟨need, -, hstep⟩ := Option.bind_eq_some_iff.1 hstep
    obtain ⟨⟨signal, between⟩, hmeet, rfl⟩ := Option.map_eq_some_iff.1 hstep
    refine (meet_onward hmeet).trans ((tell_onward i signal between).trans ?_)
    have hdeeds : ∀ told : Traffic, told.Onward ((c.call.hear need signal).2.foldl perform told) :=
      foldl_perform_onward fun _ hdeed => Call.not_answer_of_hear hdeed
    have hnoted : (between.tell i signal).Onward { between.tell i signal with
        callers := between.callers.set i (c.hear between.closed need signal) } := .of_eq rfl
    exact hnoted.trans (hdeeds _)
  | service k place portion =>
    obtain ⟨strand, after, hk, honward, -, rfl⟩ := h.service_onward hstep
    exact .of_set hk honward rfl
  | serve => exact h.serve_onward hstep
  | takeUp =>
    simp only [Traffic.step] at hstep
    split at hstep <;> cases hstep
    exact .of_eq rfl
  | grant =>
    simp only [Traffic.step] at hstep
    split at hstep <;> cases hstep
    intro k strand hk
    exact ⟨strand, (List.getElem?_append_left (List.getElem?_eq_some_iff.1 hk).1).trans hk,
      .refl strand⟩
  | arrive k =>
    simp only [Traffic.step] at hstep
    split at hstep <;> cases hstep
    exact .of_eq rfl
  | close id => cases hstep; exact setSession_onward _ _
  | fail id =>
    simp only [Traffic.step] at hstep
    split at hstep <;> cases hstep
    exact setSession_onward _ _
  | snap k =>
    simp only [Traffic.step] at hstep
    split at hstep <;> cases hstep
    refine onStrand_onward k fun strand _ => ⟨fun _ => .inr rfl, ?_⟩
    have := Bool.toNat_le strand.broken
    simp only [Strand.progress, Bool.toNat_true]
    omega

/-! ## The moves of one service -/

theorem progressOn_step (k : Nat) (h : Sound router t) (hstep : t.step move = some t') :
    progressOn k t + (if move.isService k then 1 else 0) ≤ progressOn k t' := by
  have honward : progressOn k t ≤ progressOn k t' := by
    cases hk : t.strands[k]? with
    | none =>
      simp only [progressOn, hk]
      exact Nat.zero_le _
    | some strand =>
      obtain ⟨after, hafter, hone⟩ := h.onward hstep k strand hk
      simp only [progressOn, hk, hafter]
      exact hone.progress
  by_cases hservice : move.isService k = true
  · rw [if_pos hservice]
    unfold Move.isService at hservice
    split at hservice
    · rename_i j place portion
      obtain rfl := of_decide_eq_true hservice
      obtain ⟨strand, after, hj, -, hgrown, rfl⟩ := h.service_onward hstep
      have hafter : (t.strands.set j after)[j]? = some after :=
        List.getElem?_set_self (List.getElem?_eq_some_iff.1 hj).1
      simp only [progressOn, hj, hafter]
      exact hgrown
    · cases hservice
  · rw [if_neg hservice]
    exact honward

theorem progressOn_le (k : Nat) (h : Sound router t) : progressOn k t ≤ Strand.most := by
  cases hk : t.strands[k]? with
  | none =>
    simp only [progressOn, hk]
    exact Nat.zero_le _
  | some strand =>
    simp only [progressOn, hk]
    exact (h.linked k strand hk).progress_le

/-- A service makes only so many moves, whatever the others do meanwhile. -/
theorem service_moves_le (h : Sound router t) {moves : List Move}
    (hrun : runFrom Traffic.step t moves = some t') (k : Nat) :
    moves.countP (Move.isService k) ≤ Strand.most := by
  have hkeeps : ∀ t move t', Sound router t → t.step move = some t' → Sound router t' :=
    fun _ _ _ h hstep => (h.step hstep).1
  have hcount := runFrom_counts hkeeps (Move.isService k) (progressOn k)
    (fun _ _ _ h hstep => h.progressOn_step k hstep) h hrun
  have := (runFrom_keeps hkeeps h hrun).progressOn_le k
  omega

theorem released_stays (h : Sound router t) {moves : List Move}
    (hrun : runFrom Traffic.step t moves = some t') {strand : Strand}
    (hk : t.strands[k]? = some strand) (hreleased : strand.Released) :
    ∃ after : Strand, t'.strands[k]? = some after ∧ after.Released := by
  have hkeeps : ∀ (t : Traffic) (move : Move) (t' : Traffic),
      (Sound router t ∧ ∃ s, t.strands[k]? = some s ∧ s.Released) → t.step move = some t' →
      Sound router t' ∧ ∃ s, t'.strands[k]? = some s ∧ s.Released := by
    rintro t move t' ⟨hsound, s, hs, hr⟩ hstep
    obtain ⟨after, hafter, honward⟩ := hsound.onward hstep k s hs
    exact ⟨(hsound.step hstep).1, after, hafter, honward.released hr⟩
  exact (runFrom_keeps hkeeps ⟨h, strand, hk, hreleased⟩ hrun).2

end Sound

end Traffic

end Switchboard
