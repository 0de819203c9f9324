import Switchboard.Fabric.Directory
import Switchboard.Proofs.Lifetime.Session

/-!
# What becomes of the sessions of a fabric

Sessions join a fabric and never leave it, and whatever happens there, each becomes what a session
may become: `Fabric.Becomes`, with one lemma for each thing that is done to a fabric. Two facts
follow for everything that comes later: a session that is closed stays closed
(`Becomes.isClosed`), and what holds of every session goes on to hold (`Becomes.sound`).
-/

namespace Switchboard.Fabric

def Sound (f : Fabric) : Prop :=
  ∀ id s, f.session? id = some s → s.Sound

/-- A fabric is later what it becomes: its sessions are still there, and new ones are sound. -/
structure Becomes (f f' : Fabric) : Prop where
  goOn : ∀ id s, f.session? id = some s → ∃ s', f'.session? id = some s' ∧ s.Becomes s'
  comeFrom : ∀ id s', f'.session? id = some s' →
    (∃ s, f.session? id = some s ∧ s.Becomes s') ∨ s'.Sound

variable {f f' f'' : Fabric} {id j : Nat} {s : Session}

namespace Becomes

theorem sound (h : f.Becomes f') (hf : f.Sound) : f'.Sound := by
  intro id s' hs'
  rcases h.comeFrom id s' hs' with ⟨s, hs, hbecomes⟩ | hsound
  · exact hbecomes.sound (hf id s hs)
  · exact hsound

theorem trans (h : f.Becomes f') (h' : f'.Becomes f'') : f.Becomes f'' where
  goOn id s hs := by
    obtain ⟨s', hs', hbecomes⟩ := h.goOn id s hs
    obtain ⟨s'', hs'', hbecomes'⟩ := h'.goOn id s' hs'
    exact ⟨s'', hs'', hbecomes.trans hbecomes'⟩
  comeFrom id s'' hs'' := by
    rcases h'.comeFrom id s'' hs'' with ⟨s', hs', hbecomes'⟩ | hsound
    · rcases h.comeFrom id s' hs' with ⟨s, hs, hbecomes⟩ | hsound
      · exact .inl ⟨s, hs, hbecomes.trans hbecomes'⟩
      · exact .inr (hbecomes'.sound hsound)
    · exact .inr hsound

theorem of_seats (h : f'.seats = f.seats) : f.Becomes f' := by
  have hsame : ∀ id, f'.session? id = f.session? id := fun id => by
    unfold session?
    rw [h]
  refine ⟨fun id s hs => ⟨s, ?_, .refl s⟩, fun id s hs => .inl ⟨s, ?_, .refl s⟩⟩
  · rw [hsame, hs]
  · rw [← hsame, hs]

theorem refl (f : Fabric) : f.Becomes f := of_seats rfl

/-- What begins with something that leaves the sessions alone. -/
theorem after {g : Fabric} (h : g.Becomes f') (hseats : g.seats = f.seats) : f.Becomes f' :=
  (of_seats hseats).trans h

theorem isClosed (h : f.Becomes f') (hs : f.session? id = some s)
    (hclosed : f.isClosed id = true) : f'.isClosed id = true := by
  obtain ⟨s', hs', hbecomes⟩ := h.goOn id s hs
  unfold Fabric.isClosed at hclosed ⊢
  rw [hs] at hclosed
  rw [hs']
  exact hbecomes.isClosed hclosed

theorem foldl {α : Type} {g : Fabric → α → Fabric} (h : ∀ f a, Becomes f (g f a)) (l : List α)
    (f : Fabric) : f.Becomes (l.foldl g f) := by
  induction l generalizing f with
  | nil => exact refl f
  | cons a l ih => exact (h f a).trans (ih _)

end Becomes

/-! ## Sessions -/

theorem isClosed_of_session (h : f.session? id = some s) : f.isClosed id = s.isClosed := by
  unfold isClosed
  rw [h]

theorem session?_eq_none_iff : f.session? id = none ↔ f.seats.size ≤ id := by
  unfold session?
  rw [Option.map_eq_none_iff, Array.getElem?_eq_none_iff]

theorem session?_lt (h : f.session? id = some s) : id < f.seats.size := by
  rcases Nat.lt_or_ge id f.seats.size with hlt | hge
  · exact hlt
  · rw [session?_eq_none_iff.2 hge] at h
    cases h

/-- What is done to a session changes its seat and no other. -/
theorem onSession_seats {α : Type} (f : Fabric) (id : Nat) (g : Session → α × Session) :
    (f.onSession id g).2.seats[j]? =
      if j = id then (f.seats[id]?).map fun seat => { seat with session := (g seat.session).2 }
      else f.seats[j]? := by
  unfold onSession
  cases hseat : f.seats[id]? with
  | none =>
    by_cases hj : j = id
    · subst hj
      rw [if_pos rfl]
      exact hseat
    · rw [if_neg hj]
  | some seat =>
    obtain ⟨hid, -⟩ := Array.getElem?_eq_some_iff.1 hseat
    simp only [Array.set!_eq_setIfInBounds, Array.getElem?_setIfInBounds]
    by_cases hj : j = id
    · subst hj
      rw [if_pos rfl, if_pos rfl, if_pos hid]
      rfl
    · rw [if_neg hj, if_neg fun h => hj h.symm]

theorem session?_onSession {α : Type} (f : Fabric) (id : Nat) (g : Session → α × Session) :
    (f.onSession id g).2.session? j =
      if j = id then (f.session? id).map fun s => (g s).2 else f.session? j := by
  unfold session?
  rw [onSession_seats]
  split
  · rw [Option.map_map, Option.map_map]
    rfl
  · rfl

theorem onSession_fst {α : Type} (f : Fabric) (id : Nat) (g : Session → α × Session) :
    (f.onSession id g).1 = (f.session? id).map fun s => (g s).1 := by
  unfold onSession session?
  cases f.seats[id]? <;> rfl

/-- What is done to a session changes nothing but the sessions. -/
theorem onSession_rest {α : Type} (f : Fabric) (id : Nat) (g : Session → α × Session) :
    ∃ seats, (f.onSession id g).2 = { f with seats } := by
  unfold onSession
  split
  · exact ⟨f.seats, rfl⟩
  · exact ⟨_, rfl⟩

theorem becomes_onSession {α : Type} {g : Session → α × Session} (f : Fabric) (id : Nat)
    (h : ∀ s, f.session? id = some s → s.Becomes (g s).2) : f.Becomes (f.onSession id g).2 := by
  refine ⟨fun j s hs => ?_, fun j s' hs' => .inl ?_⟩
  · rw [session?_onSession]
    split
    · rename_i hj
      subst hj
      exact ⟨(g s).2, by rw [hs]; rfl, h s hs⟩
    · exact ⟨s, hs, .refl s⟩
  · rw [session?_onSession] at hs'
    split at hs'
    · rename_i hj
      subst hj
      obtain ⟨s, hs, rfl⟩ := Option.map_eq_some_iff.1 hs'
      exact ⟨s, hs, h s hs⟩
    · exact ⟨s', hs', .refl s'⟩

theorem becomes_modifySession {g : Session → Session} (f : Fabric) (id : Nat)
    (h : ∀ s : Session, s.Becomes (g s)) : f.Becomes (f.modifySession id g) :=
  f.becomes_onSession id fun s _ => h s

theorem session?_addSession (f : Fabric) (s : Session) (input output : Nat) :
    (f.addSession s input output).2.session? j =
      if j = f.seats.size then some s else f.session? j := by
  unfold addSession session?
  simp only [Array.getElem?_push]
  split <;> rfl

theorem becomes_addSession {s : Session} (f : Fabric) (h : s.Sound) (input output : Nat) :
    f.Becomes (f.addSession s input output).2 := by
  refine ⟨fun j t ht => ⟨t, ?_, .refl t⟩, fun j t ht => ?_⟩
  · rw [session?_addSession, if_neg (Nat.ne_of_lt (session?_lt ht)), ht]
  · rw [session?_addSession] at ht
    split at ht
    · cases ht
      exact .inr h
    · exact .inl ⟨t, ht, .refl t⟩

/-! ## Closing -/

theorem kill_rest (f : Fabric) (pid : Nat) :
    ∃ pipes, f.kill pid = { f with pipes, processes := f.processes.filter (·.1 ≠ pid) } := by
  have hfold : ∀ (ids : List Nat) (f : Fabric), ∃ pipes,
      ids.foldl (fun f id => f.closePipe id) f = { f with pipes } := by
    intro ids
    induction ids with
    | nil => exact fun f => ⟨f.pipes, rfl⟩
    | cons id ids ih => exact fun f => ih _
  exact hfold _ _

theorem closeSession_eq (f : Fabric) (id : Nat) :
    f.closeSession id =
      match (f.session? id).bind fun s => s.close.1 with
      | some pid => (f.onSession id Session.close).2.kill pid
      | none => (f.onSession id Session.close).2 := by
  have hfst := f.onSession_fst id Session.close
  unfold closeSession
  generalize f.onSession id Session.close = result at hfst ⊢
  obtain ⟨handed, after⟩ := result
  cases hs : f.session? id with
  | none =>
    rw [hs] at hfst
    cases hfst
    rfl
  | some s =>
    rw [hs] at hfst
    cases hfst
    simp only [Option.bind_some]
    cases s.close.1 <;> rfl

/-- To close a session changes nothing but the sessions, the processes and their channels. -/
theorem closeSession_rest (f : Fabric) (id : Nat) :
    ∃ seats pipes processes, f.closeSession id = { f with seats, pipes, processes } := by
  obtain ⟨seats, hseats⟩ := f.onSession_rest id Session.close
  rw [closeSession_eq, hseats]
  split
  · obtain ⟨pipes, hpipes⟩ := kill_rest { f with seats } _
    exact ⟨seats, pipes, _, hpipes⟩
  · exact ⟨seats, f.pipes, f.processes, rfl⟩

theorem closeSession_seats (f : Fabric) (id : Nat) :
    (f.closeSession id).seats = (f.onSession id Session.close).2.seats := by
  rw [closeSession_eq]
  split
  · obtain ⟨pipes, hpipes⟩ := kill_rest (f.onSession id Session.close).2 _
    rw [hpipes]
  · rfl

theorem session?_closeSession (f : Fabric) (id : Nat) :
    (f.closeSession id).session? j =
      if j = id then (f.session? id).map fun s => s.close.2 else f.session? j := by
  rw [← session?_onSession]
  unfold session?
  rw [closeSession_seats]

theorem becomes_closeSession (f : Fabric) (id : Nat) : f.Becomes (f.closeSession id) :=
  (f.becomes_onSession id fun s _ => s.becomes_close).trans (.of_seats (f.closeSession_seats id))

theorem closeSessions_rest (ids : List Nat) (f : Fabric) :
    ∃ seats pipes processes, f.closeSessions ids = { f with seats, pipes, processes } := by
  induction ids generalizing f with
  | nil => exact ⟨f.seats, f.pipes, f.processes, rfl⟩
  | cons id ids ih =>
    obtain ⟨seats, pipes, processes, heq⟩ := f.closeSession_rest id
    obtain ⟨seats', pipes', processes', heq'⟩ := ih (f.closeSession id)
    refine ⟨seats', pipes', processes', ?_⟩
    change (f.closeSession id).closeSessions ids = _
    rw [heq', heq]

theorem becomes_closeSessions (ids : List Nat) (f : Fabric) : f.Becomes (f.closeSessions ids) :=
  .foldl (fun f id => f.becomes_closeSession id) ids f

theorem isClosed_closeSession (h : f.Sound) (id : Nat) :
    (f.closeSession id).isClosed id = true := by
  unfold isClosed
  rw [session?_closeSession, if_pos rfl]
  cases hs : f.session? id with
  | none => rfl
  | some s => exact Session.isClosed_close (h id s hs)

/-- To close some sessions leaves every other one as it is. -/
theorem closeSessions_seats {ids : List Nat} (f : Fabric) (h : j ∉ ids) :
    (f.closeSessions ids).seats[j]? = f.seats[j]? := by
  induction ids generalizing f with
  | nil => rfl
  | cons id ids ih =>
    simp only [List.mem_cons, not_or] at h
    change ((f.closeSession id).closeSessions ids).seats[j]? = f.seats[j]?
    rw [ih _ h.2, closeSession_seats, onSession_seats, if_neg h.1]

theorem isClosed_closeSessions {ids : List Nat} (hf : f.Sound) (hs : f.session? j = some s)
    (h : j ∈ ids) : (f.closeSessions ids).isClosed j = true := by
  induction ids generalizing f s with
  | nil => cases h
  | cons id ids ih =>
    have hbecomes := f.becomes_closeSession id
    obtain ⟨s', hs', -⟩ := hbecomes.goOn j s hs
    rcases List.mem_cons.1 h with rfl | hmem
    · exact (becomes_closeSessions ids _).isClosed hs' (isClosed_closeSession hf j)
    · exact ih (hbecomes.sound hf) hs' hmem

theorem isClosed_of_seats (h : f'.seats[j]? = f.seats[j]?) : f'.isClosed j = f.isClosed j := by
  unfold isClosed session?
  rw [h]

theorem becomes_closeReleased (f : Fabric) : f.Becomes f.closeReleased :=
  .after (becomes_closeSessions _ _) rfl

/-! ## Needs and deeds -/

theorem becomes_onStream {α : Type} (f : Fabric) (ref : StreamRef)
    (g : Nat → Mux.Connection → Ready α × Mux.Connection) (signal : α → Signal) :
    f.Becomes (f.onStream ref g signal).2 := by
  unfold onStream
  exact f.becomes_onSession ref.session fun s _ => s.becomes_connection _

theorem becomes_meet (f : Fabric) (need : Need) : f.Becomes (f.meet need).2 := by
  cases need with
  | turn => exact .refl f
  | cancelled id => exact .refl f
  | stopped id => exact .refl f
  | request id => exact f.becomes_onSession id fun s _ => s.becomes_request
  | granted id request => exact f.becomes_onSession id fun s _ => s.becomes_collect request
  | queue id => exact f.becomes_onSession id fun s _ => s.becomes_queue
  | accepted id acceptor => exact f.becomes_onSession id fun s _ => s.becomes_accept acceptor
  | read ref room => exact f.becomes_onStream ref _ _
  | write ref data start => exact f.becomes_onStream ref _ _
  | finish ref => exact f.becomes_onStream ref _ _
  | pour id data start =>
    unfold meet
    dsimp only
    split <;> exact .of_seats rfl
  | draw id room =>
    unfold meet
    dsimp only
    split <;> exact .of_seats rfl
  | ended id => exact .refl f
  | moment time => exact .refl f
  | peer key => exact .of_seats rfl
  | keys => exact .refl f

theorem becomes_dropStream (f : Fabric) (ref : StreamRef) : f.Becomes (f.dropStream ref) :=
  .after (becomes_modifySession _ ref.session fun s => s.becomes_drop ref.stream) rfl

theorem becomes_nameStream (f : Fabric) (name : String) (ref : StreamRef) :
    f.Becomes (f.nameStream name ref) := by
  unfold nameStream
  dsimp only
  split
  · exact (f.becomes_dropStream _).trans (.of_seats rfl)
  · exact .of_seats rfl

theorem becomes_perform (f : Fabric) (deed : Deed) : f.Becomes (f.perform deed) := by
  cases deed with
  | drop ref => exact f.becomes_dropStream ref
  | abandon id request => exact f.becomes_modifySession id fun s => s.becomes_abandon request
  | leave id acceptor => exact f.becomes_modifySession id fun s => s.becomes_leave acceptor
  | note lines => exact .of_seats rfl
  | answer stream responder => exact .of_seats rfl
  | name name ref => exact f.becomes_nameStream name ref
  | close id => exact f.becomes_closeSession id
  | evict key id => exact .of_seats rfl
  | release id => exact .of_seats rfl
  | shut id => exact .of_seats rfl

/-! ## Moves -/

theorem becomes_meetFirst (needs : List (Nat × Need)) (f : Fabric) :
    f.Becomes (f.meetFirst needs).2 := by
  induction needs generalizing f with
  | nil => exact .refl f
  | cons need needs ih =>
    obtain ⟨place, need⟩ := need
    have hmeet := f.becomes_meet need
    unfold meetFirst
    split
    · rename_i heq
      rw [heq] at hmeet
      exact hmeet
    · rename_i heq
      rw [heq] at hmeet
      exact hmeet.trans (ih _)

theorem becomes_retire (f : Fabric) (id : Nat) (outcome : Outcome) :
    f.Becomes (f.retire id outcome) :=
  .after (becomes_closeReleased _) rfl

theorem becomes_stop (f : Fabric) (id : Nat) (outcome : Outcome) :
    f.Becomes (f.stop id outcome) := by
  unfold stop
  split
  · exact .refl f
  · exact (Becomes.foldl becomes_perform _ f).trans (becomes_retire _ _ _)

theorem becomes_settleTask (f : Fabric) (id : Nat) (task : Task) :
    f.Becomes (f.settleTask id task) := by
  unfold settleTask
  split
  · exact f.becomes_retire id _
  · exact .of_seats rfl

theorem becomes_stepTask (f : Fabric) (id : Nat) : f.Becomes (f.stepTask id).2 := by
  unfold stepTask
  split
  · exact .refl f
  · rename_i runner _
    split
    · exact f.becomes_settleTask id runner.task
    · have hmeet := f.becomes_meetFirst runner.task.needs
      split
      · rename_i heq
        rw [heq] at hmeet
        refine hmeet.trans (.trans ?_ (becomes_settleTask _ id _))
        exact .after (Becomes.foldl becomes_perform _ _) rfl
      · rename_i heq
        rw [heq] at hmeet
        split
        · exact hmeet.trans (becomes_stop _ id _)
        · exact hmeet

/-- A connection that can go on changes its session and the pipes. -/
theorem stepSession_cases (f : Fabric) (id : Nat) : (f.stepSession id).2 = f ∨
    ∃ s s' pipes, f.session? id = some s ∧
      (∃ input output input' output', s.step f.now input output = some (s', input', output')) ∧
      (f.stepSession id).2 = { (f.onSession id fun _ => ((), s')).2 with pipes } := by
  unfold stepSession
  split
  · exact .inl rfl
  · rename_i session input output hseat
    split
    · split
      · exact .inl rfl
      · rename_i s' inPipe outPipe hstep
        refine .inr ⟨session, s', (f.pipes.set! input inPipe).set! output outPipe, ?_,
          ⟨_, _, _, _, hstep⟩, ?_⟩
        · unfold session?
          rw [hseat]
          rfl
        · unfold onSession
          rw [hseat]
    · exact .inl rfl

theorem becomes_stepSession (f : Fabric) (id : Nat) : f.Becomes (f.stepSession id).2 := by
  rcases f.stepSession_cases id with heq | ⟨s, s', pipes, hs, ⟨_, _, _, _, hstep⟩, heq⟩
  · rw [heq]
    exact .refl f
  · rw [heq]
    refine (f.becomes_onSession id fun t ht => ?_).trans (.of_seats rfl)
    rw [hs] at ht
    cases ht
    exact Session.becomes_step hstep

theorem becomes_step (f : Fabric) (member : Member) : f.Becomes (f.step member).2 := by
  cases member with
  | session id => exact f.becomes_stepSession id
  | task id => exact f.becomes_stepTask id

end Switchboard.Fabric
