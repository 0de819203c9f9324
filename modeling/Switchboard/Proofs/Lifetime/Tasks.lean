import Switchboard.Proofs.Lifetime.Fabric

/-!
# What becomes of the tasks of a fabric

A task has a number of its own, stays in the fabric as it is until it goes on itself, and leaves one
outcome behind, if somebody asks for it. `Fabric.Spares who` says that something happens in which
only the task `who` goes on; each thing that is done to a fabric has a lemma that says so, and a
fabric whose numbers are in order stays in order.
-/

namespace Switchboard.Fabric

def runner? (i : Nat) (f : Fabric) : Option Runner :=
  f.runners.find? (·.id = i)

def outcomesOf (i : Nat) (f : Fabric) : List Outcome :=
  (f.outcomes.filter (·.1 = i)).map Prod.snd

/-- The numbers of tasks are in order: none is used twice, and a task that runs has no outcome. -/
structure Orderly (f : Fabric) : Prop where
  below : ∀ r ∈ f.runners, r.id < f.nextTask
  past : ∀ entry ∈ f.outcomes, entry.1 < f.nextTask ∧ f.runner? entry.1 = none

structure Spares (who : Option Nat) (f f' : Fabric) : Prop where
  next : f.nextTask ≤ f'.nextTask
  others : ∀ j < f.nextTask, some j ≠ who →
    f'.runner? j = f.runner? j ∧ f'.outcomesOf j = f.outcomesOf j
  orderly : f'.Orderly

variable {f f' f'' : Fabric} {who : Option Nat} {i j : Nat} {r : Runner} {outcome : Outcome}

theorem runner?_of_runners (h : f'.runners = f.runners) : f'.runner? j = f.runner? j := by
  unfold runner?
  rw [h]

theorem outcomesOf_of_outcomes (h : f'.outcomes = f.outcomes) :
    f'.outcomesOf j = f.outcomesOf j := by
  unfold outcomesOf
  rw [h]

theorem mem_outcomesOf : outcome ∈ f.outcomesOf i ↔ (i, outcome) ∈ f.outcomes := by
  simp [outcomesOf]

theorem Orderly.lt_next (h : f.Orderly) (hr : f.runner? i = some r) : i < f.nextTask := by
  have hid : r.id = i := by simpa using List.find?_some hr
  have := h.below r (List.mem_of_find?_eq_some hr)
  omega

theorem Orderly.no_outcome (h : f.Orderly) (hr : f.runner? i = some r) : f.outcomesOf i = [] := by
  refine List.eq_nil_iff_forall_not_mem.2 fun outcome hmem => ?_
  have hnone := (h.past _ (mem_outcomesOf.1 hmem)).2
  rw [hr] at hnone
  cases hnone

theorem Orderly.next_free (h : f.Orderly) :
    f.runner? f.nextTask = none ∧ f.outcomesOf f.nextTask = [] := by
  constructor
  · refine List.find?_eq_none.2 fun r hmem => ?_
    have := h.below r hmem
    simp only [decide_eq_true_eq]
    omega
  · refine List.eq_nil_iff_forall_not_mem.2 fun outcome hmem => ?_
    have := (h.past _ (mem_outcomesOf.1 hmem)).1
    omega

theorem orderly_empty : Orderly {} where
  below _ h := by cases h
  past _ h := by cases h

namespace Spares

theorem trans (h : f.Spares who f') (h' : f'.Spares who f'') : f.Spares who f'' where
  next := Nat.le_trans h.next h'.next
  others j hj hne := by
    obtain ⟨hrunner, houtcomes⟩ := h.others j hj hne
    obtain ⟨hrunner', houtcomes'⟩ := h'.others j (Nat.lt_of_lt_of_le hj h.next) hne
    exact ⟨hrunner'.trans hrunner, houtcomes'.trans houtcomes⟩
  orderly := h'.orderly

theorem of_same (h : f.Orderly) (hrunners : f'.runners = f.runners)
    (houtcomes : f'.outcomes = f.outcomes) (hnext : f'.nextTask = f.nextTask) :
    f.Spares who f' where
  next := Nat.le_of_eq hnext.symm
  others _ _ _ := ⟨runner?_of_runners hrunners, outcomesOf_of_outcomes houtcomes⟩
  orderly := by
    refine ⟨fun r hr => ?_, fun entry hentry => ?_⟩
    · rw [hnext]
      rw [hrunners] at hr
      exact h.below r hr
    · rw [hnext, runner?_of_runners hrunners]
      rw [houtcomes] at hentry
      exact h.past entry hentry

theorem refl (h : f.Orderly) : f.Spares who f :=
  of_same h rfl rfl rfl

theorem foldl {α : Type} {g : Fabric → α → Fabric}
    (h : ∀ f a, Orderly f → Spares who f (g f a)) (l : List α) (hf : f.Orderly) :
    f.Spares who (l.foldl g f) := by
  induction l generalizing f with
  | nil => exact refl hf
  | cons a l ih => exact (h f a hf).trans (ih (h f a hf).orderly)

end Spares

/-! ## Needs and deeds -/

/-- To meet a need changes the sessions, the pipes and the registry at most. -/
theorem meet_rest (f : Fabric) (need : Need) :
    ∃ seats pipes registry, (f.meet need).2 = { f with seats, pipes, registry } := by
  have hsession : ∀ {α : Type} (id : Nat) (g : Session → α × Session),
      ∃ seats pipes registry, (f.onSession id g).2 = { f with seats, pipes, registry } := by
    intro α id g
    obtain ⟨seats, heq⟩ := f.onSession_rest id g
    exact ⟨seats, f.pipes, f.registry, heq⟩
  have hstream : ∀ {α : Type} (ref : StreamRef)
      (g : Nat → Mux.Connection → Ready α × Mux.Connection) (signal : α → Signal),
      ∃ seats pipes registry,
        (f.onStream ref g signal).2 = { f with seats, pipes, registry } := by
    intro α ref g signal
    unfold onStream
    exact hsession ref.session _
  cases need with
  | turn | cancelled | stopped | ended | moment | keys =>
    exact ⟨f.seats, f.pipes, f.registry, rfl⟩
  | request id => exact hsession id Session.request
  | granted id request => exact hsession id (Session.collect request)
  | queue id => exact hsession id Session.queue
  | accepted id acceptor => exact hsession id (Session.accept acceptor)
  | read ref room => exact hstream ref (fun id c => c.read id room) .bytes
  | write ref data start => exact hstream ref (fun id c => c.write id data start) .taken
  | finish ref => exact hstream ref (fun id c => c.finish id) fun _ => .done
  | pour id data start =>
    unfold meet
    dsimp only
    split
    · exact ⟨f.seats, f.pipes, f.registry, rfl⟩
    · exact ⟨f.seats, _, f.registry, rfl⟩
  | draw id room =>
    unfold meet
    dsimp only
    split
    · exact ⟨f.seats, f.pipes, f.registry, rfl⟩
    · exact ⟨f.seats, _, f.registry, rfl⟩
  | peer key => exact ⟨f.seats, f.pipes, _, rfl⟩

theorem meetFirst_rest (needs : List (Nat × Need)) (f : Fabric) :
    ∃ seats pipes registry, (f.meetFirst needs).2 = { f with seats, pipes, registry } := by
  induction needs generalizing f with
  | nil => exact ⟨f.seats, f.pipes, f.registry, rfl⟩
  | cons need needs ih =>
    obtain ⟨place, need⟩ := need
    obtain ⟨seats, pipes, registry, hmeet⟩ := f.meet_rest need
    unfold meetFirst
    split
    · rename_i heq
      rw [heq] at hmeet
      exact ⟨seats, pipes, registry, hmeet⟩
    · rename_i heq
      rw [heq] at hmeet
      cases hmeet
      obtain ⟨seats', pipes', registry', hrest⟩ := ih { f with seats, pipes, registry }
      exact ⟨seats', pipes', registry', hrest⟩

theorem spares_meetFirst (h : f.Orderly) (needs : List (Nat × Need)) :
    f.Spares who (f.meetFirst needs).2 := by
  obtain ⟨seats, pipes, registry, heq⟩ := f.meetFirst_rest needs
  rw [heq]
  exact .of_same h rfl rfl rfl

theorem runner?_spawn (h : f.Orderly) (task : Task) (watched : Bool) :
    (f.spawn task watched).2.runner? f.nextTask = some { id := f.nextTask, task, watched } := by
  have hnone := h.next_free.1
  unfold runner? at hnone
  simp [spawn, runner?, List.find?_append, hnone]

theorem spares_spawn (h : f.Orderly) (task : Task) (watched : Bool) :
    f.Spares who (f.spawn task watched).2 where
  next := Nat.le_succ _
  others j hj _ := by
    refine ⟨?_, rfl⟩
    have hne : f.nextTask ≠ j := by omega
    simp [spawn, runner?, List.find?_append, hne]
  orderly := by
    refine ⟨fun r hr => ?_, fun entry hentry => ?_⟩
    · change r.id < f.nextTask + 1
      rcases List.mem_append.1 hr with hold | hnew
      · have := h.below r hold
        omega
      · rw [List.mem_singleton.1 hnew]
        exact Nat.lt_succ_self _
    · obtain ⟨hlt, hnone⟩ := h.past entry hentry
      refine ⟨Nat.lt_succ_of_lt hlt, ?_⟩
      have hne : f.nextTask ≠ entry.1 := by omega
      unfold runner? at hnone
      simp [spawn, runner?, List.find?_append, hnone, hne]

theorem spares_onSession {α : Type} (h : f.Orderly) (id : Nat) (g : Session → α × Session) :
    f.Spares who (f.onSession id g).2 := by
  obtain ⟨seats, heq⟩ := f.onSession_rest id g
  rw [heq]
  exact .of_same h rfl rfl rfl

theorem spares_closeSession (h : f.Orderly) (id : Nat) : f.Spares who (f.closeSession id) := by
  obtain ⟨seats, pipes, processes, heq⟩ := f.closeSession_rest id
  rw [heq]
  exact .of_same h rfl rfl rfl

theorem spares_closeReleased (h : f.Orderly) : f.Spares who f.closeReleased := by
  obtain ⟨seats, pipes, processes, heq⟩ := closeSessions_rest
    (f.released.filter fun id => !(f.runners.filterMap fun r => r.task.session?).contains id)
    { f with released :=
      f.released.filter (f.runners.filterMap fun r => r.task.session?).contains }
  have hrest : f.closeReleased = _ := heq
  rw [hrest]
  exact .of_same h rfl rfl rfl

theorem spares_dropStream (h : f.Orderly) (ref : StreamRef) :
    f.Spares who (f.dropStream ref) :=
  have hstreams : f.Spares who { f with streams := f.streams.filter (·.2 ≠ ref) } :=
    .of_same h rfl rfl rfl
  hstreams.trans (spares_onSession hstreams.orderly ref.session _)

theorem spares_perform (f : Fabric) (deed : Deed) (h : f.Orderly) :
    f.Spares who (f.perform deed) := by
  cases deed with
  | drop ref => exact spares_dropStream h ref
  | abandon id request => exact spares_onSession h id _
  | leave id acceptor => exact spares_onSession h id _
  | note lines => exact .of_same h rfl rfl rfl
  | answer stream responder => exact spares_spawn h _ _
  | name name ref =>
    simp only [perform, nameStream]
    split
    · rename_i old _
      have hdrop : f.Spares who (f.dropStream old) := spares_dropStream h old
      exact hdrop.trans (.of_same hdrop.orderly rfl rfl rfl)
    · exact .of_same h rfl rfl rfl
  | close id => exact spares_closeSession h id
  | evict key id => exact .of_same h rfl rfl rfl
  | release id => exact .of_same h rfl rfl rfl
  | shut id => exact .of_same h rfl rfl rfl

/-! ## Moves -/

theorem runner?_putTask (f : Fabric) (i : Nat) (task : Task) :
    (f.putTask i task).runner? j =
      if j = i then (f.runner? j).map fun r => { r with task } else f.runner? j := by
  have hsame : ((fun r : Runner => decide (r.id = j)) ∘ fun r : Runner =>
      if r.id = i then { r with task } else r) = fun r => decide (r.id = j) := by
    funext r
    simp only [Function.comp_apply]
    split <;> rfl
  simp only [putTask, runner?, List.find?_map, hsame]
  cases hfind : f.runners.find? (·.id = j) with
  | none => split <;> rfl
  | some r =>
    have hid : r.id = j := by simpa using List.find?_some hfind
    simp only [Option.map_some, hid]
    split <;> rfl

theorem spares_putTask (h : f.Orderly) (i : Nat) (task : Task) :
    f.Spares (some i) (f.putTask i task) where
  next := Nat.le_refl _
  others j _ hne := by
    refine ⟨?_, rfl⟩
    rw [runner?_putTask, if_neg fun heq => hne (congrArg some heq)]
  orderly := by
    refine ⟨fun r hr => ?_, fun entry hentry => ?_⟩
    · obtain ⟨old, hold, rfl⟩ := List.mem_map.1 hr
      have := h.below old hold
      split <;> exact this
    · obtain ⟨hlt, hnone⟩ := h.past entry hentry
      refine ⟨hlt, ?_⟩
      rw [runner?_putTask, hnone]
      split <;> rfl

/-- A task that ends is gone, and its outcome is noted if somebody asks for it. -/
theorem retire_tasks (f : Fabric) (i : Nat) (outcome : Outcome) :
    (f.retire i outcome).runners = f.runners.filter (·.id ≠ i) ∧
      (f.retire i outcome).nextTask = f.nextTask ∧
      (f.retire i outcome).outcomes =
        if f.runners.any fun r => r.id = i && r.watched then (i, outcome) :: f.outcomes
        else f.outcomes := by
  unfold retire closeReleased
  obtain ⟨seats, pipes, processes, heq⟩ := closeSessions_rest _ _
  dsimp only at heq ⊢
  rw [heq]
  exact ⟨rfl, rfl, rfl⟩

theorem runner?_retire (f : Fabric) (i : Nat) (outcome : Outcome) :
    (f.retire i outcome).runner? j = if j = i then none else f.runner? j := by
  unfold runner?
  rw [(f.retire_tasks i outcome).1, List.find?_filter]
  by_cases hj : j = i
  · subst hj
    rw [if_pos rfl]
    refine List.find?_eq_none.2 fun r _ => ?_
    simp
  · rw [if_neg hj]
    congr 1
    funext r
    by_cases hr : r.id = j
    · simp [hr, hj]
    · simp [hr]

/-- What a task was while it moved is forgotten when it ends, -/
theorem retire_putTask (f : Fabric) (i : Nat) (task : Task) (outcome : Outcome) :
    (f.putTask i task).retire i outcome = f.retire i outcome := by
  have hgone : (f.putTask i task).runners.filter (·.id ≠ i) = f.runners.filter (·.id ≠ i) := by
    change (f.runners.map _).filter _ = _
    induction f.runners with
    | nil => rfl
    | cons r runners ih => by_cases h : r.id = i <;> simp_all
  have hwatched : ((f.putTask i task).runners.any fun r => r.id = i && r.watched) =
      f.runners.any fun r => r.id = i && r.watched := by
    change (f.runners.map _).any _ = _
    rw [List.any_map]
    congr 1
    funext r
    dsimp only [Function.comp_apply]
    split <;> rfl
  unfold retire
  rw [hwatched, hgone]
  rfl

theorem putTask_putTask (f : Fabric) (i : Nat) (before task : Task) :
    (f.putTask i before).putTask i task = f.putTask i task := by
  unfold putTask
  dsimp only
  rw [List.map_map]
  congr 1
  refine List.map_congr_left fun r _ => ?_
  by_cases h : r.id = i <;> simp [h]

/-- and when it goes on. -/
theorem settleTask_putTask (f : Fabric) (i : Nat) (before task : Task) :
    (f.putTask i before).settleTask i task = f.settleTask i task := by
  have hnow : (f.putTask i before).now = f.now := rfl
  unfold settleTask
  rw [hnow]
  split
  · exact retire_putTask f i before _
  · exact putTask_putTask f i before task

/-- To let go of something of a session has nothing to do with who runs. -/
theorem perform_putTask {deed : Deed}
    (h : (∃ ref, deed = .drop ref) ∨ ∃ id request, deed = .abandon id request) (f : Fabric)
    (i : Nat) (task : Task) :
    (f.putTask i task).perform deed = (f.perform deed).putTask i task := by
  have hmodify : ∀ (f : Fabric) (id : Nat) (g : Session → Session),
      (f.putTask i task).modifySession id g = (f.modifySession id g).putTask i task := by
    intro f id g
    unfold modifySession onSession
    dsimp only [putTask]
    split <;> rfl
  rcases h with ⟨ref, rfl⟩ | ⟨id, request, rfl⟩
  · exact hmodify { f with streams := f.streams.filter (·.2 ≠ ref) } ref.session _
  · exact hmodify f id _

theorem performs_putTask {deeds : List Deed}
    (h : ∀ deed ∈ deeds, (∃ ref, deed = .drop ref) ∨ ∃ id request, deed = .abandon id request)
    (f : Fabric) (i : Nat) (task : Task) :
    deeds.foldl perform (f.putTask i task) = (deeds.foldl perform f).putTask i task := by
  induction deeds generalizing f with
  | nil => rfl
  | cons deed deeds ih =>
    rw [List.foldl_cons, perform_putTask (h deed List.mem_cons_self)]
    exact ih (fun d hd => h d (List.mem_cons_of_mem _ hd)) _

theorem outcomesOf_retire (h : f.runner? i = some r) (hwatched : r.watched = true)
    (outcome : Outcome) : (f.retire i outcome).outcomesOf i = outcome :: f.outcomesOf i := by
  have hany : (f.runners.any fun r => r.id = i && r.watched) = true := by
    refine List.any_eq_true.2 ⟨r, List.mem_of_find?_eq_some h, ?_⟩
    have hid : r.id = i := by simpa using List.find?_some h
    simp [hid, hwatched]
  unfold outcomesOf
  rw [(f.retire_tasks i outcome).2.2, if_pos hany]
  simp

theorem spares_retire (h : f.Orderly) (hi : i < f.nextTask) (outcome : Outcome) :
    f.Spares (some i) (f.retire i outcome) := by
  obtain ⟨hrunners, hnext, houtcomes⟩ := f.retire_tasks i outcome
  have hmem : ∀ entry ∈ (f.retire i outcome).outcomes, entry.1 = i ∨ entry ∈ f.outcomes := by
    intro entry hentry
    rw [houtcomes] at hentry
    split at hentry
    · rcases List.mem_cons.1 hentry with rfl | hold
      · exact .inl rfl
      · exact .inr hold
    · exact .inr hentry
  refine ⟨Nat.le_of_eq hnext.symm, fun j _ hne => ⟨?_, ?_⟩, fun r hr => ?_, fun entry hentry => ?_⟩
  · rw [runner?_retire, if_neg fun heq => hne (congrArg some heq)]
  · have hji : ¬ i = j := fun heq => hne (congrArg some heq.symm)
    unfold outcomesOf
    rw [houtcomes]
    split
    · simp [hji]
    · rfl
  · rw [hrunners] at hr
    rw [hnext]
    exact h.below r ((List.mem_filter.1 hr).1)
  · rw [hnext, runner?_retire]
    rcases hmem entry hentry with heq | hold
    · rw [heq, if_pos rfl]
      exact ⟨hi, rfl⟩
    · obtain ⟨hlt, hnone⟩ := h.past entry hold
      refine ⟨hlt, ?_⟩
      rw [hnone]
      split <;> rfl

theorem spares_settleTask (h : f.Orderly) (hi : i < f.nextTask) (task : Task) :
    f.Spares (some i) (f.settleTask i task) := by
  unfold settleTask
  split
  · exact spares_retire h hi _
  · exact spares_putTask h i task

theorem spares_stop (h : f.Orderly) (i : Nat) (outcome : Outcome) :
    f.Spares (some i) (f.stop i outcome) := by
  unfold stop
  split
  · exact .refl h
  · rename_i r hr
    have hdeeds : f.Spares (some i) (r.task.release.foldl perform f) :=
      .foldl spares_perform _ h
    exact hdeeds.trans (spares_retire hdeeds.orderly
      (Nat.lt_of_lt_of_le (h.lt_next hr) hdeeds.next) outcome)

theorem spares_stepTask (h : f.Orderly) (i : Nat) : f.Spares (some i) (f.stepTask i).2 := by
  unfold stepTask
  split
  · exact .refl h
  · rename_i r hr
    have hi := h.lt_next hr
    split
    · exact spares_settleTask h hi r.task
    · have hmeet : f.Spares (some i) (f.meetFirst r.task.needs).2 :=
        spares_meetFirst h r.task.needs
      split
      · rename_i heq
        rw [heq] at hmeet
        have hput := spares_putTask hmeet.orderly i (.errand (.done .ok))
        have hdeeds (deeds : List Deed) : Spares (some i) _ (deeds.foldl perform _) :=
          .foldl spares_perform deeds hput.orderly
        have hupTo (deeds : List Deed) := hmeet.trans (hput.trans (hdeeds deeds))
        refine (hupTo _).trans (spares_settleTask (hdeeds _).orderly ?_ _)
        exact Nat.lt_of_lt_of_le hi (hupTo _).next
      · rename_i heq
        rw [heq] at hmeet
        split
        · exact hmeet.trans (spares_stop hmeet.orderly i _)
        · exact hmeet

theorem spares_stepSession (h : f.Orderly) (id : Nat) : f.Spares who (f.stepSession id).2 := by
  rcases f.stepSession_cases id with heq | ⟨s, s', pipes, -, -, heq⟩
  · rw [heq]
    exact .refl h
  · obtain ⟨seats, hseats⟩ := f.onSession_rest id fun _ => ((), s')
    rw [heq, hseats]
    exact .of_same h rfl rfl rfl

end Switchboard.Fabric
