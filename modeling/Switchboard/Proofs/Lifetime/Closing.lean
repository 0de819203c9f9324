import Switchboard.Proofs.Calls
import Switchboard.Proofs.Lifetime.Tasks

/-!
# The closing of a session

A session may be closed here, its scope may be cancelled, its connection may fail or be ended by the
peer, and whoever holds on to it may let go, in any order and while any number of tasks open
streams, accept them and call. `Fabric.Event` is what may happen, one move of a task or connection
at a time.

`closed_for_good` says what a closed session comes to. It stays closed. Who asks for a stream or
calls from then on is refused by its first move, whatever has arrived; who was waiting is refused by
its next move, and nobody is given a stream or a reply any more. With the connection the scope ends.
And of all the times that a session is closed one tears it down.
-/

namespace Switchboard

/-- The tasks that open a stream of a session, accept one or call, and have not ended. -/
def Task.AsksOf (id : Nat) : Task → Prop
  | .errand (.openNew session _) | .errand (.opening session _ _)
  | .errand (.acceptNext session _) | .errand (.accepting session _ _) => session = id
  | .call c _ => c.session = id ∧ c.outcome? = none
  | _ => False

def Outcome.SaysClosed : Outcome → Prop
  | .fault reason => reason = .closed
  | .reply result _ => result = .error .closed
  | _ => False

theorem Task.AsksOf.not_ended {id : Nat} {task : Task} (h : task.AsksOf id) (now : Nat) :
    task.outcome? now = none := by
  match task, h with
  | .errand (.openNew ..), _ | .errand (.opening ..), _ => rfl
  | .errand (.acceptNext ..), _ | .errand (.accepting ..), _ => rfl
  | .call c since, h =>
    have hnone : c.outcome? = none := h.2
    simp only [Task.outcome?, hnone]
    rfl

namespace Fabric

inductive Event where
  /-- A session begins. -/
  | join (key peerAddr : String) (role : Role) (input output : Nat)
  /-- A session begins with a process that was started for it. -/
  | joinHelper (key peerAddr : String) (pid : Nat) (pipes : List Nat) (input output : Nat)
  /-- A task begins, and somebody will ask for its outcome. -/
  | begin (task : Task)
  /-- A connection or a task goes on. -/
  | go (member : Member)
  /-- A task is given up. -/
  | giveUp (task : Nat)
  /-- A session is closed. -/
  | close (id : Nat)
  /-- The scope of a session is cancelled. -/
  | cancel (id : Nat)
  /-- Somebody lets go of a session. -/
  | release (id : Nat)
  /-- Time passes, and the channels are as the peers have left them. -/
  | pass (millis : Nat) (pipes : Array Pipe)

def occur (f : Fabric) : Event → Fabric
  | .join key peerAddr role input output =>
    (f.addSession (.start key peerAddr role) input output).2
  | .joinHelper key peerAddr pid pipes input output =>
    let f := (f.addSession (.withChild key peerAddr pid) input output).2
    { f with processes := (pid, pipes) :: f.processes }
  | .begin task => (f.spawn task true).2
  | .go member => (f.step member).2
  | .giveUp task => f.stop task .pending
  | .close id => f.closeSession id
  | .cancel id => f.modifySession id Session.cancel
  | .release id => closeReleased { f with released := id :: f.released }
  | .pass millis pipes => { f with now := f.now + millis, pipes }

def Event.who : Event → Option Nat
  | .go (.task i) | .giveUp i => some i
  | _ => none

structure HasEnded (i : Nat) (outcome : Outcome) (f : Fabric) : Prop where
  begun : i < f.nextTask
  gone : f.runner? i = none
  noted : f.outcomesOf i = [outcome]

/-- The next move of a task is the one that ends it, and it ends with word that the session is
closed. -/
def IsRefused (i : Nat) (f : Fabric) : Prop :=
  (f.stepTask i).1 = true ∧ ∃ outcome, outcome.SaysClosed ∧ (f.stepTask i).2.HasEnded i outcome

variable {f f' : Fabric} {id i : Nat} {s : Session} {r : Runner} {task : Task}
  {outcome : Outcome}

/-! ## What events keep -/

theorem becomes_occur (f : Fabric) (event : Event) : f.Becomes (f.occur event) := by
  cases event with
  | join key peerAddr role input output =>
    exact f.becomes_addSession (Session.Sound.start key peerAddr role) input output
  | joinHelper key peerAddr pid pipes input output =>
    exact (f.becomes_addSession (Session.Sound.withChild key peerAddr pid) input output).trans
      (.of_seats rfl)
  | begin task => exact .of_seats rfl
  | go member => exact f.becomes_step member
  | giveUp i => exact f.becomes_stop i _
  | close id => exact f.becomes_closeSession id
  | cancel id => exact f.becomes_modifySession id Session.becomes_cancel
  | release id => exact .after (becomes_closeReleased _) rfl
  | pass millis pipes => exact .of_seats rfl

theorem becomes_events (f : Fabric) (events : List Event) : f.Becomes (events.foldl occur f) :=
  .foldl becomes_occur events f

theorem spares_occur (h : f.Orderly) (event : Event) : f.Spares event.who (f.occur event) := by
  cases event with
  | join key peerAddr role input output => exact .of_same h rfl rfl rfl
  | joinHelper key peerAddr pid pipes input output => exact .of_same h rfl rfl rfl
  | begin task => exact spares_spawn h task true
  | go member =>
    cases member with
    | session id => exact spares_stepSession h id
    | task i => exact spares_stepTask h i
  | giveUp i => exact spares_stop h i _
  | close id => exact spares_closeSession h id
  | cancel id => exact spares_onSession h id _
  | release id =>
    have hreleased : f.Spares none { f with released := id :: f.released } :=
      .of_same h rfl rfl rfl
    exact hreleased.trans (spares_closeReleased hreleased.orderly)
  | pass millis pipes => exact .of_same h rfl rfl rfl

theorem orderly_events (h : f.Orderly) (events : List Event) :
    (events.foldl occur f).Orderly := by
  induction events generalizing f with
  | nil => exact h
  | cons event events ih => exact ih (spares_occur h event).orderly

theorem HasEnded.occur (h : f.HasEnded i outcome) (hf : f.Orderly) (event : Event) :
    (f.occur event).HasEnded i outcome := by
  have hspares := spares_occur hf event
  have hsame : (f.occur event).runner? i = f.runner? i ∧
      (f.occur event).outcomesOf i = f.outcomesOf i := by
    by_cases hwho : some i = event.who
    · -- The task that should go on is not there, so that nothing happens.
      have hnone := h.gone
      unfold runner? at hnone
      cases event with
      | go member =>
        cases member with
        | session id => cases hwho
        | task j =>
          cases hwho
          simp only [Fabric.occur, step, stepTask, hnone, and_self]
      | giveUp j =>
        cases hwho
        simp only [Fabric.occur, stop, hnone, and_self]
      | _ => cases hwho
    · exact hspares.others i h.begun hwho
  refine ⟨Nat.lt_of_lt_of_le h.begun hspares.next, ?_, ?_⟩
  · rw [hsame.1, h.gone]
  · rw [hsame.2, h.noted]

theorem HasEnded.after (h : f.HasEnded i outcome) (hf : f.Orderly) (events : List Event) :
    (events.foldl Fabric.occur f).HasEnded i outcome := by
  induction events generalizing f with
  | nil => exact h
  | cons event events ih => exact ih (h.occur hf event) (spares_occur hf event).orderly

/-! ## Who asks something of a closed session -/

/-- The first thing that a task of a closed session waits for is there, and it is word that the
session is closed. -/
theorem meetFirst_refused (hs : f.session? id = some s) (hcancelled : s.cancelled = true)
    (h : task.AsksOf id) :
    ∃ need signal after, f.meetFirst task.needs = (some (0, need, signal), after) ∧
      ∀ now time, ∃ outcome, outcome.SaysClosed ∧
        (task.hear now 0 need signal).1.outcome? time = some outcome := by
  have hclosed := Session.isClosed_of_cancelled hcancelled
  have hfirst : ∀ {α : Type} (g : Session → α × Session),
      (f.onSession id g).1 = some (g s).1 := fun g => by
    rw [onSession_fst, hs]
    rfl
  match task, h with
  | .errand (.openNew session name), h =>
    obtain rfl : session = id := h
    refine ⟨.request session, .refused .closed, (f.onSession session Session.request).2, ?_,
      fun _ _ => ⟨.fault .closed, rfl, rfl⟩⟩
    have := hfirst Session.request
    rw [Session.request_of_closed hclosed] at this
    simp only [Task.needs, Errand.needs, List.map_cons, List.map_nil, meetFirst, meet, this,
      ticketOf]
  | .errand (.opening session request name), h =>
    obtain rfl : session = id := h
    refine ⟨.granted session request, .refused .closed,
      (f.onSession session (Session.collect request)).2, ?_, fun _ _ => ⟨.fault .closed, rfl, rfl⟩⟩
    have := hfirst (Session.collect request)
    rw [Session.collect_of_cancelled hcancelled] at this
    simp only [Task.needs, Errand.needs, List.map_cons, List.map_nil, meetFirst, meet, this,
      streamOf]
  | .errand (.acceptNext session name), h =>
    obtain rfl : session = id := h
    refine ⟨.queue session, .refused .closed, (f.onSession session Session.queue).2, ?_,
      fun _ _ => ⟨.fault .closed, rfl, rfl⟩⟩
    have := hfirst Session.queue
    rw [Session.queue_of_closed hclosed] at this
    simp only [Task.needs, Errand.needs, List.map_cons, List.map_nil, meetFirst, meet, this,
      ticketOf]
  | .errand (.accepting session acceptor name), h =>
    obtain rfl : session = id := h
    refine ⟨.accepted session acceptor, .refused .closed,
      (f.onSession session (Session.accept acceptor)).2, ?_, fun _ _ => ⟨.fault .closed, rfl, rfl⟩⟩
    have := hfirst (Session.accept acceptor)
    rw [Session.accept_of_cancelled hcancelled] at this
    simp only [Task.needs, Errand.needs, List.map_cons, List.map_nil, meetFirst, meet, this,
      streamOf]
  | .call call since, h =>
    obtain ⟨rfl, hdone⟩ : call.session = id ∧ call.outcome? = none := h
    refine ⟨.cancelled call.session, .done, f, ?_,
      fun _ time => ⟨.reply (.error .closed) (time - since), rfl, rfl⟩⟩
    simp only [Task.needs, call.needs_of_pending hdone, List.map_cons, meetFirst, meet, signalIf,
      hs, Option.all_some, hcancelled, if_true]

/-- Who asks something of a closed session is refused by its next move. -/
theorem isRefused (hf : f.Orderly) (hr : f.runner? i = some r) (hwatched : r.watched = true)
    (hs : f.session? id = some s) (hcancelled : s.cancelled = true) (h : r.task.AsksOf id) :
    f.IsRefused i := by
  obtain ⟨need, signal, after, hmeet, hends⟩ := meetFirst_refused hs hcancelled h
  have hspares : f.Spares none (f.meetFirst r.task.needs).2 := spares_meetFirst hf r.task.needs
  rw [hmeet] at hspares
  have hput := spares_putTask hspares.orderly i (.errand (.done .ok))
  let deeds := (r.task.hear (after.putTask i (.errand (.done .ok))).now 0 need signal).2
  have hdeeds : Spares none _ (deeds.foldl perform (after.putTask i (.errand (.done .ok)))) :=
    .foldl spares_perform deeds hput.orderly
  have hi := hf.lt_next hr
  have hbegun := Nat.lt_of_lt_of_le hi (Nat.le_trans hspares.next hput.next)
  -- Up to the end of the move the task is there, and has no outcome.
  have hrunner : (deeds.foldl perform (after.putTask i (.errand (.done .ok)))).runner? i =
      some { r with task := .errand (.done .ok) } := by
    rw [(hdeeds.others i hbegun (by simp)).1, runner?_putTask, if_pos rfl,
      (hspares.others i hi (by simp)).1, hr]
    rfl
  obtain ⟨outcome, hsays, houtcome⟩ := hends (after.putTask i (.errand (.done .ok))).now
    (deeds.foldl perform (after.putTask i (.errand (.done .ok)))).now
  have hstep : f.stepTask i = (true, (deeds.foldl perform
      (after.putTask i (.errand (.done .ok)))).retire i outcome) := by
    have hfind : f.runners.find? (·.id = i) = some r := hr
    have hrunning : r.task.outcome? f.now = none := h.not_ended f.now
    simp only [stepTask, hfind, hrunning, Option.isSome_none, Bool.false_eq_true, if_false,
      hmeet, settleTask]
    rw [houtcome]
  rw [IsRefused, hstep]
  refine ⟨rfl, outcome, hsays, ?_, ?_, ?_⟩
  · rw [(retire_tasks _ i outcome).2.1]
    exact Nat.lt_of_lt_of_le hbegun hdeeds.next
  · rw [runner?_retire, if_pos rfl]
  · rw [outcomesOf_retire hrunner hwatched, hdeeds.orderly.no_outcome hrunner]

theorem hasEnded_giveUp (hf : f.Orderly) (hr : f.runner? i = some r) (hwatched : r.watched = true) :
    (f.occur (.giveUp i)).HasEnded i .pending := by
  have hdeeds : f.Spares none (r.task.release.foldl perform f) := .foldl spares_perform _ hf
  have hi := hf.lt_next hr
  have hrunner : (r.task.release.foldl perform f).runner? i = some r :=
    (hdeeds.others i hi (by simp)).1.trans hr
  have hstop : f.occur (.giveUp i) = (r.task.release.foldl perform f).retire i .pending := by
    have hfind : f.runners.find? (·.id = i) = some r := hr
    simp only [occur, stop, hfind]
  rw [hstop]
  refine ⟨?_, ?_, ?_⟩
  · rw [(retire_tasks _ i .pending).2.1]
    exact Nat.lt_of_lt_of_le hi hdeeds.next
  · rw [runner?_retire, if_pos rfl]
  · rw [outcomesOf_retire hrunner hwatched, hdeeds.orderly.no_outcome hrunner]

/-- Who waits for something of a closed session waits until it goes on or is given up, and is
refused if it goes on. -/
theorem waits_or_ends (hf : f.Orderly) (hsound : f.Sound) (hs : f.session? id = some s)
    (hcancelled : s.cancelled = true) (hr : f.runner? i = some r) (hwatched : r.watched = true)
    (h : r.task.AsksOf id) (events : List Event) :
    (events.foldl occur f).runner? i = some r ∨
      ∃ outcome, (events.foldl occur f).HasEnded i outcome ∧
        (outcome.SaysClosed ∨ outcome = .pending ∧ .giveUp i ∈ events) := by
  induction events generalizing f s with
  | nil => exact .inl hr
  | cons event events ih =>
    have hspares := spares_occur hf event
    by_cases hwho : some i = event.who
    · have hended : ∃ outcome, (f.occur event).HasEnded i outcome ∧
          (outcome.SaysClosed ∨ outcome = .pending ∧ .giveUp i ∈ event :: events) := by
        cases event with
        | go member =>
          cases member with
          | session id => cases hwho
          | task j =>
            cases hwho
            obtain ⟨-, outcome, hsays, hended⟩ := isRefused hf hr hwatched hs hcancelled h
            exact ⟨outcome, hended, .inl hsays⟩
        | giveUp j =>
          cases hwho
          exact ⟨.pending, hasEnded_giveUp hf hr hwatched, .inr ⟨rfl, List.mem_cons_self ..⟩⟩
        | _ => cases hwho
      obtain ⟨outcome, hended, hsays⟩ := hended
      exact .inr ⟨outcome, hended.after hspares.orderly events, hsays⟩
    · obtain ⟨s', hs', hbecomes⟩ := (f.becomes_occur event).goOn id s hs
      have hrunner := (hspares.others i (hf.lt_next hr) hwho).1.trans hr
      refine (ih hspares.orderly ((f.becomes_occur event).sound hsound) hs'
        (hbecomes.cancelled hcancelled) hrunner).imp_right ?_
      rintro ⟨outcome, hended, hsays⟩
      exact ⟨outcome, hended, hsays.imp_right fun ⟨heq, hmem⟩ => ⟨heq, List.mem_cons_of_mem _ hmem⟩⟩

/-! ## The teardown -/

def isTornDown (id : Nat) (f : Fabric) : Bool :=
  (f.session? id).any (·.closing)

def teardowns (id : Nat) (f : Fabric) : List Event → Nat
  | [] => 0
  | event :: events =>
    (if (f.occur event).isTornDown id && !f.isTornDown id then 1 else 0) +
      (f.occur event).teardowns id events

theorem teardowns_add (hs : f.session? id = some s) (events : List Event) :
    f.teardowns id events + (f.isTornDown id).toNat =
      ((events.foldl occur f).isTornDown id).toNat := by
  induction events generalizing f s with
  | nil => exact Nat.zero_add _
  | cons event events ih =>
    obtain ⟨s', hs', hbecomes⟩ := (f.becomes_occur event).goOn id s hs
    have hrest := ih hs'
    have hbefore : f.isTornDown id = s.closing := by simp [isTornDown, hs]
    have hafter : (f.occur event).isTornDown id = s'.closing := by simp [isTornDown, hs']
    simp only [teardowns, List.foldl_cons] at hrest ⊢
    rw [← hrest, hbefore, hafter]
    have hclosing := hbecomes.closing
    cases hc : s.closing <;> cases hc' : s'.closing
    · simp
    · simp; omega
    · rw [hc, hc'] at hclosing
      cases hclosing rfl
    · simp

/-- To close a session that was torn down changes nothing at all. -/
theorem closeSession_of_closing (hs : f.session? id = some s) (h : s.closing = true) :
    f.closeSession id = f := by
  obtain ⟨seat, hseat, rfl⟩ := Option.map_eq_some_iff.1 hs
  have hseats : f.seats.set! id seat = f.seats := by
    apply Array.ext_getElem?
    intro j
    rw [Array.set!_eq_setIfInBounds, Array.getElem?_setIfInBounds]
    split
    · rename_i heq
      subst heq
      rw [if_pos (Array.getElem?_eq_some_iff.1 hseat).1, hseat]
    · rfl
  have hon : f.onSession id Session.close = (some none, f) := by
    unfold onSession
    rw [hseat]
    simp only [Session.close_of_closing h, hseats]
  unfold closeSession
  rw [hon]

/-- The first time, its scope is cancelled and its process is ended. -/
theorem closeSession_of_open (hs : f.session? id = some s) (h : s.closing = false) :
    (f.closeSession id).session? id =
        some { s.cancel with closing := true, child? := none } ∧
      ∀ pid, s.child? = some pid → (f.closeSession id).processes.lookup pid = none := by
  constructor
  · rw [session?_closeSession, if_pos rfl, hs, Option.map_some, Session.close_of_open h]
  · intro pid hpid
    rw [closeSession_eq, hs, Option.bind_some, Session.close_of_open h, hpid]
    obtain ⟨pipes, hkill⟩ := kill_rest (f.onSession id Session.close).2 pid
    dsimp only
    rw [hkill, List.lookup_eq_none_iff]
    intro process hmem
    have hne := (List.mem_filter.1 hmem).2
    simp only [decide_eq_true_eq, bne_iff_ne, ne_eq] at hne ⊢
    exact fun heq => hne heq.symm

/-! ## All of it -/

/-- What a session that is as it is now comes to in some events. -/
structure ClosesForGood (id : Nat) (s : Session) (f : Fabric) (events : List Event) : Prop where
  /-- With the connection the scope ends. -/
  scope : s.stopped = true → s.cancelled = true
  /-- Once it is closed it stays closed. -/
  stays : s.isClosed = true → (events.foldl occur f).isClosed id = true
  /-- Who asks for a stream or calls from then on is refused by its first move. -/
  refuses : s.isClosed = true → ∀ task : Task, task.AsksOf id →
    ((events.foldl occur f).occur (.begin task)).IsRefused (events.foldl occur f).nextTask
  /-- Who was waiting when it closed is refused by its next move, and ends in no other way, unless
  it is given up. -/
  unblocks : s.isClosed = true → ∀ (i : Nat) (r : Runner), f.runner? i = some r →
    r.watched = true → r.task.AsksOf id →
    (events.foldl occur f).runner? i = some r ∧ (events.foldl occur f).IsRefused i ∨
      ∃ outcome, (events.foldl occur f).HasEnded i outcome ∧
        (outcome.SaysClosed ∨ outcome = .pending ∧ .giveUp i ∈ events)
  /-- To close it tears it down: its scope is cancelled and its process is ended. -/
  tearsDown : s.closing = false → (f.closeSession id).session? id =
      some { s.cancel with closing := true, child? := none } ∧
    ∀ pid, s.child? = some pid → (f.closeSession id).processes.lookup pid = none
  /-- To close it again does nothing. -/
  idle : s.closing = true → s.cancelled = true ∧ s.child? = none ∧ f.closeSession id = f
  /-- So it is torn down once in all. -/
  once : f.teardowns id events + (f.isTornDown id).toNat =
    ((events.foldl occur f).isTornDown id).toNat

/-- **A session closes for good**, whatever happened before and whatever happens then. -/
theorem closed_for_good (before after : List Event) (id : Nat) (s : Session)
    (hs : (before.foldl occur {}).session? id = some s) :
    ClosesForGood id s (before.foldl occur {}) after := by
  have hstart : Sound {} := fun _ _ h => by cases h
  have hsound := (becomes_events {} before).sound hstart
  have horderly := orderly_events orderly_empty before
  generalize before.foldl occur {} = f at hs hsound horderly ⊢
  have hbecomes := f.becomes_events after
  obtain ⟨s', hs', hlater⟩ := hbecomes.goOn id s hs
  have horderly' := orderly_events horderly after
  have hcancelled : s.isClosed = true → s'.cancelled = true := fun hclosed =>
    hlater.cancelled ((hsound id s hs).cancelled hclosed)
  refine ⟨(hsound id s hs).scope, fun hclosed => ?_, fun hclosed task htask => ?_,
    fun hclosed i r hr hwatched htask => ?_, closeSession_of_open hs, fun hclosing => ?_,
    teardowns_add hs after⟩
  · rw [isClosed_of_session hs']
    exact hlater.isClosed hclosed
  · have hspares := spares_occur horderly' (.begin task)
    exact isRefused hspares.orderly (runner?_spawn horderly' task true) rfl hs'
      (hcancelled hclosed) htask
  · have hnow := (hsound id s hs).cancelled hclosed
    refine (waits_or_ends horderly hsound hs hnow hr hwatched htask after).imp_left fun hr' => ?_
    exact ⟨hr', isRefused horderly' hr' hwatched hs' (hcancelled hclosed) htask⟩
  · obtain ⟨hscope, hchild⟩ := (hsound id s hs).tornDown hclosing
    exact ⟨hscope, hchild, closeSession_of_closing hs hclosing⟩

/-- A session over two channels on which somebody waits for a stream and somebody else calls, until
the peer ends the channels. -/
def cutOff : List Event :=
  [.pass 0 #[{ capacity := 64 }, { capacity := 64 }], .join "nas01" "mem" .server 0 1,
    .begin (.errand (.acceptNext 0 "in")), .go (.task 0),
    .begin (.call (.start 0 ⟨"echo", ⟨#[1]⟩⟩ (.ofSecs 5) 0) 0), .go (.task 1), .go (.session 0),
    .go (.session 0), .go (.task 1),
    .pass 1 #[{ capacity := 64, closed := true }, { capacity := 64, closed := true }],
    .go (.session 0), .go (.session 0), .go (.session 0), .go (.session 0)]

/-- Both tasks go on, and the session is closed twice. -/
def aftermath : List Event :=
  [.go (.task 0), .go (.task 1), .close 0, .close 0]

/-- Whoever waited is refused, and the session is torn down by the first of two closings. -/
theorem closed_for_good_cut_off :
    ∃ s, (cutOff.foldl occur {}).session? 0 = some s ∧ s.isClosed = true ∧ s.closing = false ∧
      ClosesForGood 0 s (cutOff.foldl occur {}) aftermath ∧
      ((cutOff.foldl occur {}).runners.map fun r => (r.id, r.watched)) = [(0, true), (1, true)] ∧
      (cutOff.foldl occur {}).teardowns 0 aftermath = 1 := by
  have hsession : ((cutOff.foldl occur {}).session? 0).map (fun s => (s.isClosed, s.closing)) =
      some (true, false) := by decide +kernel
  obtain ⟨s, hs, heq⟩ := Option.map_eq_some_iff.1 hsession
  obtain ⟨hclosed, hopen⟩ := Prod.mk.inj heq
  exact ⟨s, hs, hclosed, hopen, closed_for_good cutOff aftermath 0 s hs, by decide +kernel,
    by decide +kernel⟩

end Fabric

end Switchboard
