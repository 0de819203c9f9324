import Mathlib.Data.List.Perm.Basic
import Switchboard.Proofs.Transport.Passage

/-!
# The life of a transport

Whatever is done with a transport, of any kind and in any order: to close it or to shut it down
shuts its channel down, once at most; from then on it stays closed, writes fail, and reads do not
mind. A deadline binds every read, and every write while the transport is not closed, until it is
set anew, except on pipes, which have none. What fails passes nothing, so that what was read is what
the far end wrote first: `Passage.lifecycle`.

When the deadline comes, whoever waits to read or write is to fail as well, and for that it has to
be woken. The timer remembers one task, so nobody else may look at the deadline meanwhile: this is
so if operations are made one after the other, or by one task (`Passage.inTurn`,
`Passage.inTurn_of_isBy`). Of two tasks that wait at once the one that looked first sleeps on.
-/

namespace Switchboard

namespace Passage

variable {kind : TransportKind} {s s' : Passage} {task : Waker} {op : Operation} {reply : Reply}
  {ready : Ready Passed} {transport : Transport} {medium : Medium} {moves : List Move} {move : Move}

/-! ## What every operation keeps -/

namespace Effect

theorem kind_eq (h : s.Effect task op ready transport medium) :
    transport.kind = s.transport.kind := by
  cases h <;> rfl

theorem deadline_eq (h : s.Effect task op ready transport medium) :
    transport.deadline = s.transport.deadline := by
  cases h with
  | idle => rfl
  | tried => exact Transport.deadline_watchedBy
  | read => exact Transport.deadline_watchedBy
  | wrote => exact Transport.deadline_watchedBy
  | begins => rfl
  | shut => rfl

/-- Who reads or writes before the deadline is the one that it is to wake. Nothing else changes
that, and nothing else that reads or writes has to wait. -/
theorem looks (h : s.Effect task op ready transport medium) :
    (transport.timer = s.transport.timer ∧ (op.isTransfer = true → ready.isReady = true)) ∨
      (op.isTransfer = true ∧ s.Timely ∧ transport = s.transport.watchedBy task) := by
  cases h with
  | idle bytes granted begun transfer => exact .inl ⟨rfl, transfer⟩
  | tried bytes transfer timely => exact .inr ⟨transfer, timely, rfl⟩
  | read read timely => exact .inr ⟨by rw [read]; rfl, timely, rfl⟩
  | wrote write possible timely => exact .inr ⟨by rw [write]; rfl, timely, rfl⟩
  | begins close => exact .inl ⟨rfl, fun htransfer => by rw [close] at htransfer; cases htransfer⟩
  | shut bytes done => exact .inl ⟨rfl, fun _ => done⟩

theorem closed (h : s.Effect task op ready transport medium) (hclosed : s.transport.closed = true) :
    transport.closed = true := by
  cases h with
  | idle => exact hclosed
  | tried => exact hclosed
  | read => exact hclosed
  | wrote => exact hclosed
  | begins => rfl
  | shut => rfl

/-- Who has closed a transport, or shut it down, finds it closed. -/
theorem closed_of_done (h : s.Effect task op ready transport medium) (hcloses : op.closes = true)
    (hready : ready.isReady = true) : transport.closed = true := by
  cases h with
  | idle bytes granted begun => exact granted hcloses hready
  | tried bytes transfer =>
    cases op with
    | read => cases hcloses
    | write => cases hcloses
    | _ => cases transfer
  | read read => rw [read] at hcloses; cases hcloses
  | wrote write => rw [write] at hcloses; cases hcloses
  | begins => rfl
  | shut => rfl

/-- The bytes that were read go on where those read before have ended. -/
theorem delivered (h : s.Effect task op ready transport medium)
    (htaken : s.medium.taken ≤ s.medium.fed.size)
    (hdelivered : s.delivered = s.medium.fed.extract 0 s.medium.taken) :
    medium.taken ≤ medium.fed.size ∧
      s.delivered ++ ready.bytes = medium.fed.extract 0 medium.taken := by
  cases h with
  | idle bytes => rw [bytes, ByteArray.append_empty]; exact ⟨htaken, hdelivered⟩
  | tried bytes => rw [bytes, ByteArray.append_empty]; exact ⟨htaken, hdelivered⟩
  | @read room n read timely few =>
    refine ⟨by simp only; omega, ?_⟩
    rw [hdelivered]
    exact Bytes.extract_append_next (Nat.le_add_right ..)
  | wrote => exact ⟨htaken, ByteArray.append_empty.trans hdelivered⟩
  | begins => exact ⟨htaken, ByteArray.append_empty.trans hdelivered⟩
  | shut bytes => rw [bytes, ByteArray.append_empty]; exact ⟨htaken, hdelivered⟩

end Effect

/-! ## The invariant -/

def closings (s : Passage) : Nat :=
  s.waiting.countP (·.op.isClosing)

/-- What holds of a transport of a kind, whatever is done with it. -/
structure Sound (kind : TransportKind) (s : Passage) : Prop where
  kind_eq : s.transport.kind = kind
  pipe : kind = .pipe → s.transport.deadline = none
  /-- A transport that is closed has its channel shut down once, or is about to. -/
  shut : s.medium.shutdowns + s.closings ≤ s.transport.closed.toNat
  concluded : s.concluded = true → s.transport.closed = true
  taken : s.medium.taken ≤ s.medium.fed.size
  delivered : s.delivered = s.medium.fed.extract 0 s.medium.taken

theorem Sound.start (kind : TransportKind) (peerAddr : String) :
    (start kind peerAddr).Sound kind where
  kind_eq := rfl
  pipe _ := rfl
  shut := Nat.le_refl _
  concluded h := by cases h
  taken := Nat.le_refl _
  delivered := rfl

/-- An operation that is done leaves those that wait as they are. -/
theorem waiting_of_ready (hready : (s.outcome task op reply).1.isReady = true) :
    (s.attempt task op reply).2.waiting = s.waiting := by
  simp only [attempt, hready, if_true]

theorem waiting_of_later (hlater : (s.outcome task op reply).1.isReady = false) :
    (s.attempt task op reply).2.waiting = s.waiting ++ [{ task, op := op.goesOn }] := by
  simp only [attempt, hlater, Bool.false_eq_true, if_false]

/-- An operation that is tried goes on closing at most, if it closes at all. -/
theorem closings_attempt_le (s : Passage) (task : Waker) (op : Operation) (reply : Reply) :
    (s.attempt task op reply).2.closings ≤ s.closings + 1 := by
  cases hready : (s.outcome task op reply).1.isReady with
  | true =>
    rw [closings, waiting_of_ready hready]
    exact Nat.le_succ _
  | false =>
    rw [closings, waiting_of_later hready, List.countP_append]
    exact Nat.add_le_add_left (List.countP_le_length ..) _

theorem closings_attempt_eq
    (h : (s.outcome task op reply).1.isReady = true ∨ op.goesOn.isClosing = false) :
    (s.attempt task op reply).2.closings = s.closings := by
  cases hready : (s.outcome task op reply).1.isReady with
  | true => rw [closings, waiting_of_ready hready, closings]
  | false =>
    rw [hready] at h
    rw [closings, waiting_of_later hready, List.countP_append, closings]
    simpa using h

theorem goesOn_not_closing (hclose : op ≠ .close) (hclosing : op ≠ .closing) :
    op.goesOn.isClosing = false := by
  cases op with
  | close => exact absurd rfl hclose
  | closing => exact absurd rfl hclosing
  | _ => rfl

theorem goesOn_of_transfer (htransfer : op.isTransfer = true) : op.goesOn.isClosing = false := by
  cases op with
  | read => rfl
  | write => rfl
  | _ => cases htransfer

/-- The channel is shut down once: by an operation that finds the transport open, or by the one that
goes on closing it. -/
theorem Effect.shut_once (h : s.Effect task op ready transport medium)
    (hready : (s.outcome task op reply).1 = ready)
    (hshut : s.medium.shutdowns + s.closings ≤ s.transport.closed.toNat)
    (hclosing : op = .closing → s.medium.shutdowns + s.closings < s.transport.closed.toNat) :
    medium.shutdowns + (s.attempt task op reply).2.closings ≤ transport.closed.toNat := by
  have hmost := Bool.toNat_le s.transport.closed
  have hone : (true).toNat = 1 := rfl
  have hnone : (false).toNat = 0 := rfl
  have hdone : ready.isReady = true → (s.attempt task op reply).2.closings = s.closings := by
    intro hd
    exact closings_attempt_eq (.inl (by rw [hready]; exact hd))
  cases h with
  | idle bytes granted begun =>
    by_cases hop : op = .closing
    · have hle := s.closings_attempt_le task op reply
      have hlt := hclosing hop
      omega
    · have hsame : (s.attempt task op reply).2.closings = s.closings := by
        by_cases hclose : op = .close
        · exact hdone (begun hclose)
        · exact closings_attempt_eq (.inr (goesOn_not_closing hclose hop))
      omega
  | tried bytes transfer =>
    have hsame : (s.attempt task op reply).2.closings = s.closings :=
      closings_attempt_eq (.inr (goesOn_of_transfer transfer))
    rw [hsame]
    exact hshut
  | read =>
    rw [hdone rfl]
    exact hshut
  | wrote =>
    rw [hdone rfl]
    exact hshut
  | begins close possible =>
    have hle := s.closings_attempt_le task op reply
    rw [possible] at hshut
    simp only
    omega
  | shut bytes done closes possible =>
    rw [hdone done]
    simp only
    rcases possible with hop | hopen
    · have hlt := hclosing hop
      omega
    · rw [hopen] at hshut
      omega

theorem closed_of_lt
    (hclosing : op = .closing → s.medium.shutdowns + s.closings < s.transport.closed.toNat) :
    op = .closing → s.transport.closed = true := by
  intro hop
  have hlt := hclosing hop
  cases hc : s.transport.closed with
  | true => rfl
  | false => rw [hc] at hlt; exact absurd hlt (Nat.not_lt_zero _)

/-- To try an operation keeps what holds of a transport. One that goes on closing is taken from
those that wait. -/
theorem Sound.attempt (h : s.Sound kind)
    (hclosing : op = .closing → s.medium.shutdowns + s.closings < s.transport.closed.toNat)
    (reply : Reply) : (s.attempt task op reply).2.Sound kind := by
  have heffect := effect_outcome task (closed_of_lt hclosing) reply
  obtain ⟨htaken, hdelivered⟩ := heffect.delivered h.taken h.delivered
  have hdeadline := heffect.deadline_eq
  refine ⟨heffect.kind_eq.trans h.kind_eq, fun hkind => hdeadline.trans (h.pipe hkind),
    heffect.shut_once rfl h.shut hclosing, fun hconcluded => ?_, htaken, hdelivered⟩
  simp only [Passage.attempt, Bool.or_eq_true, Bool.and_eq_true] at hconcluded
  rcases hconcluded with hbefore | ⟨hcloses, hready⟩
  · exact heffect.closed (h.concluded hbefore)
  · exact heffect.closed_of_done hcloses hready

/-- Who waits no longer leaves the others as they are, and one closing less if it was one. -/
theorem Sound.withdraw (h : s.Sound kind) {place : Nat} {waiter : Waiter}
    (hplace : s.waiting[place]? = some waiter) :
    (s.withdraw place).Sound kind ∧
      (s.withdraw place).closings + waiter.op.isClosing.toNat = s.closings := by
  obtain ⟨hlt, rfl⟩ := List.getElem?_eq_some_iff.1 hplace
  have hcount :
      (s.withdraw place).closings + s.waiting[place].op.isClosing.toNat = s.closings := by
    have hperm := (List.getElem_cons_eraseIdx_perm hlt).countP_eq (·.op.isClosing)
    rw [List.countP_cons] at hperm
    cases hclosing : s.waiting[place].op.isClosing <;> simp only [hclosing] at hperm <;>
      exact hperm
  refine ⟨⟨h.kind_eq, h.pipe, ?_, h.concluded, h.taken, h.delivered⟩, hcount⟩
  have := h.shut
  change s.medium.shutdowns + _ ≤ s.transport.closed.toNat
  omega

/-- A close that is tried again finds its channel still to be shut down. -/
theorem Sound.lt_of_again (h : s.Sound kind) {place : Nat} {waiter : Waiter}
    (hplace : s.waiting[place]? = some waiter) (hop : waiter.op = .closing) :
    s.medium.shutdowns + (s.withdraw place).closings < s.transport.closed.toNat := by
  obtain ⟨-, hcount⟩ := h.withdraw hplace
  have hone : waiter.op.isClosing.toNat = 1 := by rw [hop]; rfl
  have := h.shut
  omega

/-- Time leaves everything as it is, but that somebody may be woken. -/
theorem Sound.elapse (h : s.Sound kind) (ms : Nat) : (s.elapse ms).Sound kind := by
  have hclosings : (s.elapse ms).closings = s.closings := List.countP_map
  refine ⟨Transport.kind_fire.trans h.kind_eq, fun hkind =>
    Transport.deadline_fire.trans (h.pipe hkind), ?_, fun hconcluded =>
    Transport.closed_fire.trans (h.concluded hconcluded), h.taken, h.delivered⟩
  have hclosed : (s.elapse ms).transport.closed = s.transport.closed := Transport.closed_fire
  rw [hclosings, hclosed]
  exact h.shut

/-- **Every move keeps what holds of a transport**: none opens it again, and none but that to set
the deadline changes the deadline. -/
theorem Sound.step (h : s.Sound kind) (hstep : s.step move = some s') :
    s'.Sound kind ∧ (s.transport.closed = true → s'.transport.closed = true) ∧
      (move.setsDeadline = false → s'.transport.deadline = s.transport.deadline) := by
  cases move with
  | begin task op reply =>
    simp only [Passage.step] at hstep
    split at hstep
    · cases hstep
    · rename_i hfresh
      cases hstep
      have hclosing : op ≠ .closing := fun hop => hfresh (by rw [hop]; rfl)
      have heffect := s.effect_outcome task (fun hop => absurd hop hclosing) reply
      exact ⟨h.attempt (fun hop => absurd hop hclosing) reply, heffect.closed,
        fun _ => heffect.deadline_eq⟩
  | again place task reply =>
    simp only [Passage.step] at hstep
    obtain ⟨waiter, hplace, rfl⟩ := Option.map_eq_some_iff.1 hstep
    have hclosing := h.lt_of_again hplace
    have heffect := (s.withdraw place).effect_outcome task (closed_of_lt hclosing) reply
    exact ⟨(h.withdraw hplace).1.attempt hclosing reply, heffect.closed,
      fun _ => heffect.deadline_eq⟩
  | abandon place =>
    simp only [Passage.step] at hstep
    split at hstep
    · rename_i hlt
      cases hstep
      exact ⟨(h.withdraw (List.getElem?_eq_getElem hlt)).1, id, fun _ => rfl⟩
    · cases hstep
  | setDeadline deadline =>
    simp only [Passage.step] at hstep
    split at hstep
    · cases hstep
      refine ⟨?_, fun hclosed => ?_, fun hmove => by cases hmove⟩
      · unfold Transport.setDeadline
        split
        · exact h
        · rename_i hkind
          exact ⟨h.kind_eq, fun hpipe => absurd (h.kind_eq.trans hpipe) hkind, h.shut, h.concluded,
            h.taken, h.delivered⟩
      · unfold Transport.setDeadline
        split <;> exact hclosed
    · cases hstep
  | elapse ms =>
    cases hstep
    exact ⟨h.elapse ms, Transport.closed_fire.trans, fun _ => Transport.deadline_fire⟩
  | feed data =>
    cases hstep
    refine ⟨⟨h.kind_eq, h.pipe, h.shut, h.concluded, ?_, ?_⟩, id, fun _ => rfl⟩
    · rw [ByteArray.size_append]
      exact Nat.le_trans h.taken (Nat.le_add_right ..)
    · rw [Bytes.extract_append_left h.taken]
      exact h.delivered

def isFreeFor (s : Passage) (task : Waker) : Bool :=
  s.waiting.all fun waiter => !waiter.op.isTransfer || waiter.task = task

/-- Whether a read or write is tried while no other task waits for one. -/
def Move.inTurn (s : Passage) : Move → Bool
  | begin task op _ => !op.isTransfer || s.isFreeFor task
  | again place task _ =>
    (s.waiting[place]?.all fun waiter => !waiter.op.isTransfer) ||
      (s.withdraw place).isFreeFor task
  | _ => true

/-- Whether the reads and writes of a run are made in turn. They are if each operation takes the
transport for itself until it is done or given up, and if all of them belong to one task. -/
def inTurn (s : Passage) : List Move → Bool
  | [] => true
  | move :: moves => move.inTurn s && (s.step move).all (·.inTurn moves)

/-- Whether a move is made by a task, or by none. -/
def Move.isBy (task : Waker) : Move → Bool
  | begin other _ _ | again _ other _ => other = task
  | _ => true

/-- Whoever waits to read or write will be, or has been, woken at the deadline. -/
structure Roused (s : Passage) : Prop where
  /-- Until the deadline comes, it is to wake the task that waits. -/
  watched : ∀ waiter ∈ s.waiting, waiter.op.isTransfer = true → ∀ timer,
    s.transport.timer = some timer → s.now < timer.due → timer.waker = some waiter.task
  /-- From then on the task has been woken. -/
  woken : ∀ waiter ∈ s.waiting, waiter.op.isTransfer = true → ∀ deadline,
    s.transport.deadline = some deadline → deadline ≤ s.now → waiter.woken = true

theorem isFreeFor_iff : s.isFreeFor task = true ↔
    ∀ waiter ∈ s.waiting, waiter.op.isTransfer = true → waiter.task = task := by
  simp only [isFreeFor, List.all_eq_true, Bool.or_eq_true, Bool.not_eq_true', decide_eq_true_eq]
  refine forall₂_congr fun waiter _ => ?_
  cases waiter.op.isTransfer <;> simp

theorem isTransfer_goesOn (op : Operation) : op.goesOn.isTransfer = op.isTransfer := by
  cases op <;> rfl

/-- Who waits after an attempt has waited before, or is the one that tried. -/
theorem mem_waiting_attempt {waiter : Waiter}
    (h : waiter ∈ (s.attempt task op reply).2.waiting) :
    waiter ∈ s.waiting ∨
      (s.outcome task op reply).1.isReady = false ∧ waiter = { task, op := op.goesOn } := by
  cases hready : (s.outcome task op reply).1.isReady with
  | true => exact .inl (waiting_of_ready hready ▸ h)
  | false =>
    rw [waiting_of_later hready, List.mem_append, List.mem_singleton] at h
    exact h.imp_right fun hlast => ⟨rfl, hlast⟩

/-- What one task does leaves nobody waiting but that task. -/
theorem waiting_of_isBy (hby : move.isBy task = true)
    (hwaiting : ∀ waiter ∈ s.waiting, waiter.task = task) (hstep : s.step move = some s') :
    ∀ waiter ∈ s'.waiting, waiter.task = task := by
  have hattempt : ∀ (t : Passage) op reply, (∀ waiter ∈ t.waiting, waiter.task = task) →
      ∀ waiter ∈ (t.attempt task op reply).2.waiting, waiter.task = task := by
    intro t op reply ht waiter hwaiter
    rcases mem_waiting_attempt hwaiter with hold | ⟨-, rfl⟩
    · exact ht waiter hold
    · rfl
  have hwithdraw (place : Nat) : ∀ waiter ∈ (s.withdraw place).waiting, waiter.task = task :=
    fun waiter hwaiter => hwaiting waiter (List.mem_of_mem_eraseIdx hwaiter)
  cases move with
  | begin other op reply =>
    cases of_decide_eq_true hby
    simp only [Passage.step] at hstep
    split at hstep
    · cases hstep
    · cases hstep
      exact hattempt s op reply hwaiting
  | again place other reply =>
    cases of_decide_eq_true hby
    simp only [Passage.step] at hstep
    obtain ⟨waiter, -, rfl⟩ := Option.map_eq_some_iff.1 hstep
    exact hattempt _ waiter.op reply (hwithdraw place)
  | abandon place =>
    simp only [Passage.step] at hstep
    split at hstep
    · cases hstep
      exact hwithdraw place
    · cases hstep
  | setDeadline deadline =>
    simp only [Passage.step] at hstep
    split at hstep
    · cases hstep
      exact hwaiting
    · cases hstep
  | elapse ms =>
    cases hstep
    intro waiter hwaiter
    obtain ⟨before, hbefore, rfl⟩ := List.mem_map.1 hwaiter
    exact hwaiting before hbefore
  | feed data =>
    cases hstep
    exact hwaiting

/-- All that one task does is done in turn. -/
theorem inTurn_of_isBy (hby : ∀ move ∈ moves, move.isBy task = true)
    (hwaiting : ∀ waiter ∈ s.waiting, waiter.task = task) : s.inTurn moves = true := by
  induction moves generalizing s with
  | nil => rfl
  | cons move moves ih =>
    have hmove := hby move List.mem_cons_self
    have hfree : ∀ t : Passage, (∀ waiter ∈ t.waiting, waiter.task = task) →
        t.isFreeFor task = true :=
      fun t ht => isFreeFor_iff.2 fun waiter hwaiter _ => ht waiter hwaiter
    have hturn : move.inTurn s = true := by
      cases move with
      | begin other op reply =>
        cases of_decide_eq_true hmove
        simp only [Move.inTurn, hfree s hwaiting, Bool.or_true]
      | again place other reply =>
        cases of_decide_eq_true hmove
        have hothers := hfree (s.withdraw place) fun waiter hwaiter =>
          hwaiting waiter (List.mem_of_mem_eraseIdx hwaiter)
        simp only [Move.inTurn, hothers, Bool.or_true]
      | _ => rfl
    rw [inTurn, hturn, Bool.true_and]
    cases hstep : s.step move with
    | none => rfl
    | some s' =>
      exact ih (fun later hlater => hby later (List.mem_cons_of_mem _ hlater))
        (waiting_of_isBy hmove hwaiting hstep)

theorem Roused.start (kind : TransportKind) (peerAddr : String) : (start kind peerAddr).Roused where
  watched _ h := by cases h
  woken _ h := by cases h

theorem Roused.withdraw (h : s.Roused) (place : Nat) : (s.withdraw place).Roused where
  watched waiter hwaiter := h.watched waiter (List.mem_of_mem_eraseIdx hwaiter)
  woken waiter hwaiter := h.woken waiter (List.mem_of_mem_eraseIdx hwaiter)

/-- An attempt wakes nobody, and takes the timer from nobody who is still to be woken. -/
theorem Roused.attempt (h : s.Roused) (hclosing : op = .closing → s.transport.closed = true)
    (hturn : op.isTransfer = true → s.isFreeFor task = true) (reply : Reply) :
    (s.attempt task op reply).2.Roused := by
  have heffect := effect_outcome task hclosing reply
  rcases heffect.looks with ⟨htimer, hdone⟩ | ⟨htransfer, htimely, hwatched⟩
  · -- the timer is as it was, and nobody waits to read or write who did not before
    have hbefore : ∀ waiter ∈ (s.attempt task op reply).2.waiting,
        waiter.op.isTransfer = true → waiter ∈ s.waiting := by
      intro waiter hwaiter htransfer
      rcases mem_waiting_attempt hwaiter with hold | ⟨hlater, rfl⟩
      · exact hold
      · rw [isTransfer_goesOn] at htransfer
        rw [hdone htransfer] at hlater
        cases hlater
    have hdeadline := heffect.deadline_eq
    exact ⟨fun waiter hwaiter htransfer timer hnew =>
        h.watched waiter (hbefore waiter hwaiter htransfer) htransfer timer (htimer ▸ hnew),
      fun waiter hwaiter htransfer deadline hnew =>
        h.woken waiter (hbefore waiter hwaiter htransfer) htransfer deadline (hdeadline ▸ hnew)⟩
  · -- the timer is to wake the task that tried, to which all belong that wait to read or write
    have htask : ∀ waiter ∈ (s.attempt task op reply).2.waiting,
        waiter.op.isTransfer = true → waiter.task = task := by
      intro waiter hwaiter hwaits
      rcases mem_waiting_attempt hwaiter with hold | ⟨-, rfl⟩
      · exact isFreeFor_iff.1 (hturn htransfer) waiter hold hwaits
      · rfl
    have hnew : (s.attempt task op reply).2.transport = s.transport.watchedBy task := hwatched
    refine ⟨fun waiter hwaiter hwaits timer htimer _ => ?_,
      fun waiter hwaiter hwaits deadline hdeadline hcome => ?_⟩
    · rw [hnew] at htimer
      obtain ⟨old, -, rfl⟩ := Option.map_eq_some_iff.1 htimer
      rw [htask waiter hwaiter hwaits]
    · rw [hnew, Transport.deadline_watchedBy] at hdeadline
      exact absurd (htimely deadline hdeadline) (Int.not_lt.2 hcome)

/-- When the deadline comes, all are woken who wait to read or write. -/
theorem Roused.elapse (h : s.Roused) (ms : Nat) : (s.elapse ms).Roused := by
  refine ⟨fun waiter hwaiter htransfer timer htimer hearly => ?_,
    fun waiter hwaiter htransfer deadline hdeadline hcome => ?_⟩
  · obtain ⟨before, hbefore, rfl⟩ := List.mem_map.1 hwaiter
    have hearlier : s.now < timer.due := by
      have : s.now + ms < timer.due := hearly
      omega
    exact h.watched before hbefore htransfer timer (Transport.fire_timer_of_early htimer hearly)
      hearlier
  · obtain ⟨before, hbefore, rfl⟩ := List.mem_map.1 hwaiter
    have hold : s.transport.deadline = some deadline := Transport.deadline_fire ▸ hdeadline
    obtain ⟨timer, htimer, rfl⟩ := Option.map_eq_some_iff.1 hold
    simp only [Waiter.hear, Bool.or_eq_true, decide_eq_true_eq]
    by_cases hpast : timer.due ≤ s.now
    · exact .inl (h.woken before hbefore htransfer timer.due hold hpast)
    · refine .inr ((Transport.fire_due htimer hcome).trans ?_)
      exact h.watched before hbefore htransfer timer htimer (Int.not_le.1 hpast)

/-- **Each move that is made in turn keeps it** that whoever waits is woken. -/
theorem Roused.step (h : s.Roused) (hsound : s.Sound kind) (hturn : move.inTurn s = true)
    (hstep : s.step move = some s') : s'.Roused := by
  cases move with
  | begin task op reply =>
    simp only [Passage.step] at hstep
    split at hstep
    · cases hstep
    · rename_i hfresh
      cases hstep
      refine h.attempt (fun hop => absurd (by rw [hop]; rfl) hfresh) (fun htransfer => ?_) reply
      simpa only [Move.inTurn, htransfer, Bool.not_true, Bool.false_or] using hturn
  | again place task reply =>
    simp only [Passage.step] at hstep
    obtain ⟨waiter, hplace, rfl⟩ := Option.map_eq_some_iff.1 hstep
    have hclosed := closed_of_lt (s := s.withdraw place) (hsound.lt_of_again hplace)
    refine (h.withdraw place).attempt hclosed (fun htransfer => ?_) reply
    simpa only [Move.inTurn, hplace, Option.all_some, htransfer, Bool.not_true, Bool.false_or]
      using hturn
  | abandon place =>
    simp only [Passage.step] at hstep
    split at hstep
    · cases hstep
      exact h.withdraw place
    · cases hstep
  | setDeadline deadline =>
    simp only [Passage.step] at hstep
    split at hstep
    · rename_i hnone
      cases hstep
      constructor <;> intro waiter hwaiter <;> rw [hnone] at hwaiter <;> cases hwaiter
    · cases hstep
  | elapse ms =>
    cases hstep
    exact h.elapse ms
  | feed data =>
    cases hstep
    exact ⟨h.watched, h.woken⟩

/-- Two tasks that wait at once are not in turn: the one that looked first is not woken. -/
example :
    (runFrom step (start .socket "mem") [.setDeadline (some 10), .begin 1 (.read 4) .later,
      .begin 2 (.write ⟨#[9]⟩) .later, .elapse 10]).map (fun s =>
        s.waiting.map fun waiter => (waiter.task, waiter.woken)) =
      some [(1, false), (2, true)] := by
  decide +kernel

end Passage

end Switchboard
