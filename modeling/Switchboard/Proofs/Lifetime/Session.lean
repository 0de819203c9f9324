import Switchboard.Session
import Switchboard.Proofs.Traffic.Requests

/-!
# What becomes of a session

Whatever is done with a session, it keeps its key, and its scope, its connection and its teardown
only ever go one way: `Session.Becomes` relates what a session is to what it may be later. With it
goes what holds of every session, `Session.Sound`: a connection that has stopped leaves no scope
that is not cancelled, a session that was closed here has given its process away, and requests are
refused by a connection that has stopped and by no other.
-/

namespace Switchboard.Session

structure Sound (s : Session) : Prop where
  /-- With the connection the scope ends. -/
  scope : s.stopped = true → s.cancelled = true
  /-- A session that was closed here is torn down. -/
  tornDown : s.closing = true → s.cancelled = true ∧ s.child? = none
  /-- A request is refused only once the connection has stopped. -/
  refused : ∀ request, (request, none) ∈ s.openings.answers → s.stopped = true

structure Becomes (s s' : Session) : Prop where
  key : s'.key = s.key
  cancelled : s.cancelled = true → s'.cancelled = true
  stopped : s.stopped = true → s'.stopped = true
  closing : s.closing = true → s'.closing = true
  /-- Its process is given away when it is closed here, and only then. -/
  child : s'.closing = s.closing → s'.child? = s.child?
  sound : s.Sound → s'.Sound

variable {s s' s'' : Session} {now request acceptor stream : Nat}

theorem Sound.cancelled (h : s.Sound) (hclosed : s.isClosed = true) : s.cancelled = true := by
  unfold isClosed at hclosed
  rcases Bool.or_eq_true_iff.1 hclosed with hcancelled | hstopped
  · exact hcancelled
  · exact h.scope hstopped

theorem isClosed_of_cancelled (h : s.cancelled = true) : s.isClosed = true := by
  unfold isClosed
  rw [h, Bool.true_or]

theorem isClosed_of_stopped (h : s.stopped = true) : s.isClosed = true := by
  unfold isClosed
  rw [h, Bool.or_true]

theorem Sound.start (key peerAddr : String) (role : Role) : (start key peerAddr role).Sound where
  scope h := by cases h
  tornDown h := by cases h
  refused _ h := by cases h

theorem Sound.withChild (key peerAddr : String) (pid : Nat) :
    (withChild key peerAddr pid).Sound where
  scope h := by cases h
  tornDown h := by cases h
  refused _ h := by cases h

namespace Becomes

theorem refl (s : Session) : s.Becomes s :=
  ⟨rfl, id, id, id, fun _ => rfl, id⟩

theorem trans (h : s.Becomes s') (h' : s'.Becomes s'') : s.Becomes s'' where
  key := h'.key.trans h.key
  cancelled hs := h'.cancelled (h.cancelled hs)
  stopped hs := h'.stopped (h.stopped hs)
  closing hs := h'.closing (h.closing hs)
  child hs := by
    have hmiddle : s'.closing = s.closing := by
      cases hclosing : s.closing with
      | true => exact h.closing hclosing
      | false =>
        rw [hclosing] at hs
        cases hclosing' : s'.closing with
        | false => rfl
        | true => rw [h'.closing hclosing'] at hs; cases hs
    exact (h'.child (hs.trans hmiddle.symm)).trans (h.child hmiddle)
  sound hs := h'.sound (h.sound hs)

theorem isClosed (h : s.Becomes s') (hs : s.isClosed = true) : s'.isClosed = true := by
  unfold Session.isClosed at hs
  rcases Bool.or_eq_true_iff.1 hs with hcancelled | hstopped
  · exact isClosed_of_cancelled (h.cancelled hcancelled)
  · exact isClosed_of_stopped (h.stopped hstopped)

/-- What changes neither the key nor the end of a session, and refuses no request. -/
theorem of_same (hkey : s'.key = s.key) (hcancelled : s'.cancelled = s.cancelled)
    (hstopped : s'.stopped = s.stopped) (hclosing : s'.closing = s.closing)
    (hchild : s'.child? = s.child?)
    (hanswers : ∀ request, (request, none) ∈ s'.openings.answers →
      (request, none) ∈ s.openings.answers) : s.Becomes s' where
  key := hkey
  cancelled hs := hcancelled.trans hs
  stopped hs := hstopped.trans hs
  closing hs := hclosing.trans hs
  child _ := hchild
  sound hs := by
    refine ⟨fun h => ?_, fun h => ?_, fun request hmem => ?_⟩
    · rw [hcancelled]
      exact hs.scope (hstopped.symm.trans h)
    · rw [hcancelled, hchild]
      exact hs.tornDown (hclosing.symm.trans h)
    · rw [hstopped]
      exact hs.refused request (hanswers request hmem)

end Becomes

/-! ## What is done with a session -/

theorem becomes_connection (s : Session) (connection : Mux.Connection) :
    s.Becomes { s with connection } :=
  .of_same rfl rfl rfl rfl rfl fun _ => id

/-- Only the requests of a session are changed, and none is refused. -/
theorem becomes_openings (s : Session) {openings : Mux.Openings}
    (h : ∀ request, (request, none) ∈ openings.answers → (request, none) ∈ s.openings.answers) :
    s.Becomes { s with openings } :=
  .of_same rfl rfl rfl rfl rfl h

theorem becomes_drop (s : Session) (stream : Nat) : s.Becomes (s.drop stream) :=
  s.becomes_connection _

theorem becomes_cancel (s : Session) : s.Becomes s.cancel := by
  unfold cancel
  split
  · exact .refl s
  · exact ⟨rfl, fun _ => rfl, id, id, fun _ => rfl, fun h => ⟨fun _ => rfl,
      fun hclosing => ⟨rfl, (h.tornDown hclosing).2⟩, h.refused⟩⟩

theorem cancelled_cancel (s : Session) : s.cancel.cancelled = true := by
  unfold cancel
  split
  · assumption
  · rfl

/-- The first time, to close a session cancels its scope and gives its process away. -/
theorem close_of_open (h : s.closing = false) :
    s.close = (s.child?, { s.cancel with closing := true, child? := none }) := by
  unfold close
  rw [h]
  rfl

theorem close_of_closing (h : s.closing = true) : s.close = (none, s) := by
  unfold close
  rw [if_pos h]

theorem becomes_close (s : Session) : s.Becomes s.close.2 := by
  cases hclosing : s.closing with
  | true =>
    rw [close_of_closing hclosing]
    exact .refl s
  | false =>
    rw [close_of_open hclosing]
    have hcancel := s.becomes_cancel
    refine ⟨hcancel.key, hcancel.cancelled, hcancel.stopped, fun _ => rfl, fun h => ?_,
      fun h => ⟨fun _ => s.cancelled_cancel, fun _ => ⟨s.cancelled_cancel, rfl⟩,
        (hcancel.sound h).refused⟩⟩
    rw [hclosing] at h
    cases h

theorem closing_close (s : Session) : s.close.2.closing = true := by
  cases hclosing : s.closing with
  | true => rw [close_of_closing hclosing]; exact hclosing
  | false => rw [close_of_open hclosing]

theorem isClosed_close (h : s.Sound) : s.close.2.isClosed = true :=
  isClosed_of_cancelled ((s.becomes_close.sound h).tornDown s.closing_close).1

theorem becomes_request (s : Session) : s.Becomes s.request.2 := by
  unfold request
  split
  · exact .refl s
  · exact .of_same rfl rfl rfl rfl rfl fun _ => id

theorem request_of_closed (h : s.isClosed = true) : s.request = (.error .closed, s) := by
  unfold request
  rw [if_pos h]

theorem request_eq_error {fault : Fault} (h : s.request.1 = .error fault) :
    s.isClosed = true ∧ fault = .closed := by
  unfold request at h
  split at h
  · rename_i hclosed
    cases h
    exact ⟨hclosed, rfl⟩
  · cases h

theorem becomes_abandon (s : Session) (request : Nat) : s.Becomes (s.abandon request) := by
  have hopenings : s.Becomes { s with openings := (s.openings.abandon request).2 } :=
    s.becomes_openings fun r hmem => (Mux.Openings.mem_answers_collect.1 hmem).1
  unfold abandon
  split
  · rename_i heq
    rw [heq] at hopenings
    exact hopenings
  · rename_i heq
    rw [heq] at hopenings
    exact hopenings.trans (becomes_drop _ _)

theorem becomes_collect (s : Session) (request : Nat) : s.Becomes (s.collect request).2 := by
  have hopenings : s.Becomes { s with openings := (s.openings.collect request).2 } :=
    s.becomes_openings fun r hmem => (Mux.Openings.mem_answers_collect.1 hmem).1
  unfold collect
  split
  · exact s.becomes_abandon request
  · split <;> rename_i heq <;> rw [heq] at hopenings <;> exact hopenings

/-- Once the scope is cancelled a request is refused, whatever answer it had. -/
theorem collect_of_cancelled (h : s.cancelled = true) (request : Nat) :
    s.collect request = (some (.error .closed), s.abandon request) := by
  unfold collect
  rw [if_pos h]

theorem collect_eq_error {fault : Fault} (hs : s.Sound)
    (h : (s.collect request).1 = some (.error fault)) :
    s.isClosed = true ∧ fault = .closed := by
  unfold collect at h
  split at h
  · rename_i hcancelled
    cases h
    exact ⟨isClosed_of_cancelled hcancelled, rfl⟩
  · split at h
    · cases h
    · rename_i heq
      cases h
      refine ⟨isClosed_of_stopped (hs.refused request ?_), rfl⟩
      unfold Mux.Openings.collect at heq
      split at heq
      · cases heq
      · rename_i hlookup
        cases heq
        exact Mux.Openings.mem_of_lookup hlookup
    · cases h

theorem becomes_queue (s : Session) : s.Becomes s.queue.2 := by
  unfold queue
  split
  · exact .refl s
  · exact .of_same rfl rfl rfl rfl rfl fun _ => id

theorem queue_of_closed (h : s.isClosed = true) : s.queue = (.error .closed, s) := by
  unfold queue
  rw [if_pos h]

theorem queue_eq_error {fault : Fault} (h : s.queue.1 = .error fault) :
    s.isClosed = true ∧ fault = .closed := by
  unfold queue at h
  split at h
  · rename_i hclosed
    cases h
    exact ⟨hclosed, rfl⟩
  · cases h

theorem becomes_leave (s : Session) (acceptor : Nat) : s.Becomes (s.leave acceptor) :=
  .of_same rfl rfl rfl rfl rfl fun _ => id

theorem becomes_accept (s : Session) (acceptor : Nat) : s.Becomes (s.accept acceptor).2 := by
  unfold accept
  split
  · exact s.becomes_leave acceptor
  · split
    · split
      · exact .of_same rfl rfl rfl rfl rfl fun _ => id
      · split
        · exact s.becomes_leave acceptor
        · exact .refl s
    · exact .refl s

/-- Once the scope is cancelled nobody is given a stream, whatever has arrived. -/
theorem accept_of_cancelled (h : s.cancelled = true) (acceptor : Nat) :
    s.accept acceptor = (some (.error .closed), s.leave acceptor) := by
  unfold accept
  rw [if_pos h]

theorem accept_eq_error {fault : Fault} (h : (s.accept acceptor).1 = some (.error fault)) :
    s.isClosed = true ∧ fault = .closed := by
  unfold accept at h
  split at h
  · rename_i hcancelled
    cases h
    exact ⟨isClosed_of_cancelled hcancelled, rfl⟩
  · split at h
    · split at h
      · cases h
      · split at h
        · rename_i hstopped
          cases h
          exact ⟨isClosed_of_stopped hstopped, rfl⟩
        · cases h
    · cases h

/-! ## The work of the connection -/

theorem becomes_halt (h : s.cancelled = true) : s.Becomes s.halt where
  key := rfl
  cancelled := id
  stopped _ := rfl
  closing := id
  child _ := rfl
  sound hs := ⟨fun _ => h, hs.tornDown, fun _ _ => rfl⟩

theorem becomes_fail (s : Session) : s.Becomes s.fail where
  key := rfl
  cancelled _ := rfl
  stopped _ := rfl
  closing := id
  child _ := rfl
  sound hs := ⟨fun _ => rfl, fun hclosing => ⟨rfl, (hs.tornDown hclosing).2⟩, fun _ _ => rfl⟩

theorem becomes_finish (s : Session) : s.Becomes s.finish where
  key := rfl
  cancelled _ := rfl
  stopped := id
  closing := id
  child _ := rfl
  sound hs := ⟨fun _ => rfl, fun hclosing => ⟨rfl, (hs.tornDown hclosing).2⟩, hs.refused⟩

theorem becomes_begin (s : Session) (now : Nat) : s.Becomes (s.begin now) := by
  unfold begin
  dsimp only
  split
  · rename_i hcancelled
    exact (becomes_halt hcancelled).trans (.of_same rfl rfl rfl rfl rfl fun _ => id)
  · exact .of_same rfl rfl rfl rfl rfl fun _ => id

theorem none_mem_grant {o : Mux.Openings} (h : (request, none) ∈ (o.grant stream).2.answers) :
    (request, none) ∈ o.answers := by
  cases hwaiting : o.waiting with
  | nil =>
    unfold Mux.Openings.grant at h
    rw [hwaiting] at h
    exact h
  | cons oldest waiting =>
    rw [Mux.Openings.grant_of_waiting hwaiting] at h
    split at h
    · rcases List.mem_cons.1 h with heq | hold
      · cases heq
      · exact hold
    · exact h

theorem becomes_grant (s : Session) : s.Becomes s.grant := by
  unfold grant
  split
  · exact .of_same rfl rfl rfl rfl rfl fun _ => id
  · split
    · rename_i connection _
      exact (s.becomes_connection connection).trans (becomes_fail _)
    · exact .of_same rfl rfl rfl rfl rfl fun _ => id
    · rename_i stream connection hbegin
      have hanswers : ∀ request, (request, none) ∈ (s.openings.grant stream).2.answers →
          (request, none) ∈ s.openings.answers := fun _ => none_mem_grant
      split
      · rename_i heq
        rw [heq] at hanswers
        exact .of_same rfl rfl rfl rfl rfl hanswers
      · rename_i heq
        rw [heq] at hanswers
        exact .of_same rfl rfl rfl rfl rfl hanswers

theorem becomes_step {input output input' output' : Pipe}
    (h : s.step now input output = some (s', input', output')) : s.Becomes s' := by
  unfold step at h
  split at h
  · cases h
  · split at h <;> cases h
    exact s.becomes_begin now
  · have heq : s' = s.grant := by
      dsimp only at h
      split at h <;> cases h <;> rfl
    rw [heq]
    exact s.becomes_grant
  · split at h <;> cases h
    · exact s.becomes_connection _
    · exact .of_same rfl rfl rfl rfl rfl fun _ => id
    · exact .of_same rfl rfl rfl rfl rfl fun _ => id
    · rename_i connection _ _ _
      exact (s.becomes_connection connection).trans (becomes_fail _)
  · dsimp only at h
    split at h
    · cases h
      exact s.becomes_finish
    · split at h
      · cases h
        exact s.becomes_connection _
      · cases h
        exact s.becomes_finish
      · split at h <;> cases h
        exact s.becomes_finish

end Switchboard.Session
