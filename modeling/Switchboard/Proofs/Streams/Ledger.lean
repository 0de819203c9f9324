import Switchboard.Proofs.Lifetime.Session
import Switchboard.Proofs.Streams.Holding

/-!
# A session and what was done with its streams

A `Ledger` is a session beside the record of what was done with its streams: which were begun for
those who asked, who waits and what each was told, which streams of the peer arrived and what those
who accept were told. Anybody moves at any time: streams are asked for, collected, accepted, and
given up by who lost patience; the session is closed; the connection makes a move between two pipes
in any condition; and whatever else befalls the connection, the packets of its streams, their
acknowledgements and what their holders do, may happen in between.
-/

namespace Switchboard

open Mux

namespace Session

/-- The stream that a session begins at its next move. -/
def begins? (s : Session) : Option Nat :=
  if s.activity = .granting ∧ s.openings.waiting ≠ [] then
    match s.connection.begin?.1 with
    | .stream id => some id
    | _ => none
  else none

/-- The stream of the peer that arrives at the next move of a session between two pipes. -/
def arrives? (s : Session) (input output : Pipe) : Option Nat :=
  if s.activity = .pumping then
    match (s.connection.pump input output).1 with
    | .arrived id => some id
    | _ => none
  else none

end Session

structure Ledger where
  session : Session
  /-- The streams that were begun for those who asked, in order. -/
  begun : List Nat := []
  /-- The requests that are still waited for. -/
  openers : List Nat := []
  /-- What came of the requests that were waited for to the end. -/
  told : List (Nat × Except Fault Nat) := []
  /-- The requests that were given up. -/
  dropped : List Nat := []
  /-- The streams that the peer began, in order. -/
  arrivals : List Nat := []
  /-- What those who accepted were told. -/
  served : List (Nat × Except Fault Nat) := []
  /-- Who queued up to accept a stream and left. -/
  departed : List Nat := []

namespace Ledger

inductive Move where
  /-- Somebody asks for a stream. -/
  | request
  /-- Who waits for a request looks for the answer. -/
  | collect (request : Nat)
  /-- Who waits for a request gives it up. -/
  | abandon (request : Nat)
  /-- Somebody queues up for a stream of the peer. -/
  | queue
  /-- Somebody in the queue looks for a stream. -/
  | accept (acceptor : Nat)
  /-- Somebody leaves the queue. -/
  | leave (acceptor : Nat)
  /-- This side closes the session. -/
  | close
  /-- The scope of the session is cancelled. -/
  | cancel
  /-- Something befalls the connection by which no stream is begun. -/
  | befall (connection : Connection)
  /-- The connection makes a move between two pipes. -/
  | work (now : Nat) (input output : Pipe)

def start (session : Session) : Ledger :=
  { session }

/-- What a move makes of a session and its record, if it is possible. -/
def step (l : Ledger) : Move → Option Ledger
  | .request =>
    match l.session.request with
    | (.ok request, session) => some { l with session, openers := l.openers ++ [request] }
    | (.error _, session) => some { l with session }
  | .collect request =>
    if request ∈ l.openers then
      match l.session.collect request with
      | (none, session) => some { l with session }
      | (some answer, session) =>
        some { l with
          session
          openers := l.openers.erase request
          told := l.told ++ [(request, answer)] }
    else none
  | .abandon request =>
    if request ∈ l.openers then
      some { l with
        session := l.session.abandon request
        openers := l.openers.erase request
        dropped := l.dropped ++ [request] }
    else none
  | .queue => some { l with session := l.session.queue.2 }
  | .accept acceptor =>
    if acceptor ∈ l.session.acceptors then
      match l.session.accept acceptor with
      | (none, session) => some { l with session }
      | (some answer, session) =>
        some { l with session, served := l.served ++ [(acceptor, answer)] }
    else none
  | .leave acceptor =>
    if acceptor ∈ l.session.acceptors then
      some { l with
        session := l.session.leave acceptor
        departed := l.departed ++ [acceptor] }
    else none
  | .close => some { l with session := l.session.close.2 }
  | .cancel => some { l with session := l.session.cancel }
  | .befall connection =>
    if l.session.connection.GoesOn connection then
      some { l with session := { l.session with connection } }
    else none
  | .work now input output =>
    (l.session.step now input output).map fun (session, _) =>
      { l with
        session
        begun := l.begun ++ l.session.begins?.toList
        arrivals := l.arrivals ++ (l.session.arrives? input output).toList }

/-- What the holders of streams do may befall a connection at any time. -/
theorem befalls_use (l : Ledger) (id room start : Nat) (data : ByteArray) :
    ∀ connection ∈ [(l.session.connection.read id room).2,
      (l.session.connection.write id data start).2, (l.session.connection.finish id).2,
      l.session.connection.drop id],
      l.step (.befall connection) = some { l with session := { l.session with connection } } := by
  intro connection hmem
  refine if_pos ?_
  simp only [List.mem_cons, List.not_mem_nil, or_false] at hmem
  rcases hmem with rfl | rfl | rfl | rfl
  · exact Connection.goesOn_read _ id room
  · exact Connection.goesOn_write _ id data start
  · exact Connection.goesOn_finish _ id
  · exact Connection.goesOn_drop _ id

end Ledger

namespace Session

/-! ## What its users do to a session -/

def SameQueue (s s' : Session) : Prop :=
  s'.acceptors = s.acceptors ∧ s'.nextAcceptor = s.nextAcceptor

variable {s s' : Session} {r k : Nat}

theorem stopped_of_open (h : s.isClosed = false) : s.stopped = false :=
  (Bool.or_eq_false_iff.1 h).2

theorem abandon_rest (s : Session) (r : Nat) :
    (s.abandon r).openings = (s.openings.abandon r).2 ∧ (s.abandon r).stopped = s.stopped ∧
      (s.abandon r).arrived = s.arrived ∧ s.SameQueue (s.abandon r) ∧
      s.connection.GoesOn (s.abandon r).connection := by
  unfold abandon
  split <;> rename_i heq
  · exact ⟨by rw [heq], rfl, rfl, ⟨rfl, rfl⟩, .refl _⟩
  · exact ⟨by rw [heq]; rfl, rfl, rfl, ⟨rfl, rfl⟩, s.connection.goesOn_drop _⟩

/-- A stream that had come for a request is let go of with it. -/
theorem not_holds_abandon (h : s.openings.answers.lookup r = some (some k)) :
    ¬ (s.abandon r).connection.Holds k := by
  have hback : (s.openings.abandon r).1 = some k := by
    rw [Mux.Openings.abandon_fst, h, Option.join_some]
  unfold abandon
  split <;> rename_i heq <;> rw [heq] at hback <;> cases hback
  exact s.connection.not_holds_drop k

/-- Who looks for a stream waits on, or hears that the session is closed, or has the first that has
arrived. -/
theorem accept_cases (s : Session) (a : Nat) :
    s.accept a = (none, s) ∨
      s.isClosed = true ∧ s.accept a = (some (.error .closed), s.leave a) ∨
      ∃ k arrived, s.arrived = k :: arrived ∧
        s.accept a = (some (.ok k), { s with arrived }.leave a) := by
  unfold accept
  split
  · rename_i hcancelled
    exact .inr (.inl ⟨isClosed_of_cancelled hcancelled, rfl⟩)
  · split
    · cases harrived : s.arrived with
      | nil =>
        dsimp only
        split
        · rename_i hstopped
          exact .inr (.inl ⟨isClosed_of_stopped hstopped, rfl⟩)
        · exact .inl rfl
      | cons k arrived => exact .inr (.inr ⟨k, arrived, rfl, rfl⟩)
    · exact .inl rfl

theorem cancel_rest (s : Session) : s.cancel.openings = s.openings ∧ s.cancel.stopped = s.stopped ∧
    s.cancel.arrived = s.arrived ∧ s.SameQueue s.cancel ∧
    s.connection.GoesOn s.cancel.connection := by
  unfold cancel
  split
  · exact ⟨rfl, rfl, rfl, ⟨rfl, rfl⟩, .refl _⟩
  · exact ⟨rfl, rfl, rfl, ⟨rfl, rfl⟩, .of_same rfl rfl rfl⟩

/-! ## What a move of the connection does -/

/-- What a move of the connection does to the streams of a session. -/
inductive Stirs (s s' : Session) : (begins arrives : Option Nat) → Prop
  /-- Requests may be taken up, and packets carried. -/
  | carries (queue : s.SameQueue s')
      (openings : s'.openings = s.openings ∨ s'.openings = s.openings.takeUp)
      (stopped : s'.stopped = s.stopped) (arrived : s'.arrived = s.arrived)
      (connection : s.connection.GoesOn s'.connection) : Stirs s s' none none
  /-- A stream of the peer arrives. -/
  | receives {id : Nat} (queue : s.SameQueue s') (openings : s'.openings = s.openings)
      (stopped : s'.stopped = s.stopped) (arrived : s'.arrived = s.arrived ++ [id])
      (connection : s.connection.GoesOn s'.connection) : Stirs s s' none (some id)
  /-- A stream is begun for the request in front, and held only if it is taken. -/
  | grants {id request : Nat} {waiting : List Nat} (queue : s.SameQueue s')
      (front : s.openings.waiting = request :: waiting)
      (openings : s'.openings = (s.openings.grant id).2) (stopped : s'.stopped = s.stopped)
      (arrived : s'.arrived = s.arrived) (connection : s.connection.Begins id s'.connection)
      (back : (s.openings.grant id).1 ≠ none → ¬ s'.connection.Holds id) : Stirs s s' (some id) none
  /-- The connection stops. -/
  | stops (queue : s.SameQueue s') (openings : s'.openings = s.openings.refuse)
      (stopped : s'.stopped = true) (arrived : s'.arrived = s.arrived)
      (connection : s.connection.GoesOn s'.connection) : Stirs s s' none none

variable {now : Nat} {input output input' output' : Pipe}

theorem stirs_begin (s : Session) (now : Nat) : Stirs s (s.begin now) none none := by
  unfold begin
  dsimp only
  have hwoken : s.connection.GoesOn { s.connection with woken := false } := .of_same rfl rfl rfl
  split
  · exact .stops ⟨rfl, rfl⟩ rfl rfl rfl (hwoken.trans (Connection.goesOn_hangUp _))
  · exact .carries ⟨rfl, rfl⟩ (.inr rfl) rfl rfl hwoken

theorem stirs_fail (s : Session) : Stirs s s.fail none none :=
  .stops ⟨rfl, rfl⟩ rfl rfl rfl s.connection.goesOn_fail

theorem stirs_finish (s : Session) : Stirs s s.finish none none :=
  .carries ⟨rfl, rfl⟩ (.inl rfl) rfl rfl (.refl _)

/-- A stream is begun for the request in front. Who does not take it does not hold it. -/
theorem stirs_granted {id request : Nat} {waiting : List Nat} {connection : Connection}
    (hfront : s.openings.waiting = request :: waiting)
    (hbegin : s.connection.begin? = (.stream id, connection)) :
    Stirs s s.grant (some id) none := by
  have hbegins := Connection.begins_of_begin? hbegin
  have hgrant := Openings.grant_of_waiting hfront id
  unfold grant
  rw [if_neg (by rw [hfront]; exact Bool.false_ne_true), hbegin]
  dsimp only
  by_cases hawaited : s.openings.awaited.contains request = true
  · rw [if_pos hawaited] at hgrant
    rw [hgrant]
    exact .grants ⟨rfl, rfl⟩ hfront (by rw [hgrant]) rfl rfl hbegins
      (by rw [hgrant]; exact fun h => absurd rfl h)
  · rw [if_neg hawaited] at hgrant
    rw [hgrant]
    have hdrop : connection.GoesOn { connection.drop id with woken := connection.woken } :=
      (connection.goesOn_drop id).trans (.of_same rfl rfl rfl)
    exact .grants ⟨rfl, rfl⟩ hfront (by rw [hgrant]) rfl rfl (hbegins.trans hdrop)
      fun _ => connection.not_holds_drop id

theorem stirs_grant (h : s.activity = .granting) : Stirs s s.grant s.begins? none := by
  cases hwaiting : s.openings.waiting with
  | nil =>
    have hnone : s.begins? = none := if_neg fun hand => hand.2 hwaiting
    rw [hnone]
    unfold grant
    rw [if_pos (by rw [hwaiting]; rfl)]
    exact .carries ⟨rfl, rfl⟩ (.inl rfl) rfl rfl (.refl _)
  | cons request waiting =>
    have hbegins : s.begins? = match s.connection.begin?.1 with
        | .stream id => some id
        | _ => none :=
      if_pos ⟨h, by rw [hwaiting]; exact List.cons_ne_nil _ _⟩
    cases hbegin : s.connection.begin? with
    | mk result connection =>
      rw [hbegins, hbegin]
      cases result with
      | stream id => exact stirs_granted hwaiting hbegin
      | later =>
        unfold grant
        rw [if_neg (by rw [hwaiting]; exact Bool.false_ne_true), hbegin]
        exact .carries ⟨rfl, rfl⟩ (.inl rfl) rfl rfl (Connection.goesOn_of_later hbegin)
      | failed fault =>
        unfold grant
        rw [if_neg (by rw [hwaiting]; exact Bool.false_ne_true), hbegin,
          Connection.eq_of_failed hbegin]
        exact s.stirs_fail

/-- **What a move of the connection does** to the streams of its session. -/
theorem stirs_step (h : s.step now input output = some (s', input', output')) :
    Stirs s s' s.begins? (s.arrives? input output) := by
  unfold step at h
  cases hactivity : s.activity with
  | ended => rw [hactivity] at h; cases h
  | resting =>
    have hbegins : s.begins? = none := if_neg (by rw [hactivity]; simp)
    have harrives : s.arrives? input output = none := if_neg (by rw [hactivity]; simp)
    rw [hbegins, harrives]
    rw [hactivity] at h
    dsimp only at h
    split at h <;> cases h
    exact s.stirs_begin now
  | granting =>
    have harrives : s.arrives? input output = none := if_neg (by rw [hactivity]; simp)
    rw [harrives]
    have heq : s' = s.grant := by
      rw [hactivity] at h
      dsimp only at h
      split at h <;> cases h <;> rfl
    rw [heq]
    exact stirs_grant hactivity
  | pumping =>
    have hbegins : s.begins? = none := if_neg (by rw [hactivity]; simp)
    have harrives : s.arrives? input output = match (s.connection.pump input output).1 with
        | .arrived id => some id
        | _ => none :=
      if_pos hactivity
    have hpump := s.connection.goesOn_pump input output
    rw [hbegins, harrives]
    rw [hactivity] at h
    dsimp only at h
    split at h <;> rename_i heq <;> rw [heq] at hpump ⊢ <;> cases h
    · exact .carries ⟨rfl, rfl⟩ (.inl rfl) rfl rfl hpump
    · exact .receives ⟨rfl, rfl⟩ rfl rfl rfl hpump
    · exact .carries ⟨rfl, rfl⟩ (.inl rfl) rfl rfl hpump
    · exact .stops ⟨rfl, rfl⟩ rfl rfl rfl (hpump.trans (Connection.goesOn_fail _))
  | closing limit =>
    have hbegins : s.begins? = none := if_neg (by rw [hactivity]; simp)
    have harrives : s.arrives? input output = none := if_neg (by rw [hactivity]; simp)
    rw [hbegins, harrives]
    rw [hactivity] at h
    dsimp only at h
    split at h
    · cases h
      exact s.stirs_finish
    · split at h
      · cases h
        exact .carries ⟨rfl, rfl⟩ (.inl rfl) rfl rfl (.of_same rfl rfl rfl)
      · cases h
        exact s.stirs_finish
      · split at h <;> cases h
        exact s.stirs_finish

end Session

end Switchboard
