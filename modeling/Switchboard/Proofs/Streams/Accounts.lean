import Mathlib.Data.List.Nodup
import Switchboard.Proofs.Lists
import Switchboard.Proofs.Runs
import Switchboard.Proofs.Streams.Ledger
import Switchboard.Proofs.Streams.Line

/-!
# Every stream is accounted for

Whatever happens to a session, no stream is lost and none is handed out twice: `accounts_balance`.
The proof keeps apart where each request stands (`Openings.Lined`), who has the streams that were
begun here (`Owned`), and who was told what (the rest of `Sound`). A move touches few of them:
`Sound.goesOn` is for the moves of the connection, `Sound.quiet` for those that change nothing for
who waits, and who asks, accepts or gives up has a lemma for each move.
-/

namespace Switchboard

open Mux

namespace Ledger

def accepted (served : List (Nat × Except Fault Nat)) : List Nat :=
  served.filterMap fun entry => entry.2.toOption

/-- Nobody was refused but by a closed session, and with word of it. -/
def Refusals (s : Session) (told : List (Nat × Except Fault Nat)) : Prop :=
  ∀ who fault, (who, .error fault) ∈ told → fault = .closed ∧ s.isClosed = true

/-- Everything that was done with the streams of a session is accounted for. -/
structure Balanced (l : Ledger) : Prop where
  /-- Each request that was made is told once what came of it, or was given up, or is waited for. -/
  requests : (l.told.map Prod.fst ++ l.dropped ++ l.openers).Perm
    (List.range l.session.openings.next)
  /-- The record misses no stream: it has as many as the connection has begun, and none twice. -/
  recorded : l.session.connection.nextStream =
    (Connection.ofRole l.session.connection.role).nextStream + 2 * l.begun.length
  distinct : l.begun.Nodup
  /-- A request is told of no stream but the one that was begun in its turn. -/
  granted : ∀ r k, (r, .ok k) ∈ l.told → l.begun[r]? = some k
  /-- All else that a request is told is that the session is closed, when it is. -/
  refused : Refusals l.session l.told
  /-- The requests after those for which a stream was begun stand in line, in the order in which
  they were made, until the connection stops. Then nobody stands in line. -/
  line : l.session.openings.waiting ++ l.session.openings.queued =
    if l.session.stopped = true then []
    else List.range' l.begun.length (l.session.openings.next - l.begun.length)
  /-- Who waits has an answer once a stream was begun in its turn, or the connection has stopped:
  that stream, or word that the connection is closed if there is none. -/
  due : ∀ r ∈ l.openers, l.session.openings.answers.lookup r =
    if r < l.begun.length ∨ l.session.stopped = true then some l.begun[r]? else none
  /-- Once the connection has stopped, everybody who waits is told at the next look: who stood in
  line, that the session is closed. -/
  ended : l.session.stopped = true → ∀ r ∈ l.openers, ∃ answer,
    (l.session.collect r).1 = some answer ∧ (l.begun.length ≤ r → answer = .error .closed)
  /-- A stream that was begun went to the request in its turn, or is there for it, or was let go
  of. -/
  unclaimed : ∀ r k, l.begun[r]? = some k →
    (r, .ok k) ∈ l.told ∨ r ∈ l.openers ∨ ¬ l.session.connection.Holds k
  /-- Whoever queued up to accept a stream is told once what came of it, or left, or waits. -/
  acceptors : (l.served.map Prod.fst ++ l.departed ++ l.session.acceptors).Perm
    (List.range l.session.nextAcceptor)
  /-- The streams of the peer are accepted in the order in which they came, each by one who accepts,
  and those that nobody has accepted are still there. -/
  inbound : accepted l.served ++ l.session.arrived = l.arrivals
  /-- All else that who accepts is told is that the session is closed, when it is. -/
  turnedAway : Refusals l.session l.served
  /-- While the session is open, the first in the queue has the first stream at the next look. -/
  welcomed : l.session.isClosed = false → ∀ a acceptors k arrived,
    l.session.acceptors = a :: acceptors → l.session.arrived = k :: arrived →
    (l.session.accept a).1 = some (.ok k)

/-! ## The streams that were begun here -/

structure Owned (c : Connection) (begun openers : List Nat) (told : List (Nat × Except Fault Nat)) :
    Prop where
  next : c.isOwn c.nextStream = true
  counted : c.nextStream = (Connection.ofRole c.role).nextStream + 2 * begun.length
  own : ∀ k ∈ begun, c.isOwn k = true
  below : ∀ k ∈ begun, k < c.nextStream
  distinct : begun.Nodup
  unclaimed : ∀ r k, begun[r]? = some k → (r, .ok k) ∈ told ∨ r ∈ openers ∨ ¬ c.Holds k

namespace Owned

variable {c c' : Connection} {begun openers openers' : List Nat}
  {told told' : List (Nat × Except Fault Nat)} {k : Nat}

theorem mono (h : Owned c begun openers told) (hc : c.GoesOn c')
    (hclaims : ∀ r k, begun[r]? = some k → (r, .ok k) ∈ told ∨ r ∈ openers →
      (r, .ok k) ∈ told' ∨ r ∈ openers' ∨ ¬ c'.Holds k) : Owned c' begun openers' told' where
  next := by rw [hc.next, hc.isOwn]; exact h.next
  counted := by rw [hc.next, hc.role]; exact h.counted
  own k hk := by rw [hc.isOwn]; exact h.own k hk
  below k hk := by rw [hc.next]; exact h.below k hk
  distinct := h.distinct
  unclaimed r k hr := by
    rcases h.unclaimed r k hr with htold | hopener | hfree
    · exact hclaims r k hr (.inl htold)
    · exact hclaims r k hr (.inr hopener)
    · exact .inr (.inr fun hheld => hfree (hc.holds (h.own k (List.mem_of_getElem? hr)) hheld))

theorem goesOn (h : Owned c begun openers told) (hc : c.GoesOn c') :
    Owned c' begun openers told :=
  h.mono hc fun _ _ _ hclaim => or_assoc.1 (.inl hclaim)

theorem begins (h : Owned c begun openers told) (hc : c.Begins k c')
    (hback : begun.length ∉ openers → ¬ c'.Holds k) : Owned c' (begun ++ [k]) openers told := by
  have hown : ∀ j, c'.isOwn j = c.isOwn j := fun j => by
    unfold Connection.isOwn
    rw [hc.role]
  have hk : c.isOwn k = true := by rw [hc.numbered]; exact h.next
  have hnew : ∀ j ∈ begun, j < k := fun j hj => by rw [hc.numbered]; exact h.below j hj
  refine ⟨?_, ?_, fun j hj => ?_, fun j hj => ?_, ?_, fun r j hr => ?_⟩
  · rw [hc.next, Connection.isOwn_next, hown]
    exact hk
  · have hcounted := h.counted
    rw [hc.next, hc.numbered, hc.role, List.length_append, List.length_singleton]
    omega
  · rw [hown]
    rcases List.mem_append.1 hj with hold | hlast
    · exact h.own j hold
    · rw [List.mem_singleton.1 hlast]
      exact hk
  · rw [hc.next]
    rcases List.mem_append.1 hj with hold | hlast
    · have := hnew j hold
      omega
    · rw [List.mem_singleton.1 hlast]
      omega
  · rw [List.nodup_append]
    refine ⟨h.distinct, List.pairwise_singleton _ _, fun j hj i hi => ?_⟩
    rw [List.mem_singleton.1 hi]
    exact Nat.ne_of_lt (hnew j hj)
  · rcases Lists.getElem?_concat_cases hr with hold | ⟨rfl, rfl⟩
    · refine (h.unclaimed r j hold).imp_right (Or.imp_right fun hfree hheld => hfree ?_)
      obtain ⟨e, he, rfl, hmark⟩ := hheld
      have hmem := List.mem_of_getElem? hold
      refine (hc.held e he hmark (h.own _ hmem)).resolve_right ?_
      exact Nat.ne_of_lt (hnew _ hmem)
    · by_cases hopener : begun.length ∈ openers
      · exact .inr (.inl hopener)
      · exact .inr (.inr (hback hopener))

end Owned

/-! ## What holds of every ledger -/

/-- What holds of a session and its record whatever has happened. -/
structure Sound (l : Ledger) : Prop where
  session : l.session.Sound
  lined : l.session.openings.Lined l.session.stopped l.begun l.openers
  owned : Owned l.session.connection l.begun l.openers l.told
  requests : (l.told.map Prod.fst ++ l.dropped ++ l.openers).Perm
    (List.range l.session.openings.next)
  granted : ∀ r k, (r, .ok k) ∈ l.told → l.begun[r]? = some k
  refused : Refusals l.session l.told
  acceptors : (l.served.map Prod.fst ++ l.departed ++ l.session.acceptors).Perm
    (List.range l.session.nextAcceptor)
  inbound : accepted l.served ++ l.session.arrived = l.arrivals
  turnedAway : Refusals l.session l.served

variable {l l' : Ledger} {s : Session} {r a k : Nat}

theorem Refusals.becomes {told : List (Nat × Except Fault Nat)} (h : Refusals l.session told)
    (hbecomes : l.session.Becomes s) : Refusals s told :=
  fun who fault hmem => ⟨(h who fault hmem).1, hbecomes.isClosed (h who fault hmem).2⟩

theorem accepted_append (served more : List (Nat × Except Fault Nat)) :
    accepted (served ++ more) = accepted served ++ accepted more :=
  List.filterMap_append

/-- What nobody who asks or accepts has a part in: streams are begun and arrive, and requests are
taken up, answered and refused. -/
theorem Sound.goesOn (h : l.Sound) {begun arrivals : List Nat} (hbecomes : l.session.Becomes s)
    (hqueue : l.session.SameQueue s) (hnext : s.openings.next = l.session.openings.next)
    (hlined : s.openings.Lined s.stopped begun l.openers)
    (howned : Owned s.connection begun l.openers l.told)
    (hbegun : ∀ r k : Nat, l.begun[r]? = some k → begun[r]? = some k)
    (hinbound : accepted l.served ++ s.arrived = arrivals) :
    Sound { l with session := s, begun, arrivals } where
  session := hbecomes.sound h.session
  lined := hlined
  owned := howned
  requests := by
    change List.Perm _ (List.range s.openings.next)
    rw [hnext]
    exact h.requests
  granted r k hmem := hbegun r k (h.granted r k hmem)
  refused := h.refused.becomes hbecomes
  acceptors := by
    change (_ ++ _ ++ s.acceptors).Perm (List.range s.nextAcceptor)
    rw [hqueue.1, hqueue.2]
    exact h.acceptors
  inbound := hinbound
  turnedAway := h.turnedAway.becomes hbecomes

/-- What leaves the requests, the streams of the peer and those who accept alone. -/
theorem Sound.quiet (h : l.Sound) (hbecomes : l.session.Becomes s)
    (hqueue : l.session.SameQueue s) (hopenings : s.openings = l.session.openings)
    (hstopped : s.stopped = l.session.stopped) (harrived : s.arrived = l.session.arrived)
    (hconnection : l.session.connection.GoesOn s.connection) :
    Sound { l with session := s } :=
  h.goesOn hbecomes hqueue (by rw [hopenings]) (by rw [hopenings, hstopped]; exact h.lined)
    (h.owned.goesOn hconnection) (fun _ _ => id) (by rw [harrived]; exact h.inbound)

/-! ## Requests -/

theorem Sound.request (h : l.Sound) (hstep : l.step .request = some l') : l'.Sound := by
  have hbecomes := l.session.becomes_request
  cases hclosed : l.session.isClosed with
  | true =>
    simp only [step, Session.request_of_closed hclosed, Option.some.injEq] at hstep
    subst hstep
    exact h
  | false =>
    have hstopped := Session.stopped_of_open hclosed
    have hlined := h.lined
    have hasked : l.session.request = (.ok l.session.openings.next, { l.session with
        openings := l.session.openings.ask.2
        connection := { l.session.connection with woken := true } }) := by
      unfold Session.request
      rw [if_neg (by rw [hclosed]; exact Bool.false_ne_true)]
      rfl
    rw [hasked] at hbecomes
    simp only [step, hasked, Option.some.injEq] at hstep
    subst hstep
    have hwoken : l.session.connection.GoesOn { l.session.connection with woken := true } :=
      .of_same rfl rfl rfl
    refine ⟨hbecomes.sound h.session, ?_, ?_, ?_, h.granted, h.refused.becomes hbecomes,
      h.acceptors, h.inbound, h.turnedAway.becomes hbecomes⟩
    · dsimp only
      rw [hstopped] at hlined ⊢
      exact hlined.ask
    · exact h.owned.mono hwoken fun r k _ hclaim =>
        hclaim.imp_right fun hopener => .inl (List.mem_append_left _ hopener)
    · change (_ ++ _ ++ (l.openers ++ [l.session.openings.next])).Perm
        (List.range (l.session.openings.next + 1))
      rw [← List.append_assoc, List.range_succ]
      exact h.requests.append_right _

/-- A request is given up, and what had come for it is let go of. -/
theorem Sound.forget (h : l.Sound) (hr : r ∈ l.openers)
    {told : List (Nat × Except Fault Nat)} {dropped : List Nat}
    (hrequests : (told.map Prod.fst ++ dropped ++ l.openers.erase r).Perm
      (l.told.map Prod.fst ++ l.dropped ++ l.openers))
    (htold : ∀ r' k, (r', .ok k) ∈ told ↔ (r', .ok k) ∈ l.told)
    (hrefused : Refusals l.session told) :
    Sound { l with
      session := l.session.abandon r
      openers := l.openers.erase r
      told
      dropped } := by
  obtain ⟨hopenings, hstopped, harrived, hqueue, hconnection⟩ := l.session.abandon_rest r
  have hbecomes := l.session.becomes_abandon r
  have hnext : (l.session.abandon r).openings.next = l.session.openings.next := by
    rw [hopenings]
    exact (l.session.openings.collect_rest r).1
  refine ⟨hbecomes.sound h.session, ?_, ?_, ?_,
    fun r' k hmem => h.granted r' k ((htold r' k).1 hmem), hrefused.becomes hbecomes, ?_, ?_, h.turnedAway.becomes hbecomes⟩
  · dsimp only
    rw [hopenings, hstopped]
    exact h.lined.abandon r
  · refine h.owned.mono hconnection fun r' k hbegun hclaim => ?_
    rcases hclaim with hmem | hopener
    · exact .inl ((htold r' k).2 hmem)
    · by_cases heq : r' = r
      · subst heq
        have hlt := (List.getElem?_eq_some_iff.1 hbegun).1
        have hlookup := h.lined.lookup hopener
        rw [if_pos (.inl hlt), hbegun] at hlookup
        exact .inr (.inr (Session.not_holds_abandon hlookup))
      · exact .inr (.inl ((List.mem_erase_of_ne heq).2 hopener))
  · dsimp only
    rw [hnext]
    exact hrequests.trans h.requests
  · dsimp only
    rw [hqueue.1, hqueue.2]
    exact h.acceptors
  · dsimp only
    rw [harrived]
    exact h.inbound

theorem Sound.abandon (h : l.Sound) (hstep : l.step (.abandon r) = some l') : l'.Sound := by
  simp only [step, Option.ite_none_right_eq_some, Option.some.injEq] at hstep
  obtain ⟨hr, rfl⟩ := hstep
  exact h.forget hr (Lists.perm_to_second hr) (fun _ _ => Iff.rfl) h.refused

/-- The answer to a request, which is there, is handed to who waits for it. -/
theorem Sound.settle (h : l.Sound) (hr : r ∈ l.openers) {answer : Except Fault Nat}
    (hthere : l.session.openings.answers.lookup r ≠ none)
    (hstream : ∀ k, answer = .ok k ↔ l.begun[r]? = some k)
    (hfault : ∀ fault, answer = .error fault → fault = .closed ∧ l.session.isClosed = true) :
    Sound { l with
      session := { l.session with openings := (l.session.openings.collect r).2 }
      openers := l.openers.erase r
      told := l.told ++ [(r, answer)] } := by
  have hbecomes : l.session.Becomes
      { l.session with openings := (l.session.openings.collect r).2 } :=
    l.session.becomes_openings fun r' hmem => (Openings.mem_answers_collect.1 hmem).1
  refine ⟨hbecomes.sound h.session, h.lined.collect hr hthere, ?_, ?_, fun r' k hmem => ?_,
    Refusals.becomes (fun r' fault hmem => ?_) hbecomes, h.acceptors, h.inbound,
    h.turnedAway.becomes hbecomes⟩
  · refine h.owned.mono (.refl _) fun r' k hbegun hclaim => ?_
    by_cases heq : r' = r
    · subst heq
      rw [(hstream k).2 hbegun]
      exact .inl (List.mem_append_right _ List.mem_cons_self)
    · refine hclaim.imp (List.mem_append_left _) fun hopener => .inl ?_
      exact (List.mem_erase_of_ne heq).2 hopener
  · dsimp only
    rw [(l.session.openings.collect_rest r).1, List.map_append]
    exact (Lists.perm_to_first hr).trans h.requests
  · rcases List.mem_append.1 hmem with hold | hnew
    · exact h.granted r' k hold
    · obtain ⟨rfl, hok⟩ := Prod.mk.inj (List.mem_singleton.1 hnew)
      exact (hstream k).1 hok.symm
  · rcases List.mem_append.1 hmem with hold | hnew
    · exact h.refused r' fault hold
    · obtain ⟨rfl, herror⟩ := Prod.mk.inj (List.mem_singleton.1 hnew)
      exact hfault fault herror.symm

/-- What who waits for a request is told of an open scope: nothing before the answer is due, and
then the stream that was begun in its turn, or that the connection has stopped. -/
theorem Sound.collect_eq (h : l.Sound) (hr : r ∈ l.openers) (hopen : l.session.cancelled = false) :
    l.session.collect r =
      if r < l.begun.length ∨ l.session.stopped = true then
        (some (match l.begun[r]? with
          | some k => .ok k
          | none => .error .closed),
          { l.session with openings := (l.session.openings.collect r).2 })
      else (none, l.session) := by
  have hlookup := h.lined.lookup hr
  unfold Session.collect
  rw [if_neg (by rw [hopen]; exact Bool.false_ne_true)]
  by_cases hdue : r < l.begun.length ∨ l.session.stopped = true
  · rw [if_pos hdue] at hlookup ⊢
    rw [Openings.collect_of_some hlookup]
    cases l.begun[r]? <;> rfl
  · rw [if_neg hdue] at hlookup ⊢
    rw [Openings.collect_of_none hlookup]

theorem Sound.collect (h : l.Sound) (hstep : l.step (.collect r) = some l') : l'.Sound := by
  simp only [step, Option.ite_none_right_eq_some] at hstep
  obtain ⟨hr, hstep⟩ := hstep
  cases hcancelled : l.session.cancelled with
  | true =>
    have hclosed := Session.isClosed_of_cancelled hcancelled
    simp only [Session.collect_of_cancelled hcancelled, Option.some.injEq] at hstep
    subst hstep
    refine h.forget hr ?_ (fun r' k => ?_) fun r' fault hmem => ?_
    · rw [List.map_append]
      exact Lists.perm_to_first hr
    · simp
    · rcases List.mem_append.1 hmem with hold | hnew
      · exact h.refused r' fault hold
      · obtain ⟨-, herror⟩ := Prod.mk.inj (List.mem_singleton.1 hnew)
        cases herror
        exact ⟨rfl, hclosed⟩
  | false =>
    rw [h.collect_eq hr hcancelled] at hstep
    by_cases hdue : r < l.begun.length ∨ l.session.stopped = true
    · have hlookup := h.lined.lookup hr
      rw [if_pos hdue] at hstep hlookup
      simp only [Option.some.injEq] at hstep
      subst hstep
      refine h.settle hr (by rw [hlookup]; exact Option.some_ne_none _) (fun k => ?_)
        fun fault hfault => ?_
      · cases l.begun[r]? <;> simp
      · cases hbegun : l.begun[r]? with
        | some k => rw [hbegun] at hfault; cases hfault
        | none =>
          rw [hbegun] at hfault
          cases hfault
          have hle := List.getElem?_eq_none_iff.1 hbegun
          exact ⟨rfl, Session.isClosed_of_stopped (hdue.resolve_left (Nat.not_lt.2 hle))⟩
    · rw [if_neg hdue] at hstep
      simp only [Option.some.injEq] at hstep
      subst hstep
      exact h

/-! ## Streams of the peer -/

theorem Sound.queue (h : l.Sound) (hstep : l.step .queue = some l') : l'.Sound := by
  simp only [step, Option.some.injEq] at hstep
  subst hstep
  cases hclosed : l.session.isClosed with
  | true =>
    rw [Session.queue_of_closed hclosed]
    exact h
  | false =>
    have hbecomes := l.session.becomes_queue
    have hqueued : l.session.queue.2 = { l.session with
        acceptors := l.session.acceptors ++ [l.session.nextAcceptor]
        nextAcceptor := l.session.nextAcceptor + 1 } := by
      unfold Session.queue
      rw [if_neg (by rw [hclosed]; exact Bool.false_ne_true)]
    rw [hqueued] at hbecomes ⊢
    refine ⟨hbecomes.sound h.session, h.lined, h.owned, h.requests, h.granted,
      h.refused.becomes hbecomes, ?_, h.inbound, h.turnedAway.becomes hbecomes⟩
    dsimp only
    rw [← List.append_assoc, List.range_succ]
    exact h.acceptors.append_right _

theorem Sound.leave (h : l.Sound) (hstep : l.step (.leave a) = some l') : l'.Sound := by
  simp only [step, Option.ite_none_right_eq_some, Option.some.injEq] at hstep
  obtain ⟨ha, rfl⟩ := hstep
  have hbecomes := l.session.becomes_leave a
  exact ⟨hbecomes.sound h.session, h.lined, h.owned, h.requests, h.granted,
    h.refused.becomes hbecomes, (Lists.perm_to_second ha).trans h.acceptors, h.inbound,
    h.turnedAway.becomes hbecomes⟩

/-- Who accepts is told: of the first stream that has arrived, or of a fault. -/
theorem Sound.serve (h : l.Sound) (ha : a ∈ l.session.acceptors) {answer : Except Fault Nat}
    (arrived : List Nat) (hstream : answer.toOption.toList ++ arrived = l.session.arrived)
    (hfault : ∀ fault, answer = .error fault → fault = .closed ∧ l.session.isClosed = true) :
    Sound { l with
      session := { l.session with arrived }.leave a
      served := l.served ++ [(a, answer)] } := by
  have hbecomes : l.session.Becomes ({ l.session with arrived }.leave a) :=
    .of_same rfl rfl rfl rfl rfl fun _ => id
  refine ⟨hbecomes.sound h.session, h.lined, h.owned, h.requests, h.granted,
    h.refused.becomes hbecomes, ?_, ?_, Refusals.becomes (fun a' fault hmem => ?_) hbecomes⟩
  · dsimp only [Session.leave]
    rw [List.map_append]
    exact (Lists.perm_to_first ha).trans h.acceptors
  · have hlast : accepted [(a, answer)] = answer.toOption.toList := by
      cases answer <;> rfl
    rw [accepted_append, hlast, List.append_assoc]
    dsimp only [Session.leave]
    rw [hstream]
    exact h.inbound
  · rcases List.mem_append.1 hmem with hold | hnew
    · exact h.turnedAway a' fault hold
    · obtain ⟨-, herror⟩ := Prod.mk.inj (List.mem_singleton.1 hnew)
      exact hfault fault herror.symm

theorem Sound.accept (h : l.Sound) (hstep : l.step (.accept a) = some l') : l'.Sound := by
  simp only [step, Option.ite_none_right_eq_some] at hstep
  obtain ⟨ha, hstep⟩ := hstep
  rcases l.session.accept_cases a with heq | ⟨hclosed, heq⟩ | ⟨k, arrived, harrived, heq⟩ <;>
    rw [heq] at hstep <;> cases hstep
  · exact h
  · refine h.serve ha l.session.arrived rfl fun fault herror => ?_
    cases herror
    exact ⟨rfl, hclosed⟩
  · exact h.serve ha arrived harrived.symm fun fault herror => by cases herror

/-! ## The work of the connection -/

theorem Sound.work {now : Nat} {input output : Pipe} (h : l.Sound)
    (hstep : l.step (.work now input output) = some l') : l'.Sound := by
  obtain ⟨⟨s, input', output'⟩, hmove, rfl⟩ := Option.map_eq_some_iff.1 hstep
  have hbecomes := Session.becomes_step hmove
  have hstirs := Session.stirs_step hmove
  dsimp only
  generalize l.session.begins? = begins at hstirs ⊢
  generalize l.session.arrives? input output = arrives at hstirs ⊢
  cases hstirs with
  | carries hqueue hopenings hstopped harrived hconnection =>
    simp only [Option.toList_none, List.append_nil]
    refine h.goesOn hbecomes hqueue ?_ ?_ (h.owned.goesOn hconnection) (fun _ _ => id) ?_
    · rcases hopenings with heq | heq <;> rw [heq]
      rfl
    · rw [hstopped]
      rcases hopenings with heq | heq <;> rw [heq]
      · exact h.lined
      · exact h.lined.takeUp
    · rw [harrived]
      exact h.inbound
  | @receives stream hqueue hopenings hstopped harrived hconnection =>
    simp only [Option.toList_none, List.append_nil, Option.toList_some]
    refine h.goesOn hbecomes hqueue (by rw [hopenings]) ?_ (h.owned.goesOn hconnection)
      (fun _ _ => id) ?_
    · rw [hopenings, hstopped]
      exact h.lined
    · rw [harrived, ← List.append_assoc, h.inbound]
  | @grants stream request waiting hqueue hfront hopenings hstopped harrived hconnection hback =>
    simp only [Option.toList_none, List.append_nil, Option.toList_some]
    refine h.goesOn hbecomes hqueue ?_ ?_ (h.owned.begins hconnection fun hnobody => hback ?_) ?_ ?_
    · rw [hopenings]
      exact (Openings.grant_keeps hfront stream).1
    · rw [hopenings, hstopped]
      exact h.lined.grant hfront stream
    · rw [h.lined.grant_fst hfront, if_neg hnobody]
      exact Option.some_ne_none stream
    · intro r k hr
      rw [List.getElem?_append_left (List.getElem?_eq_some_iff.1 hr).1]
      exact hr
    · rw [harrived]
      exact h.inbound
  | stops hqueue hopenings hstopped harrived hconnection =>
    simp only [Option.toList_none, List.append_nil]
    refine h.goesOn hbecomes hqueue ?_ ?_ (h.owned.goesOn hconnection) (fun _ _ => id) ?_
    · rw [hopenings]
      exact Openings.refuse_keeps.1
    · rw [hopenings, hstopped]
      exact h.lined.refuse
    · rw [harrived]
      exact h.inbound

/-! ## Runs -/

theorem Sound.cancel (h : l.Sound) : Sound { l with session := l.session.cancel } := by
  obtain ⟨hopenings, hstopped, harrived, hqueue, hconnection⟩ := l.session.cancel_rest
  exact h.quiet l.session.becomes_cancel hqueue hopenings hstopped harrived hconnection

theorem Sound.close (h : l.Sound) : Sound { l with session := l.session.close.2 } := by
  cases hclosing : l.session.closing with
  | true =>
    rw [Session.close_of_closing hclosing]
    exact h
  | false =>
    have hbecomes := l.session.becomes_close
    rw [Session.close_of_open hclosing] at hbecomes ⊢
    obtain ⟨hopenings, hstopped, harrived, hqueue, hconnection⟩ := l.session.cancel_rest
    exact h.quiet hbecomes hqueue hopenings hstopped harrived hconnection

theorem Sound.step (h : l.Sound) (move : Move) (hstep : l.step move = some l') : l'.Sound := by
  cases move with
  | request => exact h.request hstep
  | collect r => exact h.collect hstep
  | abandon r => exact h.abandon hstep
  | queue => exact h.queue hstep
  | accept a => exact h.accept hstep
  | leave a => exact h.leave hstep
  | close => cases hstep; exact h.close
  | cancel => cases hstep; exact h.cancel
  | befall connection =>
    simp only [Ledger.step, Option.ite_none_right_eq_some, Option.some.injEq] at hstep
    obtain ⟨hgoes, rfl⟩ := hstep
    exact h.quiet (l.session.becomes_connection connection) ⟨rfl, rfl⟩ rfl rfl rfl hgoes
  | work now input output => exact h.work hstep

/-- A session that begins, alone or with a process that was started for it. -/
inductive Begins : Session → Prop
  | start (key peerAddr : String) (role : Role) : Begins (.start key peerAddr role)
  | withChild (key peerAddr : String) (pid : Nat) : Begins (.withChild key peerAddr pid)

theorem sound_start (h : Begins s) : (start s).Sound := by
  have howned : ∀ role, Owned (.ofRole role) [] [] [] := fun role =>
    ⟨by cases role <;> decide, rfl, fun _ hk => absurd hk List.not_mem_nil,
      fun _ hk => absurd hk List.not_mem_nil, List.nodup_nil, fun _ _ hr => by cases hr⟩
  cases h with
  | start key peerAddr role =>
    exact ⟨.start key peerAddr role, Openings.lined_empty, howned role, .nil,
      fun _ _ hmem => absurd hmem List.not_mem_nil, fun _ _ hmem => absurd hmem List.not_mem_nil,
      .nil, rfl, fun _ _ hmem => absurd hmem List.not_mem_nil⟩
  | withChild key peerAddr pid =>
    exact ⟨.withChild key peerAddr pid, Openings.lined_empty, howned .client, .nil,
      fun _ _ hmem => absurd hmem List.not_mem_nil, fun _ _ hmem => absurd hmem List.not_mem_nil,
      .nil, rfl, fun _ _ hmem => absurd hmem List.not_mem_nil⟩

/-- Once the connection has stopped, everybody who waits is told at the next look. -/
theorem Sound.ended (h : l.Sound) (hstopped : l.session.stopped = true) (hr : r ∈ l.openers) :
    ∃ answer, (l.session.collect r).1 = some answer ∧
      (l.begun.length ≤ r → answer = .error .closed) := by
  cases hcancelled : l.session.cancelled with
  | true => exact ⟨_, by rw [Session.collect_of_cancelled hcancelled], fun _ => rfl⟩
  | false =>
    rw [h.collect_eq hr hcancelled, if_pos (.inr hstopped)]
    refine ⟨_, rfl, fun hle => ?_⟩
    rw [List.getElem?_eq_none hle]

theorem Sound.welcomed (hopen : l.session.isClosed = false) {acceptors arrived : List Nat}
    (hacceptors : l.session.acceptors = a :: acceptors)
    (harrived : l.session.arrived = k :: arrived) : (l.session.accept a).1 = some (.ok k) := by
  have hcancelled : l.session.cancelled = false := (Bool.or_eq_false_iff.1 hopen).1
  unfold Session.accept
  rw [if_neg (by rw [hcancelled]; exact Bool.false_ne_true), hacceptors, List.head?_cons,
    if_pos rfl, harrived]

/-- **Every stream is accounted for.** However a session is used, by whoever asks for streams,
accepts them and gives up, whatever befalls its connection and whenever it stops: each request is
answered at most once and in its turn, with the stream that was begun in that turn or, if the
connection stopped first, with word that it is closed; a stream that nobody takes is let go of; and
the streams of the peer are accepted one by one in the order in which they came. -/
theorem accounts_balance {session : Session} (hbegins : Begins session) {moves : List Move}
    (hrun : runFrom step (start session) moves = some l) : l.Balanced := by
  have h : l.Sound :=
    runFrom_keeps (fun l move l' hl hstep => hl.step move hstep) (sound_start hbegins) hrun
  exact {
    requests := h.requests
    recorded := h.owned.counted
    distinct := h.owned.distinct
    granted := h.granted
    refused := h.refused
    line := h.lined.line
    due := fun r hr => h.lined.lookup hr
    ended := fun hstopped r hr => h.ended hstopped hr
    unclaimed := h.owned.unclaimed
    acceptors := h.acceptors
    inbound := h.inbound
    turnedAway := h.turnedAway
    welcomed := fun hopen a acceptors k arrived ha hk => Sound.welcomed hopen ha hk }

/-- The word of the peer that it begins the stream 2. -/
def arrival : Packet :=
  { kind := .window, stream := 2, marks := { opens := true } }

/-- Of three who ask for a stream the first gives up before it is begun, the second has the next
one, and the third is still in line when the session is closed; of two who accept the first leaves
before a stream arrives. -/
def impatience : List Move :=
  let idle : Pipe := { capacity := 0 }
  let carrying : Pipe := { capacity := 12, data := arrival.encode }
  [.request, .request, .work 0 idle idle, .abandon 0, .request, .work 0 idle idle,
    .work 0 idle idle, .collect 1, .work 0 idle idle, .queue, .queue, .leave 0,
    .work 0 carrying idle, .work 0 carrying idle, .work 0 carrying idle, .accept 1, .close,
    .work 0 idle idle, .work 0 idle idle, .collect 2]

/-- Nobody has a stream that was meant for another, and nobody waits for ever. -/
theorem accounts_balance_impatience :
    ∃ l, runFrom step (start (.start "far" "peer" .client)) impatience = some l ∧
      l.begun = [1, 3] ∧ l.told = [(1, .ok 3), (2, .error .closed)] ∧ l.dropped = [0] ∧
      l.arrivals = [2] ∧ l.served = [(1, .ok 2)] ∧ l.departed = [0] ∧ l.Balanced := by
  have hopened : (runFrom step (start (.start "far" "peer" .client)) impatience).map
      (fun l => (l.begun, l.told, l.dropped)) =
        some ([1, 3], [(1, .ok 3), (2, .error .closed)], [0]) := by decide +kernel
  have hserved : (runFrom step (start (.start "far" "peer" .client)) impatience).map
      (fun l => (l.arrivals, l.served, l.departed)) =
        some ([2], [(1, .ok 2)], [0]) := by decide +kernel
  obtain ⟨l, hrun, hopened⟩ := Option.map_eq_some_iff.1 hopened
  rw [hrun, Option.map_some, Option.some.injEq, Prod.mk.injEq, Prod.mk.injEq] at hserved
  rw [Prod.mk.injEq, Prod.mk.injEq] at hopened
  exact ⟨l, hrun, hopened.1, hopened.2.1, hopened.2.2, hserved.1, hserved.2.1, hserved.2.2,
    accounts_balance (.start "far" "peer" .client) hrun⟩

end Ledger

end Switchboard
