import Switchboard.Proofs.Streams.Ends
import Switchboard.Proofs.Streams.Ledger

/-!
# Streams that were asked for

From the request of a stream to its end: an open session hands a stream that it begins to the
request in its turn, keeps it there until it is collected, and leaves it alone from then on but for
what the peer sends (`Session.proceeds_step`).
-/

namespace Switchboard

open Mux

namespace Session

variable {s s' : Session} {now request k : Nat} {e : StreamEnd} {input output input' output' : Pipe}

/-- The connection is tidy, and no request is remembered twice or before it is made. -/
structure Tidy (s : Session) : Prop where
  connection : s.connection.Tidy
  openings : s.openings.Tended (· < s.openings.next)

/-- The stream that waits for who made a request. -/
def granted? (request : Nat) (s : Session) : Option Nat :=
  (s.openings.answers.lookup request).join

/-- What an open session becomes by its own work and by what its peer sends. -/
structure Proceeds (s s' : Session) : Prop where
  tidy : s'.Tidy
  carries : ∀ k e, s.connection.Carries k e →
    ∃ more e', s'.connection.Carries k e' ∧ e.Grows more e'
  /-- A stream stays granted, -/
  stays : ∀ request k, s.granted? request = some k → s'.granted? request = some k
  /-- and is there from the beginning. -/
  granted : ∀ request k, s'.granted? request = some k →
    s.granted? request = some k ∨ ∃ e, s'.connection.Carries k e ∧ e.inbox = .empty

theorem Tidy.start (key peerAddr : String) (role : Role) : (start key peerAddr role).Tidy where
  connection := Connection.tidy_ofRole role
  openings := ⟨List.nodup_nil, nofun⟩

theorem granted?_iff (h : s.Tidy) :
    s.granted? request = some k ↔ (request, some k) ∈ s.openings.answers := by
  unfold granted?
  rw [Option.join_eq_some_iff]
  exact ⟨Openings.mem_of_lookup, h.openings.lookup_eq⟩

/-! ## The work of the connection -/

theorem Proceeds.of_connection (h : s.Tidy) (hconnection : s.connection.Proceeds s'.connection)
    (hnext : s'.openings.next = s.openings.next)
    (hawaited : s'.openings.awaited = s.openings.awaited)
    (hanswers : s'.openings.answers = s.openings.answers) : s.Proceeds s' := by
  have hgranted : ∀ request, s'.granted? request = s.granted? request := fun request => by
    unfold granted?
    rw [hanswers]
  refine ⟨⟨hconnection.tidy h.connection, ?_⟩, hconnection.carries, fun request k hk => ?_,
    fun request k hk => .inl ?_⟩
  · have hremembered : s'.openings.remembered = s.openings.remembered := by
      unfold Openings.remembered
      rw [hawaited, hanswers]
    exact hnext ▸ h.openings.of_perm (hremembered ▸ List.Perm.refl _)
  · rw [hgranted, hk]
  · rw [← hgranted, hk]

theorem proceeds_begin (h : s.Tidy) (hopen : s.cancelled = false) (now : Nat) :
    s.Proceeds (s.begin now) := by
  unfold begin
  dsimp only
  rw [if_neg (by simp [hopen])]
  exact .of_connection h (.of_same rfl rfl rfl rfl rfl) rfl rfl rfl

theorem proceeds_awaited {waiting : List Nat} {c : Connection} (h : s.Tidy)
    (hwaiting : s.openings.waiting = request :: waiting)
    (hbegin : s.connection.begin? = (.stream k, c)) {openings : Openings}
    (hgrant : s.openings.grant k = (none, openings)) :
    s.Proceeds { s with connection := c, openings } := by
  obtain ⟨-, hproceeds, hcarries⟩ := Connection.carries_begin? h.connection hbegin
  have htended := h.openings.grant k
  rw [hgrant] at htended
  rw [Openings.grant_of_waiting hwaiting] at hgrant
  split at hgrant
  · obtain ⟨-, rfl⟩ := Prod.mk.inj hgrant
    have htidy : Tidy { s with
        connection := c
        openings := { s.openings with
          waiting
          awaited := s.openings.awaited.erase request
          answers := (request, some k) :: s.openings.answers } } :=
      ⟨hproceeds.tidy h.connection, htended⟩
    refine ⟨htidy, hproceeds.carries, fun r j hj => ?_, fun r j hj => ?_⟩
    · exact (granted?_iff htidy).2 (List.mem_cons_of_mem _ ((granted?_iff h).1 hj))
    · rcases List.mem_cons.1 ((granted?_iff htidy).1 hj) with heq | hold
      · cases heq
        exact .inr ⟨_, hcarries, rfl⟩
      · exact .inl ((granted?_iff h).2 hold)
  · cases hgrant

theorem proceeds_handed_back {waiting : List Nat} {c : Connection} (h : s.Tidy)
    (hwaiting : s.openings.waiting = request :: waiting)
    (hbegin : s.connection.begin? = (.stream k, c)) {openings : Openings} {j : Nat}
    (hgrant : s.openings.grant k = (some j, openings)) :
    s.Proceeds { s with openings, connection := { c.drop j with woken := c.woken } } := by
  obtain ⟨hk, hproceeds, hcarries⟩ := Connection.carries_begin? h.connection hbegin
  have htidy := hproceeds.tidy h.connection
  rw [Openings.grant_of_waiting hwaiting] at hgrant
  split at hgrant
  · cases hgrant
  · obtain ⟨hj, rfl⟩ := Prod.mk.inj hgrant
    cases hj
    have hdrop := Connection.tidy_drop htidy fun _ => hcarries.begun
    refine ⟨⟨⟨hdrop.running, hdrop.next, hdrop.ends, hdrop.orders⟩,
      ⟨h.openings.once, h.openings.opening⟩⟩, fun i e hi => ?_, fun _ _ hi => hi,
      fun _ _ hi => .inl hi⟩
    obtain ⟨more, e', hi', hgrows⟩ := hproceeds.carries i e hi
    have hkept := hi'.drop htidy.running (Nat.ne_of_lt (hk ▸ hi.begun))
    exact ⟨more, e', ⟨hkept.only, hkept.own, hkept.begun, hkept.kept⟩, hgrows⟩

theorem proceeds_grant (h : s.Tidy) (hopen : s.grant.cancelled = false) :
    s.Proceeds s.grant := by
  unfold grant at hopen ⊢
  split
  · exact .of_connection h (.refl _) rfl rfl rfl
  · rename_i hsome
    obtain ⟨request, waiting, hwaiting⟩ : ∃ request waiting,
        s.openings.waiting = request :: waiting := by
      cases heq : s.openings.waiting with
      | nil => simp [heq] at hsome
      | cons request waiting => exact ⟨request, waiting, rfl⟩
    rw [if_neg hsome] at hopen
    split
    · rename_i hbegin
      rw [hbegin] at hopen
      cases hopen
    · rename_i c hbegin
      exact .of_connection h (Connection.proceeds_of_later hbegin) rfl rfl rfl
    · rename_i k c hbegin
      split
      · rename_i hgrant
        exact proceeds_awaited h hwaiting hbegin hgrant
      · rename_i hgrant
        exact proceeds_handed_back h hwaiting hbegin hgrant

/-- **An open session keeps what it has granted.** -/
theorem proceeds_step (h : s.Tidy) (hstep : s.step now input output = some (s', input', output'))
    (hopen : s'.cancelled = false) : s.Proceeds s' := by
  have hbefore : s.cancelled = false := by
    cases hcancelled : s.cancelled with
    | false => rfl
    | true => rw [(becomes_step hstep).cancelled hcancelled] at hopen; cases hopen
  unfold step at hstep
  split at hstep
  · cases hstep
  · split at hstep <;> cases hstep
    exact proceeds_begin h hbefore now
  · have heq : s' = s.grant := by
      dsimp only at hstep
      split at hstep <;> cases hstep <;> rfl
    subst heq
    exact proceeds_grant h hopen
  · have hpump := s.connection.proceeds_pump input output
    split at hstep <;> rename_i heq <;> rw [heq] at hpump <;> cases hstep
    · exact .of_connection h hpump rfl rfl rfl
    · exact .of_connection h hpump rfl rfl rfl
    · exact .of_connection h hpump rfl rfl rfl
    · cases hopen
  · dsimp only at hstep
    split at hstep
    · cases hstep
      cases hopen
    · split at hstep
      · cases hstep
        exact .of_connection h (.of_same rfl rfl rfl rfl rfl) rfl rfl rfl
      · cases hstep
        cases hopen
      · split at hstep <;> cases hstep
        cases hopen

/-! ## What its users do -/

theorem tidy_request (h : s.Tidy) : s.request.2.Tidy := by
  unfold Session.request
  split
  · exact h
  · refine ⟨⟨h.connection.running, h.connection.next, h.connection.ends, h.connection.orders⟩, ?_⟩
    exact h.openings.ask (fun _ hr => hr) fun r hr => by
      change r < s.openings.next + 1
      omega

/-- An open session takes a request, for which nothing was granted before. -/
theorem request_of_open (h : s.Tidy) (hopen : s.isClosed = false) :
    ∃ s', s.request = (.ok s.openings.next, s') ∧ s'.isClosed = false ∧ s'.Tidy ∧
      s'.granted? s.openings.next = none := by
  have hrequest : s.request = (.ok s.openings.next, { s with
      openings := s.openings.ask.2, connection := { s.connection with woken := true } }) := by
    unfold Session.request
    rw [if_neg (by rw [hopen]; decide)]
    rfl
  have htidy := tidy_request h
  rw [hrequest] at htidy
  refine ⟨_, hrequest, hopen, htidy, ?_⟩
  change (s.openings.answers.lookup s.openings.next).join = none
  cases hlookup : s.openings.answers.lookup s.openings.next with
  | none => rfl
  | some answer =>
    have hremembered := Openings.mem_remembered.2 (.inr ⟨_, Openings.mem_of_lookup hlookup⟩)
    exact absurd (h.openings.opening _ hremembered) (Nat.lt_irrefl _)

theorem collect_of_open (h : s.Tidy) (hsound : s.Sound) (hopen : s.isClosed = false)
    (request : Nat) :
    s.granted? request = none ∧ s.collect request = (none, s) ∨
      ∃ k s', s.granted? request = some k ∧ s.collect request = (some (.ok k), s') ∧
        s'.isClosed = false ∧ s'.Tidy ∧ s'.connection = s.connection := by
  obtain ⟨hcancelled, hstopped⟩ := Bool.or_eq_false_iff.1 hopen
  unfold Session.collect granted?
  rw [if_neg (by rw [hcancelled]; decide)]
  cases hlookup : s.openings.answers.lookup request with
  | none =>
    left
    rw [Openings.collect_of_none hlookup]
    exact ⟨rfl, rfl⟩
  | some answer =>
    have hmem := Openings.mem_of_lookup hlookup
    cases answer with
    | none => rw [hsound.refused request hmem] at hstopped; cases hstopped
    | some k =>
      right
      have hcollect := h.openings.collect hmem fun _ _ hr => hr
      rw [Openings.collect_of_some hlookup] at hcollect ⊢
      exact ⟨k, _, rfl, rfl, hopen, ⟨h.connection, hcollect⟩, rfl⟩

/-- To give a request up lets go of the stream that was granted. -/
theorem tidy_abandon (h : s.Tidy)
    (hbegun : ∀ k, s.granted? request = some k → s.connection.isOwn k = true →
      k < s.connection.nextStream) :
    (s.abandon request).Tidy ∧ (s.abandon request).isClosed = s.isClosed ∧
      ∀ k, s.granted? request = some k → ¬ (s.abandon request).connection.Holds k := by
  have htended : (s.openings.abandon request).2.Tended (· < s.openings.next) :=
    h.openings.abandon fun _ _ hr => hr
  have hnext : (s.openings.abandon request).2.next = s.openings.next :=
    (s.openings.collect_rest request).1
  have hfst : (s.openings.abandon request).1 = s.granted? request := Openings.abandon_fst
  rw [← hnext] at htended
  unfold Session.abandon
  rw [← hfst] at hbegun ⊢
  split
  · rename_i heq
    rw [heq] at htended ⊢
    exact ⟨⟨h.connection, htended⟩, rfl, nofun⟩
  · rename_i k openings heq
    rw [heq] at htended hbegun ⊢
    refine ⟨⟨Connection.tidy_drop h.connection (hbegun k rfl), htended⟩, rfl, fun j hj => ?_⟩
    cases hj
    exact Connection.not_holds_drop _ k

end Session

end Switchboard
