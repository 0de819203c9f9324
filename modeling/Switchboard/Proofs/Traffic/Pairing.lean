import Switchboard.Proofs.Lists
import Switchboard.Proofs.Traffic.Answering
import Switchboard.Proofs.Traffic.Asking

/-!
# Who uses which stream

A stream is told to one call and a call is told of one stream: `Pairing`. At the far end each stream
that nobody answers yet is on its way there, once: `Arrivals`.
-/

namespace Switchboard

namespace Caller

def stream? (c : Caller) : Option StreamRef :=
  match c.call.stage with
  | .writing ref .. | .reading ref .. | .finishing ref _ => some ref
  | .asking | .opening _ | .done _ => none

/-- Whether a call has asked for a stream, or has ended. -/
def hasAsked (c : Caller) : Bool :=
  c.rank != 0

/-- A call that has got so far with a stream uses no other one. -/
theorem AtStrand.stream_eq {c : Caller} {k : Nat} {strand : Strand} (h : c.AtStrand k strand)
    {ref : StreamRef} (href : c.stream? = some ref) : ref = ⟨0, k⟩ := by
  unfold AtStrand at h
  unfold stream? at href
  split at href
  · rename_i hs
    rw [hs] at h
    cases href
    exact h.1
  · rename_i hs
    rw [hs] at h
    cases href
    exact h.1
  · rename_i hs
    rw [hs] at h
    cases href
    exact h.1
  all_goals cases href

end Caller

namespace Traffic

def Opening (callers : List Caller) (i request : Nat) : Prop :=
  ∃ c, callers[i]? = some c ∧ c.call.stage = .opening request

def Free (strands : List Strand) (k : Nat) : Prop :=
  ∃ strand, strands[k]? = some strand ∧ strand.caller? = none

/-- A stream is the answer to a request and waits for who made it. -/
def Promised (o : Mux.Openings) (k : Nat) : Prop :=
  ∃ request, (request, some k) ∈ o.answers

def asker (callers : List Caller) (strand : Strand) : Option Caller :=
  strand.caller?.bind (callers[·]?)

/-- A call that goes on has asked for a stream if it had before. -/
theorem countP_hasAsked_le {callers : List Caller} {i : Nat} {c c' : Caller}
    (hc : callers[i]? = some c) (h : c.hasAsked = true → c'.hasAsked = true) :
    callers.countP Caller.hasAsked ≤ (callers.set i c').countP Caller.hasAsked := by
  have hcount := Lists.countP_set hc Caller.hasAsked (b := c')
  have hmore : c.hasAsked.toNat ≤ c'.hasAsked.toNat := by
    cases hasked : c.hasAsked with
    | false => exact Nat.zero_le _
    | true => exact Nat.le_of_eq (by rw [h hasked])
  omega

/-- Calls and streams belong together in pairs, and who knows a reply has a stream on which a router
was set to work. -/
structure Pairing (callers : List Caller) (strands : List Strand) : Prop where
  placed : ∀ (i : Nat) (c : Caller) (ref : StreamRef), callers[i]? = some c → c.stream? = some ref →
    ∃ strand : Strand, strands[ref.stream]? = some strand ∧ strand.caller? = some i
  known : ∀ (k : Nat) (strand : Strand) (i : Nat), strands[k]? = some strand →
    strand.caller? = some i → i < callers.length
  one : ∀ (k k' : Nat) (strand strand' : Strand) (i : Nat), strands[k]? = some strand →
    strands[k']? = some strand' → strand.caller? = some i → strand'.caller? = some i → k = k'
  heard : ∀ (i : Nat) (c : Caller), callers[i]? = some c → c.HasReply →
    ∃ (k : Nat) (strand : Strand), strands[k]? = some strand ∧ strand.caller? = some i ∧
      strand.invoked ≠ []

/-- A stream on which something happens stays where it is, and so do all others. -/
theorem strand_set {strands : List Strand} {k j : Nat} {strand after s : Strand}
    (hk : strands[k]? = some strand) (hcaller : after.caller? = strand.caller?)
    (hinvoked : strand.invoked ≠ [] → after.invoked ≠ []) (hs : strands[j]? = some s) :
    ∃ s' : Strand, (strands.set k after)[j]? = some s' ∧ s'.caller? = s.caller? ∧
      (s.invoked ≠ [] → s'.invoked ≠ []) := by
  rcases Lists.getElem?_set_of hs k after with ⟨rfl, hafter⟩ | ⟨-, hs'⟩
  · rw [hk] at hs
    cases hs
    exact ⟨after, hafter, hcaller, hinvoked⟩
  · exact ⟨s, hs', rfl, id⟩

namespace Pairing

variable {callers : List Caller} {strands : List Strand} {i k : Nat} {c' : Caller}
  {strand after : Strand}

theorem nil : Pairing [] [] where
  placed i c ref hc := by cases hc
  known k strand i hk := by cases hk
  one k k' strand strand' i hk := by cases hk
  heard i c hc := by cases hc

theorem issue (h : Pairing callers strands) (hstream : c'.stream? = none)
    (hreply : ¬ c'.HasReply) : Pairing (callers ++ [c']) strands where
  placed i c ref hc href := by
    rcases Lists.getElem?_concat_cases hc with hc | ⟨-, rfl⟩
    · exact h.placed i c ref hc href
    · rw [hstream] at href
      cases href
  known k strand i hk hi := by
    rw [List.length_append]
    exact Nat.lt_add_right _ (h.known k strand i hk hi)
  one := h.one
  heard i c hc hheard := by
    rcases Lists.getElem?_concat_cases hc with hc | ⟨-, rfl⟩
    · exact h.heard i c hc hheard
    · exact absurd hheard hreply

theorem begin (h : Pairing callers strands) (hcaller : after.caller? = none) :
    Pairing callers (strands ++ [after]) := by
  have hold : ∀ {k : Nat} {s : Strand}, strands[k]? = some s → (strands ++ [after])[k]? = some s :=
    fun hk => (List.getElem?_append_left (List.getElem?_eq_some_iff.1 hk).1).trans hk
  have hnew : ∀ {k i : Nat} {s : Strand}, (strands ++ [after])[k]? = some s →
      s.caller? = some i → strands[k]? = some s := by
    intro k i s hk hi
    rcases Lists.getElem?_concat_cases hk with hk | ⟨-, rfl⟩
    · exact hk
    · rw [hcaller] at hi
      cases hi
  refine ⟨fun i c ref hc href => ?_, fun k s i hk hi => h.known k s i (hnew hk hi) hi,
    fun k k' s s' i hk hk' hi hi' => h.one k k' s s' i (hnew hk hi) (hnew hk' hi') hi hi',
    fun i c hc hreply => ?_⟩
  · obtain ⟨s, hk, hi⟩ := h.placed i c ref hc href
    exact ⟨s, hold hk, hi⟩
  · obtain ⟨k, s, hk, hi, hworked⟩ := h.heard i c hc hreply
    exact ⟨k, s, hold hk, hi, hworked⟩

theorem putStrand (h : Pairing callers strands) (hk : strands[k]? = some strand)
    (hcaller : after.caller? = strand.caller?)
    (hinvoked : strand.invoked ≠ [] → after.invoked ≠ []) :
    Pairing callers (strands.set k after) := by
  have hget : ∀ {j : Nat} {s : Strand}, (strands.set k after)[j]? = some s →
      ∃ s', strands[j]? = some s' ∧ s'.caller? = s.caller? := by
    intro j s hs
    rcases Lists.getElem?_set_cases hs with ⟨rfl, rfl⟩ | ⟨-, hs⟩
    · exact ⟨strand, hk, hcaller.symm⟩
    · exact ⟨s, hs, rfl⟩
  refine ⟨fun i c ref hc href => ?_, fun j s i hs hi => ?_,
    fun j j' s s' i hs hs' hi hi' => ?_, fun i c hc hreply => ?_⟩
  · obtain ⟨s, hs, hi⟩ := h.placed i c ref hc href
    obtain ⟨s', hs', hcall, -⟩ := strand_set hk hcaller hinvoked hs
    exact ⟨s', hs', hcall.trans hi⟩
  · obtain ⟨r, hr, hcall⟩ := hget hs
    exact h.known j r i hr (hcall.trans hi)
  · obtain ⟨r, hr, hcall⟩ := hget hs
    obtain ⟨r', hr', hcall'⟩ := hget hs'
    exact h.one j j' r r' i hr hr' (hcall.trans hi) (hcall'.trans hi')
  · obtain ⟨j, s, hs, hi, hworked⟩ := h.heard i c hc hreply
    obtain ⟨s', hs', hcall, hstays⟩ := strand_set hk hcaller hinvoked hs
    exact ⟨j, s', hs', hcall.trans hi, hstays hworked⟩

theorem putCaller (h : Pairing callers strands) (hstream : c'.stream? = none)
    (hreply : ¬ c'.HasReply) : Pairing (callers.set i c') strands where
  placed j c ref hc href := by
    rcases Lists.getElem?_set_cases hc with ⟨-, rfl⟩ | ⟨-, hc⟩
    · rw [hstream] at href
      cases href
    · exact h.placed j c ref hc href
  known k strand j hk hj := by
    rw [List.length_set]
    exact h.known k strand j hk hj
  one := h.one
  heard j c hc hheard := by
    rcases Lists.getElem?_set_cases hc with ⟨-, rfl⟩ | ⟨-, hc⟩
    · exact absurd hheard hreply
    · exact h.heard j c hc hheard

/-- A call goes on and its stream with it. The call has no other stream, and nobody else has this
one. -/
theorem putOwner (h : Pairing callers strands) (hi : i < callers.length)
    (hk : strands[k]? = some strand)
    (hother : ∀ (j : Nat) (s : Strand), strands[j]? = some s → s.caller? = some i → j = k)
    (hown : strand.caller? = none ∨ strand.caller? = some i) (hcaller : after.caller? = some i)
    (hstream : ∀ ref, c'.stream? = some ref → ref.stream = k)
    (hheard : c'.HasReply → after.invoked ≠ []) :
    Pairing (callers.set i c') (strands.set k after) := by
  have hafter : (strands.set k after)[k]? = some after :=
    List.getElem?_set_self (List.getElem?_eq_some_iff.1 hk).1
  have hstays : ∀ {j m : Nat} {s : Strand}, m ≠ i → strands[j]? = some s → s.caller? = some m →
      (strands.set k after)[j]? = some s := by
    intro j m s hne hs hm
    rcases Lists.getElem?_set_of hs k after with ⟨rfl, -⟩ | ⟨-, hs'⟩
    · rw [hk] at hs
      cases hs
      rw [hm] at hown
      rcases hown with hnone | hsame
      · cases hnone
      · exact absurd (Option.some.inj hsame) hne
    · exact hs'
  have hget : ∀ {j : Nat} {s : Strand}, (strands.set k after)[j]? = some s →
      j = k ∧ s = after ∨ s.caller? ≠ some i ∧ strands[j]? = some s := by
    intro j s hs
    rcases Lists.getElem?_set_cases hs with heq | ⟨hne, hs⟩
    · exact .inl heq
    · exact .inr ⟨fun hi => hne (hother j s hs hi), hs⟩
  refine ⟨fun j c ref hc href => ?_, fun j s m hs hm => ?_,
    fun j j' s s' m hs hs' hm hm' => ?_, fun j c hc hreply => ?_⟩
  · rcases Lists.getElem?_set_cases hc with ⟨rfl, rfl⟩ | ⟨hne, hc⟩
    · rw [hstream ref href]
      exact ⟨after, hafter, hcaller⟩
    · obtain ⟨s, hs, hj⟩ := h.placed j c ref hc href
      exact ⟨s, hstays hne hs hj, hj⟩
  · rw [List.length_set]
    rcases hget hs with ⟨rfl, rfl⟩ | ⟨-, hs⟩
    · rw [hcaller] at hm
      cases hm
      exact hi
    · exact h.known j s m hs hm
  · rcases hget hs with ⟨rfl, rfl⟩ | ⟨hne, hs⟩ <;> rcases hget hs' with ⟨rfl, rfl⟩ | ⟨hne', hs'⟩
    · rfl
    · exact absurd (hm'.trans (hm.symm.trans hcaller)) hne'
    · exact absurd (hm.trans (hm'.symm.trans hcaller)) hne
    · exact h.one j j' s s' m hs hs' hm hm'
  · rcases Lists.getElem?_set_cases hc with ⟨rfl, rfl⟩ | ⟨hne, hc⟩
    · exact ⟨k, after, hafter, hcaller, hheard hreply⟩
    · obtain ⟨n, s, hs, hj, hworked⟩ := h.heard j c hc hreply
      exact ⟨n, s, hstays hne hs hj, hj, hworked⟩

end Pairing

/-! ## At the far end -/

/-- How it is with the streams on their way to the far end and the loop that accepts them there:
each that nobody answers yet is on its way, once. -/
structure Arrivals (router : Router) (closed : Bool) (strands : List Strand) (unseen : List Nat)
    (arrived acceptors : List Nat) (serving : Serving) : Prop where
  session : serving.session = 1
  responder : serving.responder = .router router
  stage : match serving.stage with
    | .asking => acceptors = []
    | .accepting acceptor => acceptors = [acceptor]
    | .done => closed = true
  once : (unseen ++ arrived).Nodup
  mem_iff : ∀ k, k ∈ unseen ++ arrived ↔
    ∃ strand, strands[k]? = some strand ∧ strand.service? = none
  few : unseen.length + arrived.length ≤ strands.length

/-- Something happens on a stream that is answered, or not, as before. -/
theorem Arrivals.set {router : Router} {closed : Bool} {strands : List Strand}
    {unseen arrived acceptors : List Nat} {serving : Serving}
    (h : Arrivals router closed strands unseen arrived acceptors serving) {k : Nat}
    {strand after : Strand} (hk : strands[k]? = some strand)
    (hservice : after.service? = none ↔ strand.service? = none) :
    Arrivals router closed (strands.set k after) unseen arrived acceptors serving := by
  refine ⟨h.session, h.responder, h.stage, h.once, fun j => (h.mem_iff j).trans ?_, ?_⟩
  · constructor
    · rintro ⟨s, hs, hnone⟩
      rcases Lists.getElem?_set_of hs k after with ⟨rfl, hafter⟩ | ⟨-, hs⟩
      · rw [hk] at hs
        cases hs
        exact ⟨after, hafter, hservice.2 hnone⟩
      · exact ⟨s, hs, hnone⟩
    · rintro ⟨s, hs, hnone⟩
      rcases Lists.getElem?_set_cases hs with ⟨rfl, rfl⟩ | ⟨-, hs⟩
      · exact ⟨strand, hk, hservice.1 hnone⟩
      · exact ⟨s, hs, hnone⟩
  · rw [List.length_set]
    exact h.few

theorem Arrivals.mono {router : Router} {closed closed' : Bool} {strands : List Strand}
    {unseen arrived acceptors : List Nat} {serving : Serving}
    (h : Arrivals router closed strands unseen arrived acceptors serving)
    (hclosed : closed = true → closed' = true) :
    Arrivals router closed' strands unseen arrived acceptors serving := by
  refine ⟨h.session, h.responder, ?_, h.once, h.mem_iff, h.few⟩
  have hstage := h.stage
  split at hstage
  · exact hstage
  · exact hstage
  · exact hclosed hstage

theorem Arrivals.begin {router : Router} {closed : Bool} {strands : List Strand}
    {unseen arrived acceptors : List Nat} {serving : Serving}
    (h : Arrivals router closed strands unseen arrived acceptors serving) {strand : Strand}
    (hservice : strand.service? = none) :
    Arrivals router closed (strands ++ [strand]) (unseen ++ [strands.length]) arrived acceptors
      serving := by
  have hperm : ((unseen ++ [strands.length]) ++ arrived).Perm
      (strands.length :: (unseen ++ arrived)) := by
    rw [List.append_assoc]
    exact List.perm_middle
  have hnew : strands.length ∉ unseen ++ arrived := by
    intro hin
    obtain ⟨s, hs, -⟩ := (h.mem_iff _).1 hin
    exact Nat.lt_irrefl _ (List.getElem?_eq_some_iff.1 hs).1
  refine ⟨h.session, h.responder, h.stage, hperm.symm.nodup (List.nodup_cons.2 ⟨hnew, h.once⟩),
    fun j => hperm.mem_iff.trans (List.mem_cons.trans ?_), ?_⟩
  · constructor
    · rintro (rfl | hin)
      · exact ⟨strand, List.getElem?_concat_length, hservice⟩
      · obtain ⟨s, hs, hnone⟩ := (h.mem_iff j).1 hin
        exact ⟨s, (List.getElem?_append_left (List.getElem?_eq_some_iff.1 hs).1).trans hs, hnone⟩
    · rintro ⟨s, hs, hnone⟩
      rcases Lists.getElem?_concat_cases hs with hs | ⟨rfl, -⟩
      · exact .inr ((h.mem_iff j).2 ⟨s, hs, hnone⟩)
      · exact .inl rfl
  · have := h.few
    rw [List.length_append, List.length_append, List.length_singleton, List.length_singleton]
    omega

theorem Arrivals.arrive {router : Router} {closed : Bool} {strands : List Strand}
    {unseen arrived acceptors : List Nat} {serving : Serving}
    (h : Arrivals router closed strands unseen arrived acceptors serving) {k : Nat}
    (hk : k ∈ unseen) :
    Arrivals router closed strands (unseen.erase k) (arrived ++ [k]) acceptors serving := by
  have hperm : (unseen.erase k ++ (arrived ++ [k])).Perm (unseen ++ arrived) := by
    rw [← List.append_assoc]
    refine (List.perm_append_singleton k _).trans ?_
    exact (List.Perm.append_right _ (List.perm_cons_erase hk)).symm
  refine ⟨h.session, h.responder, h.stage, hperm.symm.nodup h.once,
    fun j => hperm.mem_iff.trans (h.mem_iff j), ?_⟩
  have := h.few
  have := List.length_pos_of_mem hk
  rw [List.length_erase_of_mem hk, List.length_append, List.length_singleton]
  omega

/-- The loop that accepts streams takes the oldest one, and is to queue up for another. -/
theorem Arrivals.accept {router : Router} {closed : Bool} {strands : List Strand}
    {unseen arrived acceptors : List Nat} {serving : Serving} {k : Nat}
    (h : Arrivals router closed strands unseen (k :: arrived) acceptors serving)
    {after : Strand} (hservice : after.service? ≠ none) :
    Arrivals router closed (strands.set k after) unseen arrived []
      { serving with stage := .asking } := by
  have hperm : (unseen ++ k :: arrived).Perm (k :: (unseen ++ arrived)) := List.perm_middle
  obtain ⟨hnotin, honce⟩ := List.nodup_cons.1 (hperm.nodup_iff.1 h.once)
  refine ⟨h.session, h.responder, rfl, honce, fun j => ?_, ?_⟩
  · constructor
    · intro hin
      obtain ⟨s, hs, hnone⟩ := (h.mem_iff j).1 (hperm.mem_iff.2 (List.mem_cons_of_mem _ hin))
      rcases Lists.getElem?_set_of hs k after with ⟨rfl, -⟩ | ⟨-, hs⟩
      · exact absurd hin hnotin
      · exact ⟨s, hs, hnone⟩
    · rintro ⟨s, hs, hnone⟩
      rcases Lists.getElem?_set_cases hs with ⟨-, rfl⟩ | ⟨hne, hs⟩
      · exact absurd hnone hservice
      · have hin := hperm.mem_iff.1 ((h.mem_iff j).2 ⟨s, hs, hnone⟩)
        exact (List.mem_cons.1 hin).resolve_left hne
  · have := h.few
    rw [List.length_cons] at this
    rw [List.length_set]
    omega

end Traffic

end Switchboard
