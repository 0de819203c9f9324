import Switchboard.Proofs.Traffic.Pairing
import Switchboard.Proofs.Traffic.Requests

/-!
# What every reachable state of the traffic keeps

`Sound` puts together what holds of each stream and its two ends, of the pairs of calls and streams,
of the requests for streams, and of the streams on their way to the far end. The lemmas say that it
stays when something changes at one place: on a stream, at the far end, with a call. How much has
been done is `Traffic.progress`.
-/

namespace Switchboard

namespace Traffic

structure Sound (router : Router) (t : Traffic) : Prop extends Pairing t.callers t.strands where
  linked : ∀ (k : Nat) (strand : Strand), t.strands[k]? = some strand →
    Linked router t.closed (Promised t.near.openings k) (asker t.callers strand) k strand
  begun : ∀ (i : Nat) (c : Caller), t.callers[i]? = some c →
    c.call.session = 0 ∧ c.call.request = c.envelope.encode ∧ c.Proper router t.closed
  fair : t.near.openings.Fair t.closed (Opening t.callers) (Free t.strands)
  requested : t.strands.length + t.near.openings.queued.length + t.near.openings.waiting.length ≤
    t.near.openings.next
  asked : t.near.openings.next ≤ t.callers.countP Caller.hasAsked
  arrivals : Arrivals router t.closed t.strands t.unseen t.far.arrived t.far.acceptors t.serving

/-! ## Progress -/

/-- The place of the loop that accepts streams on its way to the next one, or to its end. -/
def servingRank (serving : Serving) : Nat :=
  match serving.stage with
  | .asking => 0
  | .accepting _ => 1
  | .done => 2

def requestProgress (o : Mux.Openings) : Nat :=
  2 * o.next - (2 * o.queued.length + o.waiting.length)

def progress (t : Traffic) : Nat :=
  (t.callers.map Caller.rank).sum + (t.strands.map Strand.progress).sum + t.far.arrived.length +
    servingRank t.serving + requestProgress t.near.openings + t.near.stopped.toNat +
    t.far.stopped.toNat

theorem progress_pair {t : Traffic} {i k : Nat} {c c' : Caller} {strand after : Strand}
    (hc : t.callers[i]? = some c) (hk : t.strands[k]? = some strand)
    (hgrown : c.rank + strand.progress < c'.rank + after.progress) (near : Session)
    (hrequests : requestProgress near.openings = requestProgress t.near.openings)
    (hstopped : near.stopped = t.near.stopped) :
    t.progress < progress
      { t with near, callers := t.callers.set i c', strands := t.strands.set k after } := by
  have hcalls := Lists.sum_map_set hc Caller.rank (b := c')
  have hstrands := Lists.sum_map_set hk Strand.progress (b := after)
  simp only [progress, hrequests, hstopped]
  omega

namespace Sound

variable {router : Router} {t : Traffic} {i k : Nat} {c c' : Caller} {strand after : Strand}

theorem start (router : Router) : Sound router (start router) where
  toPairing := .nil
  linked k strand hk := by cases hk
  begun i c hc := by cases hc
  fair := by
    refine ⟨?_, ?_, ?_, ?_, ?_, ?_⟩
    · rintro i r ⟨c, hc, -⟩; cases hc
    · rintro i j r ⟨c, hc, -⟩; cases hc
    · rintro - i r ⟨c, hc, -⟩; cases hc
    · intro r k hmem; cases hmem
    · intro r r' k hmem; cases hmem
    · intro r hmem; cases hmem
  requested := Nat.le_refl _
  asked := Nat.le_refl _
  arrivals := by
    refine ⟨rfl, rfl, rfl, List.nodup_nil, fun k => ⟨fun hmem => (by cases hmem), ?_⟩,
      Nat.le_refl _⟩
    rintro ⟨strand, hk, -⟩
    cases hk

theorem strand_of_stream (h : Sound router t) (hc : t.callers[i]? = some c) (ref : StreamRef)
    (href : c.stream? = some ref) : ∃ strand : Strand,
    t.strands[ref.stream]? = some strand ∧ strand.caller? = some i ∧
      Linked router t.closed (Promised t.near.openings ref.stream) (some c) ref.stream strand := by
  obtain ⟨strand, hk, hcaller⟩ := h.placed i c ref hc href
  have hlinked := h.linked ref.stream strand hk
  simp only [asker, hcaller, Option.bind_some, hc] at hlinked
  exact ⟨strand, hk, hcaller, hlinked⟩

theorem not_told (h : Sound router t) (hc : t.callers[i]? = some c) (hrank : c.rank ≤ 1)
    (hk : t.strands[k]? = some strand) : strand.caller? ≠ some i := by
  intro hcaller
  have hnear := (h.linked k strand hk).near
  simp only [asker, hcaller, Option.bind_some, hc, Strand.Asked, Caller.AtStrand] at hnear
  unfold Caller.rank at hrank
  split at hnear
  · exact hnear
  · exact hnear
  all_goals rename_i hs; simp only [hs] at hrank; omega

theorem asker_set {callers : List Caller} (h : strand.caller? ≠ some i) (c' : Caller) :
    asker (callers.set i c') strand = asker callers strand := by
  unfold asker
  cases hcaller : strand.caller? with
  | none => rfl
  | some j =>
    have hne : i ≠ j := fun heq => h (by rw [hcaller, heq])
    simp only [Option.bind_some, List.getElem?_set_ne hne]

/-- Something happens on a stream, and with it at the far end. -/
theorem setStrandFar (h : Sound router t) (hk : t.strands[k]? = some strand)
    (hlinked : Linked router t.closed (Promised t.near.openings k) (asker t.callers strand) k after)
    (hcaller : after.caller? = strand.caller?)
    (hinvoked : strand.invoked ≠ [] → after.invoked ≠ []) {far : Session} {unseen : List Nat}
    {serving : Serving} (hclosed : far.isClosed = t.far.isClosed)
    (harrivals : Arrivals router t.closed (t.strands.set k after) unseen far.arrived far.acceptors
      serving) :
    Sound router { t with far, unseen, serving, strands := t.strands.set k after } := by
  have hsame : Traffic.closed { t with far, unseen, serving, strands := t.strands.set k after } =
      t.closed := by
    simp only [closed, hclosed]
  refine ⟨h.toPairing.putStrand hk hcaller hinvoked, fun j s hs => ?_, fun i c hc => ?_, ?_, ?_,
    h.asked, ?_⟩
  · rw [hsame]
    rcases Lists.getElem?_set_cases hs with ⟨rfl, rfl⟩ | ⟨-, hs⟩
    · have hasker : asker t.callers s = asker t.callers strand := by
        unfold asker
        rw [hcaller]
      rw [hasker]
      exact hlinked
    · exact h.linked j s hs
  · rw [hsame]
    exact h.begun i c hc
  · rw [hsame]
    refine h.fair.mono id (fun _ _ hi => hi) fun j ⟨s, hs, hfree⟩ => ?_
    obtain ⟨s', hs', hcall, -⟩ := strand_set hk hcaller hinvoked hs
    exact ⟨s', hs', hcall.trans hfree⟩
  · simp only [List.length_set]
    exact h.requested
  · rw [hsame]
    exact harrivals

/-- Something happens on a stream between its service and the call that was told of it. -/
theorem setStrand (h : Sound router t) (hk : t.strands[k]? = some strand)
    (hlinked : Linked router t.closed (Promised t.near.openings k) (asker t.callers strand) k after)
    (hcaller : after.caller? = strand.caller?)
    (hinvoked : strand.invoked ≠ [] → after.invoked ≠ [])
    (hservice : after.service? = none ↔ strand.service? = none) :
    Sound router { t with strands := t.strands.set k after } :=
  h.setStrandFar hk hlinked hcaller hinvoked rfl (h.arrivals.set hk hservice)

theorem setFar (h : Sound router t) {far : Session} {unseen : List Nat} {serving : Serving}
    (hclosed : far.isClosed = t.far.isClosed)
    (harrivals : Arrivals router t.closed t.strands unseen far.arrived far.acceptors serving) :
    Sound router { t with far, unseen, serving } := by
  have hsame : Traffic.closed { t with far, unseen, serving } = t.closed := by
    simp only [closed, hclosed]
  refine ⟨h.toPairing, ?_, ?_, ?_, h.requested, h.asked, ?_⟩
  · rw [hsame]; exact h.linked
  · rw [hsame]; exact h.begun
  · rw [hsame]; exact h.fair
  · rw [hsame]; exact harrivals

theorem close (h : Sound router t) {near far : Session}
    (hopenings : near.openings = t.near.openings)
    (harrived : far.arrived = t.far.arrived) (hacceptors : far.acceptors = t.far.acceptors)
    (hclosed : t.closed = true → closed { t with near, far } = true) :
    Sound router { t with near, far } := by
  refine ⟨h.toPairing, fun k s hs => ?_, fun i c hc => ?_, ?_, ?_, ?_, ?_⟩
  · have hlinked := h.linked k s hs
    rw [← hopenings] at hlinked
    exact hlinked.mono hclosed id
  · obtain ⟨hsession, hrequest, hproper⟩ := h.begun i c hc
    exact ⟨hsession, hrequest, hproper.mono hclosed⟩
  · have hfair := h.fair
    rw [← hopenings] at hfair
    exact hfair.mono hclosed (fun _ _ hi => hi) fun _ hf => hf
  · have hrequested := h.requested
    rw [← hopenings] at hrequested
    exact hrequested
  · have hasked := h.asked
    rw [← hopenings] at hasked
    exact hasked
  · have harrivals := h.arrivals
    rw [← harrived, ← hacceptors] at harrivals
    exact harrivals.mono hclosed

theorem opening_set {callers : List Caller} {j request : Nat}
    (h : Opening (callers.set i c') j request) :
    j = i ∧ c'.call.stage = .opening request ∨ j ≠ i ∧ Opening callers j request := by
  obtain ⟨d, hd, hstage⟩ := h
  rcases Lists.getElem?_set_cases hd with ⟨rfl, rfl⟩ | ⟨hne, hd⟩
  · exact .inl ⟨rfl, hstage⟩
  · exact .inr ⟨hne, d, hd, hstage⟩

/-- A call that has no stream goes on, and with it the requests for streams. -/
theorem putCaller (h : Sound router t) (hc : t.callers[i]? = some c) (hrank : c.rank ≤ 1)
    {near : Session} (hclosed : near.isClosed = t.near.isClosed)
    (hbegun : c'.call.session = 0 ∧ c'.call.request = c'.envelope.encode ∧
      c'.Proper router t.closed) (hstream : c'.stream? = none) (hreply : ¬ c'.HasReply)
    (hfair : near.openings.Fair t.closed (Opening (t.callers.set i c')) (Free t.strands))
    (hpromised : ∀ k, Promised near.openings k → Promised t.near.openings k)
    (hrequested : t.strands.length + near.openings.queued.length + near.openings.waiting.length ≤
      near.openings.next)
    (hasked : near.openings.next ≤ (t.callers.set i c').countP Caller.hasAsked) :
    Sound router { t with near, callers := t.callers.set i c' } := by
  have hsame : Traffic.closed { t with near, callers := t.callers.set i c' } = t.closed := by
    simp only [closed, hclosed]
  refine ⟨h.toPairing.putCaller hstream hreply, fun k s hs => ?_, fun j d hd => ?_, ?_, hrequested,
    hasked, ?_⟩
  · rw [hsame, asker_set (h.not_told hc hrank hs)]
    exact (h.linked k s hs).mono id (hpromised k)
  · rw [hsame]
    rcases Lists.getElem?_set_cases hd with ⟨-, rfl⟩ | ⟨-, hd⟩
    · exact hbegun
    · exact h.begun j d hd
  · rw [hsame]
    exact hfair
  · rw [hsame]
    exact h.arrivals

/-- A call and its stream go on, and with them the requests for streams. The call has no other
stream, and nobody else has this one. -/
theorem putOwner (h : Sound router t) (hc : t.callers[i]? = some c)
    (hk : t.strands[k]? = some strand)
    (hother : ∀ (j : Nat) (s : Strand), t.strands[j]? = some s → s.caller? = some i → j = k)
    (hown : strand.caller? = none ∨ strand.caller? = some i) (hcaller : after.caller? = some i)
    (hservice : after.service? = none ↔ strand.service? = none)
    {near : Session} (hclosed : near.isClosed = t.near.isClosed)
    (hlinked : Linked router t.closed (Promised near.openings k) (some c') k after)
    (hbegun : c'.call.session = 0 ∧ c'.call.request = c'.envelope.encode ∧
      c'.Proper router t.closed)
    (hheard : c'.HasReply → after.invoked ≠ [])
    (hfair : near.openings.Fair t.closed (Opening (t.callers.set i c'))
      (Free (t.strands.set k after)))
    (hpromised : ∀ k, Promised near.openings k → Promised t.near.openings k)
    (hrequested : t.strands.length + near.openings.queued.length + near.openings.waiting.length ≤
      near.openings.next)
    (hasked : near.openings.next ≤ (t.callers.set i c').countP Caller.hasAsked) :
    Sound router { t with
      near, callers := t.callers.set i c', strands := t.strands.set k after } := by
  obtain ⟨hlti, -⟩ := List.getElem?_eq_some_iff.1 hc
  have hsame : Traffic.closed { t with
      near, callers := t.callers.set i c', strands := t.strands.set k after } = t.closed := by
    simp only [closed, hclosed]
  have hstream : ∀ ref, c'.stream? = some ref → ref.stream = k := by
    intro ref href
    rw [Caller.AtStrand.stream_eq hlinked.near href]
  refine ⟨h.toPairing.putOwner hlti hk hother hown hcaller hstream hheard, fun j s hs => ?_,
    fun j d hd => ?_, ?_, ?_, hasked, ?_⟩
  · rw [hsame]
    rcases Lists.getElem?_set_cases hs with ⟨rfl, rfl⟩ | ⟨hne, hs⟩
    · have hasker : asker (t.callers.set i c') s = some c' := by
        simp only [asker, hcaller, Option.bind_some, List.getElem?_set_self hlti]
      rw [hasker]
      exact hlinked
    · rw [asker_set fun hi => hne (hother j s hs hi)]
      exact (h.linked j s hs).mono id (hpromised j)
  · rw [hsame]
    rcases Lists.getElem?_set_cases hd with ⟨-, rfl⟩ | ⟨-, hd⟩
    · exact hbegun
    · exact h.begun j d hd
  · rw [hsame]
    exact hfair
  · rw [List.length_set]
    exact hrequested
  · rw [hsame]
    exact h.arrivals.set hk hservice

end Sound

end Traffic

end Switchboard
