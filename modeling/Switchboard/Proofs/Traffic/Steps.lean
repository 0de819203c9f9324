import Switchboard.Proofs.Traffic.Sound

/-!
# Every move keeps what holds

One lemma for each kind of move, and `Sound.step` for all of them: a move keeps `Sound`, and one
that the parties make themselves is progress.
-/

namespace Switchboard

namespace Call

variable (call : Call) (need : Need) (signal : Signal)

theorem advance_keeps : (call.advance signal).1.session = call.session ∧
    (call.advance signal).1.request = call.request ∧
    (call.advance signal).1.limit = call.limit := by
  unfold advance
  split
  · exact ⟨rfl, rfl, rfl⟩
  · exact ⟨rfl, rfl, rfl⟩
  · exact ⟨rfl, rfl, rfl⟩
  · exact ⟨rfl, rfl, rfl⟩
  · unfold send
    split <;> exact ⟨rfl, rfl, rfl⟩
  · dsimp only
    split <;> exact ⟨rfl, rfl, rfl⟩
  · unfold read
    dsimp only
    split
    · split <;> exact ⟨rfl, rfl, rfl⟩
    · split
      · split <;> exact ⟨rfl, rfl, rfl⟩
      · exact ⟨rfl, rfl, rfl⟩
  · exact ⟨rfl, rfl, rfl⟩

/-- A call stays on its session, with its request and its limit. -/
theorem hear_keeps : (call.hear need signal).1.session = call.session ∧
    (call.hear need signal).1.request = call.request ∧
    (call.hear need signal).1.limit = call.limit := by
  unfold hear
  split
  · exact ⟨rfl, rfl, rfl⟩
  · exact ⟨rfl, rfl, rfl⟩
  · exact call.advance_keeps signal

end Call

namespace Session

variable (s : Session) (request : Nat)

/-- To give a request up changes the requests, and nothing else that others see. -/
theorem abandon_keeps : (s.abandon request).openings = (s.openings.abandon request).2 ∧
    (s.abandon request).isClosed = s.isClosed ∧ (s.abandon request).stopped = s.stopped := by
  unfold abandon
  split
  · rename_i heq
    rw [heq]
    exact ⟨rfl, rfl, rfl⟩
  · rename_i heq
    rw [heq]
    exact ⟨rfl, rfl, rfl⟩

end Session

/-- What those who use a stream are told, who have one already. -/
def Signal.OfStream : Signal → Prop
  | .done | .bytes _ | .taken _ | .failed _ => True
  | _ => False

theorem Signal.OfStream.not_stream {signal : Signal} (h : signal.OfStream) (ref : StreamRef) :
    signal ≠ .stream ref := by
  rintro rfl
  exact h

theorem Signal.OfStream.not_refused {signal : Signal} (h : signal.OfStream) (fault : Fault) :
    signal ≠ .refused fault := by
  rintro rfl
  exact h

namespace Strand

variable {closed : Bool} {id : Nat} {strand after : Strand} {need : Need} {signal : Signal}

theorem foldl_perform_keeps (deeds : List Deed) (strand : Strand) :
    (deeds.foldl perform strand).caller? = strand.caller? ∧
      (deeds.foldl perform strand).service? = strand.service? ∧
      (deeds.foldl perform strand).invoked = strand.invoked := by
  induction deeds generalizing strand with
  | nil => exact ⟨rfl, rfl, rfl⟩
  | cons deed deeds ih =>
    rw [List.foldl_cons]
    obtain ⟨hcaller, hservice, hinvoked⟩ := ih (strand.perform deed)
    have hdeed : (strand.perform deed).caller? = strand.caller? ∧
        (strand.perform deed).service? = strand.service? ∧
        (strand.perform deed).invoked = strand.invoked := by
      unfold perform
      split <;> exact ⟨rfl, rfl, rfl⟩
    exact ⟨hcaller.trans hdeed.1, hservice.trans hdeed.2.1, hinvoked.trans hdeed.2.2⟩

theorem meet_keeps {portion : Portion} (h : strand.meet need portion = some (signal, after)) :
    after.caller? = strand.caller? ∧ after.service? = strand.service? ∧
      after.invoked = strand.invoked ∧ signal.OfStream := by
  unfold meet at h
  split at h
  · split at h <;> obtain ⟨⟨signal', flow⟩, hflow, heq⟩ := Option.map_eq_some_iff.1 h <;> cases heq
    all_goals
      refine ⟨rfl, rfl, rfl, ?_⟩
      rcases Flow.read_cases hflow with ⟨_, _, _, rfl, _⟩ | ⟨rfl, _⟩ | ⟨_, rfl, _⟩ <;> trivial
  · split at h <;> obtain ⟨⟨signal', flow⟩, hflow, heq⟩ := Option.map_eq_some_iff.1 h <;> cases heq
    all_goals
      refine ⟨rfl, rfl, rfl, ?_⟩
      rcases Flow.write_cases hflow with ⟨_, _, _, rfl, _⟩ | ⟨_, rfl, _⟩ <;> trivial
  · split at h <;> obtain ⟨⟨signal', flow⟩, hflow, heq⟩ := Option.map_eq_some_iff.1 h <;> cases heq
    all_goals
      refine ⟨rfl, rfl, rfl, ?_⟩
      rcases Flow.finish_cases hflow with ⟨rfl, _⟩ | ⟨_, rfl, _⟩ <;> trivial
  · cases h

/-- To use a stream changes neither who was told of it nor who answers it nor on what, and tells
nobody of another one. -/
theorem Meets.keeps (h : strand.Meets closed id need signal after) :
    after.caller? = strand.caller? ∧ after.service? = strand.service? ∧
      after.invoked = strand.invoked ∧ signal.OfStream := by
  cases h with
  | cancelled h => exact ⟨rfl, rfl, rfl, trivial⟩
  | moment time => exact ⟨rfl, rfl, rfl, trivial⟩
  | stream h => exact meet_keeps h

end Strand

def Need.OfStream (id k : Nat) : Need → Prop
  | .cancelled session => session = id
  | .moment _ => True
  | .read ref _ | .write ref _ _ | .finish ref => ref = ⟨id, k⟩
  | _ => False

namespace Caller

variable {c : Caller} {k : Nat} {strand : Strand} {need : Need}

/-- A call that has a stream waits for nothing but that stream, its time and the session. -/
theorem AtStrand.ofStream (h : c.AtStrand k strand) (hsession : c.call.session = 0)
    (hneed : need ∈ c.call.needs) : need.OfStream 0 k := by
  unfold Call.needs at hneed
  unfold AtStrand at h
  split at hneed
  · cases hneed
  · simp only [hsession, List.mem_cons, List.not_mem_nil, or_false] at hneed
    rcases hneed with rfl | rfl | rfl
    · exact rfl
    · cases hst : c.call.stage with
      | asking => rw [hst] at h; exact h.elim
      | opening request => rw [hst] at h; exact h.elim
      | done outcome => rename_i hdone; exact absurd hst (hdone outcome)
      | _ => rw [hst] at h; exact h.1
    · trivial

theorem AtStrand.hasAsked (h : c.AtStrand k strand) :
    c.hasAsked = true ∧ ∀ request, c.call.stage ≠ .opening request := by
  unfold AtStrand at h
  unfold Caller.hasAsked rank
  cases hs : c.call.stage with
  | asking => rw [hs] at h; exact h.elim
  | opening request => rw [hs] at h; exact h.elim
  | _ => exact ⟨rfl, fun _ heq => by cases heq⟩

end Caller

/-- A service waits for nothing but its stream, its work and the session. -/
theorem Service.AtStrand.ofStream {router : Router} {sent? : Option Envelope} {k : Nat}
    {strand : Strand} {service : Service} {need : Need}
    (h : service.AtStrand router sent? k strand) (hneed : need ∈ service.needs) :
    need.OfStream 1 k := by
  obtain ⟨hstream, -, h⟩ := h
  have hcancelled : service.stream.session = 1 := by rw [hstream]
  have hstage : need ∈ service.stageNeeds → need.OfStream 1 k := by
    intro hneed
    unfold stageNeeds at hneed
    split at hneed
    · rw [List.mem_singleton.1 hneed]
      exact hstream
    · rcases List.mem_append.1 hneed with hmoment | hread
      · obtain ⟨time, -, rfl⟩ := List.mem_map.1 hmoment
        trivial
      · rw [List.mem_singleton.1 hread]
        exact hstream
    · rename_i hs
      rw [hs] at h
      obtain ⟨-, -, -, -, -, -, hlt, -⟩ := h
      rw [if_neg (Nat.not_le.2 hlt)] at hneed
      rw [List.mem_singleton.1 hneed]
      exact hstream
    · rw [List.mem_singleton.1 hneed]
      exact hstream
    · cases hneed
  unfold needs at hneed
  split at hneed
  · cases hneed
  · rcases List.mem_cons.1 hneed with rfl | hlater
    · exact hcancelled
    · exact hstage hlater

namespace Traffic

variable {router : Router} {t t' : Traffic} {i k id : Nat} {c : Caller} {strand : Strand}
  {need : Need} {portion : Portion} {signal : Signal} {deeds : List Deed}

/-- Deeds that concern one stream only do to it what they do. -/
theorem foldl_perform (h : ∀ deed ∈ deeds, deed.Concerns k) {t : Traffic} {strand : Strand}
    (hk : t.strands[k]? = some strand) :
    deeds.foldl perform t =
      { t with strands := t.strands.set k (deeds.foldl Strand.perform strand) } := by
  obtain ⟨hlt, -⟩ := List.getElem?_eq_some_iff.1 hk
  induction deeds generalizing t strand with
  | nil => rw [List.foldl_nil, List.foldl_nil, Lists.set_same hk]
  | cons deed deeds ih =>
    have hlater := fun d hd => h d (List.mem_cons_of_mem _ hd)
    have hdeed := h deed (List.mem_cons_self ..)
    rw [List.foldl_cons, List.foldl_cons]
    cases deed with
    | drop ref =>
      cases hdeed
      have hdrop : t.perform (.drop ref) = { t with
          strands := t.strands.set ref.stream (strand.drop ref.session) } := by
        simp only [perform, onStrand, Lists.modify_eq_set hk]
      rw [hdrop, ih hlater (List.getElem?_set_self hlt) (by rw [List.length_set]; exact hlt),
        List.set_set]
      rfl
    | note lines => exact ih hlater hk hlt
    | _ => exact hdeed.elim

theorem meet_cancelled (h : t.meet (.cancelled id) portion = some (signal, t')) :
    t.closed = true ∧ signal = .done ∧ t' = t := by
  simp only [meet] at h
  split at h
  · rename_i hcancelled
    cases h
    refine ⟨?_, rfl, rfl⟩
    unfold session at hcancelled
    split at hcancelled
    · simp [closed, Session.isClosed, hcancelled]
    · simp [closed, Session.isClosed, hcancelled]
  · cases h

theorem meet_moment {time : Nat} (h : t.meet (.moment time) portion = some (signal, t')) :
    signal = .done ∧ t' = t := by
  simp only [meet] at h
  split at h <;> cases h
  exact ⟨rfl, rfl⟩

/-- What one end of a stream waits for is met by the stream, or changes nothing. -/
theorem meets_of_meet (hneed : need.OfStream id k)
    (hk : t.strands[k]? = some strand) (hmeet : t.meet need portion = some (signal, t')) :
    ∃ after, strand.Meets t.closed id need signal after ∧
      t' = { t with strands := t.strands.set k after } := by
  have hsame := Lists.set_same hk
  have hstream : ∀ {need : Need} {ref : StreamRef}, ref = ⟨id, k⟩ →
      (t.strands[ref.stream]?.bind fun strand =>
        (strand.meet need portion).map fun met =>
          (met.1, { t with strands := t.strands.set ref.stream met.2 })) = some (signal, t') →
      ∃ after, strand.Meets t.closed id need signal after ∧
        t' = { t with strands := t.strands.set k after } := by
    rintro need ref rfl h
    rw [hk] at h
    obtain ⟨⟨signal', after⟩, hafter, heq⟩ := Option.map_eq_some_iff.1 h
    cases heq
    exact ⟨after, .stream hafter, rfl⟩
  cases need with
  | cancelled session =>
    cases hneed
    obtain ⟨hclosed, rfl, rfl⟩ := meet_cancelled hmeet
    exact ⟨strand, .cancelled hclosed, by rw [hsame]⟩
  | moment time =>
    obtain ⟨rfl, rfl⟩ := meet_moment hmeet
    exact ⟨strand, .moment time, by rw [hsame]⟩
  | read ref room => exact hstream hneed hmeet
  | write ref data start => exact hstream hneed hmeet
  | finish ref => exact hstream hneed hmeet
  | _ => exact hneed.elim

namespace Sound

theorem tell_of_ne (h : ∀ ref, signal ≠ .stream ref) : t.tell i signal = t := by
  unfold tell
  split
  · rename_i ref; exact absurd rfl (h ref)
  · rfl

/-- What becomes of the traffic when a call that has a stream is told something: the call and its
stream go on. -/
theorem call_after (h : Sound router t) (ref : StreamRef) (hc : t.callers[i]? = some c)
    (hstream : c.stream? = some ref) (hneed : need ∈ c.call.needs)
    (hmeet : t.meet need portion = some (signal, t')) :
    ∃ strand after : Strand, t.strands[ref.stream]? = some strand ∧ strand.caller? = some i ∧
      strand.Meets t.closed 0 need signal after ∧
      CallKeeps router t.closed (Promised t.near.openings ref.stream) c ref.stream strand need
        signal after ∧
      t'.hearCall i c need signal = { t with
        callers := t.callers.set i (c.hear t.closed need signal)
        strands := t.strands.set ref.stream
          ((c.call.hear need signal).2.foldl Strand.perform after) } := by
  obtain ⟨strand, hk, hcaller, hlinked⟩ := h.strand_of_stream hc ref hstream
  obtain ⟨hsession, -, hproper⟩ := h.begun i c hc
  obtain ⟨hlt, -⟩ := List.getElem?_eq_some_iff.1 hk
  obtain ⟨after, hmeets, rfl⟩ :=
    meets_of_meet (Caller.AtStrand.ofStream hlinked.near hsession hneed) hk hmeet
  have hkeeps := hlinked.call_hears hproper hsession hneed hmeets
  obtain ⟨-, -, -, hsignal⟩ := hmeets.keeps
  refine ⟨strand, after, hk, hcaller, hmeets, hkeeps, ?_⟩
  rw [hearCall, tell_of_ne hsignal.not_stream,
    foldl_perform hkeeps.concerns (List.getElem?_set_self hlt), List.set_set]
  rfl

theorem call_on_stream (h : Sound router t) (ref : StreamRef) (hc : t.callers[i]? = some c)
    (hstream : c.stream? = some ref) (hneed : need ∈ c.call.needs)
    (hmeet : t.meet need portion = some (signal, t')) :
    Sound router (t'.hearCall i c need signal) ∧
      t.progress < (t'.hearCall i c need signal).progress := by
  obtain ⟨strand, after, hk, hcaller, hmeets, hkeeps, hafter⟩ :=
    h.call_after ref hc hstream hneed hmeet
  obtain ⟨hsession, hrequest, -⟩ := h.begun i c hc
  obtain ⟨hlinked', hproper', hgrown, -, hheard⟩ := hkeeps
  obtain ⟨hasked', hopening'⟩ := Caller.AtStrand.hasAsked hlinked'.near
  obtain ⟨hcaller', hservice', hinvoked', -⟩ := hmeets.keeps
  obtain ⟨hcaller'', hservice'', hinvoked''⟩ :=
    Strand.foldl_perform_keeps (c.call.hear need signal).2 after
  rw [hafter]
  constructor
  · refine h.putOwner hc hk (fun j s hs hi => h.one j ref.stream s strand i hs hk hi hcaller)
      (.inr hcaller) (hcaller''.trans (hcaller'.trans hcaller))
      (by rw [hservice''.trans hservice']) rfl hlinked' ?_ (fun hreply => ?_) ?_ (fun _ hp => hp)
      h.requested ?_
    · obtain ⟨hs, hr, -⟩ := c.call.hear_keeps need signal
      exact ⟨hs.trans hsession, hr.trans hrequest, hproper'⟩
    · rw [hinvoked'', hinvoked']
      rcases hheard hreply with hbefore | hworked
      · obtain ⟨j, s, hs, hi, hworked⟩ := h.heard i c hc hbefore
        have hj := h.one j ref.stream s strand i hs hk hi hcaller
        rw [hj, hk] at hs
        cases hs
        exact hworked
      · exact hworked
    · refine h.fair.mono id (fun j r hj => ?_) fun j ⟨s, hs, hfree⟩ => ⟨s, ?_, hfree⟩
      · rcases opening_set hj with ⟨-, hstage⟩ | ⟨-, hold⟩
        · exact absurd hstage (hopening' r)
        · exact hold
      · rw [List.getElem?_set_ne]
        · exact hs
        · rintro rfl
          rw [hk] at hs
          cases hs
          rw [hcaller] at hfree
          cases hfree
    · exact Nat.le_trans h.asked (countP_hasAsked_le hc fun _ => hasked')
  · exact progress_pair hc hk hgrown t.near rfl rfl

/-- What becomes of the traffic when the service of a stream is told something: the service and
its stream go on. -/
theorem service_after (h : Sound router t) (hk : t.strands[k]? = some strand)
    {service : Service} (hs : strand.service? = some service) (hneed : need ∈ service.needs)
    (hmeet : t.meet need portion = some (signal, t')) :
    ∃ after : Strand, strand.Meets t.closed 1 need signal after ∧
      ServiceKeeps router t.closed (Promised t.near.openings k) (asker t.callers strand) k strand
        t.now service need signal after ∧
      t'.hearService k service need signal = { t with
        strands := t.strands.set k ((service.hear t.now need signal).2.foldl Strand.perform
          (after.hear t.now service need signal)) } := by
  have hlinked := h.linked k strand hk
  obtain ⟨hlt, -⟩ := List.getElem?_eq_some_iff.1 hk
  have hserved := (Strand.Served.of_some _ hs).1 hlinked.far
  obtain ⟨after, hmeets, rfl⟩ := meets_of_meet (hserved.ofStream hneed) hk hmeet
  have hkeeps : ServiceKeeps router t.closed _ _ k strand t.now service need signal after :=
    hlinked.service_hears hs hneed hmeets
  refine ⟨after, hmeets, hkeeps, ?_⟩
  have hget : (t.strands.set k after)[k]? = some after := List.getElem?_set_self hlt
  have hon : onStrand k (Strand.hear t.now service need signal)
      { t with strands := t.strands.set k after } =
      { t with strands := t.strands.set k (after.hear t.now service need signal) } := by
    simp only [onStrand, Lists.modify_eq_set hget, List.set_set]
  change List.foldl perform (onStrand k (Strand.hear t.now service need signal)
    { t with strands := t.strands.set k after }) (service.hear t.now need signal).2 = _
  rw [hon, foldl_perform hkeeps.concerns (List.getElem?_set_self hlt), List.set_set]

theorem service_on_stream (h : Sound router t) (hk : t.strands[k]? = some strand)
    {service : Service} (hs : strand.service? = some service) (hneed : need ∈ service.needs)
    (hmeet : t.meet need portion = some (signal, t')) :
    Sound router (t'.hearService k service need signal) ∧
      t.progress < (t'.hearService k service need signal).progress := by
  obtain ⟨after, hmeets, ⟨hlinked', hgrown, -⟩, hafter⟩ := h.service_after hk hs hneed hmeet
  obtain ⟨hcaller', -, hinvoked', -⟩ := hmeets.keeps
  obtain ⟨hcaller'', hservice'', hinvoked''⟩ := Strand.foldl_perform_keeps
    (service.hear t.now need signal).2 (after.hear t.now service need signal)
  rw [hafter]
  constructor
  · refine h.setStrand hk hlinked' (hcaller''.trans hcaller') (fun hworked => ?_) ?_
    · rw [hinvoked'']
      change after.invoked ++ _ ≠ []
      rw [hinvoked']
      exact List.append_ne_nil_of_left_ne_nil hworked _
    · rw [hservice'', hs]
      simp [Strand.hear]
  · have hstrands := Lists.sum_map_set hk Strand.progress
      (b := (service.hear t.now need signal).2.foldl Strand.perform
        (after.hear t.now service need signal))
    simp only [progress]
    omega

theorem call_unsent (h : Sound router t) (hc : t.callers[i]? = some c) (hrank : c.rank ≤ 1)
    (near : Session) (hclosed : near.isClosed = t.near.isClosed)
    (hstopped : near.stopped = t.near.stopped) (hnext : near.openings.next = t.near.openings.next)
    (hqueued : near.openings.queued = t.near.openings.queued)
    (hwaiting : near.openings.waiting = t.near.openings.waiting)
    (hfair : ∀ c' : Caller, (∀ request, c'.call.stage ≠ .opening request) →
      near.openings.Fair t.closed (Opening (t.callers.set i c')) (Free t.strands))
    (hpromised : ∀ k, Promised near.openings k → Promised t.near.openings k)
    (outcome : Except Fault ByteArray) (hno : ¬ IsReply outcome)
    (hexcuse : t.closed = true ∨ outcome = .error (.timeout c.call.limit)) :
    let c' := { c with call := { c.call with stage := .done outcome }, cut := t.closed }
    Sound router { t with near, callers := t.callers.set i c' } ∧
      t.progress < progress { t with near, callers := t.callers.set i c' } := by
  intro c'
  obtain ⟨hsession, hrequest, -⟩ := h.begun i c hc
  have hdone : ∀ request, c'.call.stage ≠ .opening request := fun _ heq => by cases heq
  constructor
  · refine h.putCaller hc hrank hclosed ⟨hsession, hrequest, .inr ⟨hno, ?_⟩⟩ rfl hno
      (hfair c' hdone) hpromised ?_ ?_
    · rcases hexcuse with hcl | htimeout
      · exact .inl hcl
      · exact .inr (.inl htimeout)
    · rw [hqueued, hwaiting, hnext]
      exact h.requested
    · rw [hnext]
      exact Nat.le_trans h.asked (countP_hasAsked_le hc fun _ => rfl)
  · have hcalls := Lists.sum_map_set hc Caller.rank (b := c')
    have hrank' : c'.rank = 5 := rfl
    simp only [progress, requestProgress, hnext, hqueued, hwaiting, hstopped]
    omega

theorem call_requests (h : Sound router t) (hc : t.callers[i]? = some c)
    (hstage : c.call.stage = .asking) (connection : Mux.Connection) :
    let c' := { c with
      call := { c.call with stage := .opening t.near.openings.next }, cut := t.closed }
    let near := { t.near with openings := t.near.openings.ask.2, connection }
    Sound router { t with near, callers := t.callers.set i c' } ∧
      t.progress < progress { t with near, callers := t.callers.set i c' } := by
  intro c' near
  obtain ⟨hsession, hrequest, -⟩ := h.begun i c hc
  have hrank : c.rank = 0 := by simp only [Caller.rank, hstage]
  have hrequested := h.requested
  have hqueued : near.openings.queued.length = t.near.openings.queued.length + 1 := by
    change (t.near.openings.queued ++ [_]).length = _
    rw [List.length_append, List.length_singleton]
  have hnext : near.openings.next = t.near.openings.next + 1 := rfl
  have hwaiting : near.openings.waiting = t.near.openings.waiting := rfl
  constructor
  · refine h.putCaller hc (by omega) rfl ⟨hsession, hrequest, trivial⟩ rfl id
      (h.fair.ask i fun j r hj => ?_) (fun _ hp => hp) ?_ ?_
    · rcases opening_set hj with ⟨rfl, heq⟩ | ⟨-, hold⟩
      · cases heq
        exact .inr ⟨rfl, rfl⟩
      · exact .inl hold
    · rw [hqueued, hnext, hwaiting]
      omega
    · have hcount := Lists.countP_set hc Caller.hasAsked (b := c')
      have hasked : c.hasAsked = false := by simp only [Caller.hasAsked, hrank]; rfl
      have hasked' : c'.hasAsked = true := rfl
      rw [hasked, hasked'] at hcount
      have := h.asked
      rw [hnext]
      change _ = _ + 1 at hcount
      change _ + 0 = _ at hcount
      omega
  · have hcalls := Lists.sum_map_set hc Caller.rank (b := c')
    have hrank' : c'.rank = 1 := rfl
    have hstopped : near.stopped = t.near.stopped := rfl
    simp only [progress, requestProgress, hnext, hqueued, hwaiting, hstopped]
    omega

theorem call_ends_unasked (h : Sound router t) (hc : t.callers[i]? = some c)
    (hstage : c.call.stage = .asking) (outcome : Except Fault ByteArray)
    (hsignal : ∀ ref, signal ≠ .stream ref)
    (hhear : c.call.hear need signal = ({ c.call with stage := .done outcome }, []))
    (hno : ¬ IsReply outcome)
    (hexcuse : t.closed = true ∨ outcome = .error (.timeout c.call.limit)) :
    Sound router (t.hearCall i c need signal) ∧
      t.progress < (t.hearCall i c need signal).progress := by
  have hrank : c.rank = 0 := by simp only [Caller.rank, hstage]
  have hfair : ∀ c' : Caller, (∀ request, c'.call.stage ≠ .opening request) →
      t.near.openings.Fair t.closed (Opening (t.callers.set i c')) (Free t.strands) := by
    intro c' hno
    refine h.fair.mono id (fun j r hj => ?_) fun _ hf => hf
    rcases opening_set hj with ⟨-, heq⟩ | ⟨-, hold⟩
    · exact absurd heq (hno r)
    · exact hold
  have hafter := h.call_unsent hc (by omega) t.near rfl rfl rfl rfl rfl hfair
    (fun _ hp => hp) outcome hno hexcuse
  rw [hearCall, tell_of_ne hsignal, Caller.hear, hhear]
  exact hafter

theorem call_asks (h : Sound router t) (hc : t.callers[i]? = some c)
    (hstage : c.call.stage = .asking) (hneed : need ∈ c.call.needs)
    (hmeet : t.meet need portion = some (signal, t')) :
    Sound router (t'.hearCall i c need signal) ∧
      t.progress < (t'.hearCall i c need signal).progress := by
  obtain ⟨hsession, -, -⟩ := h.begun i c hc
  have hneeds : need = .cancelled 0 ∨ need = .request 0 ∨ need = .moment c.call.deadline := by
    simpa only [Call.needs, hstage, hsession, CallStage.need, List.mem_cons, List.not_mem_nil,
      or_false] using hneed
  rcases hneeds with rfl | rfl | rfl
  · obtain ⟨hclosed, rfl, rfl⟩ := meet_cancelled hmeet
    refine h.call_ends_unasked hc hstage (.error .closed) (fun _ heq => by cases heq) ?_ id
      (.inl hclosed)
    simp only [Call.hear, Call.conclude, Call.release, CallStage.release, hstage]
  · simp only [meet, session, if_true, setSession, Session.request] at hmeet
    by_cases hclosed : t.near.isClosed = true
    · rw [if_pos hclosed] at hmeet
      cases hmeet
      refine h.call_ends_unasked hc hstage (.error .closed) (fun _ heq => by cases heq) ?_ id
        (.inl ?_)
      · simp only [Call.hear, Call.advance, hstage, Fabric.ticketOf]
      · simp [closed, hclosed]
    · rw [if_neg hclosed] at hmeet
      cases hmeet
      have hhear : c.call.hear (.request 0) (.ticket t.near.openings.next) =
          ({ c.call with stage := .opening t.near.openings.next }, []) := by
        simp only [Call.hear, Call.advance, hstage]
      have hafter := h.call_requests hc hstage { t.near.connection with woken := true }
      rw [hearCall, tell_of_ne (fun _ heq => by cases heq), Caller.hear]
      simp only [Fabric.ticketOf, Mux.Openings.ask, hhear]
      exact hafter
  · obtain ⟨rfl, rfl⟩ := meet_moment hmeet
    refine h.call_ends_unasked hc hstage (.error (.timeout c.call.limit))
      (fun _ heq => by cases heq) ?_ id (.inr rfl)
    simp only [Call.hear, Call.conclude, Call.release, CallStage.release, hstage]

/-- Who else waits for a request when one call does so no more. -/
theorem opening_others (h : Sound router t) (hc : t.callers[i]? = some c) {c' : Caller}
    {request : Nat} (hstage : c.call.stage = .opening request)
    (hno : ∀ request, c'.call.stage ≠ .opening request) (j r : Nat)
    (hj : Opening (t.callers.set i c') j r) : Opening t.callers j r ∧ r ≠ request := by
  rcases opening_set hj with ⟨-, heq⟩ | ⟨hne, hold⟩
  · exact absurd heq (hno r)
  · refine ⟨hold, ?_⟩
    rintro rfl
    exact hne (h.fair.apart j i r hold ⟨c, hc, hstage⟩)

/-- A call that waits for a stream gives its request up and ends. -/
theorem call_abandons (h : Sound router t) (hc : t.callers[i]? = some c) {request : Nat}
    (hstage : c.call.stage = .opening request) {outcome : Except Fault ByteArray}
    (hno : ¬ IsReply outcome)
    (hexcuse : t.closed = true ∨ outcome = .error (.timeout c.call.limit)) :
    let c' := { c with call := { c.call with stage := .done outcome }, cut := t.closed }
    let near := t.near.abandon request
    Sound router { t with near, callers := t.callers.set i c' } ∧
      t.progress < progress { t with near, callers := t.callers.set i c' } := by
  obtain ⟨hopenings, hclosed, hstopped⟩ := t.near.abandon_keeps request
  obtain ⟨hnext, hqueued, hwaiting, -⟩ := t.near.openings.collect_rest request
  have hrank : c.rank = 1 := by simp only [Caller.rank, hstage]
  refine h.call_unsent hc (by omega) _ hclosed hstopped ?_ ?_ ?_ ?_ ?_ outcome hno hexcuse
  · rw [hopenings]; exact hnext
  · rw [hopenings]; exact hqueued
  · rw [hopenings]; exact hwaiting
  · intro c' hstages
    rw [hopenings]
    exact h.fair.abandon (h.opening_others hc hstage hstages)
  · rw [hopenings]
    rintro k ⟨r, hr⟩
    exact ⟨r, (Mux.Openings.mem_answers_collect.1 hr).1⟩

/-- A stream that no call was told of, and that answers no request, is handed back. -/
theorem hand_back (h : Sound router t) (hk : t.strands[k]? = some strand)
    (hcaller : strand.caller? = none) (hno : ¬ Promised t.near.openings k) :
    Sound router { t with strands := t.strands.set k (strand.drop 0) } ∧
      t.progress ≤ progress { t with strands := t.strands.set k (strand.drop 0) } := by
  have hasker : asker t.callers strand = none := by simp only [asker, hcaller, Option.bind_none]
  have hlinked := h.linked k strand hk
  rw [hasker] at hlinked
  have hback := hlinked.handBack hno
  rw [← hasker] at hback
  have hsum := Lists.sum_map_set hk Strand.progress (b := strand.drop 0)
  have hdrop := strand.progress_drop 0
  refine ⟨h.setStrand hk hback rfl id Iff.rfl, ?_⟩
  simp only [progress]
  omega

/-- What a call that ends while it waits for a stream gives up: its request, and the stream that
had come for it. -/
theorem call_gives_up (h : Sound router t) (hc : t.callers[i]? = some c) {request : Nat}
    (hstage : c.call.stage = .opening request) (outcome : Except Fault ByteArray)
    (hsignal : ∀ ref, signal ≠ .stream ref)
    (hhear : c.call.hear need signal =
      ({ c.call with stage := .done outcome }, [.abandon 0 request]))
    (hno : ¬ IsReply outcome)
    (hexcuse : t.closed = true ∨ outcome = .error (.timeout c.call.limit)) :
    Sound router (t.hearCall i c need signal) ∧
      t.progress < (t.hearCall i c need signal).progress := by
  obtain ⟨hopenings, -, -⟩ := t.near.abandon_keeps request
  obtain ⟨hsound, hprogress⟩ := h.call_abandons hc hstage hno hexcuse
  rw [hearCall, tell_of_ne hsignal, Caller.hear, hhear]
  simp only [List.foldl_cons, List.foldl_nil, perform, session, setSession, if_true]
  rw [Mux.Openings.abandon_fst]
  cases hanswer : (t.near.openings.answers.lookup request).join with
  | none => exact ⟨hsound, hprogress⟩
  | some k =>
    have hmem : (request, some k) ∈ t.near.openings.answers := by
      cases hlookup : t.near.openings.answers.lookup request with
      | none => rw [hlookup] at hanswer; cases hanswer
      | some stream? =>
        rw [hlookup] at hanswer
        cases hanswer
        exact Mux.Openings.mem_of_lookup hlookup
    obtain ⟨strand, hk, hcaller⟩ := h.fair.promised request k hmem
    have hno : ¬ Promised (t.near.abandon request).openings k := by
      rintro ⟨r, hr⟩
      rw [hopenings] at hr
      obtain ⟨hr, hne⟩ := Mux.Openings.mem_answers_collect.1 hr
      exact hne (h.fair.distinct r request k hr hmem)
    obtain ⟨hback, hmore⟩ := hsound.hand_back hk hcaller hno
    simp only [onStrand, Lists.modify_eq_set hk]
    exact ⟨hback, Nat.lt_of_lt_of_le hprogress hmore⟩

/-- What becomes of the traffic when a call is told of a stream. -/
theorem hearCall_of_stream (hk : t.strands[k]? = some strand)
    (hconcerns : ∀ deed ∈ (c.call.hear need (.stream ⟨0, k⟩)).2, deed.Concerns k) :
    t.hearCall i c need (.stream ⟨0, k⟩) = { t with
      callers := t.callers.set i (c.hear t.closed need (.stream ⟨0, k⟩))
      strands := t.strands.set k ((c.call.hear need (.stream ⟨0, k⟩)).2.foldl Strand.perform
        { strand with caller? := some i }) } := by
  obtain ⟨hlt, -⟩ := List.getElem?_eq_some_iff.1 hk
  have htell : t.tell i (.stream ⟨0, k⟩) =
      { t with strands := t.strands.set k { strand with caller? := some i } } := by
    simp only [tell, onStrand, Lists.modify_eq_set hk]
  rw [hearCall, htell, foldl_perform hconcerns (List.getElem?_set_self hlt), List.set_set]

theorem call_opens (h : Sound router t) (hc : t.callers[i]? = some c) {request : Nat}
    (hstage : c.call.stage = .opening request)
    (hmem : (request, some k) ∈ t.near.openings.answers) :
    let near := { t.near with openings := (t.near.openings.collect request).2 }
    let after := hearCall i c (.granted 0 request) (.stream ⟨0, k⟩) { t with near }
    Sound router after ∧ t.progress < after.progress := by
  intro near after
  obtain ⟨hsession, hrequest, -⟩ := h.begun i c hc
  obtain ⟨hnext, hqueued, hwaiting, -⟩ := t.near.openings.collect_rest request
  have hrank : c.rank = 1 := by simp only [Caller.rank, hstage]
  obtain ⟨strand, hk, hcaller⟩ := h.fair.promised request k hmem
  have hlinked := h.linked k strand hk
  simp only [asker, hcaller, Option.bind_none] at hlinked
  have hkeeps : CallKeeps router t.closed (Promised near.openings k) c k strand
      (.granted 0 request) (.stream ⟨0, k⟩) { strand with caller? := some i } :=
    hlinked.call_sends ⟨request, hmem⟩ hstage hrequest i
  obtain ⟨hlinked', hproper', hgrown, hconcerns, hheard⟩ := hkeeps
  obtain ⟨hasked', hopening'⟩ := Caller.AtStrand.hasAsked hlinked'.near
  obtain ⟨hcaller', hservice', hinvoked'⟩ := Strand.foldl_perform_keeps
    (c.call.hear (.granted 0 request) (.stream ⟨0, k⟩)).2 { strand with caller? := some i }
  have hafter : after = { t with
      near
      callers := t.callers.set i (c.hear t.closed (.granted 0 request) (.stream ⟨0, k⟩))
      strands := t.strands.set k ((c.call.hear (.granted 0 request) (.stream ⟨0, k⟩)).2.foldl
        Strand.perform { strand with caller? := some i }) } :=
    hearCall_of_stream (t := { t with near }) hk hconcerns
  rw [hafter]
  constructor
  · refine h.putOwner hc hk (fun j s hs hi => absurd hi (h.not_told hc (by omega) hs))
      (.inl hcaller) hcaller' (by rw [hservice']) rfl hlinked' ?_ (fun hreply => ?_) ?_ ?_ ?_ ?_
    · obtain ⟨hs, hr, -⟩ := c.call.hear_keeps (.granted 0 request) (.stream ⟨0, k⟩)
      exact ⟨hs.trans hsession, hr.trans hrequest, hproper'⟩
    · have hno : ¬ c.HasReply := by simp only [Caller.HasReply, hstage]; exact id
      rw [hinvoked']
      exact (hheard hreply).resolve_left hno
    · refine h.fair.collect (h.opening_others hc hstage hopening') fun j hpromised => ?_
      obtain ⟨s, hs, hfree⟩ := hpromised
      by_cases hj : k = j
      · subst hj
        exact .inl hmem
      · exact .inr ⟨s, by rw [List.getElem?_set_ne hj]; exact hs, hfree⟩
    · rintro j ⟨r, hr⟩
      exact ⟨r, (Mux.Openings.mem_answers_collect.1 hr).1⟩
    · rw [hqueued, hwaiting, hnext]
      exact h.requested
    · rw [hnext]
      exact Nat.le_trans h.asked (countP_hasAsked_le hc fun _ => hasked')
  · have hrequests : requestProgress near.openings = requestProgress t.near.openings := by
      simp only [requestProgress, near, hqueued, hwaiting, hnext]
    exact progress_pair hc hk hgrown near hrequests rfl

/-- A call gets the answer to its request: a stream, or word that there will be none. -/
theorem call_granted (h : Sound router t) (hc : t.callers[i]? = some c) {request : Nat}
    (hstage : c.call.stage = .opening request)
    (hmeet : t.meet (.granted 0 request) portion = some (signal, t')) :
    Sound router (t'.hearCall i c (.granted 0 request) signal) ∧
      t.progress < (t'.hearCall i c (.granted 0 request) signal).progress := by
  have hrefused : ∀ (t' : Traffic) (fault : Fault), hearCall i c (.granted 0 request)
      (.refused fault) t' = { t' with
        callers := t'.callers.set i { c with
          call := { c.call with stage := .done (.error fault) }, cut := t'.closed } } := by
    intro t' fault
    have hhear : c.call.hear (.granted 0 request) (.refused fault) =
        ({ c.call with stage := .done (.error fault) }, []) := by
      simp only [Call.hear, Call.advance, hstage]
    rw [hearCall, tell_of_ne (fun _ heq => by cases heq), Caller.hear, hhear]
    rfl
  simp only [meet, session, setSession, if_true, Session.collect] at hmeet
  split at hmeet
  · -- the session is cancelled
    rename_i hcancelled
    cases hmeet
    obtain ⟨-, hclosed, -⟩ := t.near.abandon_keeps request
    have hsame : closed { t with near := t.near.abandon request } = t.closed := by
      simp only [closed, hclosed]
    rw [hrefused, hsame]
    refine h.call_abandons hc hstage id (.inl ?_)
    simp [closed, Session.isClosed, hcancelled]
  · cases hlookup : t.near.openings.answers.lookup request with
    | none =>
      rw [Mux.Openings.collect_of_none hlookup] at hmeet
      cases hmeet
    | some stream? =>
      have hmem := Mux.Openings.mem_of_lookup hlookup
      rw [Mux.Openings.collect_of_some hlookup] at hmeet
      cases stream? with
      | none =>
        -- the connection has stopped
        cases hmeet
        rw [hrefused]
        refine h.call_unsent hc (by simp only [Caller.rank, hstage]; omega)
          { t.near with openings := { t.near.openings with
            answers := t.near.openings.answers.filter (·.1 ≠ request) } }
          rfl rfl rfl rfl rfl ?_ ?_ (.error .closed) id (.inl (h.fair.refused request hmem))
        · intro c' hno
          have hfair := h.fair.collect (h.opening_others hc hstage hno) fun j hj => .inr hj
          rw [Mux.Openings.collect_of_some hlookup] at hfair
          exact hfair
        · rintro j ⟨r, hr⟩
          exact ⟨r, (List.mem_filter.1 hr).1⟩
      | some k =>
        cases hmeet
        have hopens := h.call_opens hc hstage hmem
        rw [Mux.Openings.collect_of_some hlookup] at hopens
        exact hopens

theorem call_waits (h : Sound router t) (hc : t.callers[i]? = some c) {request : Nat}
    (hstage : c.call.stage = .opening request) (hneed : need ∈ c.call.needs)
    (hmeet : t.meet need portion = some (signal, t')) :
    Sound router (t'.hearCall i c need signal) ∧
      t.progress < (t'.hearCall i c need signal).progress := by
  obtain ⟨hsession, -, -⟩ := h.begun i c hc
  have hneeds : need = .cancelled 0 ∨ need = .granted 0 request ∨
      need = .moment c.call.deadline := by
    simpa only [Call.needs, hstage, hsession, CallStage.need, List.mem_cons, List.not_mem_nil,
      or_false] using hneed
  rcases hneeds with rfl | rfl | rfl
  · obtain ⟨hclosed, rfl, rfl⟩ := meet_cancelled hmeet
    refine h.call_gives_up hc hstage (.error .closed) (fun _ heq => by cases heq) ?_ id
      (.inl hclosed)
    simp only [Call.hear, Call.conclude, Call.release, CallStage.release, hstage, hsession]
  · exact h.call_granted hc hstage hmeet
  · obtain ⟨rfl, rfl⟩ := meet_moment hmeet
    refine h.call_gives_up hc hstage (.error (.timeout c.call.limit))
      (fun _ heq => by cases heq) ?_ id (.inr rfl)
    simp only [Call.hear, Call.conclude, Call.release, CallStage.release, hstage, hsession]

theorem call_step (h : Sound router t) {place : Nat}
    (hstep : t.step (.call i place portion) = some t') :
    Sound router t' ∧ t.progress < t'.progress := by
  simp only [step] at hstep
  obtain ⟨c, hc, hstep⟩ := Option.bind_eq_some_iff.1 hstep
  obtain ⟨need, hplace, hstep⟩ := Option.bind_eq_some_iff.1 hstep
  obtain ⟨⟨signal, t₁⟩, hmeet, rfl⟩ := Option.map_eq_some_iff.1 hstep
  have hneed := List.mem_of_getElem? hplace
  cases hstage : c.call.stage with
  | asking => exact h.call_asks hc hstage hneed hmeet
  | opening request => exact h.call_waits hc hstage hneed hmeet
  | done outcome =>
    simp only [Call.needs, hstage, List.not_mem_nil] at hneed
  | writing ref data sent =>
    exact h.call_on_stream ref hc (by simp only [Caller.stream?, hstage]) hneed hmeet
  | reading ref reader =>
    exact h.call_on_stream ref hc (by simp only [Caller.stream?, hstage]) hneed hmeet
  | finishing ref outcome =>
    exact h.call_on_stream ref hc (by simp only [Caller.stream?, hstage]) hneed hmeet

theorem service_step (h : Sound router t) {place : Nat}
    (hstep : t.step (.service k place portion) = some t') :
    Sound router t' ∧ t.progress < t'.progress := by
  simp only [step] at hstep
  obtain ⟨service, hservice, hstep⟩ := Option.bind_eq_some_iff.1 hstep
  obtain ⟨strand, hk, hs⟩ := Option.bind_eq_some_iff.1 hservice
  obtain ⟨need, hplace, hstep⟩ := Option.bind_eq_some_iff.1 hstep
  obtain ⟨⟨signal, t₁⟩, hmeet, rfl⟩ := Option.map_eq_some_iff.1 hstep
  exact h.service_on_stream hk hs (List.mem_of_getElem? hplace) hmeet

end Sound

end Traffic

end Switchboard
