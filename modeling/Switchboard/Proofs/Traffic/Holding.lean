import Switchboard.Proofs.Traffic.Onward

/-!
# What the near end holds on to

The near end holds a stream for a call that uses it, or for one that asked for it and has not
collected it yet: `HeldNear`. `Kept` says that whatever it does not hold it has let go of, and that
a request is remembered only as long as somebody waits for it. Both are kept by every move, so that
nothing is left of a call that has ended, however it did.
-/

namespace Switchboard

namespace Call

/-- What a call that has a stream comes to: it has the stream still, or has let go of it and
ended. -/
def KeepsOrDrops (ref : StreamRef) (after : Call × List Deed) : Prop :=
  match after.1.stage with
  | .writing r .. | .reading r .. | .finishing r _ => r = ref ∧ after.2 = []
  | .done _ => after.2 = [.drop ref]
  | .asking | .opening _ => False

variable {call : Call} {need : Need} {signal : Signal} {ref : StreamRef} {data : ByteArray}

theorem read_on_stream (ref : StreamRef) (reader : FrameReader) (data : ByteArray) (call : Call) :
    KeepsOrDrops ref (call.read ref reader data) := by
  unfold read
  dsimp only
  split
  · split
    · exact rfl
    · exact ⟨rfl, rfl⟩
  · split
    · split
      · exact rfl
      · exact ⟨rfl, rfl⟩
    · exact ⟨rfl, rfl⟩

theorem send_on_stream (ref : StreamRef) (call : Call) : KeepsOrDrops ref (call.send ref) := by
  unfold send
  split
  · exact rfl
  · exact ⟨rfl, rfl⟩

theorem conclude_on_stream (hrelease : call.release = [.drop ref])
    (outcome : Except Fault ByteArray) : KeepsOrDrops ref (call.conclude outcome) :=
  hrelease

/-- A call that has a stream keeps it, or lets go of it and ends. -/
theorem hear_on_stream {c : Caller} (hstream : c.stream? = some ref)
    (hsignal : ∀ fault, signal ≠ .refused fault) :
    KeepsOrDrops ref (c.call.hear need signal) := by
  have hrelease : c.call.release = [.drop ref] := by
    unfold Caller.stream? at hstream
    split at hstream <;> cases hstream
    all_goals
      rename_i hs
      simp only [release, CallStage.release, hs]
  unfold hear
  split
  · exact conclude_on_stream hrelease _
  · exact conclude_on_stream hrelease _
  · unfold Caller.stream? at hstream
    cases hs : c.call.stage with
    | writing ref' data sent =>
      rw [hs] at hstream
      cases hstream
      cases signal with
      | refused fault => exact absurd rfl (hsignal fault)
      | failed fault =>
        simp only [advance, hs]
        exact conclude_on_stream hrelease _
      | taken count =>
        simp only [advance, hs]
        split <;> exact ⟨rfl, rfl⟩
      | _ => simp only [advance, hs, KeepsOrDrops, and_self]
    | reading ref' reader =>
      rw [hs] at hstream
      cases hstream
      cases signal with
      | refused fault => exact absurd rfl (hsignal fault)
      | failed fault =>
        simp only [advance, hs]
        exact conclude_on_stream hrelease _
      | bytes data =>
        simp only [advance, hs]
        exact read_on_stream _ _ _ _
      | _ => simp only [advance, hs, KeepsOrDrops, and_self]
    | finishing ref' outcome =>
      simp only [advance, hs]
      exact conclude_on_stream hrelease _
    | _ =>
      rw [hs] at hstream
      cases hstream

theorem KeepsOrDrops.elim {c : Caller} {deeds : List Deed} (h : KeepsOrDrops ref (c.call, deeds)) :
    (c.stream? = some ref ∧ deeds = []) ∨ c.stream? = none ∧ deeds = [.drop ref] := by
  unfold KeepsOrDrops at h
  unfold Caller.stream?
  cases hs : c.call.stage with
  | asking =>
    rw [hs] at h
    exact h.elim
  | opening request =>
    rw [hs] at h
    exact h.elim
  | done outcome =>
    rw [hs] at h
    exact .inr ⟨rfl, h⟩
  | _ =>
    rw [hs] at h
    exact .inl ⟨congrArg some h.1, h.2⟩

theorem KeepsOrDrops.concerns {c : Caller} {deeds : List Deed} {k : Nat}
    (h : KeepsOrDrops ⟨0, k⟩ (c.call, deeds)) : ∀ deed ∈ deeds, deed.Concerns k := by
  intro deed hdeed
  rcases h.elim with ⟨-, rfl⟩ | ⟨-, rfl⟩
  · cases hdeed
  · rw [List.mem_singleton.1 hdeed]
    exact rfl

end Call

namespace Traffic

def Awaiting (callers : List Caller) (request : Nat) : Prop :=
  ∃ i, Opening callers i request

/-- The near end holds a stream: a call uses it, or it is the answer to a request. -/
def HeldNear (callers : List Caller) (o : Mux.Openings) (k : Nat) : Prop :=
  (∃ (i : Nat) (c : Caller), callers[i]? = some c ∧ c.stream? = some ⟨0, k⟩) ∨ Promised o k

/-- Nothing is left lying at the near end: what it does not hold it has let go of, unless the whole
session is closed, and it remembers no request that nobody waits for. -/
structure Kept (t : Traffic) : Prop where
  tended : t.near.openings.Tended (Awaiting t.callers)
  released : ∀ (k : Nat) (strand : Strand), t.strands[k]? = some strand →
    HeldNear t.callers t.near.openings k ∨ strand.Released ∨ t.closed = true

variable {router : Router} {t t' : Traffic} {i k place : Nat} {c c' : Caller}
  {strand after : Strand} {need : Need} {portion : Portion} {signal : Signal} {move : Move}
  {callers : List Caller} {o : Mux.Openings} {request : Nat}

/-! ## One call changes -/

theorem Awaiting.set (h : Awaiting callers request) (hc : callers[i]? = some c)
    (hstage : c.call.stage ≠ .opening request) : Awaiting (callers.set i c') request := by
  obtain ⟨j, d, hd, hopening⟩ := h
  rcases Lists.getElem?_set_of hd i c' with ⟨rfl, -⟩ | ⟨-, hd⟩
  · rw [hc] at hd
    cases hd
    exact absurd hopening hstage
  · exact ⟨j, d, hd, hopening⟩

/-- A call that waited for one request waits for no other. -/
theorem Awaiting.set_of_ne {r : Nat} (h : Awaiting callers r) (hc : callers[i]? = some c)
    (hstage : c.call.stage = .opening request) (hne : r ≠ request) :
    Awaiting (callers.set i c') r :=
  h.set hc fun heq => by
    rw [hstage] at heq
    cases heq
    exact hne rfl

theorem HeldNear.set (h : HeldNear callers o k) (hc : callers[i]? = some c)
    (hstream : c.stream? ≠ some ⟨0, k⟩) {o' : Mux.Openings}
    (hpromised : Promised o k → Promised o' k) : HeldNear (callers.set i c') o' k := by
  rcases h with ⟨j, d, hd, huses⟩ | hpromise
  · rcases Lists.getElem?_set_of hd i c' with ⟨rfl, -⟩ | ⟨-, hd⟩
    · rw [hc] at hd
      cases hd
      exact absurd huses hstream
    · exact .inl ⟨j, d, hd, huses⟩
  · exact .inr (hpromised hpromise)

namespace Kept

theorem start (router : Router) : (start router).Kept where
  tended := ⟨List.nodup_nil, fun r hr => by cases hr⟩
  released k strand hk := by cases hk

/-- Streams go on, and what the near end held it holds still or has let go of. -/
theorem of_onward (h : t.Kept) (honward : t.Onward t')
    (hlength : t'.strands.length = t.strands.length) (hclosed : t.closed = true → t'.closed = true)
    (htended : t'.near.openings.Tended (Awaiting t'.callers))
    (hheld : ∀ (k : Nat) (after : Strand), HeldNear t.callers t.near.openings k →
      t'.strands[k]? = some after →
      HeldNear t'.callers t'.near.openings k ∨ after.Released ∨ t'.closed = true) : t'.Kept where
  tended := htended
  released k after hafter := by
    obtain ⟨hlt, -⟩ := List.getElem?_eq_some_iff.1 hafter
    rw [hlength] at hlt
    obtain ⟨after', hafter', hone⟩ := honward k _ (List.getElem?_eq_getElem hlt)
    rw [hafter] at hafter'
    cases hafter'
    rcases h.released k _ (List.getElem?_eq_getElem hlt) with hheld' | hreleased | hshut
    · exact hheld k after hheld' hafter
    · exact .inr (.inl (hone.released hreleased))
    · exact .inr (.inr (hclosed hshut))

theorem of_same (h : t.Kept) (honward : t.Onward t')
    (hlength : t'.strands.length = t.strands.length) (hclosed : t.closed = true → t'.closed = true)
    (hcallers : t'.callers = t.callers) (hopenings : t'.near.openings = t.near.openings) :
    t'.Kept := by
  refine h.of_onward honward hlength hclosed ?_ fun k after hheld _ => .inl ?_
  · rw [hcallers, hopenings]
    exact h.tended
  · rw [hcallers, hopenings]
    exact hheld

/-- A call that has no stream goes on, and no stream that was promised is taken back. -/
theorem putCaller (h : t.Kept) (hc : t.callers[i]? = some c) (hstream : c.stream? = none)
    {near : Session} (hclosed : near.isClosed = t.near.isClosed)
    (htended : near.openings.Tended (Awaiting (t.callers.set i c')))
    (hpromised : ∀ k, Promised t.near.openings k → Promised near.openings k) :
    Kept { t with near, callers := t.callers.set i c' } := by
  refine h.of_onward (.of_eq rfl) rfl ?_ htended fun k after hheld _ => .inl ?_
  · simp only [closed, hclosed]
    exact id
  · refine hheld.set hc ?_ (hpromised k)
    rw [hstream]
    exact fun heq => by cases heq

/-- A call goes on that has a stream then, or lets go of it: the near end holds all others as
before. -/
theorem putOwner (h : t.Kept) (hk : t.strands[k]? = some strand) (hc : t.callers[i]? = some c)
    {mid : Strand} (honward : strand.Onward mid) {near : Session}
    (hclosed : near.isClosed = t.near.isClosed)
    (htended : near.openings.Tended (Awaiting (t.callers.set i c')))
    (hothers : ∀ j, j ≠ k → HeldNear t.callers t.near.openings j →
      HeldNear (t.callers.set i c') near.openings j)
    {deeds : List Deed} (hown : Call.KeepsOrDrops ⟨0, k⟩ (c'.call, deeds)) :
    Kept { t with
      near
      callers := t.callers.set i c'
      strands := t.strands.set k (deeds.foldl Strand.perform mid) } := by
  obtain ⟨hlti, -⟩ := List.getElem?_eq_some_iff.1 hc
  refine h.of_onward (.of_set hk (honward.trans (Strand.foldl_perform_onward deeds mid)) rfl)
    (List.length_set ..) ?_ htended fun j after hheld hafter => ?_
  · simp only [closed, hclosed]
    exact id
  · rcases Lists.getElem?_set_cases hafter with ⟨rfl, rfl⟩ | ⟨hne, -⟩
    · rcases hown.elim with ⟨hstream, -⟩ | ⟨-, rfl⟩
      · exact .inl (.inl ⟨i, c', List.getElem?_set_self hlti, hstream⟩)
      · exact .inr (.inl mid.released_drop)
    · exact .inl (hothers j hne hheld)

end Kept

/-! ## A call goes on -/

theorem hearCall_of_nil (hsignal : ∀ ref, signal ≠ .stream ref)
    (hdeeds : (c.call.hear need signal).2 = []) (t : Traffic) :
    t.hearCall i c need signal =
      { t with callers := t.callers.set i (c.hear t.closed need signal) } := by
  rw [hearCall, Sound.tell_of_ne hsignal, hdeeds]
  rfl

/-- What becomes of the traffic when the near end gives a request up: a stream that had come for it
is let go of. -/
theorem perform_abandon (t : Traffic) (request : Nat) :
    let t' := t.perform (.abandon 0 request)
    t'.near = t.near.abandon request ∧ t'.far = t.far ∧ t'.callers = t.callers ∧
      t'.strands.length = t.strands.length ∧
      ∀ (k : Nat) (after : Strand), t.near.openings.answers.lookup request = some (some k) →
        t'.strands[k]? = some after → after.Released := by
  intro t'
  have hfirst : (t.near.openings.abandon request).1 =
      (t.near.openings.answers.lookup request).join := t.near.openings.abandon_fst
  simp only [t', perform, session, setSession, if_true]
  split
  · rename_i stream hstream
    refine ⟨rfl, rfl, rfl, List.length_modify .., fun k after hlookup hafter => ?_⟩
    rw [hfirst, hlookup, Option.join_some] at hstream
    cases hstream
    simp only [onStrand, List.getElem?_modify_eq] at hafter
    obtain ⟨strand, -, rfl⟩ := Option.map_eq_some_iff.1 hafter
    exact strand.released_drop
  · rename_i hnone
    refine ⟨rfl, rfl, rfl, rfl, fun k after hlookup => ?_⟩
    rw [hfirst, hlookup, Option.join_some] at hnone
    cases hnone

/-- A call that waited for a stream gives its request up and ends. -/
theorem Kept.abandon (h : t.Kept) (hc : t.callers[i]? = some c)
    (hstage : c.call.stage = .opening request) (c' : Caller) :
    Kept (({ t with callers := t.callers.set i c' } : Traffic).perform (.abandon 0 request)) := by
  have hstream : c.stream? = none := by simp only [Caller.stream?, hstage]
  obtain ⟨hopenings, hclosed, -⟩ := t.near.abandon_keeps request
  obtain ⟨hnear, hfar, hcallers, hlength, hback⟩ :=
    ({ t with callers := t.callers.set i c' } : Traffic).perform_abandon request
  have htold : t.Onward { t with callers := t.callers.set i c' } := .of_eq rfl
  have hperform : ∀ told : Traffic, told.Onward (told.perform (.abandon 0 request)) :=
    fun told => perform_onward fun _ _ heq => by cases heq
  refine h.of_onward (htold.trans (hperform _)) hlength ?_ ?_ fun k after hheld hk => ?_
  · unfold closed
    rw [hnear, hfar, hclosed]
    exact id
  · rw [hnear, hopenings, hcallers]
    exact h.tended.abandon fun r hne hr => hr.set_of_ne hc hstage hne
  · rw [hnear, hopenings, hcallers]
    have hset : HeldNear (t.callers.set i c') t.near.openings k :=
      hheld.set hc (by rw [hstream]; exact fun heq => by cases heq) id
    rcases hset with huses | ⟨r, hr⟩
    · exact .inl (.inl huses)
    · by_cases hne : r = request
      · subst hne
        exact .inr (.inl (hback k after (h.tended.lookup_eq hr) hk))
      · exact .inl (.inr ⟨r, Mux.Openings.mem_answers_collect.2 ⟨hr, hne⟩⟩)

namespace Sound

theorem kept_asking (h : Sound router t) (hkept : t.Kept) (hc : t.callers[i]? = some c)
    (hstage : c.call.stage = .asking) (hneed : need ∈ c.call.needs)
    (hmeet : t.meet need portion = some (signal, t')) : (t'.hearCall i c need signal).Kept := by
  obtain ⟨hsession, -, -⟩ := h.begun i c hc
  have hstream : c.stream? = none := by simp only [Caller.stream?, hstage]
  have htended : ∀ c' : Caller, t.near.openings.Tended (Awaiting (t.callers.set i c')) := by
    intro c'
    refine hkept.tended.mono fun r hr => hr.set hc ?_
    rw [hstage]
    exact fun heq => by cases heq
  have hneeds : need = .cancelled 0 ∨ need = .request 0 ∨ need = .moment c.call.deadline := by
    simpa only [Call.needs, hstage, hsession, CallStage.need, List.mem_cons, List.not_mem_nil,
      or_false] using hneed
  have hends : ∀ (need : Need) (signal : Signal), (∀ ref, signal ≠ .stream ref) →
      (c.call.hear need signal).2 = [] → (t.hearCall i c need signal).Kept := by
    intro need signal hsignal hdeeds
    rw [hearCall_of_nil hsignal hdeeds]
    exact hkept.putCaller hc hstream rfl (htended _) fun _ => id
  rcases hneeds with rfl | rfl | rfl
  · obtain ⟨-, rfl, rfl⟩ := meet_cancelled hmeet
    refine hends _ _ (fun _ heq => by cases heq) ?_
    simp only [Call.hear, Call.conclude, Call.release, CallStage.release, hstage]
  · simp only [meet, session, if_true, setSession, Session.request] at hmeet
    by_cases hclosed : t.near.isClosed = true
    · rw [if_pos hclosed] at hmeet
      cases hmeet
      refine hends _ _ (fun _ heq => by cases heq) ?_
      simp only [Call.hear, Call.advance, hstage, Fabric.ticketOf]
    · rw [if_neg hclosed] at hmeet
      cases hmeet
      have hhear : c.call.hear (.request 0) (.ticket t.near.openings.next) =
          ({ c.call with stage := .opening t.near.openings.next }, []) := by
        simp only [Call.hear, Call.advance, hstage]
      simp only [Fabric.ticketOf, Mux.Openings.ask]
      rw [hearCall_of_nil (fun _ heq => by cases heq) (by rw [hhear])]
      refine hkept.putCaller hc hstream rfl ?_ fun _ => id
      have hbelow : ∀ r, Awaiting t.callers r → r < t.near.openings.next := by
        intro r hr
        obtain ⟨j, hj⟩ := hr
        exact h.fair.below j r hj
      refine hkept.tended.ask hbelow fun r hr => ?_
      rcases hr with hold | rfl
      · exact hold.set hc (by rw [hstage]; exact fun heq => by cases heq)
      · refine ⟨i, _, List.getElem?_set_self (List.getElem?_eq_some_iff.1 hc).1, ?_⟩
        simp only [Caller.hear, hhear]
  · obtain ⟨rfl, rfl⟩ := meet_moment hmeet
    refine hends _ _ (fun _ heq => by cases heq) ?_
    simp only [Call.hear, Call.conclude, Call.release, CallStage.release, hstage]

theorem kept_opens (h : Sound router t) (hkept : t.Kept) (hc : t.callers[i]? = some c)
    (hstage : c.call.stage = .opening request)
    (hmem : (request, some k) ∈ t.near.openings.answers) :
    Kept (hearCall i c (.granted 0 request) (.stream ⟨0, k⟩)
      { t with near := { t.near with openings := (t.near.openings.collect request).2 } }) := by
  have hstream : c.stream? = none := by simp only [Caller.stream?, hstage]
  have hhear : c.call.hear (.granted 0 request) (.stream ⟨0, k⟩) = c.call.send ⟨0, k⟩ := by
    simp only [Call.hear, Call.advance, hstage]
  have howns : Call.KeepsOrDrops ⟨0, k⟩
      ((c.hear t.closed (.granted 0 request) (.stream ⟨0, k⟩)).call,
        (c.call.hear (.granted 0 request) (.stream ⟨0, k⟩)).2) := by
    simp only [Caller.hear, hhear]
    exact Call.send_on_stream ⟨0, k⟩ c.call
  obtain ⟨strand, hk, -⟩ := h.fair.promised request k hmem
  let near := { t.near with openings := (t.near.openings.collect request).2 }
  have htold : strand.Onward { strand with caller? := some i } := ⟨id, Nat.le_refl _⟩
  have hopen : near.isClosed = t.near.isClosed := rfl
  rw [hearCall_of_stream (t := { t with near }) hk howns.concerns]
  refine hkept.putOwner hk hc htold hopen ?_ (fun j hne hheld => ?_) howns
  · exact hkept.tended.collect hmem fun r hne hr => hr.set_of_ne hc hstage hne
  · refine hheld.set hc (by rw [hstream]; exact fun heq => by cases heq) fun hanswered => ?_
    obtain ⟨r, hr⟩ := hanswered
    refine ⟨r, Mux.Openings.mem_answers_collect.2 ⟨hr, ?_⟩⟩
    rintro rfl
    have hsame := (hkept.tended.lookup_eq hr).symm.trans (hkept.tended.lookup_eq hmem)
    cases hsame
    exact hne rfl

theorem kept_granted (h : Sound router t) (hkept : t.Kept) (hc : t.callers[i]? = some c)
    (hstage : c.call.stage = .opening request)
    (hmeet : t.meet (.granted 0 request) portion = some (signal, t')) :
    (t'.hearCall i c (.granted 0 request) signal).Kept := by
  have hstream : c.stream? = none := by simp only [Caller.stream?, hstage]
  have hrefused : ∀ fault, (c.call.hear (.granted 0 request) (.refused fault)).2 = [] := by
    intro fault
    simp only [Call.hear, Call.advance, hstage]
  simp only [meet, session, setSession, if_true, Session.collect] at hmeet
  split at hmeet
  · -- the session is cancelled, and gives the request up
    rename_i hcancelled
    cases hmeet
    obtain ⟨hopenings, hclosed, -⟩ := t.near.abandon_keeps request
    have hshut : t.closed = true := by simp [closed, Session.isClosed, hcancelled]
    rw [hearCall_of_nil (fun _ heq => by cases heq) (hrefused _)]
    have hstays : ∀ callers, closed { t with near := t.near.abandon request, callers } = true := by
      intro callers
      unfold closed at hshut ⊢
      rw [hclosed]
      exact hshut
    refine hkept.of_onward (.of_eq rfl) rfl (fun _ => hstays _) ?_ fun k after _ _ =>
      .inr (.inr (hstays _))
    change (t.near.abandon request).openings.Tended (Awaiting (t.callers.set i _))
    rw [hopenings]
    exact hkept.tended.abandon fun r hne hr => hr.set_of_ne hc hstage hne
  · cases hlookup : t.near.openings.answers.lookup request with
    | none =>
      rw [Mux.Openings.collect_of_none hlookup] at hmeet
      cases hmeet
    | some stream? =>
      have hmem := Mux.Openings.mem_of_lookup hlookup
      have hcollect := Mux.Openings.collect_of_some hlookup
      rw [hcollect] at hmeet
      cases stream? with
      | none =>
        cases hmeet
        have htended : (t.near.openings.collect request).2.Tended (Awaiting (t.callers.set i
            (c.hear t.closed (.granted 0 request) (.refused .closed)))) :=
          hkept.tended.collect hmem fun r hne hr => hr.set_of_ne hc hstage hne
        rw [hearCall_of_nil (fun _ heq => by cases heq) (hrefused _)]
        refine hkept.putCaller hc hstream rfl ?_ ?_
        · rw [hcollect] at htended
          exact htended
        · rintro k ⟨r, hr⟩
          refine ⟨r, List.mem_filter.2 ⟨hr, ?_⟩⟩
          have hne : r ≠ request := by
            rintro rfl
            rw [hkept.tended.lookup_eq hr] at hlookup
            cases hlookup
          exact decide_eq_true hne
      | some k =>
        cases hmeet
        have hopens := h.kept_opens hkept hc hstage hmem
        rw [hcollect] at hopens
        exact hopens

theorem kept_opening (h : Sound router t) (hkept : t.Kept) (hc : t.callers[i]? = some c)
    (hstage : c.call.stage = .opening request) (hneed : need ∈ c.call.needs)
    (hmeet : t.meet need portion = some (signal, t')) : (t'.hearCall i c need signal).Kept := by
  obtain ⟨hsession, -, -⟩ := h.begun i c hc
  have hneeds : need = .cancelled 0 ∨ need = .granted 0 request ∨
      need = .moment c.call.deadline := by
    simpa only [Call.needs, hstage, hsession, CallStage.need, List.mem_cons, List.not_mem_nil,
      or_false] using hneed
  have habandons : ∀ (need : Need) (signal : Signal), (∀ ref, signal ≠ .stream ref) →
      (c.call.hear need signal).2 = [.abandon 0 request] → (t.hearCall i c need signal).Kept := by
    intro need signal hsignal hdeeds
    rw [hearCall, tell_of_ne hsignal, hdeeds]
    exact hkept.abandon hc hstage _
  rcases hneeds with rfl | rfl | rfl
  · obtain ⟨-, rfl, rfl⟩ := meet_cancelled hmeet
    refine habandons _ _ (fun _ heq => by cases heq) ?_
    simp only [Call.hear, Call.conclude, Call.release, CallStage.release, hstage, hsession]
  · exact h.kept_granted hkept hc hstage hmeet
  · obtain ⟨rfl, rfl⟩ := meet_moment hmeet
    refine habandons _ _ (fun _ heq => by cases heq) ?_
    simp only [Call.hear, Call.conclude, Call.release, CallStage.release, hstage, hsession]

theorem kept_on_stream (h : Sound router t) (hkept : t.Kept) (ref : StreamRef)
    (hc : t.callers[i]? = some c) (hstream : c.stream? = some ref) (hneed : need ∈ c.call.needs)
    (hmeet : t.meet need portion = some (signal, t')) : (t'.hearCall i c need signal).Kept := by
  obtain ⟨strand, after, hk, -, hmeets, hkeeps, hafter⟩ := h.call_after ref hc hstream hneed hmeet
  obtain ⟨_, _, _, hlinked⟩ := h.strand_of_stream hc ref hstream
  have href : ref = ⟨0, ref.stream⟩ := Caller.AtStrand.stream_eq hlinked.near hstream
  have howns : Call.KeepsOrDrops ref
      ((c.hear t.closed need signal).call, (c.call.hear need signal).2) :=
    Call.hear_on_stream hstream hmeets.keeps.2.2.2.not_refused
  rw [href] at howns
  rw [hafter]
  refine hkept.putOwner hk hc hmeets.onward rfl ?_ (fun j hne hheld => ?_) howns
  · refine hkept.tended.mono fun r hr => hr.set hc fun hstage => ?_
    simp only [Caller.stream?, hstage, reduceCtorEq] at hstream
  · refine hheld.set hc (fun heq => hne ?_) id
    rw [hstream] at heq
    exact (congrArg StreamRef.stream (Option.some.inj heq)).symm

theorem kept_call (h : Sound router t) (hkept : t.Kept)
    (hstep : t.step (.call i place portion) = some t') : t'.Kept := by
  simp only [Traffic.step] at hstep
  obtain ⟨c, hc, hstep⟩ := Option.bind_eq_some_iff.1 hstep
  obtain ⟨need, hplace, hstep⟩ := Option.bind_eq_some_iff.1 hstep
  obtain ⟨⟨signal, between⟩, hmeet, rfl⟩ := Option.map_eq_some_iff.1 hstep
  have hneed := List.mem_of_getElem? hplace
  cases hstage : c.call.stage with
  | asking => exact h.kept_asking hkept hc hstage hneed hmeet
  | opening request => exact h.kept_opening hkept hc hstage hneed hmeet
  | done outcome => simp only [Call.needs, hstage, List.not_mem_nil] at hneed
  | writing ref data sent =>
    exact h.kept_on_stream hkept ref hc (by simp only [Caller.stream?, hstage]) hneed hmeet
  | reading ref reader =>
    exact h.kept_on_stream hkept ref hc (by simp only [Caller.stream?, hstage]) hneed hmeet
  | finishing ref outcome =>
    exact h.kept_on_stream hkept ref hc (by simp only [Caller.stream?, hstage]) hneed hmeet

/-! ## All other moves -/

theorem kept_issue (hkept : t.Kept) (c : Caller) : Kept { t with callers := t.callers ++ [c] } := by
  have hold : ∀ {i : Nat} {d : Caller}, t.callers[i]? = some d →
      (t.callers ++ [c])[i]? = some d :=
    fun hd => (List.getElem?_append_left (List.getElem?_eq_some_iff.1 hd).1).trans hd
  refine hkept.of_onward (.of_eq rfl) rfl id ?_ fun k after hheld _ => .inl ?_
  · exact hkept.tended.mono fun r ⟨i, d, hd, hstage⟩ => ⟨i, d, hold hd, hstage⟩
  · exact hheld.imp_left fun ⟨i, d, hd, huses⟩ => ⟨i, d, hold hd, huses⟩

/-- The requests for streams change, and no stream that was promised is taken back. -/
theorem kept_openings (hkept : t.Kept) {near : Session}
    (hclosed : t.near.isClosed = true → near.isClosed = true)
    (htended : near.openings.Tended (Awaiting t.callers))
    (hpromised : ∀ k, Promised t.near.openings k → Promised near.openings k) :
    Kept { t with near } := by
  refine hkept.of_onward (.of_eq rfl) rfl ?_ htended fun k after hheld _ => .inl ?_
  · simp only [closed, Bool.or_eq_true]
    exact fun hc => hc.imp_left hclosed
  · exact hheld.imp_right (hpromised k)

/-- A stream is begun for a call that waits for it, or is let go of. -/
theorem kept_grant (hkept : t.Kept) (hwaiting : t.near.openings.waiting ≠ []) :
    t.grantNext.Kept := by
  obtain ⟨request, waiting, hqueue⟩ := List.exists_cons_of_ne_nil hwaiting
  have hgrant := Mux.Openings.grant_of_waiting hqueue t.strands.length
  have hpromised : ∀ k, Promised t.near.openings k →
      Promised (t.near.openings.grant t.strands.length).2 k := by
    rintro k ⟨r, hr⟩
    rw [hgrant]
    split
    · exact ⟨r, List.mem_cons_of_mem _ hr⟩
    · exact ⟨r, hr⟩
  refine ⟨hkept.tended.grant t.strands.length, fun k strand hk => ?_⟩
  rcases Lists.getElem?_concat_cases hk with hk | ⟨rfl, rfl⟩
  · exact (hkept.released k strand hk).imp_left fun hheld => hheld.imp_right (hpromised k)
  · change HeldNear t.callers (t.near.openings.grant t.strands.length).2 t.strands.length ∨
      Strand.Released { broken := (t.near.openings.grant t.strands.length).1.isSome } ∨ _
    rw [hgrant]
    split
    · exact .inl (.inr ⟨request, List.mem_cons_self⟩)
    · exact .inr (.inl (.inr rfl))

/-- The loop that accepts streams leaves the near end as it is. -/
theorem kept_serve (h : Sound router t) (hkept : t.Kept) (hstep : t.step .serve = some t') :
    t'.Kept := by
  have honward := h.serve_onward hstep
  obtain ⟨far, signal, hclosed, rfl, -⟩ := h.serve_after hstep
  have hsame : closed { t with far } = t.closed := by simp only [closed, hclosed]
  unfold hearServing at honward ⊢
  cases signal with
  | stream ref =>
    refine hkept.of_same honward (List.length_modify ..) ?_ rfl rfl
    exact fun hc => hsame.trans hc
  | _ => exact hkept.of_same honward rfl (fun hc => hsame.trans hc) rfl rfl

theorem kept_close (hkept : t.Kept) (id : Nat) :
    (t.setSession id (t.session id).close.2).Kept := by
  obtain ⟨hopenings, -, -, -, hclosed⟩ := (t.session id).close_keeps
  unfold setSession session at *
  split
  · rename_i hid
    rw [if_pos hid] at *
    refine kept_openings hkept hclosed ?_ ?_
    · rw [hopenings]
      exact hkept.tended
    · rw [hopenings]
      exact fun _ hpromised => hpromised
  · rename_i hid
    rw [if_neg hid] at *
    refine hkept.of_same (.of_eq rfl) rfl ?_ rfl rfl
    simp only [closed, Bool.or_eq_true]
    exact fun hc => hc.imp_right hclosed

theorem kept_fail (hkept : t.Kept) (id : Nat) :
    (t.setSession id (t.session id).fail).Kept := by
  unfold setSession session
  split
  · obtain ⟨-, -, -, hanswers⟩ := t.near.openings.refuse_keeps
    exact kept_openings hkept (fun _ => rfl) hkept.tended.refuse
      fun k ⟨r, hr⟩ => ⟨r, (hanswers r k).2 hr⟩
  · refine hkept.of_same (.of_eq rfl) rfl (fun _ => ?_) rfl rfl
    have hclosed : t.far.fail.isClosed = true := rfl
    simp only [closed, hclosed, Bool.or_true]

/-- **Every move leaves nothing lying at the near end.** -/
theorem kept (h : Sound router t) (hkept : t.Kept) (hstep : t.step move = some t') : t'.Kept := by
  cases move with
  | issue envelope limit => cases hstep; exact kept_issue hkept _
  | tick => cases hstep; exact ⟨hkept.tended, hkept.released⟩
  | call i place portion => exact h.kept_call hkept hstep
  | service k place portion =>
    obtain ⟨strand, after, hk, honward, -, rfl⟩ := h.service_onward hstep
    exact hkept.of_same (.of_set hk honward rfl) (List.length_set ..) id rfl rfl
  | serve => exact h.kept_serve hkept hstep
  | takeUp =>
    simp only [Traffic.step] at hstep
    split at hstep <;> cases hstep
    exact kept_openings hkept id ⟨hkept.tended.once, hkept.tended.opening⟩ fun _ => id
  | grant =>
    simp only [Traffic.step] at hstep
    split at hstep
    · cases hstep
    · rename_i hwaiting
      cases hstep
      exact kept_grant hkept hwaiting
  | arrive k =>
    simp only [Traffic.step] at hstep
    split at hstep <;> cases hstep
    exact hkept.of_same (.of_eq rfl) rfl id rfl rfl
  | close id => cases hstep; exact kept_close hkept id
  | fail id =>
    simp only [Traffic.step] at hstep
    split at hstep <;> cases hstep
    exact kept_fail hkept id
  | snap k =>
    have honward := h.onward hstep
    simp only [Traffic.step] at hstep
    split at hstep <;> cases hstep
    exact hkept.of_same honward (List.length_modify ..) id rfl rfl

end Sound

end Traffic

end Switchboard
