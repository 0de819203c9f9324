import Switchboard.Mux.Openings

/-!
# Requests for streams

What holds between the requests for streams of a connection, who waits for them, and the streams
that are still free. A request that somebody waits for is in the queue or has its answer; no stream
answers two requests, and one that answers a request is free. `opening i r` says that `i` waits for
the request `r`, and `free k` that nobody was told of the stream `k`. In the other direction,
`Tended` says that no request is remembered that nobody waits for.
-/

namespace Switchboard.Mux.Openings

/-! ## What the operations do -/

variable {o : Openings} {request r k : Nat} {stream? : Option Nat}

theorem collect_of_none (h : o.answers.lookup request = none) : o.collect request = (none, o) := by
  simp only [collect, h]

theorem collect_of_some (h : o.answers.lookup request = some stream?) :
    o.collect request =
      (some stream?, { o with answers := o.answers.filter (·.1 ≠ request) }) := by
  simp only [collect, h]

theorem mem_of_lookup {answers : List (Nat × Option Nat)}
    (h : answers.lookup request = some stream?) : (request, stream?) ∈ answers := by
  obtain ⟨before, after, rfl, -⟩ := List.lookup_eq_some_iff.1 h
  simp

theorem lookup_ne_none {answers : List (Nat × Option Nat)} (h : (request, stream?) ∈ answers) :
    answers.lookup request ≠ none := by
  intro hnone
  have hall := List.lookup_eq_none_iff.1 hnone _ h
  simp at hall

/-- Whether a request is collected or given up, its answers are gone and all others stay. -/
theorem mem_answers_collect :
    (r, stream?) ∈ (o.collect request).2.answers ↔ (r, stream?) ∈ o.answers ∧ r ≠ request := by
  cases h : o.answers.lookup request with
  | none =>
    rw [collect_of_none h]
    refine ⟨fun hmem => ⟨hmem, ?_⟩, fun hmem => hmem.1⟩
    rintro rfl
    exact lookup_ne_none hmem h
  | some answer =>
    rw [collect_of_some h]
    simp only [List.mem_filter, ne_eq, decide_not, Bool.not_eq_true', decide_eq_false_iff_not]

theorem collect_rest (o : Openings) (request : Nat) : (o.collect request).2.next = o.next ∧
    (o.collect request).2.queued = o.queued ∧ (o.collect request).2.waiting = o.waiting ∧
    (o.collect request).2.awaited = o.awaited := by
  cases h : o.answers.lookup request with
  | none => rw [collect_of_none h]; exact ⟨rfl, rfl, rfl, rfl⟩
  | some answer => rw [collect_of_some h]; exact ⟨rfl, rfl, rfl, rfl⟩

theorem abandon_fst : (o.abandon request).1 = (o.answers.lookup request).join := by
  cases h : o.answers.lookup request with
  | none => simp only [abandon, collect_of_none h, Option.join_none]
  | some answer => simp only [abandon, collect_of_some h, Option.join_some]

theorem abandon_snd : (o.abandon request).2 =
    { (o.collect request).2 with awaited := (o.collect request).2.awaited.erase request } := rfl

/-- A stream is granted to the oldest request, or handed back if nobody waits for it any more. -/
theorem grant_of_waiting {waiting : List Nat} (h : o.waiting = request :: waiting) (k : Nat) :
    o.grant k =
      if o.awaited.contains request then
        (none, { o with
          waiting
          awaited := o.awaited.erase request
          answers := (request, some k) :: o.answers })
      else (some k, { o with waiting }) := by
  unfold grant
  rw [h]
  simp only [answer]
  split <;> rfl

theorem grant_keeps {waiting : List Nat} (h : o.waiting = request :: waiting) (k : Nat) :
    (o.grant k).2.next = o.next ∧ (o.grant k).2.queued = o.queued ∧
      (o.grant k).2.waiting = waiting ∧
      ∀ r j, (r, some j) ∈ (o.grant k).2.answers →
        (r, some j) ∈ o.answers ∨ j = k ∧ (o.grant k).1 = none := by
  rw [grant_of_waiting h]
  split
  · refine ⟨rfl, rfl, rfl, fun r j hmem => ?_⟩
    rcases List.mem_cons.1 hmem with heq | hold
    · cases heq
      exact .inr ⟨rfl, rfl⟩
    · exact .inl hold
  · exact ⟨rfl, rfl, rfl, fun r j hmem => .inl hmem⟩

/-- Word that the connection is closed answers no request with a stream. -/
theorem refuse_keeps : o.refuse.next = o.next ∧ o.refuse.queued = [] ∧ o.refuse.waiting = [] ∧
    ∀ r k, (r, some k) ∈ o.refuse.answers ↔ (r, some k) ∈ o.answers := by
  have hfold : ∀ (requests : List Nat) (o : Openings),
      let after := requests.foldl (fun o request => (o.answer request none).2) o
      after.next = o.next ∧ after.queued = o.queued ∧ after.waiting = o.waiting ∧
        ∀ r k, (r, some k) ∈ after.answers ↔ (r, some k) ∈ o.answers := by
    intro requests
    induction requests with
    | nil => exact fun o => ⟨rfl, rfl, rfl, fun r k => Iff.rfl⟩
    | cons request requests ih =>
      intro o
      obtain ⟨hnext, hqueued, hwaiting, hanswers⟩ := ih (o.answer request none).2
      have hone : (o.answer request none).2.next = o.next ∧
          (o.answer request none).2.queued = o.queued ∧
          (o.answer request none).2.waiting = o.waiting ∧
          ∀ r k, (r, some k) ∈ (o.answer request none).2.answers ↔ (r, some k) ∈ o.answers := by
        unfold answer
        split
        · refine ⟨rfl, rfl, rfl, fun r k => ?_⟩
          simp
        · exact ⟨rfl, rfl, rfl, fun r k => Iff.rfl⟩
      exact ⟨hnext.trans hone.1, hqueued.trans hone.2.1, hwaiting.trans hone.2.2.1,
        fun r k => (hanswers r k).trans (hone.2.2.2 r k)⟩
  exact hfold _ _

/-! ## What holds between requests and streams -/

/-- Who waits for a request will be answered, and with a stream of its own. -/
structure Fair (closed : Bool) (opening : Nat → Nat → Prop) (free : Nat → Prop) (o : Openings) :
    Prop where
  below : ∀ i r, opening i r → r < o.next
  apart : ∀ i j r, opening i r → opening j r → i = j
  pending : closed = false → ∀ i r, opening i r →
    r ∈ o.awaited ∧ r ∈ o.waiting ++ o.queued ∨ ∃ stream?, (r, stream?) ∈ o.answers
  promised : ∀ r k, (r, some k) ∈ o.answers → free k
  distinct : ∀ r r' k, (r, some k) ∈ o.answers → (r', some k) ∈ o.answers → r = r'
  refused : ∀ r, (r, none) ∈ o.answers → closed = true

namespace Fair

variable {closed closed' : Bool} {opening opening' : Nat → Nat → Prop} {free free' : Nat → Prop}

theorem mono (h : o.Fair closed opening free) (hclosed : closed = true → closed' = true)
    (hopening : ∀ i r, opening' i r → opening i r) (hfree : ∀ k, free k → free' k) :
    o.Fair closed' opening' free' where
  below i r hi := h.below i r (hopening i r hi)
  apart i j r hi hj := h.apart i j r (hopening i r hi) (hopening j r hj)
  pending hlive i r hi := by
    refine h.pending ?_ i r (hopening i r hi)
    cases closed with
    | false => rfl
    | true => rw [hclosed rfl] at hlive; cases hlive
  promised r k hmem := hfree k (h.promised r k hmem)
  distinct := h.distinct
  refused r hmem := hclosed (h.refused r hmem)

theorem ask (h : o.Fair closed opening free) (i : Nat)
    (hopening : ∀ j r, opening' j r → opening j r ∨ j = i ∧ r = o.next) :
    o.ask.2.Fair closed opening' free where
  below j r hj := by
    change r < o.next + 1
    rcases hopening j r hj with hold | ⟨-, rfl⟩
    · have := h.below j r hold
      omega
    · omega
  apart j j' r hj hj' := by
    rcases hopening j r hj with hold | ⟨hi, hr⟩ <;>
      rcases hopening j' r hj' with hold' | ⟨hi', hr'⟩
    · exact h.apart j j' r hold hold'
    · have := h.below j r hold
      omega
    · have := h.below j' r hold'
      omega
    · exact hi.trans hi'.symm
  pending hlive j r hj := by
    rcases hopening j r hj with hold | ⟨rfl, rfl⟩
    · rcases h.pending hlive j r hold with ⟨hawaited, hqueue⟩ | hanswer
      · refine .inl ⟨List.mem_cons_of_mem _ hawaited, ?_⟩
        change r ∈ o.waiting ++ (o.queued ++ [o.next])
        rw [← List.append_assoc]
        exact List.mem_append_left _ hqueue
      · exact .inr hanswer
    · refine .inl ⟨List.mem_cons_self .., ?_⟩
      change o.next ∈ o.waiting ++ (o.queued ++ [o.next])
      simp
  promised := h.promised
  distinct := h.distinct
  refused := h.refused

theorem takeUp (h : o.Fair closed opening free) : o.takeUp.Fair closed opening free where
  below := h.below
  apart := h.apart
  pending hlive i r hi := by
    change _ ∧ r ∈ (o.waiting ++ o.queued) ++ [] ∨ _
    rw [List.append_nil]
    exact h.pending hlive i r hi
  promised := h.promised
  distinct := h.distinct
  refused := h.refused

theorem grant (h : o.Fair closed opening free) {waiting : List Nat}
    (hwaiting : o.waiting = request :: waiting) (hnew : ¬ free k)
    (hfree : ∀ j, free j ∨ j = k → free' j) : (o.grant k).2.Fair closed opening free' := by
  rw [grant_of_waiting hwaiting]
  by_cases hawaited : o.awaited.contains request = true
  · rw [if_pos hawaited]
    refine ⟨h.below, h.apart, fun hlive i r hi => ?_, fun r j hmem => ?_, fun r r' j hr hr' => ?_,
      fun r hmem => ?_⟩
    · by_cases heq : r = request
      · subst heq
        exact .inr ⟨some k, List.mem_cons_self ..⟩
      · rcases h.pending hlive i r hi with ⟨ha, hq⟩ | ⟨stream?, hs⟩
        · refine .inl ⟨(List.mem_erase_of_ne heq).2 ha, ?_⟩
          rw [hwaiting] at hq
          exact (List.mem_cons.1 hq).resolve_left heq
        · exact .inr ⟨stream?, List.mem_cons_of_mem _ hs⟩
    · rcases List.mem_cons.1 hmem with heq | hold
      · cases heq
        exact hfree k (.inr rfl)
      · exact hfree j (.inl (h.promised r j hold))
    · rcases List.mem_cons.1 hr with heq | hold <;> rcases List.mem_cons.1 hr' with heq' | hold'
      · cases heq; cases heq'; rfl
      · cases heq; exact absurd (h.promised r' k hold') hnew
      · cases heq'; exact absurd (h.promised r k hold) hnew
      · exact h.distinct r r' j hold hold'
    · rcases List.mem_cons.1 hmem with heq | hold
      · cases heq
      · exact h.refused r hold
  · rw [if_neg hawaited]
    refine ⟨h.below, h.apart, fun hlive i r hi => ?_,
      fun r j hmem => hfree j (.inl (h.promised r j hmem)), h.distinct, h.refused⟩
    rcases h.pending hlive i r hi with ⟨ha, hq⟩ | hs
    · refine .inl ⟨ha, ?_⟩
      rw [hwaiting] at hq
      refine (List.mem_cons.1 hq).resolve_left ?_
      rintro rfl
      exact hawaited (List.contains_iff_mem.2 ha)
    · exact .inr hs

/-- Who waited for a request has its answer, or has given it up. -/
theorem collect (h : o.Fair closed opening free)
    (hopening : ∀ j r, opening' j r → opening j r ∧ r ≠ request)
    (hfree : ∀ j, free j → (request, some j) ∈ o.answers ∨ free' j) :
    (o.collect request).2.Fair closed opening' free' := by
  obtain ⟨hnext, hqueued, hwaiting, hawaited⟩ := o.collect_rest request
  refine ⟨fun i r hi => ?_,
    fun i j r hi hj => h.apart i j r (hopening i r hi).1 (hopening j r hj).1, fun hlive i r hi => ?_, fun r k hmem => ?_, fun r r' k hr hr' => ?_, fun r hmem => ?_⟩
  · rw [hnext]
    exact h.below i r (hopening i r hi).1
  · obtain ⟨hi, hne⟩ := hopening i r hi
    rw [hawaited, hwaiting, hqueued]
    refine (h.pending hlive i r hi).imp_right ?_
    rintro ⟨stream?, hs⟩
    exact ⟨stream?, mem_answers_collect.2 ⟨hs, hne⟩⟩
  · obtain ⟨hold, hne⟩ := mem_answers_collect.1 hmem
    refine (hfree k (h.promised r k hold)).resolve_left fun hother => ?_
    exact hne (h.distinct r request k hold hother)
  · exact h.distinct r r' k (mem_answers_collect.1 hr).1 (mem_answers_collect.1 hr').1
  · exact h.refused r (mem_answers_collect.1 hmem).1

theorem abandon (h : o.Fair closed opening free)
    (hopening : ∀ j r, opening' j r → opening j r ∧ r ≠ request) :
    (o.abandon request).2.Fair closed opening' free := by
  have hcollect := h.collect hopening fun j hj => .inr hj
  rw [abandon_snd]
  refine ⟨hcollect.below, hcollect.apart, fun hlive i r hi => ?_, hcollect.promised,
    hcollect.distinct, hcollect.refused⟩
  refine (hcollect.pending hlive i r hi).imp_left fun ⟨ha, hq⟩ => ⟨?_, hq⟩
  exact (List.mem_erase_of_ne (hopening i r hi).2).2 ha

theorem refuse (h : o.Fair closed opening free) : o.refuse.Fair true opening free := by
  obtain ⟨hnext, -, -, hanswers⟩ := o.refuse_keeps
  refine ⟨fun i r hi => ?_, h.apart, fun hlive => (by cases hlive), fun r k hmem => ?_,
    fun r r' k hr hr' => ?_, fun _ _ => rfl⟩
  · rw [hnext]
    exact h.below i r hi
  · exact h.promised r k ((hanswers r k).1 hmem)
  · exact h.distinct r r' k ((hanswers r k).1 hr) ((hanswers r' k).1 hr')

end Fair

/-! ## Requests that are remembered -/

variable {o' : Openings} {opening opening' : Nat → Prop}

/-- The requests that are remembered: those that somebody waits for, and those that were
answered. -/
def remembered (o : Openings) : List Nat :=
  o.awaited ++ o.answers.map Prod.fst

/-- A request is remembered once, and for somebody who waits for it. -/
structure Tended (opening : Nat → Prop) (o : Openings) : Prop where
  once : o.remembered.Nodup
  opening : ∀ r ∈ o.remembered, opening r

theorem mem_remembered :
    r ∈ o.remembered ↔ r ∈ o.awaited ∨ ∃ stream?, (r, stream?) ∈ o.answers := by
  simp only [remembered, List.mem_append, List.mem_map, Prod.exists, exists_eq_right,
    exists_and_right]

namespace Tended

theorem of_perm (h : o.Tended opening) (hperm : o'.remembered.Perm o.remembered) :
    o'.Tended opening where
  once := hperm.symm.nodup h.once
  opening r hr := h.opening r (hperm.mem_iff.1 hr)

theorem of_sublist (h : o.Tended opening) (hless : o'.remembered.Sublist o.remembered)
    (hopening : ∀ r ∈ o'.remembered, opening r → opening' r) : o'.Tended opening' where
  once := hless.nodup h.once
  opening r hr := hopening r hr (h.opening r (hless.subset hr))

theorem mono (h : o.Tended opening) (hopening : ∀ r, opening r → opening' r) :
    o.Tended opening' :=
  h.of_sublist (List.Sublist.refl _) fun r _ => hopening r

theorem not_awaited (h : o.Tended opening) (hmem : (request, stream?) ∈ o.answers) :
    request ∉ o.awaited := by
  intro hin
  have hdisjoint := (List.nodup_append.1 h.once).2.2
  exact hdisjoint request hin request (List.mem_map_of_mem hmem) rfl

theorem lookup_eq (h : o.Tended opening) (hmem : (request, stream?) ∈ o.answers) :
    o.answers.lookup request = some stream? := by
  have hnodup := (List.nodup_append.1 h.once).2.1
  generalize o.answers = answers at hmem hnodup
  induction answers with
  | nil => cases hmem
  | cons answer answers ih =>
    obtain ⟨first, other?⟩ := answer
    rw [List.map_cons, List.nodup_cons] at hnodup
    rcases List.mem_cons.1 hmem with heq | hlater
    · cases heq
      exact List.lookup_cons_self
    · have hne : (request == first) = false := by
        rw [beq_eq_false_iff_ne]
        rintro rfl
        exact hnodup.1 (List.mem_map.2 ⟨(request, stream?), hlater, rfl⟩)
      rw [List.lookup_cons, hne]
      exact ih hlater hnodup.2

theorem ask (h : o.Tended opening) (hnew : ∀ r, opening r → r < o.next)
    (hopening : ∀ r, opening r ∨ r = o.next → opening' r) : o.ask.2.Tended opening' where
  once := by
    change (o.next :: o.remembered).Nodup
    refine List.nodup_cons.2 ⟨fun hin => ?_, h.once⟩
    exact Nat.lt_irrefl _ (hnew _ (h.opening _ hin))
  opening r hr := by
    change r ∈ o.next :: o.remembered at hr
    rcases List.mem_cons.1 hr with rfl | hold
    · exact hopening _ (.inr rfl)
    · exact hopening r (.inl (h.opening r hold))

theorem answer (h : o.Tended opening) (request : Nat) (stream? : Option Nat) :
    (o.answer request stream?).2.Tended opening := by
  unfold Openings.answer
  split
  · rename_i hawaited
    refine h.of_perm ?_
    change (o.awaited.erase request ++ request :: o.answers.map Prod.fst).Perm _
    refine List.perm_middle.trans ?_
    exact (List.perm_cons_erase (List.contains_iff_mem.1 hawaited)).symm.append_right _
  · exact h

theorem grant (h : o.Tended opening) (k : Nat) : (o.grant k).2.Tended opening := by
  unfold Openings.grant
  split
  · exact h
  · rename_i request waiting _
    have hwaiting : Tended opening { o with waiting } := ⟨h.once, h.opening⟩
    exact hwaiting.answer request (some k)

theorem refuse (h : o.Tended opening) : o.refuse.Tended opening := by
  have hfold : ∀ (requests : List Nat) (o : Openings), o.Tended opening →
      (requests.foldl (fun o request => (o.answer request none).2) o).Tended opening := by
    intro requests
    induction requests with
    | nil => exact fun o h => h
    | cons request requests ih => exact fun o h => ih _ (h.answer request none)
  exact hfold _ _ ⟨h.once, h.opening⟩

theorem remembered_collect (o : Openings) (request : Nat) :
    (o.collect request).2.remembered.Sublist o.remembered := by
  cases hlookup : o.answers.lookup request with
  | none => simp only [collect_of_none hlookup, List.Sublist.refl]
  | some answer =>
    rw [collect_of_some hlookup]
    exact (List.Sublist.refl _).append (List.filter_sublist.map _)

/-- The answer to a request is collected by who waited for it. -/
theorem collect (h : o.Tended opening) (hmem : (request, stream?) ∈ o.answers)
    (hopening : ∀ r, r ≠ request → opening r → opening' r) :
    (o.collect request).2.Tended opening' := by
  refine h.of_sublist (remembered_collect o request) fun r hr => hopening r ?_
  rintro rfl
  rcases mem_remembered.1 hr with hawaited | ⟨answer, hanswer⟩
  · rw [(o.collect_rest r).2.2.2] at hawaited
    exact h.not_awaited hmem hawaited
  · exact (mem_answers_collect.1 hanswer).2 rfl

theorem abandon (h : o.Tended opening) (hopening : ∀ r, r ≠ request → opening r → opening' r) :
    (o.abandon request).2.Tended opening' := by
  have hcollect := remembered_collect o request
  have hawaited := (o.collect_rest request).2.2.2
  rw [abandon_snd]
  refine h.of_sublist ?_ fun r hr => hopening r ?_
  · exact (List.erase_sublist.append (List.Sublist.refl _)).trans hcollect
  · rintro rfl
    rcases mem_remembered.1 hr with hin | ⟨answer, hanswer⟩
    · have honce := (List.nodup_append.1 h.once).1
      rw [← hawaited] at honce
      exact (List.Nodup.not_mem_erase honce) hin
    · exact (mem_answers_collect.1 hanswer).2 rfl

end Tended

end Switchboard.Mux.Openings
