import Switchboard.Proofs.Traffic.Requests

/-!
# The line for streams

Requests for streams stand in one line, in the order in which they were made, and the connection
answers the one in front. `Lined stopped begun openers o` says where everybody stands when the
streams `begun` were begun and the requests `openers` are still waited for: the request `r` is due
the stream that was begun as number `r`, it has that stream as soon as it is there, and once the
connection has stopped who is due none has word that the connection is closed.
-/

namespace Switchboard.Mux.Openings

variable {o : Openings} {stopped : Bool} {begun openers : List Nat} {request k : Nat}

/-! ## Answers -/

/-- What an answer to a request changes: who is waited for and has no answer yet, and the answers.
-/
structure Answers (o : Openings) (requests : List Nat) (answer : Option Nat) (after : Openings) :
    Prop where
  next : after.next = o.next
  queued : after.queued = o.queued
  waiting : after.waiting = o.waiting
  distinct : after.awaited.Nodup
  awaited : ∀ r, r ∈ after.awaited ↔ r ∈ o.awaited ∧ r ∉ requests
  answers : ∀ r given, (r, given) ∈ after.answers ↔
    (r, given) ∈ o.answers ∨ given = answer ∧ r ∈ requests ∧ r ∈ o.awaited

theorem answers_answer (h : o.awaited.Nodup) (request : Nat) (answer : Option Nat) :
    Answers o [request] answer (o.answer request answer).2 := by
  unfold Openings.answer
  by_cases hawaited : o.awaited.contains request = true
  · rw [if_pos hawaited]
    have hmem : request ∈ o.awaited := List.contains_iff_mem.1 hawaited
    refine ⟨rfl, rfl, rfl, h.erase request, fun r => ?_, fun r given => ?_⟩
    · rw [h.mem_erase_iff, List.mem_singleton, and_comm]
    · rw [List.mem_singleton, List.mem_cons, Prod.mk.injEq]
      constructor
      · rintro (⟨rfl, rfl⟩ | hold)
        · exact .inr ⟨rfl, rfl, hmem⟩
        · exact .inl hold
      · rintro (hold | ⟨rfl, rfl, -⟩)
        · exact .inr hold
        · exact .inl ⟨rfl, rfl⟩
  · rw [if_neg hawaited]
    have hnot : request ∉ o.awaited := fun hmem => hawaited (List.contains_iff_mem.2 hmem)
    refine ⟨rfl, rfl, rfl, h, fun r => ?_, fun r given => ?_⟩
    · rw [List.mem_singleton]
      refine (and_iff_left_of_imp ?_).symm
      rintro hr rfl
      exact hnot hr
    · rw [List.mem_singleton]
      refine (or_iff_left ?_).symm
      rintro ⟨-, rfl, hr⟩
      exact hnot hr

/-- One request after the other is answered. By induction on the requests. -/
theorem answers_foldl (h : o.awaited.Nodup) (requests : List Nat) (answer : Option Nat) :
    Answers o requests answer
      (requests.foldl (fun o request => (o.answer request answer).2) o) := by
  induction requests generalizing o with
  | nil =>
    refine ⟨rfl, rfl, rfl, h, fun r => ?_, fun r given => ?_⟩
    · simp only [List.foldl_nil, List.not_mem_nil, not_false_eq_true, and_true]
    · simp only [List.foldl_nil, List.not_mem_nil, false_and, and_false, or_false]
  | cons request requests ih =>
    have hfirst := answers_answer h request answer
    have hrest := ih hfirst.distinct
    refine ⟨hrest.next.trans hfirst.next, hrest.queued.trans hfirst.queued,
      hrest.waiting.trans hfirst.waiting, hrest.distinct, fun r => ?_, fun r given => ?_⟩
    · rw [List.foldl_cons, hrest.awaited, hfirst.awaited, List.mem_singleton, List.mem_cons,
        not_or, and_assoc]
    · rw [List.foldl_cons, hrest.answers, hfirst.answers, hfirst.awaited, List.mem_singleton,
        List.mem_cons]
      by_cases heq : r = request
      · simp only [heq, true_and, true_or, not_true, and_false, or_false]
      · simp only [heq, false_and, and_false, or_false, false_or, not_false_iff, and_true]

theorem answers_refuse (h : o.awaited.Nodup) :
    Answers { o with waiting := [], queued := [] } (o.waiting ++ o.queued) none o.refuse :=
  answers_foldl (o := { o with waiting := [], queued := [] }) h _ none

/-- To grant a stream is to answer the request in front with it. -/
theorem answers_grant {waiting : List Nat} (h : o.awaited.Nodup)
    (hwaiting : o.waiting = request :: waiting) (k : Nat) :
    Answers { o with waiting } [request] (some k) (o.grant k).2 := by
  have hanswers := answers_answer (o := { o with waiting }) h request (some k)
  unfold grant
  rw [hwaiting]
  exact hanswers

/-! ## Where everybody stands -/

/-- Who waits for a stream is in line, in the order of the requests, or has what is due. -/
structure Lined (stopped : Bool) (begun openers : List Nat) (o : Openings) : Prop where
  distinct : o.awaited.Nodup
  once : openers.Nodup
  made : ∀ r ∈ openers, r < o.next
  reached : begun.length ≤ o.next
  line : o.waiting ++ o.queued =
    if stopped = true then [] else List.range' begun.length (o.next - begun.length)
  awaited : ∀ r, r ∈ o.awaited ↔ r ∈ openers ∧ begun.length ≤ r ∧ stopped = false
  answers : ∀ r answer, (r, answer) ∈ o.answers ↔
    r ∈ openers ∧ (r < begun.length ∨ stopped = true) ∧ answer = begun[r]?

theorem lined_empty : Lined false [] [] {} where
  distinct := List.nodup_nil
  once := List.nodup_nil
  made r hr := absurd hr List.not_mem_nil
  reached := Nat.le_refl 0
  line := rfl
  awaited r := by simp
  answers r answer := by simp

namespace Lined

/-- Who waits for a request has its answer once it is due, and none before. -/
theorem lookup (h : o.Lined stopped begun openers) (hr : request ∈ openers) :
    o.answers.lookup request =
      if request < begun.length ∨ stopped = true then some begun[request]? else none := by
  cases hlookup : o.answers.lookup request with
  | none =>
    rw [if_neg]
    intro hdue
    exact lookup_ne_none ((h.answers request _).2 ⟨hr, hdue, rfl⟩) hlookup
  | some answer =>
    obtain ⟨-, hdue, rfl⟩ := (h.answers request answer).1 (mem_of_lookup hlookup)
    rw [if_pos hdue]

theorem ask (h : o.Lined false begun openers) :
    o.ask.2.Lined false begun (openers ++ [o.next]) where
  distinct := by
    refine List.nodup_cons.2 ⟨fun hmem => ?_, h.distinct⟩
    exact Nat.lt_irrefl _ (h.made _ ((h.awaited _).1 hmem).1)
  once := by
    rw [List.nodup_append]
    refine ⟨h.once, List.pairwise_singleton _ _, fun r hr j hj heq => ?_⟩
    rw [List.mem_singleton.1 hj] at heq
    exact Nat.lt_irrefl _ (heq ▸ h.made r hr)
  made r hr := by
    change r < o.next + 1
    rcases List.mem_append.1 hr with hold | hnew
    · exact Nat.lt_succ_of_lt (h.made r hold)
    · rw [List.mem_singleton.1 hnew]
      exact Nat.lt_succ_self _
  reached := Nat.le_succ_of_le h.reached
  line := by
    have hreached := h.reached
    have hline := h.line
    change o.waiting ++ (o.queued ++ [o.next]) =
      List.range' begun.length (o.next + 1 - begun.length)
    rw [← List.append_assoc, hline, if_neg Bool.false_ne_true, Nat.succ_sub hreached,
      List.range'_1_concat, Nat.add_sub_cancel' hreached]
  awaited r := by
    change r ∈ o.next :: o.awaited ↔ _
    have hreached := h.reached
    rw [List.mem_cons, List.mem_append, List.mem_singleton, h.awaited]
    constructor
    · rintro (rfl | ⟨hold, hdue⟩)
      · exact ⟨.inr rfl, hreached, rfl⟩
      · exact ⟨.inl hold, hdue⟩
    · rintro ⟨hold | hnew, hdue⟩
      · exact .inr ⟨hold, hdue⟩
      · exact .inl hnew
  answers r answer := by
    change (r, answer) ∈ o.answers ↔ _
    have hreached := h.reached
    rw [h.answers, List.mem_append, List.mem_singleton]
    refine and_congr_left fun hgiven => (or_iff_left ?_).symm
    rintro rfl
    rcases hgiven.1 with hlt | hstopped
    · omega
    · cases hstopped

theorem takeUp (h : o.Lined stopped begun openers) : o.takeUp.Lined stopped begun openers where
  distinct := h.distinct
  once := h.once
  made := h.made
  reached := h.reached
  line := by
    change (o.waiting ++ o.queued) ++ [] = _
    rw [List.append_nil]
    exact h.line
  awaited := h.awaited
  answers := h.answers

/-- The request in front is the one that the next stream is due to. -/
theorem front (h : o.Lined stopped begun openers) {waiting : List Nat}
    (hwaiting : o.waiting = request :: waiting) :
    stopped = false ∧ request = begun.length ∧ begun.length < o.next ∧
      waiting ++ o.queued = List.range' (begun.length + 1) (o.next - (begun.length + 1)) := by
  have hline := h.line
  rw [hwaiting, List.cons_append] at hline
  cases stopped with
  | true => cases hline
  | false =>
    rw [if_neg Bool.false_ne_true] at hline
    cases hleft : o.next - begun.length with
    | zero => rw [hleft] at hline; cases hline
    | succ left =>
      rw [hleft, List.range'_succ] at hline
      obtain ⟨hrequest, hrest⟩ := List.cons.inj hline
      refine ⟨rfl, hrequest, by omega, ?_⟩
      rw [hrest, show o.next - (begun.length + 1) = left by omega]

/-- A stream is begun: the request in front is answered with it, if somebody waits for it. -/
theorem grant (h : o.Lined stopped begun openers) {waiting : List Nat}
    (hwaiting : o.waiting = request :: waiting) (k : Nat) :
    (o.grant k).2.Lined stopped (begun ++ [k]) openers := by
  obtain ⟨rfl, rfl, hlt, hline⟩ := h.front hwaiting
  have ha := answers_grant h.distinct hwaiting k
  have hlength : (begun ++ [k]).length = begun.length + 1 := List.length_append
  refine ⟨ha.distinct, h.once, fun r hr => ?_, ?_, ?_, fun r => ?_, fun r answer => ?_⟩
  · rw [ha.next]
    exact h.made r hr
  · rw [ha.next, hlength]
    exact hlt
  · rw [ha.waiting, ha.queued, ha.next, hlength]
    exact hline
  · rw [ha.awaited, h.awaited, List.mem_singleton, hlength]
    constructor
    · rintro ⟨⟨hr, hle, -⟩, hne⟩
      exact ⟨hr, by omega, rfl⟩
    · rintro ⟨hr, hle, -⟩
      exact ⟨⟨hr, by omega, rfl⟩, by omega⟩
  · rw [ha.answers, h.answers, h.awaited, List.mem_singleton, hlength]
    constructor
    · rintro (⟨hr, hlt | hstopped, rfl⟩ | ⟨rfl, rfl, hr, -⟩)
      · exact ⟨hr, .inl (by omega), (List.getElem?_append_left hlt).symm⟩
      · cases hstopped
      · exact ⟨hr, .inl (by omega), List.getElem?_concat_length.symm⟩
    · rintro ⟨hr, hle | hstopped, rfl⟩
      · rcases Nat.lt_or_eq_of_le (Nat.le_of_lt_succ hle) with hlt | rfl
        · exact .inl ⟨hr, .inl hlt, List.getElem?_append_left hlt⟩
        · exact .inr ⟨List.getElem?_concat_length, rfl, hr, Nat.le_refl _, rfl⟩
      · cases hstopped

/-- Whether a new stream is handed back: if nobody waits for the request in front. -/
theorem grant_fst (h : o.Lined stopped begun openers) {waiting : List Nat}
    (hwaiting : o.waiting = request :: waiting) (k : Nat) :
    (o.grant k).1 = if begun.length ∈ openers then none else some k := by
  obtain ⟨rfl, rfl, -, -⟩ := h.front hwaiting
  rw [grant_of_waiting hwaiting]
  by_cases hr : begun.length ∈ openers
  · rw [if_pos (List.contains_iff_mem.2 ((h.awaited _).2 ⟨hr, Nat.le_refl _, rfl⟩)), if_pos hr]
  · rw [if_neg fun hc => hr ((h.awaited _).1 (List.contains_iff_mem.1 hc)).1, if_neg hr]

/-- The connection stops: everybody in line has word of it. -/
theorem refuse (h : o.Lined stopped begun openers) : o.refuse.Lined true begun openers := by
  have ha := answers_refuse h.distinct
  have hline : ∀ r, r ∈ o.awaited → r ∈ o.waiting ++ o.queued := by
    intro r hr
    obtain ⟨hopener, hle, rfl⟩ := (h.awaited r).1 hr
    have hlt := h.made r hopener
    rw [h.line, if_neg Bool.false_ne_true, List.mem_range'_1]
    omega
  refine ⟨ha.distinct, h.once, fun r hr => ?_, ?_, ?_, fun r => ?_, fun r answer => ?_⟩
  · rw [ha.next]
    exact h.made r hr
  · rw [ha.next]
    exact h.reached
  · rw [ha.waiting, ha.queued]
    rfl
  · rw [ha.awaited]
    constructor
    · rintro ⟨hr, hnot⟩
      exact absurd (hline r hr) hnot
    · rintro ⟨-, -, hstopped⟩
      cases hstopped
  · rw [ha.answers]
    change (r, answer) ∈ o.answers ∨ _ ∧ _ ∧ r ∈ o.awaited ↔ _
    rw [h.answers]
    constructor
    · rintro (⟨hr, -, hanswer⟩ | ⟨rfl, -, hr⟩)
      · exact ⟨hr, .inr rfl, hanswer⟩
      · obtain ⟨hopener, hle, -⟩ := (h.awaited r).1 hr
        exact ⟨hopener, .inr rfl, (List.getElem?_eq_none hle).symm⟩
    · rintro ⟨hr, -, hanswer⟩
      by_cases hdue : r < begun.length ∨ stopped = true
      · exact .inl ⟨hr, hdue, hanswer⟩
      · have hle : begun.length ≤ r := Nat.not_lt.1 fun hlt => hdue (.inl hlt)
        have hawaited := (h.awaited r).2
          ⟨hr, hle, Bool.eq_false_iff.2 fun hs => hdue (.inr hs)⟩
        refine .inr ⟨?_, hline r hawaited, hawaited⟩
        rw [hanswer, List.getElem?_eq_none hle]

theorem abandon (h : o.Lined stopped begun openers) (request : Nat) :
    (o.abandon request).2.Lined stopped begun (openers.erase request) := by
  obtain ⟨hnext, hqueued, hwaiting, hawaited⟩ := o.collect_rest request
  rw [abandon_snd]
  refine ⟨?_, h.once.erase request, fun r hr => ?_, ?_, ?_, fun r => ?_, fun r answer => ?_⟩
  · change ((o.collect request).2.awaited.erase request).Nodup
    rw [hawaited]
    exact h.distinct.erase request
  · change r < (o.collect request).2.next
    rw [hnext]
    exact h.made r (List.mem_of_mem_erase hr)
  · change begun.length ≤ (o.collect request).2.next
    rw [hnext]
    exact h.reached
  · change (o.collect request).2.waiting ++ (o.collect request).2.queued =
      if stopped = true then [] else
        List.range' begun.length ((o.collect request).2.next - begun.length)
    rw [hwaiting, hqueued, hnext]
    exact h.line
  · change r ∈ (o.collect request).2.awaited.erase request ↔ _
    rw [hawaited, h.distinct.mem_erase_iff, h.once.mem_erase_iff, h.awaited, and_assoc]
  · change (r, answer) ∈ (o.collect request).2.answers ↔ _
    rw [mem_answers_collect, h.answers, h.once.mem_erase_iff, and_comm, and_assoc]

theorem collect (h : o.Lined stopped begun openers) (hr : request ∈ openers)
    (hanswer : o.answers.lookup request ≠ none) :
    (o.collect request).2.Lined stopped begun (openers.erase request) := by
  have hdone := h.abandon request
  have hnot : request ∉ o.awaited := by
    intro hmem
    obtain ⟨-, hle, rfl⟩ := (h.awaited request).1 hmem
    refine hanswer ?_
    rw [h.lookup hr, if_neg]
    rintro (hlt | hstopped)
    · omega
    · cases hstopped
  obtain ⟨-, -, -, hawaited⟩ := o.collect_rest request
  have hsame : (o.abandon request).2 = (o.collect request).2 := by
    rw [abandon_snd, hawaited, List.erase_of_not_mem hnot, ← hawaited]
  rwa [hsame] at hdone

end Lined

end Switchboard.Mux.Openings
