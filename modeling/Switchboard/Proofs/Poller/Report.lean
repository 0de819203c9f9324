import Switchboard.Proofs.Poller.Visits

/-!
# What a sweep reports

`Sweep.Sound` relates a sweep to the visits that are over: every slot is either done with, or at one
worker, or in the queue; the report and the parts of the workers together count the visits; and the
table is the one before with what the visits brought noted in it. It is kept by whatever one worker
does (`Sound.turn`), and once all workers are done nothing is left at a worker or in the queue.

`sweep_adds_up` says what follows for the report and for the table, for every number of workers and
every order in which they hear things.
-/

namespace Switchboard

namespace Visit

def isSkipped (v : Visit) : Bool :=
  v.verdict = .skipped

def isAnswered (v : Visit) : Bool :=
  match v.verdict with
  | .answered _ => true
  | _ => false

def isFailed (v : Visit) : Bool :=
  match v.verdict with
  | .failed _ => true
  | _ => false

def error? (v : Visit) : Option String :=
  match v.verdict with
  | .failed reason => some (v.hostname ++ ": " ++ reason)
  | _ => none

/-- What a visit at a moment makes of the status of its slot. -/
def noted (moment : Timestamp) (v : Visit) (status : PeerState) : PeerState :=
  match v.verdict with
  | .answered version =>
    { status with version := some version, alive := true, lastSeen := some moment }
  | _ => status

/-- A visit is to a slot of the table, and a peer that answered gave a version. -/
structure Sound (table : Roster) (v : Visit) : Prop where
  named : table[v.slot]?.map (·.hostname) = some v.hostname
  version : ∀ version, v.verdict = .answered version → version.isEmpty = false

end Visit

/-! ## The table -/

namespace Roster

/-- The table in which a visit at a moment is noted. -/
def note (moment : Timestamp) (table : Roster) (v : Visit) : Roster :=
  table.modify v.slot (v.noted moment)

variable {table : Roster} {moment : Timestamp} {visits : List Visit} {v : Visit} {slot : Nat}

theorem getElem?_note (table : Roster) (moment : Timestamp) (v : Visit) (slot : Nat) :
    (table.note moment v)[slot]? =
      if v.slot = slot then table[slot]?.map (v.noted moment) else table[slot]? := by
  rw [note, Array.getElem?_modify]

/-- A visit that brought no version leaves the table as it is. -/
theorem note_of_not_answered (h : v.noted moment = id) : table.note moment v = table := by
  apply Array.ext_getElem?
  intro slot
  rw [getElem?_note, h]
  split <;> simp

theorem size_notes (table : Roster) (moment : Timestamp) (visits : List Visit) :
    (visits.foldl (note moment) table).size = table.size := by
  induction visits generalizing table with
  | nil => rfl
  | cons v visits ih => simp [ih, note]

theorem hostname_notes (table : Roster) (moment : Timestamp) (visits : List Visit) (slot : Nat) :
    (visits.foldl (note moment) table)[slot]?.map (·.hostname) =
      table[slot]?.map (·.hostname) := by
  induction visits generalizing table with
  | nil => rfl
  | cons v visits ih =>
    have hsame : ∀ status, (v.noted moment status).hostname = status.hostname := by
      intro status
      unfold Visit.noted
      split <;> rfl
    rw [List.foldl_cons, ih, getElem?_note]
    split
    · simp [Function.comp_def, hsame]
    · rfl

theorem notes_of_not_mem (h : slot ∉ visits.map Visit.slot) :
    (visits.foldl (note moment) table)[slot]? = table[slot]? := by
  induction visits generalizing table with
  | nil => rfl
  | cons v visits ih =>
    simp only [List.map_cons, List.mem_cons, not_or] at h
    rw [List.foldl_cons, ih h.2, getElem?_note, if_neg fun heq => h.1 heq.symm]

/-- A slot that is visited once is what that visit makes of it. -/
theorem notes_of_mem (hnodup : (visits.map Visit.slot).Nodup) (hv : v ∈ visits) :
    (visits.foldl (note moment) table)[v.slot]? = table[v.slot]?.map (v.noted moment) := by
  induction visits generalizing table with
  | nil => cases hv
  | cons u visits ih =>
    simp only [List.map_cons, List.nodup_cons] at hnodup
    rw [List.foldl_cons]
    rcases List.mem_cons.1 hv with rfl | hv
    · rw [notes_of_not_mem hnodup.1, getElem?_note, if_pos rfl]
    · have hne : u.slot ≠ v.slot := by
        intro heq
        exact hnodup.1 (heq ▸ List.mem_map_of_mem hv)
      rw [ih hnodup.2 hv, getElem?_note, if_neg hne]

end Roster

/-! ## What is counted -/

/-- A tally keeps an error exactly if something failed, and then it is the error of a visit. -/
structure SweepTally.Honest (visits : List Visit) (t : SweepTally) : Prop where
  isSome_iff : t.lastError.isSome = true ↔ 0 < t.failed
  error : ∀ text, t.lastError = some text → ∃ v ∈ visits, v.error? = some text

namespace SweepTally.Honest

variable {visits visits' : List Visit} {t t' : SweepTally}

theorem empty (visits : List Visit) : Honest visits {} :=
  ⟨by simp, fun text h => by cases h⟩

theorem mono (h : Honest visits t) (hsub : visits ⊆ visits') : Honest visits' t := by
  refine ⟨h.isSome_iff, fun text htext => ?_⟩
  obtain ⟨v, hv, herror⟩ := h.error text htext
  exact ⟨v, hsub hv, herror⟩

theorem merge (h : Honest visits t) (h' : Honest visits t') : Honest visits (t.merge t') := by
  have hiff := h.isSome_iff
  have hiff' := h'.isSome_iff
  refine ⟨?_, ?_⟩
  · change ((t'.lastError.orElse fun _ => t.lastError).isSome = true ↔ 0 < t.failed + t'.failed)
    cases hlast : t'.lastError with
    | none =>
      rw [hlast] at hiff'
      rw [Option.orElse_none, hiff]
      simp only [Option.isSome_none, Bool.false_eq_true, false_iff] at hiff'
      omega
    | some text =>
      rw [hlast] at hiff'
      simp only [Option.isSome_some, true_iff] at hiff'
      simp only [Option.orElse_some, Option.isSome_some, true_iff]
      omega
  · intro text htext
    simp only [SweepTally.merge] at htext
    cases hlast : t'.lastError with
    | none =>
      rw [hlast, Option.orElse_none] at htext
      exact h.error text htext
    | some text' =>
      rw [hlast, Option.orElse_some] at htext
      exact h'.error text (hlast.trans htext)

theorem fail {v : Visit} {hostname reason : String} (hv : v ∈ visits)
    (herror : v.error? = some (hostname ++ ": " ++ reason)) :
    Honest visits (t.fail hostname reason) := by
  refine ⟨by simp [SweepTally.fail], fun text htext => ⟨v, hv, ?_⟩⟩
  rw [herror]
  exact htext

end SweepTally.Honest

namespace SweepWorker

/-- How often a worker is at a slot: once or not at all. -/
def holds (slot : Nat) (w : SweepWorker) : Nat :=
  match w.slot? with
  | some (held, _) => if held = slot then 1 else 0
  | none => 0

structure Sound (table : Roster) (visits : List Visit) (w : SweepWorker) : Prop where
  /-- It knows the peer of its slot. -/
  named : ∀ slot hostname, w.slot? = some (slot, hostname) →
    table[slot]?.map (·.hostname) = some hostname
  /-- Its pings have ended, but for the one that it is at. -/
  even : w.part.attempted = w.part.succeeded + w.part.failed + w.pings
  honest : w.part.Honest visits
  pending : ∀ slot hostname call part, w = .pinging slot hostname call part → call.outcome? = none

theorem Sound.mono {table : Roster} {visits visits' : List Visit} {w : SweepWorker}
    (h : w.Sound table visits) (hsub : visits ⊆ visits') : w.Sound table visits' :=
  ⟨h.named, h.even, h.honest.mono hsub, h.pending⟩

end SweepWorker

namespace Sweep

/-- How a sweep of a table at a moment stands when some visits are over. -/
structure Sound (table : Roster) (moment : Timestamp) (visits : List Visit) (s : Sweep) : Prop where
  clock : s.moment = moment
  noted : s.table = visits.foldl (Roster.note moment) table
  /-- Every slot is done with, or at one worker, or in the queue. -/
  once : ∀ slot, visits.countP (·.slot = slot) + s.queue.count slot +
    (s.workers.map (SweepWorker.holds slot)).sum = if slot < table.size then 1 else 0
  skipped : s.report.skipped + (s.workers.map (·.part.skipped)).sum = visits.countP Visit.isSkipped
  succeeded : s.report.succeeded + (s.workers.map (·.part.succeeded)).sum =
    visits.countP Visit.isAnswered
  failed : s.report.failed + (s.workers.map (·.part.failed)).sum = visits.countP Visit.isFailed
  even : s.report.attempted = s.report.succeeded + s.report.failed
  honest : s.report.Honest visits
  workers : ∀ w ∈ s.workers, w.Sound table visits
  visited : ∀ v ∈ visits, v.Sound table
  staffed : s.workers ≠ []
  /-- A worker is done only when there is no slot any more. -/
  drained : .done ∈ s.workers → s.queue = []

variable {table : Roster} {moment : Timestamp} {visits : List Visit} {s s' : Sweep} {place : Nat}
  {visit? : Option Visit}

theorem sound_manned (table : Roster) (moment : Timestamp) (limit : Duration) {count : Nat}
    (hcount : 0 < count) : Sound table moment [] (manned table count limit moment) where
  clock := rfl
  noted := rfl
  once slot := by
    simp [manned, SweepWorker.holds, SweepWorker.slot?, List.count_range]
  skipped := by simp [manned, SweepWorker.part]
  succeeded := by simp [manned, SweepWorker.part]
  failed := by simp [manned, SweepWorker.part]
  even := rfl
  honest := .empty []
  workers w hw := by
    obtain ⟨-, rfl⟩ := List.mem_replicate.1 hw
    exact ⟨by simp [SweepWorker.slot?], rfl, .empty [], by simp⟩
  visited v hv := by cases hv
  staffed := by simp [manned]; omega
  drained h := by
    obtain ⟨-, h⟩ := List.mem_replicate.1 h
    cases h

/-- A sum of what the workers and somebody else have changes with one worker and the other. -/
theorem sum_put {old : SweepWorker} (hw : s.workers[place]? = some old) (new : SweepWorker)
    {f : SweepWorker → Nat} {a a' b b' : Nat} (h : a + (s.workers.map f).sum = b)
    (hchange : a' + f new + b = a + f old + b') :
    a' + ((s.workers.set place new).map f).sum = b' := by
  have hsum := Lists.sum_map_set (b := new) hw f
  omega

/-- A worker becomes another one, with a visit if that is over. -/
theorem Sound.put (h : s.Sound table moment visits) {old : SweepWorker}
    (hw : s.workers[place]? = some old) (new : SweepWorker) (visit? : Option Visit)
    (table' : Roster) (queue : List Nat) (report : SweepTally)
    (htable : table' = visit?.toList.foldl (Roster.note moment) s.table)
    (hslots : ∀ slot, visit?.toList.countP (·.slot = slot) + queue.count slot + new.holds slot =
      s.queue.count slot + old.holds slot)
    (hskipped : report.skipped + new.part.skipped =
      s.report.skipped + old.part.skipped + visit?.toList.countP Visit.isSkipped)
    (hsucceeded : report.succeeded + new.part.succeeded =
      s.report.succeeded + old.part.succeeded + visit?.toList.countP Visit.isAnswered)
    (hfailed : report.failed + new.part.failed =
      s.report.failed + old.part.failed + visit?.toList.countP Visit.isFailed)
    (heven : report.attempted = report.succeeded + report.failed)
    (hreport : report.Honest (visits ++ visit?.toList))
    (hnew : new.Sound table (visits ++ visit?.toList))
    (hvisit : ∀ v ∈ visit?.toList, v.Sound table)
    (hdone : new = .done ∨ .done ∈ s.workers → queue = []) :
    Sound table moment (visits ++ visit?.toList)
      ({ s with table := table', queue, report }.put place new) where
  clock := h.clock
  noted := by
    rw [List.foldl_append, ← h.noted, ← htable]
    rfl
  once slot := by
    have hslot := hslots slot
    refine sum_put hw new (h.once slot) ?_
    simp only [Sweep.put, List.countP_append]
    omega
  skipped := by
    refine sum_put hw new h.skipped ?_
    simp only [Sweep.put, List.countP_append]
    omega
  succeeded := by
    refine sum_put hw new h.succeeded ?_
    simp only [Sweep.put, List.countP_append]
    omega
  failed := by
    refine sum_put hw new h.failed ?_
    simp only [Sweep.put, List.countP_append]
    omega
  even := heven
  honest := hreport
  workers w hmem := by
    rcases List.mem_or_eq_of_mem_set hmem with hold | rfl
    · exact (h.workers w hold).mono (List.subset_append_left _ _)
    · exact hnew
  visited v hv := by
    rcases List.mem_append.1 hv with hold | hnew
    · exact h.visited v hold
    · exact hvisit v hnew
  staffed := by simpa [Sweep.put] using h.staffed
  drained hmem := by
    rcases List.mem_or_eq_of_mem_set hmem with hold | heq
    · exact hdone (.inr hold)
    · exact hdone (.inl heq.symm)

/-- A worker that is done with its slot is free, and its tally tells what came of the visit. -/
theorem Sound.putFree (h : s.Sound table moment visits) {old : SweepWorker} {slot : Nat}
    {hostname : String} {part : SweepTally} {table' : Roster} {verdict : Verdict}
    (hw : s.workers[place]? = some old) (hslot : old.slot? = some (slot, hostname))
    (htable : table' = s.table.note moment ⟨slot, hostname, verdict⟩)
    (hskipped : part.skipped = old.part.skipped +
      [Visit.mk slot hostname verdict].countP Visit.isSkipped)
    (hsucceeded : part.succeeded = old.part.succeeded +
      [Visit.mk slot hostname verdict].countP Visit.isAnswered)
    (hfailed : part.failed = old.part.failed +
      [Visit.mk slot hostname verdict].countP Visit.isFailed)
    (heven : part.attempted = part.succeeded + part.failed)
    (hhonest : part.Honest (visits ++ [⟨slot, hostname, verdict⟩]))
    (hversion : ∀ version, verdict = .answered version → version.isEmpty = false) :
    Sound table moment (visits ++ [⟨slot, hostname, verdict⟩])
      ({ s with table := table' }.put place (.free part)) := by
  have hold := h.workers old (List.mem_of_getElem? hw)
  have hfree : (SweepWorker.free part).part = part := rfl
  refine h.put hw (.free part) (some ⟨slot, hostname, verdict⟩) table' s.queue s.report htable
    ?_ ?_ ?_ ?_ h.even (h.honest.mono (List.subset_append_left _ _))
    ⟨by simp [SweepWorker.slot?], heven, hhonest, by simp⟩ ?_ (by simpa using h.drained)
  · intro other
    have hholds : old.holds other = if slot = other then 1 else 0 := by
      rw [SweepWorker.holds, hslot]
    have hnone : (SweepWorker.free part).holds other = 0 := rfl
    simp only [hholds, hnone, Option.toList_some, List.countP_singleton, decide_eq_true_eq]
    omega
  · rw [hfree, Option.toList_some]
    omega
  · rw [hfree, Option.toList_some]
    omega
  · rw [hfree, Option.toList_some]
    omega
  · simpa using ⟨hold.named slot hostname hslot, hversion⟩

theorem Sound.lt_size (h : s.Sound table moment visits) {slot : Nat} (hslot : slot ∈ s.queue) :
    slot < s.table.size := by
  have honce := h.once slot
  have hcount := List.count_pos_iff.2 hslot
  rw [h.noted, Roster.size_notes]
  split at honce
  · assumption
  · omega

theorem Sound.turn (h : s.Sound table moment visits) (hturn : Turn s place visit? s') :
    Sound table moment (visits ++ visit?.toList) s' := by
  -- What was counted before goes on to be right.
  have hreport := h.honest.mono (List.subset_append_left visits visit?.toList)
  have hworker : ∀ {w}, s.workers[place]? = some w → w.Sound table (visits ++ visit?.toList) :=
    fun hw => (h.workers _ (List.mem_of_getElem? hw)).mono (List.subset_append_left _ _)
  cases hturn with
  | rests => simpa using h
  | @takes part slot queue status hw hq hstatus =>
    have hold := hworker hw
    refine h.put hw (.looking slot status.hostname part) none s.table queue s.report rfl
      ?_ ?_ ?_ ?_ h.even hreport ⟨?_, hold.even, hold.honest, by simp⟩ (by simp) ?_
    · intro other
      simp [hq, SweepWorker.holds, SweepWorker.slot?, List.count_cons]
    · simp [SweepWorker.part]
    · simp [SweepWorker.part]
    · simp [SweepWorker.part]
    · intro held hostname hheld
      cases hheld
      rw [← Roster.hostname_notes table moment visits, ← h.noted, hstatus]
      rfl
    · rintro (heq | hdone)
      · cases heq
      · simp [h.drained hdone] at hq
  | @passesBy part slot queue hw hq hstatus =>
    have hlt := h.lt_size (hq ▸ List.mem_cons_self ..)
    rw [Array.getElem?_eq_getElem hlt] at hstatus
    cases hstatus
  | @leaves part hw hq =>
    have hold := hworker hw
    refine h.put hw .done none s.table s.queue (s.report.merge part) rfl ?_ ?_ ?_ ?_ ?_
      (hreport.merge hold.honest) ⟨?_, rfl, .empty _, by simp⟩ (by simp) (fun _ => hq)
    · simp [SweepWorker.holds, SweepWorker.slot?]
    · simp [SweepWorker.part, SweepTally.merge]
    · simp [SweepWorker.part, SweepTally.merge]
    · simp [SweepWorker.part, SweepTally.merge]
    · have hpart := hold.even
      have heven := h.even
      simp only [SweepWorker.part, SweepWorker.pings] at hpart
      simp only [SweepTally.merge]
      omega
    · simp [SweepWorker.slot?]
  | @skips slot hostname part hw =>
    have hold := hworker hw
    exact h.putFree hw rfl (Roster.note_of_not_answered rfl).symm rfl rfl rfl hold.even
      ⟨hold.honest.isSome_iff, hold.honest.error⟩ (by simp)
  | @pings slot hostname part call hw hcall =>
    have hold := hworker hw
    refine h.put hw (.pinging slot hostname call part.attempt) none s.table s.queue s.report rfl
      ?_ ?_ ?_ ?_ h.even hreport ⟨hold.named, ?_, ?_, ?_⟩ (by simp) ?_
    · simp [SweepWorker.holds, SweepWorker.slot?]
    · simp [SweepWorker.part, SweepTally.attempt]
    · simp [SweepWorker.part, SweepTally.attempt]
    · simp [SweepWorker.part, SweepTally.attempt]
    · have hpart := hold.even
      simp only [SweepWorker.part, SweepWorker.pings] at hpart
      simp only [SweepWorker.part, SweepWorker.pings, SweepTally.attempt]
      omega
    · exact ⟨hold.honest.isSome_iff, hold.honest.error⟩
    · rintro _ _ _ _ ⟨⟩
      exact hcall
    · simpa using h.drained
  | @goesOn slot hostname part call call' hw hcall =>
    have hold := hworker hw
    refine h.put hw (.pinging slot hostname call' part) none s.table s.queue s.report rfl
      ?_ ?_ ?_ ?_ h.even hreport ⟨hold.named, hold.even, hold.honest, ?_⟩ (by simp) ?_
    · simp [SweepWorker.holds, SweepWorker.slot?]
    · simp [SweepWorker.part]
    · simp [SweepWorker.part]
    · simp [SweepWorker.part]
    · rintro _ _ _ _ ⟨⟩
      exact hcall
    · simpa using h.drained
  | @answers slot hostname version part call hw hversion =>
    have hold := hworker hw
    refine h.putFree hw rfl (by rw [h.clock]; rfl) rfl rfl rfl ?_
      ⟨hold.honest.isSome_iff, hold.honest.error⟩ (by simpa using hversion)
    have hpart := hold.even
    simp only [SweepWorker.part, SweepWorker.pings] at hpart
    simp only [SweepTally.succeed]
    omega
  | @fails slot hostname reason part call hw =>
    have hpart := (hworker hw).even
    refine h.putFree hw rfl (Roster.note_of_not_answered rfl).symm rfl rfl rfl ?_
      (.fail (v := ⟨slot, hostname, .failed reason⟩) (by simp) rfl) (by simp)
    simp only [SweepWorker.part, SweepWorker.pings] at hpart
    simp only [SweepTally.fail]
    omega

theorem Sound.run (h : s.Sound table moment visits) (moves : List Hearing) :
    Sound table moment (visits ++ s.visits moves) (moves.foldl after s) := by
  induction moves generalizing s visits with
  | nil => simpa [Sweep.visits] using h
  | cons m moves ih =>
    have hrest := ih (h.turn (s.turn m))
    rwa [List.append_assoc] at hrest

/-! ## The end of a sweep -/

theorem sum_of_done (hdone : ∀ w ∈ s.workers, w = .done) {f : SweepWorker → Nat}
    (hf : f .done = 0) : (s.workers.map f).sum = 0 := by
  have hle : ∀ w ∈ s.workers, f w ≤ 0 := by
    intro w hw
    simp [hdone w hw, hf]
  have hsum := Lists.sum_map_le hle
  omega

theorem length_visits (visits : List Visit) : visits.countP Visit.isSkipped +
    visits.countP Visit.isAnswered + visits.countP Visit.isFailed = visits.length := by
  induction visits with
  | nil => rfl
  | cons v visits ih =>
    simp only [List.countP_cons, List.length_cons]
    cases hverdict : v.verdict <;>
      simp [Visit.isSkipped, Visit.isAnswered, Visit.isFailed, hverdict] <;> omega

/-- A sweep of a table that is over: how its visits, its report and its table add up. -/
structure AddsUp (table : Roster) (moment : Timestamp) (visits : List Visit) (report : SweepTally)
    (s : Sweep) : Prop where
  /-- Every slot was visited once. -/
  once : (visits.map Visit.slot).Perm (List.range table.size)
  named : ∀ v ∈ visits, table[v.slot]?.map (·.hostname) = some v.hostname
  total : report.attempted + report.skipped = table.size
  pinged : report.succeeded + report.failed = report.attempted
  skipped : report.skipped = visits.countP Visit.isSkipped
  succeeded : report.succeeded = visits.countP Visit.isAnswered
  failed : report.failed = visits.countP Visit.isFailed
  /-- There is an error exactly if something failed, and it is that of a visit. -/
  failing : report.lastError.isSome = true ↔ 0 < report.failed
  error : ∀ text, report.lastError = some text → ∃ v ∈ visits, v.error? = some text
  size : s.table.size = table.size
  /-- A peer that answered gave a version, and is alive. -/
  alive : ∀ v ∈ visits, ∀ version, v.verdict = .answered version →
    version.isEmpty = false ∧ s.table[v.slot]? = table[v.slot]?.map fun status =>
      { status with version := some version, alive := true, lastSeen := some moment }
  /-- Of all others nothing is known that was not known before. -/
  kept : ∀ v ∈ visits, (∀ version, v.verdict ≠ .answered version) →
    s.table[v.slot]? = table[v.slot]?

theorem Sound.addsUp (h : s.Sound table moment visits) {report : SweepTally}
    (hreport : s.report? = some report) : AddsUp table moment visits report s := by
  obtain ⟨hall, rfl⟩ : (∀ w ∈ s.workers, w = .done) ∧ s.report = report := by
    unfold report? at hreport
    split at hreport
    · rename_i hall
      refine ⟨?_, Option.some.inj hreport⟩
      intro w hw
      have := List.all_eq_true.1 hall w hw
      cases w <;> simp at this ⊢
    · cases hreport
  have hqueue : s.queue = [] := by
    obtain ⟨w, hw⟩ := List.exists_mem_of_ne_nil _ h.staffed
    exact h.drained (hall w hw ▸ hw)
  have honce : (visits.map Visit.slot).Perm (List.range table.size) := by
    rw [List.perm_iff_count]
    intro slot
    have hslot := h.once slot
    rw [hqueue, sum_of_done hall rfl] at hslot
    rw [List.count_range, ← hslot, List.count, List.countP_map]
    rfl
  have hnodup : (visits.map Visit.slot).Nodup := honce.nodup_iff.2 List.nodup_range
  have hlength : visits.length = table.size := by
    simpa using honce.length_eq
  have hskipped := h.skipped
  have hsucceeded := h.succeeded
  have hfailed := h.failed
  rw [sum_of_done hall rfl] at hskipped hsucceeded hfailed
  have hsplit := length_visits visits
  have heven := h.even
  refine ⟨honce, fun v hv => (h.visited v hv).named, by omega, by omega, by omega, by omega,
    by omega, h.honest.isSome_iff, h.honest.error, ?_, ?_, ?_⟩
  · rw [h.noted, Roster.size_notes]
  · intro v hv version hverdict
    refine ⟨(h.visited v hv).version version hverdict, ?_⟩
    have hnoted : v.noted moment = fun status =>
        { status with version := some version, alive := true, lastSeen := some moment } := by
      funext status
      simp [Visit.noted, hverdict]
    rw [h.noted, Roster.notes_of_mem hnodup hv, hnoted]
  · intro v hv hverdict
    have hsame : v.noted moment = id := by
      funext status
      unfold Visit.noted
      split
      · rename_i version heq
        exact absurd heq (hverdict version)
      · rfl
    rw [h.noted, Roster.notes_of_mem hnodup hv, hsame, Option.map_id]
    rfl

structure Runs (start : Sweep) (moves : List Hearing) : Prop where
  /-- When all workers are done, everything adds up. -/
  addsUp : ∀ report, (moves.foldl after start).report? = some report →
    AddsUp start.table start.moment (start.visits moves) report (moves.foldl after start)
  /-- Only so many moves take a worker further, -/
  bounded : start.passings moves ≤ 3 * start.table.size + start.workers.length
  /-- until then some worker is not done, -/
  unfinished : (moves.foldl after start).report? = none → ∃ (place : Nat) (w : SweepWorker),
    (moves.foldl after start).workers[place]? = some w ∧ w.left ≠ 0
  /-- and every such worker waits for something that comes, and takes it further. -/
  goesOn : ∀ (place : Nat) (w : SweepWorker),
    (moves.foldl after start).workers[place]? = some w → w.left ≠ 0 →
    ∃ need ∈ w.needs, ∃ time, ∀ f : Fabric, time ≤ f.now → ∃ signal,
      (f.meet need).1 = some signal ∧
        ((moves.foldl after start).after ⟨f.now, place, need, signal⟩).left <
          (moves.foldl after start).left

/-- **A sweep visits every slot once, and its report adds up**, however many workers there are and
in whatever order they hear things. -/
theorem sweep_adds_up (table : Roster) (count : Nat) (hcount : 0 < count) (limit : Duration)
    (moment : Timestamp) (moves : List Hearing) :
    Runs (manned table count limit moment) moves := by
  have h := (sound_manned table moment limit hcount).run moves
  have hpassings := passings_le (manned table count limit moment) moves
  rw [left_manned] at hpassings
  refine ⟨fun report => h.addsUp, ?_, ?_, ?_⟩
  · simp only [manned, List.length_replicate] at hpassings ⊢
    omega
  · intro hnone
    generalize moves.foldl after (manned table count limit moment) = s at hnone
    unfold report? at hnone
    split at hnone
    · cases hnone
    · rename_i hall
      obtain ⟨w, hw, hbusy⟩ := List.all_eq_false.1 (Bool.eq_false_iff.2 hall)
      obtain ⟨place, hplace⟩ := List.mem_iff_getElem?.1 hw
      refine ⟨place, w, hplace, ?_⟩
      cases w <;> simp [SweepWorker.left] at hbusy ⊢
  · intro place w hw hleft
    exact goes_on hw hleft (h.workers w (List.mem_of_getElem? hw)).pending

/-- The bytes by which a peer says that it has version 1.2. -/
def pong : ByteArray :=
  ⟨#[2, 0, 0, 0, 13, 129, 167, 118, 101, 114, 115, 105, 111, 110, 163, 49, 46, 50]⟩

/-- Two workers share three slots: the first is answered, the second skipped, and the ping of the
third is cut off. -/
def rounds : List Hearing :=
  [⟨0, 0, .turn, .done⟩, ⟨0, 1, .turn, .done⟩, ⟨0, 1, .peer "nas02", .peer none⟩,
    ⟨0, 0, .peer "nas01", .peer (some 5)⟩, ⟨0, 1, .turn, .done⟩,
    ⟨0, 1, .peer "nas01", .peer (some 5)⟩, ⟨0, 0, .request 5, .ticket 0⟩,
    ⟨0, 0, .granted 5 0, .stream ⟨5, 1⟩⟩, ⟨0, 0, .write ⟨5, 1⟩ .empty 0, .taken 100⟩,
    ⟨0, 0, .read ⟨5, 1⟩ 9, .bytes pong⟩, ⟨0, 1, .cancelled 5, .done⟩,
    ⟨0, 0, .finish ⟨5, 1⟩, .done⟩, ⟨0, 1, .turn, .done⟩, ⟨0, 0, .turn, .done⟩]

theorem sweep_adds_up_two_workers :
    let start := manned (.ofNames ["nas01", "nas02", "nas01"]) 2 (.ofSecs 5) ⟨1700000000, 0⟩
    0 < 2 ∧ Runs start rounds ∧
      (rounds.foldl after start).report? = some ⟨2, 1, 1, 1, some "nas01: Session closed"⟩ ∧
      start.visits rounds = [⟨1, "nas02", .skipped⟩, ⟨2, "nas01", .failed "Session closed"⟩,
        ⟨0, "nas01", .answered "1.2"⟩] :=
  ⟨by decide, sweep_adds_up _ 2 (by decide) _ _ rounds, by decide +kernel, by decide +kernel⟩

end Sweep

end Switchboard
