import Mathlib.Algebra.Order.Floor.Div
import Switchboard.Proofs.Poller.Patrol

/-!
# The pace of a sweep

However many workers there are and whatever they hear, no more pings are under way than there are
workers or slots, and no worker is done while there is a slot to take (`Staffed`).

When nobody answers, the pings of a patrol come in rounds: in each, every worker takes a slot as
long as there is one, and all time out together. `InRound` describes a patrol in one round; a move
leads on in it or to the next one. So the time that a patrol takes is that of its rounds, as many as
it takes so many workers to get through the slots.
-/

namespace Switchboard

namespace Sweep

variable {table : Roster} {moment : Timestamp} {visits : List Visit} {s s' : Sweep} {place : Nat}
  {visit? : Option Visit}

/-! ## How many pings are under way -/

def held (ws : List SweepWorker) : List Nat :=
  (ws.filterMap SweepWorker.slot?).map Prod.fst

theorem count_held (ws : List SweepWorker) (slot : Nat) :
    (held ws).count slot = (ws.map (SweepWorker.holds slot)).sum := by
  induction ws with
  | nil => rfl
  | cons w ws ih =>
    unfold held at ih ⊢
    cases hslot : w.slot? with
    | none => simp [hslot, SweepWorker.holds, ih]
    | some at' => simp [hslot, SweepWorker.holds, ih, List.count_cons, Nat.add_comm]

theorem pings_le_held (ws : List SweepWorker) :
    (ws.map SweepWorker.pings).sum ≤ (held ws).length := by
  induction ws with
  | nil => exact Nat.zero_le _
  | cons w ws ih =>
    unfold held at ih ⊢
    cases w <;> simp [SweepWorker.pings, SweepWorker.slot?, List.filterMap_cons] at ih ⊢ <;> omega

/-- No slot is held twice, and all are slots of the table. -/
theorem Sound.length_held_le (h : s.Sound table moment visits) :
    (held s.workers).length ≤ table.size := by
  have hcount : ∀ slot, (held s.workers).count slot ≤ if slot < table.size then 1 else 0 := by
    intro slot
    have honce := h.once slot
    rw [count_held]
    omega
  have hnodup : (held s.workers).Nodup := by
    refine List.nodup_iff_count_le_one.2 fun slot => (hcount slot).trans ?_
    split <;> omega
  have hsub : held s.workers ⊆ List.range table.size := by
    intro slot hslot
    have hpos := List.count_pos_iff.2 hslot
    have hle := hcount slot
    rw [List.mem_range]
    by_contra hout
    rw [if_neg hout] at hle
    omega
  have hlength := (List.subperm_of_subset hnodup hsub).length_le
  rwa [List.length_range] at hlength

theorem length_turn (h : Turn s place visit? s') : s'.workers.length = s.workers.length := by
  cases h <;> simp [put]

theorem length_run (s : Sweep) (hearings : List Hearing) :
    (hearings.foldl after s).workers.length = s.workers.length := by
  induction hearings generalizing s with
  | nil => rfl
  | cons m hearings ih => exact (ih _).trans (length_turn (s.turn m))

structure Staffed (table : Roster) (count : Nat) (s : Sweep) : Prop where
  /-- No more pings are under way than there are slots or workers. -/
  underWay : (s.workers.map SweepWorker.pings).sum ≤ min table.size count
  /-- No worker is done while there is a slot in the queue. -/
  drained : .done ∈ s.workers → s.queue = []
  /-- It is over only when all workers are done and the queue is empty. -/
  complete : ∀ report, s.report? = some report → (∀ w ∈ s.workers, w = .done) ∧ s.queue = []

theorem workers_of_report {report : SweepTally} (h : s.report? = some report) :
    ∀ w ∈ s.workers, w = .done := by
  unfold report? at h
  split at h
  · rename_i hall
    intro w hw
    have hdone := List.all_eq_true.1 hall w hw
    cases w <;> simp at hdone ⊢
  · cases h

theorem exists_busy (h : s.report? = none) : ∃ w ∈ s.workers, w ≠ .done := by
  unfold report? at h
  split at h
  · cases h
  · rename_i hall
    obtain ⟨w, hw, hbusy⟩ := List.all_eq_false.1 (Bool.eq_false_iff.2 hall)
    refine ⟨w, hw, ?_⟩
    rintro rfl
    simp at hbusy

theorem Sound.staffedBy (h : s.Sound table moment visits) {count : Nat}
    (hcount : s.workers.length = count) : Staffed table count s := by
  refine ⟨Nat.le_min.2 ⟨(pings_le_held _).trans h.length_held_le, ?_⟩, h.drained, ?_⟩
  · have hone : ∀ w ∈ s.workers, w.pings ≤ 1 := by
      intro w _
      cases w <;> simp [SweepWorker.pings]
    have hsum := Lists.sum_map_le hone
    omega
  · intro report hreport
    have hdone := workers_of_report hreport
    obtain ⟨w, hw⟩ := List.exists_mem_of_ne_nil _ h.staffed
    exact ⟨hdone, h.drained (hdone w hw ▸ hw)⟩

end Sweep

namespace Patrol

variable {table : Roster} {count : Nat} {limit : Duration} {moment : Timestamp} {t t' : Patrol}
  {place begun round first : Nat}

/-! ## Waiting -/

/-- If no worker hears anything, each is done or waits for its ping to time out. -/
theorem still (h : t.Sound table count limit moment) (hsilent : t.isSilent = true)
    (hstill : ∀ place < t.sweep.workers.length, t.hear place = none) {w : SweepWorker}
    (hmem : w ∈ t.sweep.workers) :
    w = .done ∨ ∃ slot hostname call part,
      w = .pinging slot hostname call part ∧ t.now < call.deadline := by
  obtain ⟨place, hplace, hget⟩ := List.getElem_of_mem hmem
  have hw : t.sweep.workers[place]? = some w := by rw [List.getElem?_eq_getElem hplace, hget]
  have hhear := hstill place hplace
  have hnothing : (t.fabric.meetFirst (w.needs.map (place, ·))).1 = none := by
    unfold hear at hhear
    simp only [needs, hw, Option.map_some, Option.getD_some] at hhear
    split at hhear
    · cases hhear
    · rename_i heq
      rw [heq]
  cases w with
  | free part => simp [SweepWorker.needs, Fabric.meetFirst, Fabric.meet] at hnothing
  | looking slot hostname part =>
    simp [SweepWorker.needs, Fabric.meetFirst, Fabric.meet] at hnothing
  | pinging slot hostname call part =>
    refine .inr ⟨slot, hostname, call, part, rfl, ?_⟩
    obtain ⟨hunanswered, -⟩ := h.pings slot hostname call part hmem
    obtain ⟨-, hunheard⟩ := Bool.and_eq_true_iff.1 hsilent
    have hcall : call.isUnheard t.fabric = true := List.all_eq_true.1 hunheard _ hmem
    obtain ⟨hopen, -⟩ := Bool.and_eq_true_iff.1 hcall
    rw [Bool.not_eq_true'] at hopen
    exact Call.lt_deadline hunanswered.pending hopen hnothing
  | done => exact .inl rfl

theorem canWait_iff {later : Nat} : t.canWait later = true ↔
    t.now < later ∧ t.sweep.report? = none ∧
      (∀ place < t.sweep.workers.length, t.hear place = none) ∧
      ∀ w ∈ t.sweep.workers, ∀ time, .moment time ∈ w.needs → later ≤ time := by
  unfold canWait
  simp only [Bool.and_eq_true, decide_eq_true_eq, Option.isNone_iff_eq_none, List.all_eq_true,
    List.mem_range, and_assoc]
  refine and_congr_right fun _ => and_congr_right fun _ => and_congr_right fun _ =>
    forall₂_congr fun w _ => ⟨fun h time hmem => ?_, fun h need hmem => ?_⟩
  · simpa using h _ hmem
  · split
    · rename_i time
      simpa using h time hmem
    · rfl

/-! ## Rounds -/

/-- A worker is at a slot whose ping times out at a moment, or will. -/
def isAtWork (deadline : Nat) : SweepWorker → Bool
  | .looking .. => true
  | .pinging _ _ call _ => call.deadline = deadline
  | _ => false

/-- A patrol that began at a moment is in a round, by so many workers over so many slots, whose
pings take so long. The round began at `first`. -/
structure InRound (slots count span begun round first : Nat) (t : Patrol) : Prop where
  clock : first = begun + round * span
  started : first ≤ t.now
  unended : t.now < first + span
  /-- A ping is one of this round, or is about to time out with the last one. -/
  deadlines : ∀ slot hostname call part, .pinging slot hostname call part ∈ t.sweep.workers →
    call.deadline = first ∨ call.deadline = first + span
  /-- Once time has gone on all workers wait for their pings, as far as they are not done. -/
  late : first < t.now → (∃ w ∈ t.sweep.workers, w ≠ .done) ∧ ∀ w ∈ t.sweep.workers, w = .done ∨
    ∃ slot hostname call part, w = .pinging slot hostname call part ∧ call.deadline = first + span
  /-- In every round but the last all workers have taken a slot. -/
  taken : t.sweep.queue.length + round * count +
      t.sweep.workers.countP (isAtWork (first + span)) = slots ∨
    t.sweep.queue = [] ∧ t.sweep.workers.countP (isAtWork (first + span)) = 0 ∧
      slots ≤ round * count
  /-- There was a slot to take in the last one. -/
  needed : round * count < slots + count

theorem countP_put {s : Sweep} {old : SweepWorker} (hold : s.workers[place]? = some old)
    (new : SweepWorker) (deadline : Nat) :
    (s.workers.set place new).countP (isAtWork deadline) + (isAtWork deadline old).toNat =
      s.workers.countP (isAtWork deadline) + (isAtWork deadline new).toNat :=
  Lists.countP_set hold _

theorem Sound.length (h : t.Sound table count limit moment) :
    t.sweep.workers.length = count := by
  obtain ⟨hearings, heq⟩ := h.heard
  rw [heq, Sweep.length_run]
  exact List.length_replicate

namespace InRound

variable {slots span : Nat}

theorem put (h : InRound slots count span begun round first t) {old new : SweepWorker}
    (hw : t.sweep.workers[place]? = some old)
    (hworkers : t'.sweep.workers = t.sweep.workers.set place new) (hnow : t'.now = t.now)
    (hdeadline : ∀ slot hostname call part, new = .pinging slot hostname call part →
      call.deadline = first ∨ call.deadline = first + span)
    (hlate : first < t.now → ∃ slot hostname call part,
      new = .pinging slot hostname call part ∧ call.deadline = first + span)
    (hslots : t'.sweep.queue.length + (isAtWork (first + span) new).toNat =
      t.sweep.queue.length + (isAtWork (first + span) old).toNat) :
    InRound slots count span begun round first t' where
  clock := h.clock
  started := by rw [hnow]; exact h.started
  unended := by rw [hnow]; exact h.unended
  deadlines slot hostname call part hmem := by
    rw [hworkers] at hmem
    rcases List.mem_or_eq_of_mem_set hmem with hold | heq
    · exact h.deadlines slot hostname call part hold
    · exact hdeadline slot hostname call part heq.symm
  late htime := by
    rw [hnow] at htime
    have hnew := hlate htime
    rw [hworkers]
    refine ⟨⟨new, ?_, ?_⟩, fun w hmem => ?_⟩
    · obtain ⟨hplace, -⟩ := List.getElem?_eq_some_iff.1 hw
      exact List.mem_set hplace _
    · obtain ⟨slot, hostname, call, part, rfl, -⟩ := hnew
      simp
    · rcases List.mem_or_eq_of_mem_set hmem with hold | rfl
      · exact (h.late htime).2 w hold
      · exact .inr hnew
  taken := by
    have hput := countP_put hw new (first + span)
    rw [hworkers]
    rcases h.taken with hall | ⟨hqueue, hnone, hle⟩
    · left
      omega
    · right
      rw [hqueue, List.length_nil] at hslots
      exact ⟨List.eq_nil_of_length_eq_zero (by omega), by omega, hle⟩
  needed := h.needed

/-- Who does anything but wait in a round does it as the round begins. -/
theorem now_eq (h : InRound slots count span begun round first t) {w : SweepWorker}
    (hw : w ∈ t.sweep.workers) (hbusy : w ≠ .done)
    (hother : ∀ slot hostname call part, w = .pinging slot hostname call part →
      call.deadline ≠ first + span) : t.now = first := by
  rcases Nat.eq_or_lt_of_le h.started with heq | hlate
  · exact heq.symm
  · rcases (h.late hlate).2 w hw with hdone | ⟨slot, hostname, call, part, heq, hdeadline⟩
    · exact absurd hdone hbusy
    · exact absurd hdeadline (hother slot hostname call part heq)

theorem acts (h : InRound slots count span begun round first t)
    (hspan : t.sweep.limit.millis = span) (hact : t.Act place t'.sweep) (hnow : t'.now = t.now) :
    InRound slots count span begun round first t' := by
  generalize hs : t'.sweep = s' at hact
  cases hact with
  | @takes part slot queue hostname hw hq =>
    have htime := h.now_eq (List.mem_of_getElem? hw) (by simp) (by simp)
    refine h.put hw (by rw [hs]; rfl) hnow (by simp) (fun hlate => ?_) ?_
    · omega
    · rw [hs, hq]
      simp [Sweep.put, isAtWork]
  | leaves hw hq =>
    have htime := h.now_eq (List.mem_of_getElem? hw) (by simp) (by simp)
    refine h.put hw (by rw [hs]; rfl) hnow (by simp) (fun hlate => ?_) ?_
    · omega
    · rw [hs]
      simp [Sweep.put, isAtWork]
  | @pings slot hostname part part' call hw hcall =>
    have htime := h.now_eq (List.mem_of_getElem? hw) (by simp) (by simp)
    have hdeadline : call.deadline = first + span := by
      rw [hcall, ← htime, ← hspan]
      rfl
    refine h.put hw (by rw [hs]; rfl) hnow ?_ (fun hlate => ?_) ?_
    · rintro _ _ _ _ ⟨⟩
      exact .inr hdeadline
    · omega
    · rw [hs]
      simp [Sweep.put, isAtWork, hdeadline]
  | @goesOn slot hostname part call stage hw _ _ =>
    have hdeadline := h.deadlines slot hostname call part (List.mem_of_getElem? hw)
    refine h.put hw (by rw [hs]; rfl) hnow ?_ (fun hlate => ?_) ?_
    · rintro _ _ _ _ ⟨⟩
      exact hdeadline
    · rcases (h.late hlate).2 _ (List.mem_of_getElem? hw) with
        hdone | ⟨slot, hostname, call, part, ⟨⟩, hthis⟩
      · cases hdone
      · exact ⟨_, _, _, _, rfl, hthis⟩
    · rw [hs]
      simp [Sweep.put, isAtWork]
  | @givesUp slot hostname part part' call hw htimeout =>
    have hunended := h.unended
    have hdeadline : call.deadline ≠ first + span := by omega
    have htime := h.now_eq (List.mem_of_getElem? hw) (by simp) (by
      rintro _ _ _ _ ⟨⟩
      exact hdeadline)
    refine h.put hw (by rw [hs]; rfl) hnow (by simp) (fun hlate => ?_) ?_
    · omega
    · rw [hs]
      simp [Sweep.put, isAtWork, hdeadline]

/-- When time can go on, all workers wait for the pings of the round, as far as they are not
done. -/
theorem all_waiting (h : InRound slots count span begun round first t)
    (hsound : t.Sound table count limit moment) (hsilent : t.isSilent = true)
    (hstill : ∀ place < t.sweep.workers.length, t.hear place = none) :
    ∀ w ∈ t.sweep.workers, w = .done ∨ ∃ slot hostname call part,
      w = .pinging slot hostname call part ∧ call.deadline = first + span := by
  intro w hw
  rcases still hsound hsilent hstill hw with
    hdone | ⟨slot, hostname, call, part, rfl, htime⟩
  · exact .inl hdone
  · refine .inr ⟨slot, hostname, call, part, rfl, ?_⟩
    have hstarted := h.started
    rcases h.deadlines slot hostname call part hw with hfirst | hlast
    · omega
    · exact hlast

theorem waits (h : InRound slots count span begun round first t) (hcount : 0 < count)
    (hsound : t.Sound table count limit moment) (hsilent : t.isSilent = true) {later : Nat}
    (hwait : t.canWait later = true) :
    ∃ round first, InRound slots count span begun round first
      { t with fabric := { t.fabric with now := later } } := by
  obtain ⟨hlater, hreport, hstill, hmoments⟩ := canWait_iff.1 hwait
  have hall := h.all_waiting hsound hsilent hstill
  obtain ⟨visits, hsweep⟩ := hsound.sweep hcount
  obtain ⟨busy, hbusy, hundone⟩ := Sweep.exists_busy hreport
  have hstarted := h.started
  -- The first of the pings to time out is one of the round.
  have hend : later ≤ first + span := by
    rcases hall busy hbusy with hdone | ⟨slot, hostname, call, part, rfl, hdeadline⟩
    · exact absurd hdone hundone
    · have hpending := (hsound.pings slot hostname call part hbusy).1.pending
      rw [← hdeadline]
      refine hmoments _ hbusy call.deadline ?_
      simp [SweepWorker.needs, Call.needs_of_pending hpending]
  have hatWork : isAtWork (first + span) busy = true := by
    rcases hall busy hbusy with hdone | ⟨slot, hostname, call, part, rfl, hdeadline⟩
    · exact absurd hdone hundone
    · simp [isAtWork, hdeadline]
  have hsome := List.countP_pos_iff.2 ⟨busy, hbusy, hatWork⟩
  have hround : t.sweep.queue.length + round * count +
      t.sweep.workers.countP (isAtWork (first + span)) = slots := by
    rcases h.taken with hall | ⟨-, hnone, -⟩
    · exact hall
    · omega
  rcases Nat.lt_or_eq_of_le hend with hin | rfl
  · refine ⟨round, first, h.clock, Nat.le_trans h.started (Nat.le_of_lt hlater), hin, h.deadlines,
      fun _ => ⟨⟨busy, hbusy, hundone⟩, hall⟩, h.taken, h.needed⟩
  · have hspan : 0 < span := by
      change t.now < first + span at hlater
      omega
    have hnone : t.sweep.workers.countP (isAtWork (first + span + span)) = 0 := by
      refine List.countP_eq_zero.2 fun w hw => ?_
      rcases hall w hw with rfl | ⟨slot, hostname, call, part, rfl, hdeadline⟩
      · simp [isAtWork]
      · simp only [isAtWork, hdeadline, decide_eq_true_eq]
        omega
    have hlength := hsound.length
    refine ⟨round + 1, first + span, ?_, Nat.le_refl _, Nat.lt_add_of_pos_right hspan, ?_, ?_,
      ?_, ?_⟩
    · rw [h.clock, Nat.succ_mul, Nat.add_assoc]
    · intro slot hostname call part hmem
      rcases hall _ hmem with hdone | ⟨slot, hostname, call, part, ⟨⟩, hdeadline⟩
      · cases hdone
      · exact .inl hdeadline
    · intro hlate
      exact absurd hlate (Nat.lt_irrefl _)
    · have hle := t.sweep.workers.countP_le_length (p := isAtWork (first + span))
      by_cases hqueue : t.sweep.queue = []
      · refine .inr ⟨hqueue, hnone, ?_⟩
        rw [hqueue, List.length_nil] at hround
        rw [Nat.succ_mul]
        omega
      · -- Nobody is done yet, so all workers have taken a slot.
        have hbusy : t.sweep.workers.countP (isAtWork (first + span)) =
            t.sweep.workers.length := by
          refine List.countP_eq_length.2 fun w hw => ?_
          rcases hall w hw with rfl | ⟨slot, hostname, call, part, rfl, hdeadline⟩
          · exact absurd (hsweep.drained hw) hqueue
          · simp [isAtWork, hdeadline]
        refine .inl ?_
        dsimp only
        rw [hnone, Nat.succ_mul]
        omega
    · rw [Nat.succ_mul]
      omega

/-- A round that began is one of as many as the slots need. -/
theorem round_le (h : InRound slots count span begun round first t) (hcount : 0 < count) :
    round ≤ slots ⌈/⌉ count := by
  have hneeded := h.needed
  by_contra hmore
  obtain ⟨before, rfl⟩ : ∃ before, round = before + 1 := ⟨round - 1, by omega⟩
  have hle := (ceilDiv_le_iff_le_mul hcount).1 (Nat.le_of_lt_succ (Nat.lt_of_not_le hmore))
  rw [Nat.succ_mul, Nat.mul_comm] at hneeded
  omega

theorem now_le (h : InRound slots count span begun round first t) (hcount : 0 < count) :
    t.now ≤ begun + slots ⌈/⌉ count * span := by
  have hclock := h.clock
  rcases Nat.eq_or_lt_of_le h.started with heq | hlate
  · have hle := Nat.mul_le_mul_right span (h.round_le hcount)
    omega
  · -- Somebody waits for a ping of this round, so it is one that was needed.
    obtain ⟨⟨w, hw, hundone⟩, hall⟩ := h.late hlate
    have hatWork : isAtWork (first + span) w = true := by
      rcases hall w hw with hdone | ⟨slot, hostname, call, part, rfl, hdeadline⟩
      · exact absurd hdone hundone
      · simp [isAtWork, hdeadline]
    have hsome := List.countP_pos_iff.2 ⟨w, hw, hatWork⟩
    have hmore : ¬ slots ≤ count * round := by
      rw [Nat.mul_comm]
      rcases h.taken with htaken | ⟨-, hnone, -⟩ <;> omega
    have hnext : round + 1 ≤ slots ⌈/⌉ count :=
      Nat.lt_of_not_le fun hle => hmore ((ceilDiv_le_iff_le_mul hcount).1 hle)
    have hle := Nat.mul_le_mul_right span hnext
    have hunended := h.unended
    rw [Nat.succ_mul] at hle
    omega

theorem now_of_report (h : InRound slots count span begun round first t) (hcount : 0 < count)
    (hover : (∀ w ∈ t.sweep.workers, w = .done) ∧ t.sweep.queue = []) :
    t.now = begun + slots ⌈/⌉ count * span := by
  obtain ⟨hdone, hqueue⟩ := hover
  have htime : t.now = first := by
    rcases Nat.eq_or_lt_of_le h.started with heq | hlate
    · exact heq.symm
    · obtain ⟨w, hw, hundone⟩ := (h.late hlate).1
      exact absurd (hdone w hw) hundone
  have hnone : t.sweep.workers.countP (isAtWork (first + span)) = 0 := by
    refine List.countP_eq_zero.2 fun w hw => ?_
    rw [hdone w hw]
    simp [isAtWork]
  have hslots : slots ≤ count * round := by
    rw [Nat.mul_comm]
    rcases h.taken with htaken | ⟨-, -, hle⟩
    · rw [hqueue, List.length_nil] at htaken
      omega
    · exact hle
  have hround : round = slots ⌈/⌉ count :=
    Nat.le_antisymm (h.round_le hcount) ((ceilDiv_le_iff_le_mul hcount).2 hslots)
  rw [htime, h.clock, hround]

end InRound

/-- A patrol in which a ping takes no time is over at once. -/
structure Instant (begun : Nat) (t : Patrol) : Prop where
  now : t.now = begun
  deadlines : ∀ slot hostname call part, .pinging slot hostname call part ∈ t.sweep.workers →
    call.deadline = begun

namespace Instant

theorem acts (h : t.Instant begun) (hspan : t.sweep.limit.millis = 0)
    (hact : t.Act place t'.sweep) (hnow : t'.now = t.now) : t'.Instant begun := by
  refine ⟨hnow.trans h.now, ?_⟩
  generalize t'.sweep = s' at hact
  intro slot hostname call part hmem
  cases hact with
  | takes | leaves | givesUp =>
    rcases List.mem_or_eq_of_mem_set hmem with hold | heq
    · exact h.deadlines slot hostname call part hold
    · cases heq
  | pings hw hcall =>
    rcases List.mem_or_eq_of_mem_set hmem with hold | heq
    · exact h.deadlines slot hostname call part hold
    · cases heq
      rw [hcall, ← h.now]
      exact congrArg (t.now + ·) hspan
  | @goesOn _ _ _ call _ hw =>
    rcases List.mem_or_eq_of_mem_set hmem with hold | heq
    · exact h.deadlines _ _ _ _ hold
    · cases heq
      exact h.deadlines _ _ call _ (List.mem_of_getElem? hw)

theorem not_waits (h : t.Instant begun) (hsound : t.Sound table count limit moment)
    (hsilent : t.isSilent = true) {later : Nat} : ¬ t.canWait later = true := by
  intro hwait
  obtain ⟨-, hreport, hstill, -⟩ := canWait_iff.1 hwait
  obtain ⟨w, hw, hundone⟩ := Sweep.exists_busy hreport
  rcases still hsound hsilent hstill hw with
    hdone | ⟨slot, hostname, call, part, rfl, htime⟩
  · exact hundone hdone
  · rw [h.now, h.deadlines slot hostname call part hw] at htime
    exact Nat.lt_irrefl _ htime

end Instant

inductive Paced (slots count span begun : Nat) (t : Patrol) : Prop where
  | instant (hspan : span = 0) (h : t.Instant begun)
  | inRound (round first : Nat) (h : InRound slots count span begun round first t)

namespace Paced

variable {slots span : Nat}

theorem step (h : Paced slots count limit.millis begun t)
    (hsound : t.Sound table count limit moment) (hcount : 0 < count) {m : Move}
    (hstep : t.step m = some t') : Paced slots count limit.millis begun t' := by
  have hsilent := isSilent_of_step hstep
  have hspan : t.sweep.limit.millis = limit.millis := congrArg Duration.millis hsound.limit
  cases h with
  | instant hzero h =>
    refine .instant hzero ?_
    cases change hsound hcount hstep with
    | acts hact hnow => exact h.acts (hspan.trans hzero) hact hnow
    | passes hnow => exact ⟨hnow.trans h.now, h.deadlines⟩
    | waits hwait => exact absurd hwait (h.not_waits hsound hsilent)
  | inRound round first h =>
    cases change hsound hcount hstep with
    | acts hact hnow => exact .inRound round first (h.acts hspan hact hnow)
    | @passes d f hnow =>
      have hsame : (⟨t.sweep, f⟩ : Patrol).now = t.now := hnow
      exact .inRound round first ⟨h.clock, hsame ▸ h.started, hsame ▸ h.unended, h.deadlines,
        hsame ▸ h.late, h.taken, h.needed⟩
    | waits hwait =>
      obtain ⟨round, first, h⟩ := h.waits hcount hsound hsilent hwait
      exact .inRound round first h

theorem now_le (h : Paced slots count span begun t) (hcount : 0 < count) :
    t.now ≤ begun + slots ⌈/⌉ count * span := by
  cases h with
  | instant hspan h => rw [h.now]; exact Nat.le_add_right _ _
  | inRound round first h => exact h.now_le hcount

theorem now_of_report (h : Paced slots count span begun t) (hcount : 0 < count)
    (hover : (∀ w ∈ t.sweep.workers, w = .done) ∧ t.sweep.queue = []) :
    t.now = begun + slots ⌈/⌉ count * span := by
  cases h with
  | instant hspan h => rw [h.now, hspan, Nat.mul_zero, Nat.add_zero]
  | inRound round first h => exact h.now_of_report hcount hover

end Paced

/-! ## A whole patrol -/

def start (table : Roster) (count : Nat) (limit : Duration) (moment : Timestamp) (f : Fabric) :
    Patrol :=
  ⟨.manned table count limit moment, f⟩

theorem sound_start {f : Fabric} (hf : f.Sound) (table : Roster) (count : Nat) (limit : Duration)
    (moment : Timestamp) : (start table count limit moment f).Sound table count limit moment where
  heard := ⟨[], rfl⟩
  fabric := hf
  limit := rfl
  pings slot hostname call part hmem := by simp [start, Sweep.manned] at hmem

theorem paced_start (table : Roster) (count : Nat) (hcount : 0 < count) (limit : Duration)
    (moment : Timestamp) (f : Fabric) :
    Paced table.size count limit.millis f.now (start table count limit moment f) := by
  rcases Nat.eq_zero_or_pos limit.millis with hzero | hspan
  · refine .instant hzero ⟨rfl, fun slot hostname call part hmem => ?_⟩
    simp [start, Sweep.manned] at hmem
  · refine .inRound 0 f.now ⟨by omega, Nat.le_refl _, Nat.lt_add_of_pos_right hspan, ?_, ?_, ?_, ?_⟩
    · simp [start, Sweep.manned]
    · exact fun hlate => absurd hlate (Nat.lt_irrefl _)
    · exact .inl (by simp [start, Sweep.manned, isAtWork, List.countP_replicate])
    · omega

theorem left_start (table : Roster) (count : Nat) (limit : Duration) (moment : Timestamp)
    (f : Fabric) :
    left (start table count limit moment f).sweep = (request.size + 12) * table.size + count := by
  simp [left, start, Sweep.manned, workerLeft]

/-- As long as the sweep is not over, a worker hears something or time goes on. -/
theorem goes_on (h : t.Sound table count limit moment) (hsilent : t.isSilent = true)
    (hreport : t.sweep.report? = none) : ∃ m t', m.isOwn = true ∧ t.step m = some t' := by
  by_cases hhear : ∃ place t', t.hear place = some t'
  · obtain ⟨place, t', hhear⟩ := hhear
    exact ⟨.hear place, t', rfl, by simp [step, hsilent, hhear]⟩
  · have hstill : ∀ place, t.hear place = none := by
      intro place
      cases hplace : t.hear place with
      | none => rfl
      | some t' => exact absurd ⟨place, t', hplace⟩ hhear
    have hwait : t.canWait (t.now + 1) = true := by
      refine canWait_iff.2 ⟨Nat.lt_succ_self _, hreport, fun place _ => hstill place, ?_⟩
      intro w hw time hmem
      rcases still h hsilent (fun place _ => hstill place) hw with
        rfl | ⟨slot, hostname, call, part, rfl, htime⟩
      · simp [SweepWorker.needs] at hmem
      · have hpending := (h.pings slot hostname call part hw).1.pending
        simp only [SweepWorker.needs, Call.needs_of_pending hpending, List.mem_cons,
          List.not_mem_nil, or_false, reduceCtorEq, false_or, Need.moment.injEq] at hmem
        rcases hmem with hstage | rfl
        · cases hcall : call.stage <;> rw [hcall] at hstage <;> cases hstage
        · exact htime
    refine ⟨.wait (t.now + 1), { t with fabric := { t.fabric with now := t.now + 1 } }, rfl, ?_⟩
    simp [step, hsilent, hwait]

/-- How a patrol that began at a moment goes on, after some moves. -/
structure KeepsPace (table : Roster) (count : Nat) (limit : Duration) (begun : Nat)
    (moves : List Move) (t : Patrol) : Prop where
  /-- When it is over, so many pings have timed out one after the other. -/
  duration : ∀ report, t.sweep.report? = some report →
    t.now = begun + table.size ⌈/⌉ count * limit.millis
  /-- Until then it has taken no longer, -/
  inTime : t.now ≤ begun + table.size ⌈/⌉ count * limit.millis
  /-- and as long as the peers say nothing it goes on. -/
  goesOn : t.isSilent = true → t.sweep.report? = none →
    ∃ m t', m.isOwn = true ∧ t.step m = some t'
  /-- It makes only so many moves. -/
  bounded : moves.countP Move.isOwn ≤
    table.size ⌈/⌉ count * limit.millis + (request.size + 12) * table.size + count

theorem keepsPace (table : Roster) (count : Nat) (hcount : 0 < count) (limit : Duration)
    (moment : Timestamp) {f : Fabric} (hf : f.Sound) {moves : List Move}
    (hrun : runFrom step (start table count limit moment f) moves = some t) :
    KeepsPace table count limit f.now moves t := by
  have hstart := sound_start hf table count limit moment
  have hsound : t.Sound table count limit moment :=
    runFrom_keeps (fun _ _ _ h => h.step hcount) hstart hrun
  obtain ⟨hpaced, -⟩ : Paced table.size count limit.millis f.now t ∧
      t.Sound table count limit moment :=
    runFrom_keeps (P := fun t => Paced table.size count limit.millis f.now t ∧
      t.Sound table count limit moment)
      (fun _ _ _ h hstep => ⟨h.1.step h.2 hcount hstep, h.2.step hcount hstep⟩)
      ⟨paced_start table count hcount limit moment f, hstart⟩ hrun
  obtain ⟨visits, hsweep⟩ := hsound.sweep hcount
  refine ⟨fun report hreport => ?_, hpaced.now_le hcount, goes_on hsound, ?_⟩
  · exact hpaced.now_of_report hcount ((hsweep.staffedBy hsound.length).complete report hreport)
  · -- Each of these moves leaves less to do, or less time.
    have hcounts := runFrom_counts
      (P := fun t' : Patrol => t'.Sound table count limit moment ∧
        left t'.sweep ≤ left (start table count limit moment f).sweep)
      ?_ Move.isOwn
      (fun t' => t'.now + (left (start table count limit moment f).sweep - left t'.sweep)) ?_
      ⟨hstart, Nat.le_refl _⟩ hrun
    · have hinTime := hpaced.now_le hcount
      have hleft := left_start table count limit moment f
      change f.now + _ + _ ≤ _ at hcounts
      omega
    · rintro s m s' ⟨hs, hle⟩ hstep
      refine ⟨hs.step hcount hstep, ?_⟩
      cases change hs hcount hstep with
      | acts hact => exact (Nat.le_of_lt (left_act hact)).trans hle
      | passes => exact hle
      | waits => exact hle
    · rintro s m s' ⟨hs, hle⟩ hstep
      cases change hs hcount hstep with
      | acts hact hnow =>
        have hless := left_act hact
        simp only [Move.isOwn, if_true]
        omega
      | passes hnow =>
        simp only [Move.isOwn, Bool.false_eq_true, if_false, now] at hnow ⊢
        rw [hnow]
        exact Nat.le_refl _
      | waits hwait =>
        obtain ⟨hlater, -⟩ := canWait_iff.1 hwait
        simp only [Move.isOwn, if_true, now] at hlater ⊢
        omega

end Patrol

structure BoundedWork (table : Roster) (count : Nat) (limit : Duration) (moment : Timestamp) :
    Prop where
  /-- Whatever they hear, in any order. -/
  staffed : ∀ hearings : List Hearing,
    (hearings.foldl Sweep.after (.manned table count limit moment)).Staffed table count
  /-- In any fabric in which all peers have open sessions and say nothing. -/
  paced : ∀ (before : List Fabric.Dealing) (moves : List Patrol.Move) (t : Patrol),
    runFrom Patrol.step (.start table count limit moment (before.foldl Fabric.deal {})) moves =
      some t →
    t.KeepsPace table count limit (before.foldl Fabric.deal {}).now moves

/-- **A sweep keeps all its workers at work, and no more than those.** However many workers there
are and whatever they hear, no more pings are under way than there are workers or slots, and none is
done while there is a slot to take. So if no peer says anything a sweep takes exactly as many
timeouts as the workers need to get through the slots. -/
theorem sweep_keeps_pace (table : Roster) (count : Nat) (hcount : 0 < count) (limit : Duration)
    (moment : Timestamp) : BoundedWork table count limit moment where
  staffed hearings :=
    ((Sweep.sound_manned table moment limit hcount).run hearings).staffedBy
      ((Sweep.length_run _ hearings).trans List.length_replicate)
  paced before _ _ hrun := Patrol.keepsPace table count hcount limit moment
    (Fabric.kept_deals Fabric.kept_empty before).sound hrun

namespace Patrol

/-- A worker takes a slot and pings its peer, whose session grants a stream. -/
def pinging (place id : Nat) : List Move :=
  List.replicate 3 (.hear place) ++ List.replicate 4 (.other (.go id)) ++
    List.replicate 2 (.hear place)

/-- Two workers ping five peers, and none answers in time: two rounds, and one for the last peer. -/
def threeRounds : List Move :=
  pinging 0 0 ++ pinging 1 1 ++ [.wait 3000, .hear 0, .hear 1] ++
    pinging 0 2 ++ pinging 1 3 ++ [.wait 6000, .hear 1, .hear 0] ++
    pinging 1 4 ++ [.hear 0, .wait 9000, .hear 1, .hear 1]

end Patrol

theorem sweep_keeps_pace_five_silent :
    let hosts := ["h1", "h2", "h3", "h4", "h5"]
    let f := (hosts.map fun key => Fabric.Dealing.findOrAdd key .server (.ok "mem") 65536).foldl
      Fabric.deal {}
    0 < 2 ∧ BoundedWork (.ofNames hosts) 2 (.ofSecs 3) ⟨1700000000, 0⟩ ∧
      (runFrom Patrol.step (.start (.ofNames hosts) 2 (.ofSecs 3) ⟨1700000000, 0⟩ f)
        Patrol.threeRounds).map (fun t => (t.sweep.report?, t.now)) =
          some (some ⟨5, 0, 5, 0, some "h5: Call timed out after 3s"⟩, 9000) :=
  ⟨by decide, sweep_keeps_pace _ 2 (by decide) _ _, by decide +kernel⟩

end Switchboard
