import Switchboard.Proofs.Poller.Report
import Switchboard.Proofs.Poller.Silence
import Switchboard.Proofs.Registry.Keeping
import Switchboard.Proofs.Runs

/-!
# Sweeps of peers that say nothing

A `Patrol` is a sweep over a fabric. Its workers hear what is there for them in the fabric, the
connections and everybody else do what they do, and time goes on when no worker hears anything, up
to the next moment that one of them waits for. All the while each peer of the table has a session
that is open and on which nothing is heard.

`act` lists what a worker can do in such a patrol. All of it but a timeout happens at once, and
there is only so much of it (`left_act`).
-/

namespace Switchboard

structure Patrol where
  sweep : Sweep
  fabric : Fabric

namespace Patrol

def now (t : Patrol) : Nat :=
  t.fabric.now

def needs (place : Nat) (t : Patrol) : List (Nat × Need) :=
  ((t.sweep.workers[place]?.map SweepWorker.needs).getD []).map (place, ·)

/-- A worker hears the first of what it waits for that is there. -/
def hear (place : Nat) (t : Patrol) : Option Patrol :=
  match t.fabric.meetFirst (t.needs place) with
  | (some (_, need, signal), fabric) =>
    let (sweep, deeds) := t.sweep.hear fabric.now place need signal
    some ⟨sweep, deeds.foldl Fabric.perform fabric⟩
  | (none, _) => none

/-- Time can go on up to a moment: the sweep is not over, no worker hears anything now, and none
waits for an earlier moment. -/
def canWait (later : Nat) (t : Patrol) : Bool :=
  t.now < later && t.sweep.report?.isNone &&
    (List.range t.sweep.workers.length).all (fun place => (t.hear place).isNone) &&
    t.sweep.workers.all fun w => w.needs.all fun
      | .moment time => later ≤ time
      | _ => true

/-- Every peer of the table has an open session, and the pings under way hear nothing. -/
def isSilent (t : Patrol) : Bool :=
  t.sweep.table.all (fun status =>
    (t.fabric.registry.find? status.hostname).any fun id => !t.fabric.isClosed id) &&
  t.sweep.workers.all fun
    | .pinging _ _ call _ => call.isUnheard t.fabric
    | _ => true

inductive Move where
  /-- The worker at a place hears something. -/
  | hear (place : Nat)
  /-- Something else happens, which takes no time. -/
  | other (d : Fabric.Dealing)
  /-- Time goes on. -/
  | wait (later : Nat)

/-- One move of a patrol whose peers say nothing, if it is possible. -/
def step (t : Patrol) (m : Move) : Option Patrol :=
  if t.isSilent then
    match m with
    | .hear place => t.hear place
    | .other d =>
      if (t.fabric.deal d).now = t.now then some { t with fabric := t.fabric.deal d } else none
    | .wait later =>
      if t.canWait later then some { t with fabric := { t.fabric with now := later } } else none
  else none

def Move.isOwn : Move → Bool
  | other _ => false
  | _ => true

def request : ByteArray :=
  (Method.ping.envelope ()).encode

/-- How many moves a worker is from being done, if there is no further slot and time is no move. -/
def workerLeft : SweepWorker → Nat
  | .free _ => 1
  | .looking .. => request.size + 12
  | .pinging _ _ call _ => call.ahead + 2
  | .done => 0

/-- How many moves the workers of a sweep are from being done. -/
def left (s : Sweep) : Nat :=
  (request.size + 12) * s.queue.length + (s.workers.map workerLeft).sum

structure Sound (table : Roster) (count : Nat) (limit : Duration) (moment : Timestamp)
    (t : Patrol) : Prop where
  /-- Its workers have heard one thing after the other. -/
  heard : ∃ hearings : List Hearing,
    t.sweep = hearings.foldl Sweep.after (.manned table count limit moment)
  fabric : t.fabric.Sound
  limit : t.sweep.limit = limit
  pings : ∀ slot hostname call part, .pinging slot hostname call part ∈ t.sweep.workers →
    call.Unanswered ∧ call.request = request

inductive Act (t : Patrol) (place : Nat) : Sweep → Prop where
  | takes {part : SweepTally} {slot : Nat} {queue : List Nat} {hostname : String}
      (hw : t.sweep.workers[place]? = some (.free part)) (hq : t.sweep.queue = slot :: queue) :
      Act t place ({ t.sweep with queue }.put place (.looking slot hostname part))
  | leaves {part : SweepTally} {report : SweepTally}
      (hw : t.sweep.workers[place]? = some (.free part)) (hq : t.sweep.queue = []) :
      Act t place ({ t.sweep with report }.put place .done)
  | pings {slot : Nat} {hostname : String} {part part' : SweepTally} {call : Call}
      (hw : t.sweep.workers[place]? = some (.looking slot hostname part))
      (hcall : call = .start call.session (Method.ping.envelope ()) t.sweep.limit t.now) :
      Act t place (t.sweep.put place (.pinging slot hostname call part'))
  /-- It goes on with a ping. -/
  | goesOn {slot : Nat} {hostname : String} {part : SweepTally} {call : Call} {stage : CallStage}
      (hw : t.sweep.workers[place]? = some (.pinging slot hostname call part))
      (hstage : stage.IsUnanswered call.request) (hahead : { call with stage }.ahead < call.ahead) :
      Act t place (t.sweep.put place (.pinging slot hostname { call with stage } part))
  /-- The time of a ping is up. -/
  | givesUp {slot : Nat} {hostname : String} {part part' : SweepTally} {call : Call}
      (hw : t.sweep.workers[place]? = some (.pinging slot hostname call part))
      (htime : call.deadline ≤ t.now) :
      Act t place (t.sweep.put place (.free part'))

variable {table : Roster} {count : Nat} {limit : Duration} {moment : Timestamp} {t t' : Patrol}
  {place : Nat}

theorem request_fits : request.size ≤ Frame.maxPayload := by
  decide +kernel

/-! ## What a worker does -/

namespace Sound

theorem sweep (h : t.Sound table count limit moment) (hcount : 0 < count) :
    ∃ visits, t.sweep.Sound table moment visits := by
  obtain ⟨hearings, heq⟩ := h.heard
  rw [heq]
  exact ⟨_, (Sweep.sound_manned table moment limit hcount).run hearings⟩

end Sound

theorem hear_eq_some (h : t.hear place = some t') :
    ∃ p need signal f, t.fabric.meetFirst (t.needs place) = (some (p, need, signal), f) ∧
      t'.sweep = t.sweep.after ⟨t.now, place, need, signal⟩ ∧ t'.now = t.now ∧
      t.fabric.Becomes t'.fabric := by
  unfold hear at h
  have hnow := t.fabric.meetFirst_now (t.needs place)
  have hbecomes := Fabric.becomes_meetFirst (t.needs place) t.fabric
  split at h
  · rename_i p need signal f heq
    rw [heq] at hnow hbecomes
    cases h
    refine ⟨p, need, signal, f, heq, ?_, ?_, ?_⟩
    · rw [now, ← hnow]
      rfl
    · exact (Fabric.performs_now _ f).trans hnow
    · exact hbecomes.trans (Fabric.Becomes.foldl Fabric.becomes_perform _ f)
  · cases h

theorem lookup_of_silent (h : t.Sound table count limit moment) (hcount : 0 < count)
    (hsilent : t.isSilent = true) {slot : Nat} {hostname : String} {part : SweepTally}
    (hw : t.sweep.workers[place]? = some (.looking slot hostname part)) :
    ∃ id, (t.fabric.registry.get t.fabric.isClosed hostname).1 = some id := by
  obtain ⟨visits, hsound⟩ := h.sweep hcount
  have hnamed := (hsound.workers _ (List.mem_of_getElem? hw)).named slot hostname rfl
  rw [← Roster.hostname_notes table moment visits, ← hsound.noted] at hnamed
  obtain ⟨status, hstatus, rfl⟩ := Option.map_eq_some_iff.1 hnamed
  obtain ⟨hslot, rfl⟩ := Array.getElem?_eq_some_iff.1 hstatus
  obtain ⟨hlive, -⟩ := Bool.and_eq_true_iff.1 hsilent
  have hany := Array.all_eq_true.1 hlive slot hslot
  rw [Registry.get_eq]
  cases hfound : t.fabric.registry.find? t.sweep.table[slot].hostname with
  | none => simp [hfound] at hany
  | some id => exact ⟨id, by simpa [hfound, Option.filter] using hany⟩

theorem act (h : t.Sound table count limit moment) (hcount : 0 < count)
    (hsilent : t.isSilent = true) (hhear : t.hear place = some t') :
    t.Act place t'.sweep := by
  obtain ⟨p, need, signal, f, hmeet, hsweep, -⟩ := hear_eq_some hhear
  obtain ⟨visits, hsound⟩ := h.sweep hcount
  obtain ⟨hlive, hunheard⟩ := Bool.and_eq_true_iff.1 hsilent
  rw [hsweep, Sweep.after]
  cases hw : t.sweep.workers[place]? with
  | none => simp [needs, hw, Fabric.meetFirst] at hmeet
  | some w =>
    cases w with
    | free part =>
      simp only [Sweep.hear, hw, Sweep.next]
      split
      · rename_i hq
        exact .leaves hw hq
      · rename_i slot queue hq
        have hslot := hsound.lt_size (hq ▸ List.mem_cons_self : slot ∈ t.sweep.queue)
        simp only [Array.getElem?_eq_getElem hslot]
        exact .takes hw hq
    | looking slot hostname part =>
      obtain ⟨id, hid⟩ := lookup_of_silent h hcount hsilent hw
      simp only [needs, hw, Option.map_some, Option.getD_some, SweepWorker.needs, List.map_cons,
        List.map_nil, Fabric.meetFirst, Fabric.meet, hid] at hmeet
      cases hmeet
      simp only [Sweep.hear, hw, Sweep.found]
      exact .pings hw rfl
    | pinging slot hostname call part =>
      obtain ⟨hunanswered, -⟩ := h.pings slot hostname call part (List.mem_of_getElem? hw)
      have hcall : call.isUnheard t.fabric = true :=
        List.all_eq_true.1 hunheard _ (List.mem_of_getElem? hw)
      simp only [needs, hw, Option.map_some, Option.getD_some, SweepWorker.needs] at hmeet
      cases Call.turn hunanswered h.fabric hcall hmeet with
      | goesOn stage hnext hstage hahead =>
        have hpending : ({ call with stage } : Call).outcome? = none :=
          Call.Unanswered.pending ⟨hunanswered.fits, hstage⟩
        simp only [Sweep.hear, hw, hnext, hpending]
        exact .goesOn hw hstage hahead
      | givesUp htime hneed =>
        subst hneed
        simp only [Sweep.hear, hw, Call.hear, Call.conclude, Call.outcome?]
        exact .givesUp hw htime
    | done => simp [needs, hw, SweepWorker.needs, Fabric.meetFirst] at hmeet

/-! ## What a move does -/

inductive Change (t : Patrol) : Move → Patrol → Prop where
  | acts {place : Nat} {t' : Patrol} (hact : t.Act place t'.sweep) (hnow : t'.now = t.now)
      (hbecomes : t.fabric.Becomes t'.fabric)
      (hheard : ∃ m : Hearing, t'.sweep = t.sweep.after m) : Change t (.hear place) t'
  | passes {d : Fabric.Dealing} {f : Fabric} (hnow : f.now = t.now)
      (hbecomes : t.fabric.Becomes f) : Change t (.other d) { t with fabric := f }
  | waits {later : Nat} (hwait : t.canWait later = true) :
      Change t (.wait later) { t with fabric := { t.fabric with now := later } }

theorem isSilent_of_step {m : Move} (h : t.step m = some t') : t.isSilent = true := by
  unfold step at h
  split at h
  · assumption
  · cases h

theorem change (h : t.Sound table count limit moment) (hcount : 0 < count) {m : Move}
    (hstep : t.step m = some t') : t.Change m t' := by
  unfold step at hstep
  split at hstep
  · rename_i hsilent
    cases m with
    | hear place =>
      obtain ⟨p, need, signal, f, -, hsweep, hnow, hbecomes⟩ := hear_eq_some hstep
      exact .acts (act h hcount hsilent hstep) hnow hbecomes ⟨_, hsweep⟩
    | other d =>
      dsimp only at hstep
      split at hstep
      · rename_i hnow
        cases hstep
        exact .passes hnow (t.fabric.becomes_deal d)
      · cases hstep
    | wait later =>
      dsimp only at hstep
      split at hstep
      · rename_i hwait
        cases hstep
        exact .waits hwait
      · cases hstep
  · cases hstep

theorem pings_act (h : t.Sound table count limit moment) {s' : Sweep} (hact : t.Act place s') :
    s'.limit = limit ∧ ∀ slot hostname call part, .pinging slot hostname call part ∈ s'.workers →
      call.Unanswered ∧ call.request = request := by
  have hput : ∀ {w : SweepWorker} {ws : List SweepWorker}, ws = t.sweep.workers.set place w →
      (∀ slot hostname call part, w = .pinging slot hostname call part →
        call.Unanswered ∧ call.request = request) →
      ∀ slot hostname call part, .pinging slot hostname call part ∈ ws →
        call.Unanswered ∧ call.request = request := by
    rintro w ws rfl hw slot hostname call part hmem
    rcases List.mem_or_eq_of_mem_set hmem with hold | heq
    · exact h.pings slot hostname call part hold
    · exact hw slot hostname call part heq.symm
  cases hact with
  | takes => exact ⟨h.limit, hput rfl (by simp)⟩
  | leaves => exact ⟨h.limit, hput rfl (by simp)⟩
  | givesUp => exact ⟨h.limit, hput rfl (by simp)⟩
  | pings hw hcall =>
    refine ⟨h.limit, hput rfl ?_⟩
    rintro slot hostname call part ⟨⟩
    rw [hcall]
    exact ⟨⟨request_fits, trivial⟩, rfl⟩
  | goesOn hw hstage =>
    obtain ⟨hunanswered, hrequest⟩ := h.pings _ _ _ _ (List.mem_of_getElem? hw)
    refine ⟨h.limit, hput rfl ?_⟩
    rintro slot hostname call part ⟨⟩
    exact ⟨⟨hunanswered.fits, hstage⟩, hrequest⟩

theorem Sound.step (h : t.Sound table count limit moment) (hcount : 0 < count) {m : Move}
    (hstep : t.step m = some t') : t'.Sound table count limit moment := by
  cases change h hcount hstep with
  | acts hact _ hbecomes hheard =>
    obtain ⟨m, hm⟩ := hheard
    obtain ⟨hearings, heq⟩ := h.heard
    obtain ⟨hlimit, hpings⟩ := pings_act h hact
    refine ⟨⟨hearings ++ [m], ?_⟩, hbecomes.sound h.fabric, hlimit, hpings⟩
    rw [hm, heq, List.foldl_append]
    rfl
  | passes _ hbecomes => exact ⟨h.heard, hbecomes.sound h.fabric, h.limit, h.pings⟩
  | waits =>
    exact ⟨h.heard, Fabric.Becomes.sound (.of_seats rfl) h.fabric, h.limit, h.pings⟩

theorem left_act {s' : Sweep} (hact : t.Act place s') : left s' < left t.sweep := by
  have hput : ∀ {old : SweepWorker}, t.sweep.workers[place]? = some old → ∀ new,
      ((t.sweep.workers.set place new).map workerLeft).sum + workerLeft old =
        (t.sweep.workers.map workerLeft).sum + workerLeft new :=
    fun hold new => Lists.sum_map_set hold workerLeft
  cases hact with
  | @takes part slot queue hostname hw hq =>
    have hsum := hput hw (.looking slot hostname part)
    simp only [left, Sweep.put, hq, List.length_cons, workerLeft, Nat.mul_add] at hsum ⊢
    omega
  | leaves hw hq =>
    have hsum := hput hw .done
    simp only [left, Sweep.put, workerLeft] at hsum ⊢
    omega
  | @pings slot hostname part part' call hw hcall =>
    have hsum := hput hw (.pinging slot hostname call part')
    have hahead : call.ahead = request.size + 9 := by rw [hcall]; rfl
    simp only [left, Sweep.put, workerLeft, hahead] at hsum ⊢
    omega
  | @goesOn slot hostname part call stage hw _ hahead =>
    have hsum := hput hw (.pinging slot hostname { call with stage } part)
    simp only [left, Sweep.put, workerLeft] at hsum ⊢
    omega
  | @givesUp slot hostname part part' call hw htime =>
    have hsum := hput hw (.free part')
    simp only [left, Sweep.put, workerLeft] at hsum ⊢
    omega

end Patrol

end Switchboard
