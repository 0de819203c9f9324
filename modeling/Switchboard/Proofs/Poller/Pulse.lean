import Switchboard.Poller.Heartbeat
import Switchboard.Proofs.Poller.Renewal
import Switchboard.Proofs.Runs

/-!
# The sweeps of a heartbeat

A heartbeat waits for a tick, asks for the keys of the registry, renews its table for them and
sweeps it; when the sweep is over it counts, and the next tick is awaited. `Pulse` is a heartbeat
that runs, with its ticks so far and whether it was told to stop. It hears each thing from whatever
fabric there is then, so that between any two moves anything may have become of the registry and the
sessions. A tick has its sweep in a select of its own, beside being told to stop: `Branch` says when
each of the two is ready, and `Heartbeat.enter` what their first poll comes to, whichever is polled
first.

`Effect` lists what a move can do. Every move keeps that each sweep that counts is that of a tick,
in order, and began with the table of the sweep before, renewed for the keys of that tick (`Sound`).
`statuses_carry` says what follows for the tables and the reports, and that neither a sweep that was
interrupted nor a tick that comes once the heartbeat was told to stop ever counts.
-/

namespace Switchboard

/-- A tick: the registry as it was then, and what the workers of its sweep have heard. -/
structure Round where
  registry : Registry
  heard : List Hearing := []

/-- A heartbeat that runs, with its ticks, latest first. -/
structure Pulse where
  beat : Heartbeat
  /-- Whether it was told to stop. -/
  told : Bool := false
  rounds : List Round := []

def lastTable : List Beat → Roster
  | [] => #[]
  | beat :: _ => beat.table

namespace Round

/-- The tick after a worker of its sweep has heard something more. -/
def hear (m : Hearing) (round : Round) : Round :=
  { round with heard := round.heard ++ [m] }

variable (workers : Nat) (limit : Duration) (moment : Timestamp) (round : Round)
  (previous : Roster)

/-- The sweep of a tick as it begins, after a sweep that left a table. -/
def start : Sweep :=
  .start (previous.renewed round.registry.keys) workers limit moment

/-- The sweep of a tick as it is after what its workers have heard. -/
def sweep : Sweep :=
  round.heard.foldl Sweep.after (round.start workers limit moment previous)

def visits : List Visit :=
  (round.start workers limit moment previous).visits round.heard

theorem sweep_hear (m : Hearing) :
    (round.hear m).sweep workers limit moment previous =
      (round.sweep workers limit moment previous).after m := by
  rw [sweep, hear, List.foldl_append]
  rfl

theorem sweep_sound :
    Sweep.Sound (previous.renewed round.registry.keys) moment
      (round.visits workers limit moment previous)
      (round.sweep workers limit moment previous) := by
  have hcount : 0 < max (min workers (previous.renewed round.registry.keys).size) 1 := by omega
  exact (Sweep.sound_manned (previous.renewed round.registry.keys) moment limit hcount).run
    round.heard

/-- The peers of a sweep are those that are registered at its tick, in order. -/
theorem hostnames_sweep :
    (round.sweep workers limit moment previous).table.hostnames =
      Roster.inOrder round.registry.keys := by
  rw [(round.sweep_sound workers limit moment previous).noted, Roster.hostnames_notes,
    Roster.hostnames_renewed]

end Round

/-- A branch of the select in which a tick has its sweep. -/
inductive Branch where
  /-- The heartbeat was told to stop. -/
  | cancelled
  /-- The sweep is over. -/
  | swept

namespace Branch

def isReady (told : Bool) (sweep : Sweep) : Branch → Bool
  | cancelled => told
  | swept => sweep.report?.isSome

/-- The branches as they are polled; a select may begin with either. -/
def order (stopFirst : Bool) : List Branch :=
  if stopFirst then [cancelled, swept] else [swept, cancelled]

end Branch

/-- The first poll of a select takes the first branch that is ready. If there is none, the sweep
goes on. -/
def Heartbeat.enter (told stopFirst : Bool) (now : Nat) (beat : Heartbeat) : Heartbeat :=
  match beat.stage with
  | .sweeping sweep =>
    match (Branch.order stopFirst).find? (·.isReady told sweep) with
    | some .cancelled => beat.cancel.1
    | some .swept => beat.resume now sweep
    | none => beat
  | _ => beat

/-- A sweep is not over when it begins: its workers are there, and none has done anything. -/
theorem Sweep.report?_start (table : Roster) (workers : Nat) (limit : Duration)
    (moment : Timestamp) : (start table workers limit moment).report? = none := by
  have hstaffed : max (min workers table.size) 1 ≠ 0 := by omega
  simp [report?, start, List.all_replicate, hstaffed]

/-- A tick whose heartbeat was told to stop has no sweep, whichever branch is polled first. -/
theorem Heartbeat.enter_tick (beat : Heartbeat) (keys : List String) (told stopFirst : Bool)
    (now : Nat) : (beat.tick keys).enter told stopFirst now =
      if told then (beat.tick keys).cancel.1 else beat.tick keys := by
  have hnone := Sweep.report?_start (beat.table.renewed keys) beat.workers beat.limit beat.moment
  cases told <;> cases stopFirst <;>
    simp [enter, tick, Branch.order, Branch.isReady, hnone]

namespace Pulse

inductive Move where
  /-- One of the things has come that the heartbeat or a worker of its sweep waits for. If a tick
  has its sweep now, its select begins with one of its branches. -/
  | hear (fabric : Fabric) (which : Nat) (stopFirst : Bool)
  /-- It is told to stop. -/
  | tell
  /-- It stops, as it was told. -/
  | stop

/-- What becomes of a heartbeat when something has come. -/
def after (p : Pulse) (registry : Registry) (stopFirst : Bool) (m : Hearing) : Pulse :=
  let beat := (p.beat.hear m.now m.place m.need m.signal).1
  match p.beat.stage with
  | .ticking =>
    { p with beat := beat.enter p.told stopFirst m.now, rounds := ⟨registry, []⟩ :: p.rounds }
  | .sweeping _ => { p with beat, rounds := p.rounds.modifyHead (Round.hear m) }
  | _ => { p with beat }

def step (p : Pulse) : Move → Option Pulse
  | .hear fabric which stopFirst =>
    p.beat.needs[which]?.bind fun (place, need) =>
      (fabric.meet need).1.map fun signal =>
        p.after fabric.registry stopFirst ⟨fabric.now, place, need, signal⟩
  | .tell => some { p with told := true }
  | .stop => if p.told then some { p with beat := p.beat.cancel.1 } else none

variable {workers : Nat} {limit : Duration} {moment : Timestamp} {previous : Roster}
  {rounds : List Round} {beats : List Beat} {p p' : Pulse}

inductive Effect (p : Pulse) : Pulse → Prop where
  /-- A tick has come. -/
  | ticks {due : Nat} (hstage : p.beat.stage = .waiting) :
      Effect p { p with beat := { p.beat with due, stage := .ticking } }
  /-- The sweep of a tick begins. -/
  | begins (registry : Registry) (hstage : p.beat.stage = .ticking) (htold : p.told = false) :
      Effect p { p with beat := p.beat.tick registry.keys, rounds := ⟨registry, []⟩ :: p.rounds }
  /-- The sweep of a tick is let go of. -/
  | lapses (registry : Registry) (hstage : p.beat.stage = .ticking) (htold : p.told = true) :
      Effect p { p with
        beat := (p.beat.tick registry.keys).cancel.1, rounds := ⟨registry, []⟩ :: p.rounds }
  /-- The sweep goes on. -/
  | sweeps {sweep : Sweep} (m : Hearing) (hstage : p.beat.stage = .sweeping sweep) :
      Effect p { p with
        beat := p.beat.resume m.now (sweep.after m), rounds := p.rounds.modifyHead (Round.hear m) }
  | tells : Effect p { p with told := true }
  | stops (htold : p.told = true) : Effect p { p with beat := p.beat.cancel.1 }

theorem effect_of_step {move : Move} (h : p.step move = some p') : Effect p p' := by
  cases move with
  | tell =>
    cases h
    exact .tells
  | stop =>
    obtain ⟨htold, h⟩ := Option.ite_none_right_eq_some.1 h
    cases h
    exact .stops htold
  | hear fabric which stopFirst =>
    obtain ⟨⟨place, need⟩, hneed, h⟩ := Option.bind_eq_some_iff.1 h
    obtain ⟨signal, hsignal, rfl⟩ := Option.map_eq_some_iff.1 h
    cases hstage : p.beat.stage with
    | waiting =>
      simp only [after, hstage, Heartbeat.hear]
      exact .ticks hstage
    | ticking =>
      -- The heartbeat waits for the keys only, and these always come.
      have hkeys : need = .keys := by
        simp only [Heartbeat.needs, hstage] at hneed
        exact (Prod.mk.inj (List.mem_singleton.1 (List.mem_of_getElem? hneed))).2
      subst hkeys
      cases hsignal
      simp only [after, hstage, Heartbeat.hear, Heartbeat.enter_tick]
      by_cases htold : p.told = true
      · rw [if_pos htold]
        exact .lapses fabric.registry hstage htold
      · rw [if_neg htold]
        exact .begins fabric.registry hstage (Bool.eq_false_iff.2 htold)
    | sweeping sweep =>
      simp only [after, hstage, Heartbeat.hear]
      exact .sweeps ⟨fabric.now, place, need, signal⟩ hstage
    | done =>
      simp [Heartbeat.needs, hstage] at hneed

/-! ## Sweeps and ticks -/

section Sweeps

variable (workers : Nat) (limit : Duration) (moment : Timestamp)

/-- Each sweep that counts is that of a tick, in order, and each tick has one. -/
inductive Counted : List Round → List Beat → Prop where
  | nil : Counted [] []
  | cons {rounds : List Round} {beats : List Beat} {round : Round} {beat : Beat}
      (h : Counted rounds beats)
      (hreport : (round.sweep workers limit moment (lastTable beats)).report? = some beat.report)
      (htable : (round.sweep workers limit moment (lastTable beats)).table = beat.table) :
      Counted (round :: rounds) (beat :: beats)

inductive Stands : HeartbeatStage → Roster → List Round → List Beat → Prop where
  | waiting {rounds : List Round} {beats : List Beat}
      (h : Counted workers limit moment rounds beats) :
      Stands .waiting (lastTable beats) rounds beats
  | ticking {rounds : List Round} {beats : List Beat}
      (h : Counted workers limit moment rounds beats) :
      Stands .ticking (lastTable beats) rounds beats
  /-- The sweep of the last tick is under way. -/
  | sweeping {rounds : List Round} {round : Round} {beats : List Beat} {table : Roster}
      (h : Counted workers limit moment rounds beats) :
      Stands (.sweeping (round.sweep workers limit moment (lastTable beats))) table
        (round :: rounds) beats
  /-- The last tick may have been interrupted. -/
  | done {rounds : List Round} {beats : List Beat} {table : Roster} (interrupted : List Round)
      (h : Counted workers limit moment rounds beats) :
      Stands .done table (interrupted ++ rounds) beats

structure Sound (p : Pulse) : Prop where
  sameWorkers : p.beat.workers = workers
  sameLimit : p.beat.limit = limit
  sameMoment : p.beat.moment = moment
  stands : Stands workers limit moment p.beat.stage p.beat.table p.rounds p.beat.beats

end Sweeps

theorem Stands.cancelled {stage : HeartbeatStage} {table table' : Roster}
    (h : Stands workers limit moment stage table rounds beats) :
    Stands workers limit moment .done table' rounds beats := by
  cases h with
  | waiting h => exact .done [] h
  | ticking h => exact .done [] h
  | @sweeping rounds round _ _ h => exact .done [round] h
  | done interrupted h => exact .done interrupted h

theorem Sound.effect (h : p.Sound workers limit moment) (heffect : Effect p p') :
    p'.Sound workers limit moment := by
  obtain ⟨beat, told, rounds⟩ := p
  obtain ⟨interval, workers', limit', moment', table, due, stage, beats⟩ := beat
  obtain ⟨hworkers, hlimit, hmoment, hstands⟩ := h
  dsimp only at hworkers hlimit hmoment hstands
  subst hworkers hlimit hmoment
  cases heffect with
  | ticks hstage =>
    cases hstage
    cases hstands with
    | waiting h => exact ⟨rfl, rfl, rfl, .ticking h⟩
  | begins registry hstage =>
    cases hstage
    cases hstands with
    | ticking h =>
      exact ⟨rfl, rfl, rfl, @Stands.sweeping _ _ _ rounds ⟨registry, []⟩ beats _ h⟩
  | lapses registry hstage =>
    cases hstage
    cases hstands with
    | ticking h => exact ⟨rfl, rfl, rfl, .done [⟨registry, []⟩] h⟩
  | @sweeps sweep m hstage =>
    cases hstage
    cases hstands with
    | @sweeping rounds round _ _ h =>
      rw [← Round.sweep_hear]
      simp only [Heartbeat.resume, List.modifyHead_cons]
      cases hreport : ((round.hear m).sweep workers' limit' moment' (lastTable beats)).report? with
      | none => exact ⟨rfl, rfl, rfl, .sweeping h⟩
      | some report =>
        have hcounted : Counted workers' limit' moment' (round.hear m :: rounds)
            (⟨m.now, report, _⟩ :: beats) := .cons h hreport rfl
        exact ⟨rfl, rfl, rfl, .waiting hcounted⟩
  | tells => exact ⟨rfl, rfl, rfl, hstands⟩
  | stops => exact ⟨rfl, rfl, rfl, hstands.cancelled⟩

theorem Counted.length (h : Counted workers limit moment rounds beats) :
    rounds.length = beats.length := by
  induction h with
  | nil => rfl
  | cons h hreport htable ih => rw [List.length_cons, List.length_cons, ih]

/-- Every sweep that counts is that of one tick, with as many before it. -/
theorem Counted.split (h : Counted workers limit moment rounds beats) {later earlier : List Beat}
    {beat : Beat} (hbeats : beats = later ++ beat :: earlier) :
    ∃ newer round older, rounds = newer ++ round :: older ∧
      Counted workers limit moment older earlier ∧
      (round.sweep workers limit moment (lastTable earlier)).report? = some beat.report ∧
      (round.sweep workers limit moment (lastTable earlier)).table = beat.table := by
  induction h generalizing later with
  | nil => simp at hbeats
  | @cons rounds beats round last h hreport htable ih =>
    cases later with
    | nil =>
      cases hbeats
      exact ⟨[], round, rounds, rfl, h, hreport, htable⟩
    | cons first later =>
      obtain ⟨newer, round', older, rfl, hrest⟩ := ih (List.cons.inj hbeats).2
      exact ⟨round :: newer, round', older, rfl, hrest⟩

/-- Whatever stage it is at, the sweeps that counted are those of its ticks but for the last. -/
theorem Stands.counted {stage : HeartbeatStage} {table : Roster}
    (h : Stands workers limit moment stage table rounds beats) :
    ∃ others counted, rounds = others ++ counted ∧ Counted workers limit moment counted beats := by
  cases h with
  | waiting h => exact ⟨[], _, rfl, h⟩
  | ticking h => exact ⟨[], _, rfl, h⟩
  | @sweeping rounds round _ _ h => exact ⟨[round], rounds, rfl, h⟩
  | done interrupted h => exact ⟨interrupted, _, rfl, h⟩

theorem Counted.hostnames_nodup (h : Counted workers limit moment rounds beats) :
    (lastTable beats).hostnames.Nodup := by
  cases h with
  | nil => exact .nil
  | cons h hreport htable =>
    rw [lastTable, ← htable, Round.hostnames_sweep]
    exact (Roster.inOrder_increasing _).imp fun hlt => ne_of_lt hlt

end Pulse

/-- How a peer enters a sweep after one that left a table: with the status that it has there, or as
one of which nothing is known if it is not there. -/
def PeerState.Enters (previous : Roster) (status : PeerState) : Prop :=
  status ∈ previous.toList ∨
    status.hostname ∉ previous.hostnames ∧ status = { hostname := status.hostname }

/-- How a sweep that counts carries statuses on from the table that the sweep before left. -/
structure Beat.Carries (previous : Roster) (registry : Registry) (visits : List Visit)
    (moment : Timestamp) (beat : Beat) : Prop where
  /-- The peers are in order, each once, -/
  increasing : beat.table.hostnames.Pairwise (· < ·)
  /-- and they are those that were registered at the tick. -/
  registered : ∀ name, name ∈ beat.table.hostnames ↔ (registry.find? name).isSome = true
  /-- Each is visited once. -/
  visited : (visits.map (·.hostname)).Perm beat.table.hostnames
  /-- Its status is the one with which it entered, or that and what one ping of it brought. -/
  statuses : ∀ status ∈ beat.table.toList, ∃ entered : PeerState,
    entered.hostname = status.hostname ∧ entered.Enters previous ∧
    (status = entered ∨ ∃ visit ∈ visits, ∃ version, visit.hostname = status.hostname ∧
      visit.verdict = .answered version ∧ version.isEmpty = false ∧
      status = { entered with version := some version, alive := true, lastSeen := some moment })
  total : beat.report.attempted + beat.report.skipped = beat.table.size
  pinged : beat.report.succeeded + beat.report.failed = beat.report.attempted
  failing : beat.report.lastError.isSome = true ↔ 0 < beat.report.failed

/-- A renewed table knows of each peer what the old one knew. -/
theorem Roster.enters_of_renewed {table : Roster} {names : List String}
    (hdistinct : table.hostnames.Nodup) {slot : Nat} {status : PeerState}
    (h : (table.renewed names)[slot]? = some status) : status.Enters table := by
  have hknown := renewed_slot h
  by_cases hmem : status.hostname ∈ table.hostnames
  · obtain ⟨old, hold, hname⟩ := List.mem_map.1 hmem
    rw [← hname, known_of_mem hdistinct hold] at hknown
    exact .inl (hknown ▸ hold)
  · rw [known_of_not_mem hmem] at hknown
    exact .inr ⟨hmem, hknown⟩

/-- A status after a sweep that is over is the one with which its peer entered, or that with what
one ping brought. -/
theorem Sweep.AddsUp.status_after {table : Roster} {moment : Timestamp} {visits : List Visit}
    {report : SweepTally} {s : Sweep} (h : s.AddsUp table moment visits report) {slot : Nat}
    {status : PeerState} (hslot : s.table[slot]? = some status) :
    ∃ entered, table[slot]? = some entered ∧ entered.hostname = status.hostname ∧
      (status = entered ∨ ∃ visit ∈ visits, ∃ version, visit.hostname = status.hostname ∧
        visit.verdict = .answered version ∧ version.isEmpty = false ∧
        status =
          { entered with version := some version, alive := true, lastSeen := some moment }) := by
  have hlt : slot < table.size := h.size ▸ (Array.getElem?_eq_some_iff.1 hslot).1
  obtain ⟨visit, hvisit, rfl⟩ := List.mem_map.1 (h.once.mem_iff.2 (List.mem_range.2 hlt))
  have hentered := Array.getElem?_eq_getElem hlt
  have hname := h.named visit hvisit
  rw [hentered] at hname
  cases hverdict : visit.verdict with
  | answered version =>
    obtain ⟨hversion, hafter⟩ := h.alive visit hvisit version hverdict
    rw [hslot, hentered] at hafter
    have hstatus := Option.some.inj hafter
    refine ⟨_, hentered, by rw [hstatus], .inr ⟨visit, hvisit, version, ?_, hverdict, hversion,
      hstatus⟩⟩
    rw [hstatus]
    exact (Option.some.inj hname).symm
  | skipped =>
    have hafter := h.kept visit hvisit (by rw [hverdict]; exact nofun)
    rw [hslot, hentered] at hafter
    exact ⟨_, hentered, by rw [Option.some.inj hafter], .inl (Option.some.inj hafter)⟩
  | failed reason =>
    have hafter := h.kept visit hvisit (by rw [hverdict]; exact nofun)
    rw [hslot, hentered] at hafter
    exact ⟨_, hentered, by rw [Option.some.inj hafter], .inl (Option.some.inj hafter)⟩

namespace Round

theorem visited_once {workers : Nat} {limit : Duration} {moment : Timestamp} {round : Round}
    {previous : Roster} {report : SweepTally}
    (hreport : (round.sweep workers limit moment previous).report? = some report) :
    ((round.visits workers limit moment previous).map (·.hostname)).Perm
      (Roster.inOrder round.registry.keys) := by
  have hadds := (round.sweep_sound workers limit moment previous).addsUp hreport
  have hnames := previous.hostnames_renewed round.registry.keys
  let nameOf (slot : Nat) : String := ((Roster.inOrder round.registry.keys)[slot]?).getD ""
  have hvisits : (round.visits workers limit moment previous).map (·.hostname) =
      ((round.visits workers limit moment previous).map Visit.slot).map nameOf := by
    rw [List.map_map]
    refine List.map_congr_left fun v hv => ?_
    have hnamed : (Roster.inOrder round.registry.keys)[v.slot]? = some v.hostname := by
      rw [← hnames, Roster.hostnames, List.getElem?_map, Array.getElem?_toList]
      exact hadds.named v hv
    simp only [Function.comp_apply, nameOf, hnamed, Option.getD_some]
  have hlength : (previous.renewed round.registry.keys).size =
      (Roster.inOrder round.registry.keys).length := by
    rw [← hnames, Roster.hostnames, List.length_map, Array.length_toList]
  have hslots := hadds.once.map nameOf
  rw [hlength, Lists.map_range_getD] at hslots
  rw [hvisits]
  exact hslots

theorem carries {workers : Nat} {limit : Duration} {moment : Timestamp} {round : Round}
    {previous : Roster} (hdistinct : previous.hostnames.Nodup) {beat : Beat}
    (hreport : (round.sweep workers limit moment previous).report? = some beat.report)
    (htable : (round.sweep workers limit moment previous).table = beat.table) :
    beat.Carries previous round.registry (round.visits workers limit moment previous) moment := by
  have hadds := (round.sweep_sound workers limit moment previous).addsUp hreport
  have hnames := round.hostnames_sweep workers limit moment previous
  have hsize := hadds.size
  rw [htable] at hnames hsize
  refine ⟨hnames ▸ Roster.inOrder_increasing _, fun name => ?_, hnames ▸ visited_once hreport,
    fun status hstatus => ?_, hsize ▸ hadds.total, hadds.pinged, hadds.failing⟩
  · rw [hnames, Roster.mem_inOrder, Registry.mem_keys]
  · obtain ⟨slot, hslot⟩ := List.mem_iff_getElem?.1 hstatus
    rw [Array.getElem?_toList, ← htable] at hslot
    obtain ⟨entered, hentered, hname, hafter⟩ := hadds.status_after hslot
    exact ⟨entered, hname, Roster.enters_of_renewed hdistinct hentered, hafter⟩

end Round

namespace Pulse

variable {workers : Nat} {limit : Duration} {moment : Timestamp} {p p' : Pulse}

/-! ## The end of a heartbeat -/

structure Stopped (beats : List Beat) (p : Pulse) : Prop where
  stage : p.beat.stage = .done
  beats : p.beat.beats = beats

theorem Stopped.effect {beats : List Beat} (h : p.Stopped beats) (heffect : Effect p p') :
    p'.Stopped beats := by
  obtain ⟨hstage, hbeats⟩ := h
  cases heffect with
  | ticks hwaiting => rw [hstage] at hwaiting; cases hwaiting
  | begins registry hticking => rw [hstage] at hticking; cases hticking
  | lapses registry hticking => rw [hstage] at hticking; cases hticking
  | sweeps m hsweeping => rw [hstage] at hsweeping; cases hsweeping
  | tells => exact ⟨hstage, hbeats⟩
  | stops => exact ⟨rfl, hbeats⟩

/-- A heartbeat that was told to stop, of which at most so many sweeps will ever count. -/
structure Ending (most : Nat) (p : Pulse) : Prop where
  told : p.told = true
  beats : p.beat.beats.length ≤ most
  /-- The sweep that is under way is one of them. -/
  underway : ∀ sweep, p.beat.stage = .sweeping sweep → p.beat.beats.length + 1 ≤ most

theorem Ending.effect {most : Nat} (h : p.Ending most) (heffect : Effect p p') :
    p'.Ending most := by
  obtain ⟨htold, hbeats, hunderway⟩ := h
  cases heffect with
  | ticks => exact ⟨htold, hbeats, nofun⟩
  | begins registry hstage hnot => rw [htold] at hnot; cases hnot
  | lapses => exact ⟨htold, hbeats, nofun⟩
  | @sweeps sweep m hstage =>
    have hroom := hunderway sweep hstage
    unfold Heartbeat.resume
    cases (sweep.after m).report? with
    | none => exact ⟨htold, hbeats, fun _ _ => hroom⟩
    | some report => exact ⟨htold, hroom, nofun⟩
  | tells => exact ⟨rfl, hbeats, hunderway⟩
  | stops => exact ⟨htold, hbeats, nofun⟩

/-- No tick that comes after a heartbeat was told to stop will count. -/
theorem Sound.ending (h : p.Sound workers limit moment) (htold : p.told = true) :
    p.Ending p.rounds.length := by
  obtain ⟨beat, told, rounds⟩ := p
  obtain ⟨interval, workers', limit', moment', table, due, stage, beats⟩ := beat
  have hstands := h.stands
  dsimp only at hstands
  cases hstands with
  | waiting hcounted => exact ⟨htold, Nat.le_of_eq hcounted.length.symm, nofun⟩
  | ticking hcounted => exact ⟨htold, Nat.le_of_eq hcounted.length.symm, nofun⟩
  | sweeping hcounted =>
    have hlength := hcounted.length
    refine ⟨htold, ?_, fun _ _ => ?_⟩
    · simp only [List.length_cons]
      omega
    · simp only [List.length_cons]
      omega
  | done interrupted hcounted =>
    have hlength := hcounted.length
    refine ⟨htold, ?_, nofun⟩
    simp only [List.length_append]
    omega

/-- **A heartbeat carries statuses on from sweep to sweep.** In any run of a heartbeat, whatever
becomes of the registry and the sessions between its moves and whenever it is told to stop: the
sweep that counts as the k-th is that of the k-th tick. Its table has the peers that were registered
at that tick, in order and each once; a peer that was in the table of the sweep before entered with
the status it had there, any other as one of which nothing is known; it left with that status, or
with that and what one ping brought; and the report adds up to the size of the table. Once the
heartbeat has stopped, no sweep counts any more, so that the one that was interrupted does not; and
once it was told to stop, no later tick has a sweep that counts. -/
theorem statuses_carry {interval workers : Nat} {limit : Duration} {moment : Timestamp} {now : Nat}
    {start : Heartbeat} (hstart : Heartbeat.start? interval workers limit moment now = some start)
    {moves : List Move} {p : Pulse} (hrun : runFrom step { beat := start } moves = some p) :
    (∀ later beat earlier, p.beat.beats = later ++ beat :: earlier →
      ∃ newer round older, p.rounds = newer ++ round :: older ∧ older.length = earlier.length ∧
        beat.Carries (lastTable earlier) round.registry
          (round.visits workers limit moment (lastTable earlier)) moment) ∧
    (∀ stopped, p.step .stop = some stopped →
      ∀ more q, runFrom step stopped more = some q → q.beat.beats = p.beat.beats) ∧
    (p.told = true →
      ∀ more q, runFrom step p more = some q → q.beat.beats.length ≤ p.rounds.length) := by
  have hsound : p.Sound workers limit moment := by
    refine runFrom_keeps (fun _ _ _ h hstep => h.effect (effect_of_step hstep)) ?_ hrun
    obtain ⟨-, h⟩ := Option.ite_none_left_eq_some.1 hstart
    cases h
    exact ⟨rfl, rfl, rfl, .waiting .nil⟩
  refine ⟨fun later beat earlier hbeats => ?_, fun stopped hstop more q hmore => ?_,
    fun htold more q hmore => ?_⟩
  · obtain ⟨others, counted, hrounds, hcounted⟩ := hsound.stands.counted
    obtain ⟨newer, round, older, rfl, holder, hreport, htable⟩ := hcounted.split hbeats
    exact ⟨others ++ newer, round, older, by rw [hrounds, List.append_assoc], holder.length,
      Round.carries holder.hostnames_nodup hreport htable⟩
  · obtain ⟨-, h⟩ := Option.ite_none_right_eq_some.1 hstop
    have hstopped : stopped.Stopped p.beat.beats := by
      cases h
      exact ⟨rfl, rfl⟩
    exact (runFrom_keeps (fun _ _ _ h hstep => h.effect (effect_of_step hstep))
      hstopped hmore).beats
  · exact (runFrom_keeps (fun _ _ _ h hstep => h.effect (effect_of_step hstep))
      (hsound.ending htold) hmore).beats

/-- A fabric in which `nas01` has answered a ping, and others are registered whose sessions are
gone. -/
def answering (now : Nat) (entries : List (String × Nat)) : Fabric where
  now := now
  registry := ⟨entries⟩
  seats := #[{
    session := {
      key := "nas01", peerAddr := "mem", openings := { answers := [(0, some 2)] }
      connection := { Mux.Connection.ofRole .server with
        ends := [{ id := 2, announcement := .nothing, inbox := Sweep.pong }] } }
    input := 0, output := 1 }]

/-- Two ticks with their sweeps, and a third in whose sweep the heartbeat is told to stop. Before
the second tick `nas02` is gone, `nas03` has come, and `nas01` has lost its session. -/
def threeTicks : List Move :=
  let early := answering 0 [("nas02", 7), ("nas01", 0)]
  let late := answering 1000 [("nas03", 7), ("nas01", 7)]
  let last := answering 2000 [("nas03", 7)]
  List.replicate 4 (.hear early 0 false) ++ List.replicate 5 (.hear early 1 true) ++
    List.replicate 3 (.hear early 0 true) ++ List.replicate 7 (.hear late 0 true) ++
    [.hear last 0 true, .hear last 0 false, .tell, .hear last 0 true]

theorem statuses_carry_three_ticks :
    ∃ start p stopped, Heartbeat.start? 1000 1 (.ofSecs 5) ⟨1700000000, 0⟩ 0 = some start ∧
      runFrom step { beat := start } threeTicks = some p ∧ p.step .stop = some stopped ∧
      p.beat.beats.map (fun beat => (beat.table.toList, beat.report)) =
        [([⟨"nas01", some "1.2", true, some ⟨1700000000, 0⟩⟩, { hostname := "nas03" }],
            ⟨0, 0, 0, 2, none⟩),
          ([⟨"nas01", some "1.2", true, some ⟨1700000000, 0⟩⟩, { hostname := "nas02" }],
            ⟨1, 1, 0, 1, none⟩)] ∧
      (∃ last first, p.beat.beats = [last, first] ∧
        ∃ round ∈ p.rounds, last.Carries first.table round.registry
          (round.visits 1 (.ofSecs 5) ⟨1700000000, 0⟩ first.table) ⟨1700000000, 0⟩) ∧
      ∀ more q, runFrom step stopped more = some q → q.beat.beats = p.beat.beats := by
  have hmap : (runFrom step { beat := ⟨1000, 1, .ofSecs 5, ⟨1700000000, 0⟩, #[], 0, .waiting, []⟩ }
      threeTicks).map (fun p =>
        (p.told, p.beat.beats.map fun beat => (beat.table.toList, beat.report))) =
      some (true,
        [([⟨"nas01", some "1.2", true, some ⟨1700000000, 0⟩⟩, { hostname := "nas03" }],
            ⟨0, 0, 0, 2, none⟩),
          ([⟨"nas01", some "1.2", true, some ⟨1700000000, 0⟩⟩, { hostname := "nas02" }],
            ⟨1, 1, 0, 1, none⟩)]) := by
    -- The run can be evaluated once its names are put in order by insertion.
    unfold step after Heartbeat.enter Heartbeat.hear Heartbeat.tick Roster.renewed Fabric.meet
    simp only [Roster.inOrder_eq_insertionSort, Registry.keys_eq_insertionSort]
    decide +kernel
  obtain ⟨p, hrun, hp⟩ := Option.map_eq_some_iff.1 hmap
  obtain ⟨htold, hbeats⟩ := Prod.mk.inj hp
  obtain ⟨last, first, htwo⟩ : ∃ last first, p.beat.beats = [last, first] := by
    have hlength := congrArg List.length hbeats
    rw [List.length_map] at hlength
    exact List.length_eq_two.1 hlength
  have hstop : p.step .stop = some { p with beat := p.beat.cancel.1 } := if_pos htold
  have hstart : Heartbeat.start? 1000 1 (.ofSecs 5) ⟨1700000000, 0⟩ 0 =
      some ⟨1000, 1, .ofSecs 5, ⟨1700000000, 0⟩, #[], 0, .waiting, []⟩ := rfl
  obtain ⟨hcarries, hstopped, -⟩ := statuses_carry hstart hrun
  obtain ⟨newer, round, older, hrounds, -, hlast⟩ := hcarries [] last [first] htwo
  exact ⟨_, p, _, hstart, hrun, hstop, hbeats,
    ⟨last, first, htwo, round, hrounds ▸ List.mem_append_right _ List.mem_cons_self, hlast⟩,
    hstopped _ hstop⟩

end Pulse

end Switchboard
