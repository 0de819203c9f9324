import Switchboard.Proofs.Poller.Renewal
import Switchboard.Proofs.Runs

/-!
# Tables that several hold

Whoever has a table may hand it on, and all who have it then see the same slots. `Tables` keeps all
slots at addresses, and for each holder the addresses of his slots: what he sees of them is a
`Roster`. A slot is changed by what is noted in it through any of its holders.

In every state that can come about, two holders have the same slots or none in common (`Sound`). So
what a holder sees changes by what is noted through a holder of the same slots, and by nothing else
(`Sound.seen_run`). A renewed table has slots of its own: `renewal_stands_apart` says what is in
them, and that neither the old table nor the new one ever shows what is noted in the other.
-/

namespace Switchboard

/-- The slots of all tables, and who holds which of them. -/
structure Tables where
  /-- All slots, by address. -/
  slots : Roster := #[]
  /-- The addresses of the slots of each holder. -/
  held : List (List Nat) := []

namespace Tables

inductive Move where
  /-- A table of some statuses is made. -/
  | make (statuses : Roster)
  /-- A holder hands his table on. -/
  | share (holder : Nat)
  /-- The peer of a slot answered. -/
  | noteAlive (holder slot : Nat) (version : String) (moment : Timestamp)
  /-- The table for other peers is made of a table. -/
  | renew (holder : Nat) (names : List String)

def seen (t : Tables) (addresses : List Nat) : Roster :=
  (addresses.map fun address => t.slots[address]?.getD default).toArray

/-- The addresses at which the next table of some statuses is made. -/
def next (t : Tables) (statuses : Roster) : List Nat :=
  List.range' t.slots.size statuses.size

def make (t : Tables) (statuses : Roster) : Tables :=
  ⟨t.slots ++ statuses, t.held ++ [t.next statuses]⟩

def note (t : Tables) (addresses : List Nat) (slot : Nat) (version : String)
    (moment : Timestamp) : Tables :=
  match addresses[slot]? with
  | some address => { t with slots := t.slots.noteAlive address version moment }
  | none => t

def step (t : Tables) : Move → Option Tables
  | .make statuses => some (t.make statuses)
  | .share holder => t.held[holder]?.map fun addresses => { t with held := t.held ++ [addresses] }
  | .noteAlive holder slot version moment =>
    t.held[holder]?.map fun addresses => t.note addresses slot version moment
  | .renew holder names =>
    t.held[holder]?.map fun addresses => t.make ((t.seen addresses).renewed names)

/-- What a move makes of the table at some addresses: it counts only if it notes something through
a holder of these slots. -/
def counted (t : Tables) (addresses : List Nat) (table : Roster) : Move → Roster
  | .noteAlive holder slot version moment =>
    if t.held[holder]? = some addresses then table.noteAlive slot version moment else table
  | _ => table

/-- What becomes of the table at some addresses by what its holders note in it. -/
def follow (addresses : List Nat) (t : Tables) (table : Roster) : List Move → Roster
  | [] => table
  | move :: moves =>
    match t.step move with
    | some later => follow addresses later (t.counted addresses table move) moves
    | none => table

variable {t later : Tables} {addresses other : List Nat} {statuses : Roster} {slot address : Nat}
  {version : String} {moment : Timestamp}

/-! ## What is seen -/

theorem getElem?_seen (t : Tables) (addresses : List Nat) (slot : Nat) :
    (t.seen addresses)[slot]? =
      addresses[slot]?.map fun address => t.slots[address]?.getD default := by
  rw [seen, List.getElem?_toArray, List.getElem?_map]

theorem seen_make (h : ∀ address ∈ addresses, address < t.slots.size) (statuses : Roster) :
    (t.make statuses).seen addresses = t.seen addresses := by
  unfold seen make
  congr 1
  apply List.map_congr_left
  intro address haddress
  rw [Array.getElem?_append_left (h address haddress)]

/-- A table that was made shows the statuses that it was made of. -/
theorem seen_next (t : Tables) (statuses : Roster) :
    (t.make statuses).seen (t.next statuses) = statuses := by
  apply Array.ext_getElem?
  intro slot
  rw [getElem?_seen]
  by_cases hslot : slot < statuses.size
  · have haddress : (t.next statuses)[slot]? = some (t.slots.size + slot) := by
      simp [next, hslot]
    rw [haddress, Option.map_some, make, Array.getElem?_append_right (by omega),
      Nat.add_sub_cancel_left, Array.getElem?_eq_getElem hslot]
    rfl
  · have hnone : (t.next statuses)[slot]? = none := by
      simp [next]
      omega
    rw [hnone, Array.getElem?_eq_none (by omega)]
    rfl

theorem seen_note_other (h : addresses.Disjoint other) :
    (t.note addresses slot version moment).seen other = t.seen other := by
  unfold note
  split
  · rename_i address haddress
    have hmem : address ∈ addresses := List.mem_of_getElem? haddress
    unfold seen
    congr 1
    apply List.map_congr_left
    intro a ha
    have hne : address ≠ a := by
      rintro rfl
      exact h hmem ha
    simp [Roster.noteAlive, Array.getElem?_modify, hne]
  · rfl

/-- Something noted in a slot of a table is seen in that slot, and in no other. -/
theorem seen_note (hwithin : ∀ address ∈ addresses, address < t.slots.size)
    (honce : addresses.Nodup) :
    (t.note addresses slot version moment).seen addresses =
      (t.seen addresses).noteAlive slot version moment := by
  apply Array.ext_getElem?
  intro place
  rw [getElem?_seen, Roster.noteAlive, Array.getElem?_modify, getElem?_seen]
  unfold note
  split
  · rename_i address haddress
    by_cases hplace : slot = place
    · subst hplace
      have hlt := hwithin address (List.mem_of_getElem? haddress)
      simp [haddress, Roster.noteAlive, Array.getElem?_modify, hlt]
    · rw [if_neg hplace]
      cases hother : addresses[place]? with
      | none => rfl
      | some a =>
        have hne : address ≠ a := by
          rintro rfl
          obtain ⟨hslot, -⟩ := List.getElem?_eq_some_iff.1 haddress
          exact hplace ((List.getElem?_inj hslot honce).1 (haddress.trans hother.symm))
        simp [Roster.noteAlive, Array.getElem?_modify, hne]
  · rename_i hnone
    by_cases hplace : slot = place
    · subst hplace
      simp [hnone]
    · rw [if_neg hplace]

/-! ## Who has which slots -/

/-- Every holder has slots that there are, each once, and two holders have the same slots or none in
common. -/
structure Sound (t : Tables) : Prop where
  within : ∀ addresses ∈ t.held, ∀ address ∈ addresses, address < t.slots.size
  once : ∀ addresses ∈ t.held, addresses.Nodup
  apart : ∀ one ∈ t.held, ∀ other ∈ t.held, one = other ∨ one.Disjoint other

namespace Sound

theorem none : Sound {} where
  within := by simp
  once := by simp
  apart := by simp

theorem next_disjoint (h : t.Sound) (statuses : Roster) (hother : other ∈ t.held) :
    (t.next statuses).Disjoint other := by
  intro address hnext haddress
  have hold := h.within other hother address haddress
  have hnew := (List.mem_range'_1.1 hnext).1
  omega

theorem make (h : t.Sound) (statuses : Roster) : (t.make statuses).Sound where
  within := by
    intro addresses haddresses address haddress
    rw [Tables.make, Array.size_append]
    rcases List.mem_append.1 haddresses with hold | hnew
    · have := h.within addresses hold address haddress
      omega
    · cases List.mem_singleton.1 hnew
      exact (List.mem_range'_1.1 haddress).2
  once := by
    intro addresses haddresses
    rcases List.mem_append.1 haddresses with hold | hnew
    · exact h.once addresses hold
    · cases List.mem_singleton.1 hnew
      exact List.nodup_range'
  apart := by
    intro one hone other hother
    rcases List.mem_append.1 hone with hone | hone <;>
      rcases List.mem_append.1 hother with hother | hother
    · exact h.apart one hone other hother
    · cases List.mem_singleton.1 hother
      exact .inr (List.disjoint_symm (h.next_disjoint statuses hone))
    · cases List.mem_singleton.1 hone
      exact .inr (h.next_disjoint statuses hother)
    · rw [List.mem_singleton.1 hone, List.mem_singleton.1 hother]
      exact .inl rfl

theorem share (h : t.Sound) (haddresses : addresses ∈ t.held) :
    Sound { t with held := t.held ++ [addresses] } := by
  have hold : ∀ one ∈ t.held ++ [addresses], one ∈ t.held := by
    intro one hone
    rcases List.mem_append.1 hone with hone | hone
    · exact hone
    · rw [List.mem_singleton.1 hone]
      exact haddresses
  exact ⟨fun one hone => h.within one (hold one hone), fun one hone => h.once one (hold one hone),
    fun one hone other hother => h.apart one (hold one hone) other (hold other hother)⟩

theorem note (h : t.Sound) (addresses : List Nat) (slot : Nat) (version : String)
    (moment : Timestamp) : (t.note addresses slot version moment).Sound := by
  unfold Tables.note
  split
  · refine ⟨?_, h.once, h.apart⟩
    intro one hone address haddress
    rw [Roster.noteAlive, Array.size_modify]
    exact h.within one hone address haddress
  · exact h

theorem step {move : Move} (h : t.Sound) (hstep : t.step move = some later) : later.Sound := by
  cases move with
  | make statuses =>
    cases hstep
    exact h.make statuses
  | share holder =>
    obtain ⟨addresses, hheld, rfl⟩ := Option.map_eq_some_iff.1 hstep
    exact h.share (List.mem_of_getElem? hheld)
  | noteAlive holder slot version moment =>
    obtain ⟨addresses, -, rfl⟩ := Option.map_eq_some_iff.1 hstep
    exact h.note addresses slot version moment
  | renew holder names =>
    obtain ⟨addresses, -, rfl⟩ := Option.map_eq_some_iff.1 hstep
    exact h.make _

end Sound

/-! ## What is seen after a run -/

theorem held_note (t : Tables) (addresses : List Nat) (slot : Nat) (version : String)
    (moment : Timestamp) : (t.note addresses slot version moment).held = t.held := by
  unfold note
  split <;> rfl

theorem mem_held_step {move : Move} (hstep : t.step move = some later) (h : addresses ∈ t.held) :
    addresses ∈ later.held := by
  cases move with
  | make statuses =>
    cases hstep
    exact List.mem_append_left _ h
  | share holder =>
    obtain ⟨shared, -, rfl⟩ := Option.map_eq_some_iff.1 hstep
    exact List.mem_append_left _ h
  | noteAlive holder slot version moment =>
    obtain ⟨noted, -, rfl⟩ := Option.map_eq_some_iff.1 hstep
    rw [held_note]
    exact h
  | renew holder names =>
    obtain ⟨renewed, -, rfl⟩ := Option.map_eq_some_iff.1 hstep
    exact List.mem_append_left _ h

namespace Sound

/-- After one move a holder sees what he saw, with what was noted through a holder of his slots. -/
theorem seen_step {move : Move} (h : t.Sound) (hheld : addresses ∈ t.held)
    (hstep : t.step move = some later) :
    later.seen addresses = t.counted addresses (t.seen addresses) move := by
  cases move with
  | make statuses =>
    cases hstep
    exact seen_make (h.within addresses hheld) statuses
  | share holder =>
    obtain ⟨shared, -, rfl⟩ := Option.map_eq_some_iff.1 hstep
    rfl
  | noteAlive holder slot version moment =>
    obtain ⟨noted, hholder, rfl⟩ := Option.map_eq_some_iff.1 hstep
    rw [counted, hholder]
    by_cases hsame : noted = addresses
    · subst hsame
      rw [if_pos rfl]
      exact seen_note (h.within noted hheld) (h.once noted hheld)
    · rw [if_neg (by simpa using hsame)]
      exact seen_note_other
        ((h.apart noted (List.mem_of_getElem? hholder) addresses hheld).resolve_left hsame)
  | renew holder names =>
    obtain ⟨renewed, -, rfl⟩ := Option.map_eq_some_iff.1 hstep
    exact seen_make (h.within addresses hheld) _

/-- **Only his own holders change a table.** By induction on the moves: each keeps the slots apart
and lets everybody keep his own. -/
theorem seen_run {moves : List Move} (h : t.Sound) (hheld : addresses ∈ t.held)
    (hrun : runFrom Tables.step t moves = some later) :
    later.seen addresses = follow addresses t (t.seen addresses) moves := by
  induction moves generalizing t with
  | nil =>
    cases hrun
    rfl
  | cons move moves ih =>
    obtain ⟨between, hstep, hrest⟩ := runFrom_cons hrun
    rw [ih (h.step hstep) (mem_held_step hstep hheld) hrest, h.seen_step hheld hstep, follow, hstep]

end Sound

/-! ## Renewed tables -/

/-- **A renewed table stands apart.** Whoever has a table can renew it for any names. The new table
has each of the names once and in order, knows of each what the first slot of that name knew, is the
same for the same names in any order, and is renewed to itself. The tables that there were show what
they showed, and have no slot in common with it. Whatever is done from then on, each of the two
shows what it showed with what was noted through its own holders, and nothing else. -/
theorem renewal_stands_apart {before : List Move} (hreach : runFrom step {} before = some t)
    {holder : Nat} (hheld : t.held[holder]? = some addresses) (names : List String) :
    ∃ later fresh, t.step (.renew holder names) = some later ∧ later.held = t.held ++ [fresh] ∧
      later.seen fresh = (t.seen addresses).renewed names ∧
      (t.seen addresses).Renewal names (later.seen fresh) ∧
      (∀ other ∈ t.held, later.seen other = t.seen other ∧ fresh.Disjoint other) ∧
      ∀ moves last, runFrom step later moves = some last →
        last.seen addresses = follow addresses later (t.seen addresses) moves ∧
          last.seen fresh = follow fresh later ((t.seen addresses).renewed names) moves := by
  have hsound : t.Sound := runFrom_keeps (fun _ _ _ h hstep => h.step hstep) Sound.none hreach
  have hmem : addresses ∈ t.held := List.mem_of_getElem? hheld
  let renewed := (t.seen addresses).renewed names
  have hstep : t.step (.renew holder names) = some (t.make renewed) := by
    rw [step, hheld]
    rfl
  have hfresh : (t.make renewed).seen (t.next renewed) = renewed := t.seen_next renewed
  refine ⟨t.make renewed, t.next renewed, hstep, rfl, hfresh, ?_, ?_, ?_⟩
  · rw [hfresh]
    exact (t.seen addresses).renewal names
  · intro other hother
    exact ⟨seen_make (hsound.within other hother) renewed, hsound.next_disjoint renewed hother⟩
  · intro moves last hrun
    have hlater := hsound.make renewed
    have hold := hlater.seen_run (List.mem_append_left _ hmem) hrun
    have hnew := hlater.seen_run (List.mem_append_right _ (List.mem_singleton_self _)) hrun
    rw [seen_make (hsound.within addresses hmem)] at hold
    rw [hfresh] at hnew
    exact ⟨hold, hnew⟩

/-- A table with a name that stands twice is handed on, and renewed by the one who got it. Then a
peer answers in the old table, and another one in the new table. -/
theorem renewal_stands_apart_handed_on :
    let old : Roster := #[⟨"nas02", some "1.2", true, none⟩, { hostname := "nas01" },
      { hostname := "nas02" }]
    let t : Tables := ⟨old, [[0, 1, 2], [0, 1, 2]]⟩
    let moment : Timestamp := ⟨1700000000, 0⟩
    runFrom step {} [.make old, .share 0] = some t ∧
      ∃ later fresh last, t.step (.renew 1 ["nas03", "nas02", "nas02"]) = some later ∧
        runFrom step later [.noteAlive 0 0 "1.3" moment, .noteAlive 2 1 "0.9" moment] = some last ∧
        last.seen [0, 1, 2] = #[⟨"nas02", some "1.3", true, some moment⟩,
          { hostname := "nas01" }, { hostname := "nas02" }] ∧
        last.seen fresh = #[⟨"nas02", some "1.2", true, none⟩,
          ⟨"nas03", some "0.9", true, some moment⟩] := by
  intro old t moment
  have hreach : runFrom step {} [.make old, .share 0] = some t := rfl
  have hheld : t.held[1]? = some [0, 1, 2] := rfl
  have hrenewed : (t.seen [0, 1, 2]).renewed ["nas03", "nas02", "nas02"] =
      #[⟨"nas02", some "1.2", true, none⟩, { hostname := "nas03" }] := by
    rw [Roster.renewed_eq, Roster.inOrder_eq_insertionSort]
    decide +kernel
  obtain ⟨later, fresh, hstep, hgiven, -, -, -, hapart⟩ :=
    renewal_stands_apart hreach hheld ["nas03", "nas02", "nas02"]
  have hlater : later = t.make #[⟨"nas02", some "1.2", true, none⟩, { hostname := "nas03" }] := by
    rw [← hrenewed]
    exact (Option.some.inj hstep).symm
  subst hlater
  have hfresh : fresh = [3, 4] := by
    have hlast := List.append_cancel_left hgiven
    exact (List.singleton_inj.1 hlast).symm
  subst hfresh
  obtain ⟨hold, hnew⟩ := hapart [.noteAlive 0 0 "1.3" moment, .noteAlive 2 1 "0.9" moment] _ rfl
  rw [hrenewed] at hnew
  exact ⟨hreach, _, _, _, hstep, rfl, hold, hnew⟩

end Tables

end Switchboard
