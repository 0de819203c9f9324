import Mathlib.Data.List.Nodup
import Mathlib.Data.List.Sort
import Mathlib.Data.String.Basic
import Switchboard.Proofs.Poller.Report
import Switchboard.Registry

/-!
# Tables for other peers

A table is renewed for some names: they are put in order, each once, and a name that the table knew
keeps what was known of it. So the names of a renewed table are strictly increasing
(`inOrder_increasing`) and are those that were given (`mem_inOrder`), and each of its slots is the
one that the old table had for that name, or a fresh one (`renewed_slot`). `Renewal` says all of
this of a table, and that it depends on nothing but which names were given.
-/

namespace Switchboard

namespace Roster

variable {names others : List String} {name : String} {table : Roster}

/-! ## Names in order -/

theorem mem_withoutRepeats : name ∈ withoutRepeats names ↔ name ∈ names := by
  fun_induction withoutRepeats names with
  | case1 => rfl
  | case2 => rfl
  | case3 a rest ih => rw [ih, List.mem_cons, List.mem_cons, List.mem_cons]; tauto
  | case4 a b rest hne ih => rw [List.mem_cons, ih, ← List.mem_cons]

/-- Among names in order, those that are equal stand next to each other. -/
theorem withoutRepeats_increasing (h : names.Pairwise (· ≤ ·)) :
    (withoutRepeats names).Pairwise (· < ·) := by
  fun_induction withoutRepeats names with
  | case1 => exact .nil
  | case2 name => exact List.pairwise_singleton ..
  | case3 a rest ih => exact ih h.tail
  | case4 a b rest hne ih =>
    refine List.pairwise_cons.2 ⟨fun c hc => ?_, ih h.tail⟩
    have hle : ∀ c ∈ b :: rest, a ≤ c := (List.pairwise_cons.1 h).1
    have hb : a < b := lt_of_le_of_ne (hle b List.mem_cons_self) hne
    rcases List.mem_cons.1 (mem_withoutRepeats.1 hc) with rfl | hc
    · exact hb
    · exact lt_of_lt_of_le hb ((List.pairwise_cons.1 h.tail).1 c hc)

theorem mem_inOrder : name ∈ inOrder names ↔ name ∈ names := by
  rw [inOrder, mem_withoutRepeats, List.mem_mergeSort]

/-- Names are put in order as by insertion, which can be evaluated. -/
theorem inOrder_eq_insertionSort (names : List String) :
    inOrder names = withoutRepeats (names.insertionSort (· ≤ ·)) := by
  rw [inOrder, ← List.mergeSort_eq_insertionSort]

theorem inOrder_increasing (names : List String) : (inOrder names).Pairwise (· < ·) := by
  rw [inOrder_eq_insertionSort]
  exact withoutRepeats_increasing (List.pairwise_insertionSort (· ≤ ·) names)

theorem nodup_inOrder (names : List String) : (inOrder names).Nodup :=
  (inOrder_increasing names).imp fun hlt => ne_of_lt hlt

/-! ## Renewed tables -/

def hostnames (table : Roster) : List String :=
  table.toList.map (·.hostname)

theorem hostnames_notes (table : Roster) (moment : Timestamp) (visits : List Visit) :
    (visits.foldl (note moment) table).hostnames = table.hostnames := by
  apply List.ext_getElem?
  intro slot
  simp only [hostnames, List.getElem?_map, Array.getElem?_toList]
  exact hostname_notes table moment visits slot

/-- What a table knows of a peer: the first slot of its name, or nothing. -/
def known (table : Roster) (name : String) : PeerState :=
  (table.toList.find? (·.hostname = name)).getD { hostname := name }

theorem renewed_eq (table : Roster) (names : List String) :
    table.renewed names = ((inOrder names).map table.known).toArray :=
  rfl

theorem hostname_known (table : Roster) (name : String) : (table.known name).hostname = name := by
  unfold known
  cases hfind : table.toList.find? (·.hostname = name) with
  | none => rfl
  | some status => simpa using List.find?_some hfind

/-- The names of a renewed table are those that were given, in order and each once. -/
theorem hostnames_renewed (table : Roster) (names : List String) :
    (table.renewed names).hostnames = inOrder names := by
  rw [hostnames, renewed_eq, List.map_map]
  exact (List.map_congr_left fun name _ => table.hostname_known name).trans (List.map_id _)

/-- Each slot of a renewed table is what the old one knew of its peer. -/
theorem renewed_slot {slot : Nat} {status : PeerState}
    (h : (table.renewed names)[slot]? = some status) : status = table.known status.hostname := by
  rw [renewed_eq, List.getElem?_toArray, List.getElem?_map] at h
  obtain ⟨name, -, rfl⟩ := Option.map_eq_some_iff.1 h
  rw [hostname_known]

theorem known_of_mem (hdistinct : table.hostnames.Nodup) {status : PeerState}
    (h : status ∈ table.toList) : table.known status.hostname = status := by
  unfold known
  cases hfind : table.toList.find? (·.hostname = status.hostname) with
  | none =>
    have hother := List.find?_eq_none.1 hfind status h
    simp at hother
  | some found =>
    exact List.inj_on_of_nodup_map hdistinct (List.mem_of_find?_eq_some hfind) h
      (by simpa using List.find?_some hfind)

theorem known_of_not_mem (h : name ∉ table.hostnames) :
    table.known name = { hostname := name } := by
  have hnone : table.toList.find? (·.hostname = name) = none := by
    refine List.find?_eq_none.2 fun status hstatus hname => h ?_
    exact List.mem_map.2 ⟨status, hstatus, by simpa using hname⟩
  rw [known, hnone]
  rfl

/-! ## What a renewed table is -/

def IsFirst (table : Roster) (status : PeerState) : Prop :=
  ∃ slot : Nat, table[slot]? = some status ∧
    ∀ earlier < slot, ∀ before, table[earlier]? = some before → before.hostname ≠ status.hostname

/-- Names in order depend on which names there are, and on nothing else. -/
theorem inOrder_congr (h : ∀ name, name ∈ others ↔ name ∈ names) :
    inOrder others = inOrder names := by
  have hperm : (inOrder others).Perm (inOrder names) := by
    rw [List.perm_ext_iff_of_nodup (nodup_inOrder others) (nodup_inOrder names)]
    intro name
    rw [mem_inOrder, mem_inOrder]
    exact h name
  exact hperm.eq_of_pairwise (fun a b _ _ hab hba => absurd (lt_trans hab hba) (lt_irrefl a))
    (inOrder_increasing others) (inOrder_increasing names)

/-- A peer is known by the first slot of its name, or not at all. -/
theorem known_isFirst (table : Roster) (name : String) :
    table.IsFirst (table.known name) ∨
      name ∉ table.hostnames ∧ table.known name = { hostname := name } := by
  by_cases hname : name ∈ table.hostnames
  · left
    unfold known
    cases hfind : table.toList.find? (·.hostname = name) with
    | none =>
      obtain ⟨status, hstatus, hsame⟩ := List.mem_map.1 hname
      have := List.find?_eq_none.1 hfind status hstatus
      simp [hsame] at this
    | some status =>
      obtain ⟨hsame, slot, hslot, hget, hbefore⟩ := List.find?_eq_some_iff_getElem.1 hfind
      refine ⟨slot, ?_, ?_⟩
      · rw [← Array.getElem?_toList, List.getElem?_eq_getElem hslot, hget]
        rfl
      · intro earlier hearlier before hget
        rw [← Array.getElem?_toList, List.getElem?_eq_getElem (by omega)] at hget
        cases hget
        have hother := hbefore earlier hearlier
        simp only [decide_eq_true_eq] at hsame
        simpa [hsame] using hother
  · exact .inr ⟨hname, known_of_not_mem hname⟩

/-- What a renewed table knows of its peers is what the old one knew. -/
theorem known_renewed (h : name ∈ names) :
    (table.renewed names).known name = table.known name := by
  have hdistinct : (table.renewed names).hostnames.Nodup := by
    rw [hostnames_renewed]
    exact nodup_inOrder names
  have hmem : table.known name ∈ (table.renewed names).toList := by
    rw [renewed_eq]
    exact List.mem_map_of_mem (mem_inOrder.2 h)
  have hknown := known_of_mem hdistinct hmem
  rwa [hostname_known] at hknown

/-- What a table is when it was made of another one for some names. -/
structure Renewal (table : Roster) (names : List String) (renewed : Roster) : Prop where
  increasing : renewed.hostnames.Pairwise (· < ·)
  named : ∀ name, name ∈ renewed.hostnames ↔ name ∈ names
  /-- Each slot is the first of its name in the old table, or a fresh one. -/
  kept : ∀ (slot : Nat) (status : PeerState), renewed[slot]? = some status →
    table.IsFirst status ∨
      status.hostname ∉ table.hostnames ∧ status = { hostname := status.hostname }
  /-- Neither the order nor the repetition of the names matters. -/
  anyOrder : ∀ others, (∀ name, name ∈ others ↔ name ∈ names) → table.renewed others = renewed
  again : renewed.renewed names = renewed

theorem renewal (table : Roster) (names : List String) :
    table.Renewal names (table.renewed names) where
  increasing := by
    rw [hostnames_renewed]
    exact inOrder_increasing names
  named := by
    intro name
    rw [hostnames_renewed]
    exact mem_inOrder
  kept := by
    intro slot status hslot
    have hstatus := renewed_slot hslot
    rw [hstatus, hostname_known]
    exact table.known_isFirst status.hostname
  anyOrder := by
    intro others hothers
    rw [renewed_eq, renewed_eq, inOrder_congr hothers]
  again := by
    rw [renewed_eq _ names, renewed_eq]
    congr 1
    apply List.map_congr_left
    intro name hname
    exact known_renewed (mem_inOrder.1 hname)

end Roster

namespace Registry

/-- The keys of a registry are those under which something is registered. -/
theorem keys_eq_insertionSort (r : Registry) :
    r.keys = (r.entries.map Prod.fst).insertionSort (· ≤ ·) := by
  rw [keys, ← List.mergeSort_eq_insertionSort]

theorem mem_keys {r : Registry} {key : String} : key ∈ r.keys ↔ (r.find? key).isSome = true := by
  rw [keys, List.mem_mergeSort, List.mem_map, find?, List.lookup_isSome_iff]
  constructor
  · rintro ⟨entry, hentry, rfl⟩
    exact ⟨entry, hentry, beq_self_eq_true _⟩
  · rintro ⟨entry, hentry, hkey⟩
    exact ⟨entry, hentry, (eq_of_beq hkey).symm⟩

end Registry

end Switchboard
