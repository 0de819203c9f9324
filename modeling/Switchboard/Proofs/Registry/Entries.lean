import Switchboard.Registry

/-!
# The entries of a registry

Each operation of a registry is described by the entry that a key has after it (`find?_erase`,
`find?_insert`, `find?_evict`, `find?_prune`), and leaves every key with at most one entry
(`OnePerKey`). So an entry that an operation does not name is the same before and after.
-/

namespace Switchboard.Registry

def OnePerKey (r : Registry) : Prop :=
  (r.entries.map Prod.fst).Nodup

variable {r : Registry} {key k : String} {id j : Nat} {isClosed : Nat → Bool}

/-! ## Finding -/

theorem mem_of_find? (h : r.find? key = some id) : (key, id) ∈ r.entries := by
  obtain ⟨before, after, heq, -⟩ := List.lookup_eq_some_iff.1 h
  simp [heq]

theorem find?_of_mem (hr : r.OnePerKey) (h : (key, id) ∈ r.entries) : r.find? key = some id := by
  obtain ⟨entries⟩ := r
  simp only [OnePerKey, find?] at hr h ⊢
  induction entries with
  | nil => cases h
  | cons entry entries ih =>
    obtain ⟨k, j⟩ := entry
    simp only [List.map_cons, List.nodup_cons] at hr
    rcases List.mem_cons.1 h with heq | hmem
    · cases heq
      simp
    · have hne : key ≠ k := by
        intro heq
        subst heq
        exact hr.1 (List.mem_map_of_mem hmem)
      simpa [List.lookup_cons, beq_eq_false_iff_ne.2 hne] using ih hr.2 hmem

theorem find?_eq_some_iff (hr : r.OnePerKey) : r.find? key = some id ↔ (key, id) ∈ r.entries :=
  ⟨mem_of_find?, find?_of_mem hr⟩

/-! ## One entry per key -/

theorem onePerKey_empty : OnePerKey {} :=
  List.nodup_nil

theorem OnePerKey.filter (hr : r.OnePerKey) (p : String × Nat → Bool) :
    OnePerKey ⟨r.entries.filter p⟩ :=
  List.Nodup.sublist (List.filter_sublist.map _) hr

theorem OnePerKey.insert (hr : r.OnePerKey) (key : String) (id : Nat) :
    (r.insert key id).2.OnePerKey := by
  have hrest : (r.erase key).OnePerKey := hr.filter _
  simp only [OnePerKey, Registry.insert, List.map_append, List.map_cons, List.map_nil]
  rw [List.nodup_append]
  refine ⟨hrest, by simp, ?_⟩
  intro a ha b hb
  obtain ⟨entry, hentry, rfl⟩ := List.mem_map.1 ha
  obtain rfl := List.mem_singleton.1 hb
  simpa [erase] using (List.mem_filter.1 hentry).2

theorem OnePerKey.evict (hr : r.OnePerKey) (key : String) (id : Nat) :
    (r.evict key id).OnePerKey := by
  unfold Registry.evict
  split
  · exact hr.filter _
  · exact hr

/-! ## What an operation makes of an entry -/

theorem find?_erase (r : Registry) (key k : String) :
    (r.erase key).find? k = if k = key then none else r.find? k := by
  obtain ⟨entries⟩ := r
  simp only [erase, find?]
  induction entries with
  | nil => simp
  | cons entry entries ih =>
    obtain ⟨a, j⟩ := entry
    by_cases ha : a = key
    · subst ha
      by_cases hk : k = a
      · simpa [hk] using ih
      · simpa [hk, List.lookup_cons, beq_eq_false_iff_ne.2 hk] using ih
    · by_cases hk : k = a
      · subst hk
        simp [ha]
      · simpa [ha, List.lookup_cons, beq_eq_false_iff_ne.2 hk] using ih

theorem find?_insert (r : Registry) (key k : String) (id : Nat) :
    (r.insert key id).2.find? k = if k = key then some id else r.find? k := by
  have herase := r.find?_erase key k
  simp only [find?] at herase
  simp only [insert, find?, List.lookup_append, herase]
  by_cases hk : k = key
  · simp [hk]
  · simp [hk, List.lookup_cons, beq_eq_false_iff_ne.2 hk]

theorem find?_evict (r : Registry) (key k : String) (id : Nat) :
    (r.evict key id).find? k = if k = key ∧ r.find? k = some id then none else r.find? k := by
  unfold evict
  by_cases hid : r.find? key = some id
  · rw [if_pos hid, find?_erase]
    by_cases hk : k = key
    · subst hk
      simp [hid]
    · simp [hk]
  · rw [if_neg hid, if_neg]
    rintro ⟨rfl, hfound⟩
    exact hid hfound

theorem find?_prune (hr : r.OnePerKey) :
    (r.prune isClosed).2.find? k = some id ↔ r.find? k = some id ∧ isClosed id = false := by
  have hpruned : (r.prune isClosed).2.OnePerKey := hr.filter _
  rw [find?_eq_some_iff hpruned, find?_eq_some_iff hr]
  simp [prune]

/-! ## What an operation gives back -/

theorem prune_fst (r : Registry) :
    (r.prune isClosed).1 = (r.entries.filter fun entry => isClosed entry.2).length := by
  have hsum := List.length_eq_countP_add_countP (fun entry : String × Nat => isClosed entry.2)
    (l := r.entries)
  simp only [List.countP_eq_length_filter, Bool.not_eq_true, Bool.decide_eq_false] at hsum
  simp only [prune]
  omega

/-- A look under a key finds the session there, unless that is closed; then it is taken out. -/
theorem get_eq (r : Registry) (isClosed : Nat → Bool) (key : String) :
    r.get isClosed key = ((r.find? key).filter fun id => !isClosed id,
      match (r.find? key).filter isClosed with
      | some id => r.evict key id
      | none => r) := by
  unfold get
  cases r.find? key with
  | none => rfl
  | some id => cases hclosed : isClosed id <;> simp [Option.filter, hclosed]

theorem get_snd (hr : r.OnePerKey) (isClosed : Nat → Bool) (key : String) :
    (r.get isClosed key).2 =
      ⟨r.entries.filter fun entry => !(entry.1 == key && isClosed entry.2)⟩ := by
  have hentry : ∀ entry ∈ r.entries, entry.1 = key → r.find? key = some entry.2 := by
    rintro ⟨k, id⟩ hmem rfl
    exact find?_of_mem hr hmem
  rw [get_eq]
  cases hfound : (r.find? key).filter isClosed with
  | none =>
    have hkept : r.entries.filter (fun entry => !(entry.1 == key && isClosed entry.2)) =
        r.entries := by
      refine List.filter_eq_self.2 ?_
      intro entry hmem
      by_cases hkey : entry.1 = key
      · have hlive := Option.filter_eq_none_iff.1 hfound entry.2 (hentry entry hmem hkey)
        simp [hlive]
      · simp [hkey]
    rw [hkept]
  | some id =>
    obtain ⟨hid, hclosed⟩ := Option.filter_eq_some_iff.1 hfound
    simp only [evict, if_pos hid, erase]
    congr 1
    refine List.filter_congr ?_
    intro entry hmem
    by_cases hkey : entry.1 = key
    · cases (hentry entry hmem hkey).symm.trans hid
      simp [hkey, hclosed]
    · simp [hkey]

/-- A live session is given, or a new one takes the place of what is there, or nothing happens. -/
theorem findOrAdd_cases (r : Registry) (isClosed : Nat → Bool) (key : String)
    (supplier : Except Fault Nat) :
    (∃ id, r.find? key = some id ∧ isClosed id = false ∧
      r.findOrAdd isClosed key supplier = ⟨.ok id, r, false, none⟩) ∨
    (∀ id, r.find? key = some id → isClosed id = true) ∧
      ((∃ fault, supplier = .error fault ∧
        r.findOrAdd isClosed key supplier = ⟨.error fault, r, true, none⟩) ∨
      ∃ fresh, supplier = .ok fresh ∧ r.findOrAdd isClosed key supplier =
        ⟨.ok fresh, (r.insert key fresh).2, true, r.find? key⟩) := by
  unfold findOrAdd
  cases hfound : r.find? key with
  | none =>
    refine .inr ⟨by simp, ?_⟩
    cases supplier with
    | error fault => exact .inl ⟨fault, rfl, rfl⟩
    | ok fresh => exact .inr ⟨fresh, rfl, rfl⟩
  | some id =>
    cases hclosed : isClosed id with
    | false => exact .inl ⟨id, rfl, hclosed, by simp [hclosed]⟩
    | true =>
      refine .inr ⟨fun j h => Option.some.inj h ▸ hclosed, ?_⟩
      cases supplier with
      | error fault => exact .inl ⟨fault, rfl, by simp [hclosed]⟩
      | ok fresh => exact .inr ⟨fresh, rfl, by simp [hclosed]⟩

end Switchboard.Registry
