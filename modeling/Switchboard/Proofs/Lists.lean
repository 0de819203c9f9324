import Switchboard.Instances

/-!
# Lists in which one place changes

Sums and counts over the members of a list of which one is changed, or of which each is bounded.
-/

namespace Switchboard.Lists

variable {α : Type} {l : List α} {i j : Nat} {a b : α}

/-- To do something to what stands at a place is to put the result there. -/
theorem modify_eq_set (h : l[i]? = some a) (f : α → α) : l.modify i f = l.set i (f a) := by
  apply List.ext_getElem?
  intro j
  obtain ⟨hi, -⟩ := List.getElem?_eq_some_iff.1 h
  rw [List.getElem?_modify, List.getElem?_set]
  by_cases hij : i = j
  · subst hij
    simp only [h, if_true, hi]
    rfl
  · simp only [hij, if_false]
    cases l[j]? <;> rfl

theorem set_same (h : l[i]? = some a) : l.set i a = l := by
  obtain ⟨hi, rfl⟩ := List.getElem?_eq_some_iff.1 h
  exact List.set_getElem_self hi

theorem getElem?_set_cases (h : (l.set i b)[j]? = some a) :
    j = i ∧ a = b ∨ j ≠ i ∧ l[j]? = some a := by
  rw [List.getElem?_set] at h
  by_cases hij : i = j
  · rw [if_pos hij] at h
    split at h
    · cases h
      exact .inl ⟨hij.symm, rfl⟩
    · cases h
  · rw [if_neg hij] at h
    exact .inr ⟨fun heq => hij heq.symm, h⟩

/-- What stands at a place stands there still, or was replaced. -/
theorem getElem?_set_of (h : l[j]? = some a) (i : Nat) (b : α) :
    j = i ∧ (l.set i b)[j]? = some b ∨ j ≠ i ∧ (l.set i b)[j]? = some a := by
  obtain ⟨hj, -⟩ := List.getElem?_eq_some_iff.1 h
  by_cases hij : j = i
  · subst hij
    exact .inl ⟨rfl, List.getElem?_set_self hj⟩
  · refine .inr ⟨hij, ?_⟩
    rw [List.getElem?_set_ne fun heq => hij heq.symm]
    exact h

theorem getElem?_concat_cases (h : (l ++ [b])[i]? = some a) :
    l[i]? = some a ∨ i = l.length ∧ a = b := by
  rw [List.getElem?_append] at h
  split at h
  · exact .inl h
  · rename_i hi
    obtain ⟨hlt, heq⟩ := List.getElem?_eq_some_iff.1 h
    rw [List.length_singleton] at hlt
    refine .inr ⟨by omega, ?_⟩
    simpa only [List.getElem_singleton] using heq.symm

theorem sum_map_set (h : l[i]? = some a) (f : α → Nat) :
    ((l.set i b).map f).sum + f a = (l.map f).sum + f b := by
  induction l generalizing i with
  | nil => cases h
  | cons c l ih =>
    cases i with
    | zero =>
      cases h
      simp only [List.set_cons_zero, List.map_cons, List.sum_cons]
      omega
    | succ i =>
      have hrest := ih h
      simp only [List.set_cons_succ, List.map_cons, List.sum_cons]
      omega

theorem countP_set (h : l[i]? = some a) (p : α → Bool) :
    (l.set i b).countP p + (p a).toNat = l.countP p + (p b).toNat := by
  induction l generalizing i with
  | nil => cases h
  | cons c l ih =>
    cases i with
    | zero =>
      cases h
      simp only [List.set_cons_zero, List.countP_cons]
      cases p a <;> cases p b <;> simp
    | succ i =>
      have hrest := ih h
      simp only [List.set_cons_succ, List.countP_cons]
      omega

theorem sum_map_le {f : α → Nat} {bound : Nat} (h : ∀ a ∈ l, f a ≤ bound) :
    (l.map f).sum ≤ l.length * bound := by
  induction l with
  | nil => exact Nat.zero_le _
  | cons a l ih =>
    have hrest := ih fun b hb => h b (List.mem_cons_of_mem _ hb)
    have hhead := h a (List.mem_cons_self ..)
    rw [List.map_cons, List.sum_cons, List.length_cons, Nat.succ_mul]
    omega

theorem map_range_getD (l : List α) (a : α) :
    (List.range l.length).map (fun i => l[i]?.getD a) = l := by
  apply List.ext_getElem
  · simp
  · intro i _ hi
    simp [List.getElem?_eq_getElem hi]

/-! ## What goes from one list to another -/

variable {first second third : List Nat}

theorem perm_to_first (h : i ∈ third) :
    (first ++ [i] ++ second ++ third.erase i).Perm (first ++ second ++ third) := by
  rw [List.append_assoc, List.append_assoc, List.append_assoc, List.singleton_append]
  have hback : (second ++ i :: third.erase i).Perm (second ++ third) :=
    (List.perm_cons_erase h).symm.append_left second
  exact .append_left first (List.perm_middle.symm.trans hback)

theorem perm_to_second (h : i ∈ third) :
    (first ++ (second ++ [i]) ++ third.erase i).Perm (first ++ second ++ third) := by
  rw [List.append_assoc, List.append_assoc, List.append_assoc]
  exact .append_left first (.append_left second (List.perm_cons_erase h).symm)

end Switchboard.Lists
