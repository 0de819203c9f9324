import Switchboard.Proofs.Registry.Grounds

/-!
# What an access does, and what is known before it

An access of a registry goes on from a kept fabric to a kept one (`Fabric.Kept.access`), and takes
an open session out in few ways only (`Fabric.left_access`).

Between the access at which somebody finds a session and the one at which he evicts it, anybody may
register another. `Access.Sound` is what carries over from the one to the other: whoever is still to
be evicted is closed, or is evicted by its own listener, which was cancelled. What follows from an
access is sound again (`Access.Sound.follow`), and so is what a guest does when it has heard
something (`Guest.Sound.heard`).
-/

namespace Switchboard

namespace Fabric

variable {f : Fabric} {key : String} {id : Nat}

/-! ## Accesses -/

/-- A new session is registered where none lives, or nothing happens. -/
theorem access_findOrAdd (f : Fabric) (key : String) (role : Role)
    (supplier : Except Fault String) (capacity : Nat) :
    f.access (.findOrAdd key role supplier capacity) = (f, []) ∨
    ∃ peerAddr, (∀ id, f.registry.find? key = some id → f.isClosed id = true) ∧
      f.access (.findOrAdd key role supplier capacity) =
        ({ (f.addSilent capacity (.start key peerAddr role)).2 with
          registry := (f.registry.insert key f.seats.size).2 },
          closings (f.registry.find? key)) := by
  rcases f.registry.findOrAdd_cases f.isClosed key (supplier.map fun _ => f.seats.size) with
    ⟨id, -, -, heq⟩ | ⟨hclosed, ⟨fault, hsupplier, heq⟩ | ⟨fresh, hsupplier, heq⟩⟩
  · exact .inl (by simp [access, heq, closings])
  · cases supplier with
    | error fault => exact .inl (by simp [access, heq, closings])
    | ok peerAddr => cases hsupplier
  · cases supplier with
    | error fault => cases hsupplier
    | ok peerAddr =>
      cases hsupplier
      exact .inr ⟨peerAddr, hclosed, by simp [access, heq]⟩

theorem becomes_access (f : Fabric) (a : Access) : f.Becomes (f.access a).1 := by
  cases a with
  | find key => exact .refl f
  | check key id => exact .refl f
  | tell key session? => exact .refl f
  | insert id =>
    simp only [access]
    split
    · exact .refl f
    · exact .of_seats rfl
  | findOrAdd key role supplier capacity =>
    rcases f.access_findOrAdd key role supplier capacity with heq | ⟨peerAddr, -, heq⟩
    · rw [heq]
      exact .refl f
    · rw [heq]
      exact .after ((becomes_addSession _ (.start key peerAddr role) _ _).trans (.of_seats rfl)) rfl
  | remove key => exact .of_seats rfl
  | weed key =>
    rcases f.lookup_effect key with heq | ⟨id, -, heq⟩ <;> simp only [access, heq]
    · exact .refl f
    · exact .of_seats rfl
  | removeAll => exact .refl f
  | act deed => exact f.becomes_perform deed

theorem Kept.access (h : f.Kept) (a : Access) : (f.access a).1.Kept := by
  have hbecomes := f.becomes_access a
  cases a with
  | find key => exact h
  | check key id => exact h
  | tell key session? => exact h
  | insert id =>
    cases hs : f.session? id with
    | none => simpa [Fabric.access, hs] using h
    | some s =>
      simp only [Fabric.access, hs] at hbecomes ⊢
      exact h.of_insert hbecomes rfl hs rfl
  | findOrAdd key role supplier capacity =>
    rcases f.access_findOrAdd key role supplier capacity with heq | ⟨peerAddr, -, heq⟩
    · rw [heq]
      exact h
    · rw [heq] at hbecomes ⊢
      refine h.of_insert hbecomes rfl (s := .start key peerAddr role) ?_ rfl
      have hnew := f.addSilent_session? (j := f.seats.size) capacity (.start key peerAddr role)
      rw [if_pos rfl] at hnew
      exact hnew
  | remove key => exact h.of_erase hbecomes rfl
  | weed key =>
    rcases f.lookup_effect key with heq | ⟨id, -, heq⟩
    · exact h.of_same hbecomes (by simp only [Fabric.access, heq])
    · have hregistry : (f.access (.weed key)).1.registry = f.registry.evict key id := by
        simp only [Fabric.access, heq]
      exact h.of_evict hbecomes hregistry
  | removeAll => exact h
  | act deed =>
    have hregistry := f.perform_registry deed
    cases deed with
    | evict key id => exact h.of_evict hbecomes hregistry
    | _ => exact h.of_same hbecomes hregistry

/-- How an access takes an open session out: another one is registered in its place, or it is
removed, and is to be closed next; or it is evicted. -/
theorem left_access (a : Access) (hin : f.registry.find? key = some id)
    (hout : (f.access a).1.registry.find? key ≠ some id) :
    ((∃ new s, a = .insert new ∧ f.session? new = some s ∧ s.key = key ∧ new ≠ id) ∨
      a = .remove key) ∧ (f.access a).2 = [.act (.close id)] ∨
    f.isClosed id = true ∨ a = .act (.evict key id) := by
  cases a with
  | find k => exact absurd hin hout
  | check k j => exact absurd hin hout
  | tell k session? => exact absurd hin hout
  | insert new =>
    cases hs : f.session? new with
    | none =>
      simp only [access, hs] at hout
      exact absurd hin hout
    | some s =>
      simp only [access, hs, Registry.find?_insert] at hout ⊢
      split at hout
      · rename_i hk
        subst hk
        refine .inl ⟨.inl ⟨new, s, rfl, hs, rfl, ?_⟩, ?_⟩
        · rintro rfl
          exact hout rfl
        · simp [Registry.insert, hin, closings]
      · exact absurd hin hout
  | findOrAdd k role supplier capacity =>
    rcases f.access_findOrAdd k role supplier capacity with heq | ⟨peerAddr, hclosed, heq⟩
    · rw [heq] at hout
      exact absurd hin hout
    · rw [heq] at hout
      simp only [Registry.find?_insert] at hout
      split at hout
      · rename_i hk
        subst hk
        exact .inr (.inl (hclosed id hin))
      · exact absurd hin hout
  | remove k =>
    have hfind := f.registry.find?_erase k key
    simp only [access, Registry.remove, hfind] at hout ⊢
    split at hout
    · rename_i hk
      subst hk
      exact .inl ⟨.inr rfl, by simp [hin, closings]⟩
    · exact absurd hin hout
  | weed k =>
    rcases f.lookup_effect k with heq | ⟨j, hclosed, heq⟩
    · simp only [access, heq] at hout
      exact absurd hin hout
    · simp only [access, heq, Registry.find?_evict] at hout
      split at hout
      · rename_i hj
        cases hin.symm.trans hj.2
        exact .inr (.inl hclosed)
      · exact absurd hin hout
  | removeAll => exact absurd hin hout
  | act deed =>
    simp only [access, f.perform_registry deed] at hout
    cases deed with
    | evict k j =>
      simp only [Registry.find?_evict] at hout
      split at hout
      · rename_i hj
        obtain ⟨rfl, hj⟩ := hj
        cases hin.symm.trans hj
        exact .inr (.inr rfl)
      · exact absurd hin hout
    | _ => exact absurd hin hout

end Fabric

/-! ## What is known -/

/-- What has to be known when an access is yet to be made for a task: that the session is there
which was found, and who has to be evicted is closed, unless it is the task's own and the listener
was cancelled. The serving of a session looks for nobody. -/
def Access.Sound (f : Fabric) (listening : Bool) (task : Task) : Access → Prop
  | .find _ => ∀ key id, ¬ task.Hosts key id
  | .check _ id => f.Has id ∧ ∀ key id, ¬ task.Hosts key id
  | .tell _ session? => (∀ id, session? = some id → f.Has id) ∧ ∀ key id, ¬ task.Hosts key id
  | .act (.evict key id) => f.IsShut id ∨ listening = false ∧ task.Hosts key id
  | _ => True

structure Guest.Sound (f : Fabric) (listening : Bool) (guest : Guest) : Prop where
  task : guest.task.Sound f
  todo : ∀ place, ∀ a ∈ guest.todo place, a.Sound f listening guest.task

/-- A guest whose next thing it was to close a session has still that before it. -/
def Guest.StillOwes (guest guest' : Guest) : Prop :=
  ∀ place id later, guest.todo place = .act (.close id) :: later →
    ∃ later', guest'.todo place = .act (.close id) :: later'

variable {f f' : Fabric} {listening listening' : Bool} {task task' : Task} {a : Access}
  {accesses later : List Access} {guest : Guest} {place now : Nat} {need : Need} {signal : Signal}

namespace Access

theorem Sound.mono (h : a.Sound f listening task) (hbecomes : f.Becomes f')
    (hlistening : listening = false → listening' = false)
    (hhosts : ∀ key id, task'.Hosts key id ↔ task.Hosts key id) :
    a.Sound f' listening' task' := by
  match a, h with
  | .find _, h => exact fun key id hhost => h key id ((hhosts key id).1 hhost)
  | .check _ id, h =>
    exact ⟨h.1.becomes hbecomes, fun key id hhost => h.2 key id ((hhosts key id).1 hhost)⟩
  | .tell _ session?, h =>
    exact ⟨fun id hid => (h.1 id hid).becomes hbecomes,
      fun key id hhost => h.2 key id ((hhosts key id).1 hhost)⟩
  | .act deed, h =>
    cases deed with
    | evict key id =>
      exact h.imp (fun hshut => hshut.becomes hbecomes)
        (fun hhost => ⟨hlistening hhost.1, (hhosts key id).2 hhost.2⟩)
    | _ => trivial
  | .insert _, _ | .findOrAdd .., _ | .remove _, _ | .weed _, _ | .removeAll, _ => trivial

theorem sound_of_isRequest (h : a.isRequest = true) (hhosts : ∀ key id, ¬ task.Hosts key id) :
    a.Sound f listening task := by
  match a, h with
  | .find _, _ => exact hhosts
  | .insert _, _ | .findOrAdd .., _ | .remove _, _ | .weed _, _ | .removeAll, _ => trivial
  | .act (.close _), _ => trivial

theorem sound_act {deed : Deed} (h : ∀ key id, deed = .evict key id →
    f.IsShut id ∨ listening = false ∧ task.Hosts key id) :
    (act deed).Sound f listening task := by
  cases deed with
  | evict key id => exact h key id rfl
  | _ => trivial

/-- What is found out by an access is known for those that follow from it. -/
theorem Sound.follow (h : a.Sound f listening task) (hf : f.Kept) :
    ∀ b ∈ (f.access a).2, b.Sound f listening task := by
  have hclosings : ∀ session?, ∀ b ∈ Fabric.closings session?, b.Sound f listening task := by
    intro session? b hb
    obtain ⟨id, -, rfl⟩ := List.mem_map.1 hb
    trivial
  intro b hb
  cases a with
  | find key =>
    simp only [Fabric.access] at hb
    cases hfound : f.registry.find? key with
    | none =>
      rw [hfound, List.mem_singleton] at hb
      subst hb
      exact ⟨by simp, h⟩
    | some id =>
      rw [hfound, List.mem_singleton] at hb
      subst hb
      obtain ⟨s, hs, -⟩ := hf.ownKey key id hfound
      exact ⟨⟨s, hs⟩, h⟩
  | check key id =>
    simp only [Fabric.access] at hb
    split at hb
    · rename_i hclosed
      simp only [List.mem_cons, List.not_mem_nil, or_false] at hb
      rcases hb with rfl | rfl
      · exact .inl ⟨h.1, hclosed⟩
      · exact ⟨by simp, h.2⟩
    · rw [List.mem_singleton] at hb
      subst hb
      refine ⟨?_, h.2⟩
      rintro id' hid
      cases hid
      exact h.1
  | insert id =>
    simp only [Fabric.access] at hb
    cases hs : f.session? id with
    | none =>
      rw [hs] at hb
      cases hb
    | some s =>
      rw [hs] at hb
      exact hclosings _ b hb
  | findOrAdd key role supplier capacity => exact hclosings _ b hb
  | remove key => exact hclosings _ b hb
  | removeAll =>
    obtain ⟨key, -, rfl⟩ := List.mem_map.1 hb
    trivial
  | _ => cases hb

end Access

namespace Guest

theorem Sound.mono (h : guest.Sound f listening) (hbecomes : f.Becomes f')
    (hlistening : listening = false → listening' = false) : guest.Sound f' listening' where
  task := h.task.becomes hbecomes
  todo place a ha := (h.todo place a ha).mono hbecomes hlistening fun _ _ => Iff.rfl

theorem Sound.plan (h : guest.Sound f listening) (htask : task.Sound f)
    (hhosts : ∀ key id, task.Hosts key id ↔ guest.task.Hosts key id)
    (hplan : ∀ a ∈ accesses, a.Sound f listening task) :
    (Guest.plan { guest with task } place accesses).Sound f listening := by
  refine ⟨htask, ?_⟩
  intro p a ha
  simp only [Guest.plan] at ha
  split at ha
  · exact hplan a ha
  · exact (h.todo p a ha).mono (.refl f) id hhosts

/-- A guest that has heard something, and evicts nobody because of it but who is closed. -/
theorem Sound.heard (h : guest.Sound f listening)
    (hpeer : ∀ id, signal = .peer (some id) → f.Has id)
    (hevict : ∀ key id, Deed.evict key id ∈ (guest.task.hear now place need signal).2 → f.IsShut id)
    (hlater : ∀ a ∈ later, a.Sound f listening guest.task) :
    (Guest.plan { guest with task := (guest.task.hear now place need signal).1 } place
      ((guest.task.hear now place need signal).2.map Access.act ++ later)).Sound f listening := by
  refine h.plan (h.task.hear hpeer) (fun _ _ => Task.hosts_hear) ?_
  intro a ha
  rcases List.mem_append.1 ha with hdeed | hrest
  · obtain ⟨deed, hmem, rfl⟩ := List.mem_map.1 hdeed
    refine Access.sound_act ?_
    rintro key id rfl
    exact .inl (hevict key id hmem)
  · exact (hlater a hrest).mono (.refl f) id fun _ _ => Task.hosts_hear

theorem sound_only (htask : task.Sound f) (h : ∀ a ∈ accesses, a.Sound f listening task) :
    Guest.Sound f listening ⟨task, Guest.only place accesses⟩ := by
  refine ⟨htask, ?_⟩
  intro p a ha
  simp only [Guest.only] at ha
  split at ha
  · exact h a ha
  · cases ha

/-- Who turns to something else had nothing to close next for that part. -/
theorem stillOwes_plan (h : ∀ id later, guest.todo place ≠ .act (.close id) :: later) :
    guest.StillOwes (Guest.plan { guest with task } place accesses) := by
  intro p id later hp
  refine ⟨later, ?_⟩
  simp only [Guest.plan]
  split
  · rename_i heq
    subst heq
    exact absurd hp (h id later)
  · exact hp

end Guest

end Switchboard
