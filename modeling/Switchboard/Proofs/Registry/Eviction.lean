import Switchboard.Proofs.Registry.Accesses

/-!
# Who leaves a registry in common use

`Concourse.Change` lists what a move can do to a concourse. A change keeps what is known of
everybody (`Change.sound`), and by it an open session leaves the registry only in the ways that
`live_sessions_stay` names.
-/

namespace Switchboard.Concourse

/-! ## States -/

structure Sound (t : Concourse) : Prop where
  kept : t.fabric.Kept
  guests : ∀ guest ∈ t.guests, guest.Sound t.fabric t.listening

/-- The very next thing that somebody does for one of its parts is to close a session. -/
def Owes (id : Nat) (t : Concourse) : Prop :=
  ∃ (i : Nat) (guest : Guest) (place : Nat) (later : List Access),
    t.guests[i]? = some guest ∧ guest.todo place = .act (.close id) :: later

def IsOver (id : Nat) (t : Concourse) : Prop :=
  t.fabric.Has id ∧ (t.fabric.isClosed id = true ∨ t.Owes id)

def Makes (t : Concourse) (move : Move) (guest : Guest) (a : Access) : Prop :=
  ∃ (i place : Nat) (later : List Access), move = .go i place ∧ t.guests[i]? = some guest ∧
    guest.todo place = a :: later

/-- A move registers another session in the place of one. -/
def Replaces (t : Concourse) (move : Move) (key : String) (id : Nat) : Prop :=
  ∃ guest new s, t.Makes move guest (.insert new) ∧ t.fabric.session? new = some s ∧ s.key = key ∧
    new ≠ id

def Removes (t : Concourse) (move : Move) (key : String) : Prop :=
  ∃ guest, t.Makes move guest (.remove key)

/-- By a move, the listener takes a session out that it has served, having been cancelled. -/
def Dismisses (t : Concourse) (move : Move) (key : String) (id : Nat) : Prop :=
  t.listening = false ∧
    ∃ guest, t.Makes move guest (.act (.evict key id)) ∧ guest.task.Hosts key id

variable {t t' : Concourse} {move : Move} {guest : Guest} {a : Access} {later : List Access}
  {key : String} {id i place : Nat}

/-! ## What a move can do -/

inductive Change (t : Concourse) (move : Move) : Concourse → Prop where
  /-- Somebody joins. -/
  | joins {fabric : Fabric} {guest : Guest} (hregistry : fabric.registry = t.fabric.registry)
      (hbecomes : t.fabric.Becomes fabric) (hguest : guest.Sound fabric t.listening) :
      Change t move ({ t with fabric }.join guest)
  /-- A guest makes an access, and then has those to make that follow from it. -/
  | makes {i place : Nat} {guest : Guest} {a : Access} {later : List Access}
      (hmove : move = .go i place) (hguest : t.guests[i]? = some guest)
      (htodo : guest.todo place = a :: later) :
      Change t move ({ t with fabric := (t.fabric.access a).1 }.put i
        (guest.plan place ((t.fabric.access a).2 ++ later)))
  /-- A guest turns to other things. -/
  | turns {fabric : Fabric} {i : Nat} {guest guest' : Guest} (hguest : t.guests[i]? = some guest)
      (hregistry : fabric.registry = t.fabric.registry) (hbecomes : t.fabric.Becomes fabric)
      (hsound : guest'.Sound fabric t.listening) (howes : guest.StillOwes guest') :
      Change t move ({ t with fabric }.put i guest')
  /-- It is none of the guests'. -/
  | passes {fabric : Fabric} {listening : Bool} (hregistry : fabric.registry = t.fabric.registry)
      (hbecomes : t.fabric.Becomes fabric) (hlistening : t.listening = false → listening = false) :
      Change t move { t with fabric, listening }

theorem change_go (h : t.Sound) (hguest : t.guests[i]? = some guest)
    (hgo : t.go i place guest = some t') : t.Change (.go i place) t' := by
  have hsound := h.guests guest (List.mem_of_getElem? hguest)
  cases htodo : guest.todo place with
  | nil => simp [go, htodo] at hgo
  | cons a later =>
    -- Only who has found out is told something; every other access is made as it is.
    by_cases htell : ∃ key session?, a = .tell key session?
    · obtain ⟨key, session?, rfl⟩ := htell
      simp only [go, htodo, Option.some.injEq] at hgo
      subst hgo
      obtain ⟨hhas, hhosts⟩ := hsound.todo place _ (htodo ▸ List.mem_cons_self)
      refine .turns hguest rfl (.refl _) (hsound.heard ?_ ?_ ?_) (Guest.stillOwes_plan ?_)
      · rintro id heq
        cases heq
        exact hhas id rfl
      · intro key' id hevict
        exact absurd hevict (hsound.task.evict_not_mem hhosts session? key)
      · intro b hb
        exact hsound.todo place b (htodo ▸ List.mem_cons_of_mem _ hb)
      · simp [htodo]
    · have hmakes : t' = { t with fabric := (t.fabric.access a).1 }.put i
          (guest.plan place ((t.fabric.access a).2 ++ later)) := by
        unfold go at hgo
        rw [htodo] at hgo
        cases a <;> first | exact (Option.some.inj hgo).symm | exact absurd ⟨_, _, rfl⟩ htell
      subst hmakes
      exact .makes rfl hguest htodo

theorem change_hear {need : Need} (h : t.Sound) (hguest : t.guests[i]? = some guest)
    (hneed : (place, need) ∈ guest.task.needs) (hhear : t.hear i place need guest = some t') :
    t.Change move t' := by
  have hsound := h.guests guest (List.mem_of_getElem? hguest)
  unfold hear at hhear
  split at hhear
  · rename_i hempty
    have htodo := List.isEmpty_iff.1 hempty
    have howes : ∀ id later, guest.todo place ≠ .act (.close id) :: later := by simp [htodo]
    split at hhear
    · rename_i key
      cases hhear
      refine .turns hguest rfl (.refl _) (hsound.plan hsound.task (fun _ _ => Iff.rfl) ?_)
        (Guest.stillOwes_plan howes)
      intro a ha
      rw [List.mem_singleton] at ha
      subst ha
      exact fun _ _ => Task.not_hosts_of_peer hneed
    · rename_i hpeer
      split at hhear
      · rename_i signal fabric hmeet
        cases hhear
        have hfabric : (t.fabric.meet need).2 = fabric := by rw [hmeet]
        have hsignal : (t.fabric.meet need).1 = some signal := by rw [hmeet]
        have hbecomes : t.fabric.Becomes fabric := hfabric ▸ t.fabric.becomes_meet need
        refine .turns hguest ?_ hbecomes ((hsound.mono hbecomes id).heard ?_ ?_ (by simp))
          (Guest.stillOwes_plan howes)
        · rw [← hfabric, Fabric.meet_registry]
          cases need <;> first | rfl | exact absurd rfl (hpeer _)
        · rintro id rfl
          obtain ⟨key, rfl⟩ := Fabric.meet_peer hsignal
          exact absurd rfl (hpeer key)
        · intro key id hevict
          exact (hsound.task.isShut h.kept.sound hneed hsignal hevict).becomes hbecomes
      · cases hhear
  · cases hhear

/-- The serving of a session is stopped only after the listener was cancelled, and has nothing else
to do then. -/
theorem stop_hosting {host : Hosting} (htask : guest.task = .hosting host)
    (hstop : t.stop i guest = some t') :
    t.listening = false ∧ guest.todo 0 = [] ∧ t' = t.put i (Guest.plan
      { guest with task := .hosting { host with serving := { host.serving with stage := .done } } }
      0 (host.release.map Access.act)) := by
  simp only [stop, htask, Option.ite_none_left_eq_some, Bool.or_eq_true, Bool.not_eq_true',
    decide_eq_true_eq, not_or, Bool.not_eq_true, Bool.not_eq_false, Option.some.injEq] at hstop
  obtain ⟨⟨⟨hlistening, hempty⟩, -⟩, rfl⟩ := hstop
  exact ⟨hlistening, List.isEmpty_iff.1 hempty, rfl⟩

/-- Any other task lets go of what it holds once it has nothing else to do. -/
theorem stop_other (htask : ∀ host, guest.task ≠ .hosting host)
    (hstop : t.stop i guest = some t') :
    t' = t.put i (Guest.plan { guest with task := .errand (.done .pending) } 0
      (guest.todo 0 ++ guest.task.release.map Access.act)) := by
  unfold stop at hstop
  split at hstop
  · rename_i host heq
    exact absurd heq (htask host)
  · exact (Option.some.inj hstop).symm

theorem change_stop (h : t.Sound) (hguest : t.guests[i]? = some guest)
    (hstop : t.stop i guest = some t') : t.Change move t' := by
  have hsound := h.guests guest (List.mem_of_getElem? hguest)
  by_cases hhosting : ∃ host, guest.task = .hosting host
  · obtain ⟨host, htask⟩ := hhosting
    obtain ⟨hlistening, hempty, rfl⟩ := stop_hosting htask hstop
    have hhas : t.fabric.Has host.serving.session := by
      have hknown := hsound.task
      rw [htask] at hknown
      cases hknown with
      | hosting hhas => exact hhas
    refine .turns hguest rfl (.refl _) (hsound.plan (.hosting hhas) ?_ ?_)
      (Guest.stillOwes_plan (by simp [hempty]))
    · intro key id
      rw [htask]
      exact Iff.rfl
    · intro a ha
      obtain ⟨deed, hdeed, rfl⟩ := List.mem_map.1 ha
      refine Access.sound_act ?_
      rintro key id rfl
      obtain ⟨rfl, rfl⟩ := Hosting.evict_of_release hdeed
      exact .inr ⟨hlistening, rfl, rfl⟩
  · obtain rfl := stop_other (fun host heq => hhosting ⟨host, heq⟩) hstop
    have hhosts : ∀ key id, ¬ guest.task.Hosts key id := by
      intro key id hhosts
      cases htask : guest.task with
      | hosting host => exact hhosting ⟨host, htask⟩
      | _ =>
        rw [htask] at hhosts
        exact hhosts
    have hnobody : ∀ key id, Task.Hosts key id (.errand (.done .pending)) ↔
        guest.task.Hosts key id := fun key id => ⟨False.elim, fun hhost => hhosts key id hhost⟩
    refine .turns hguest rfl (.refl _) (hsound.plan .done hnobody ?_) ?_
    · intro a ha
      rcases List.mem_append.1 ha with htodo | hrelease
      · exact (hsound.todo 0 a htodo).mono (.refl _) id hnobody
      · obtain ⟨deed, hdeed, rfl⟩ := List.mem_map.1 hrelease
        refine Access.sound_act ?_
        rintro key id rfl
        exact absurd hdeed (hsound.task.evict_not_mem_release hhosts)
    · intro p id later hp
      simp only [Guest.plan]
      split
      · rename_i heq
        subst heq
        exact ⟨_, by rw [hp]; rfl⟩
      · exact ⟨later, hp⟩

theorem outside_registry {dealing : Fabric.Dealing} (f : Fabric)
    (h : dealing.isOutside = true) : (f.deal dealing).registry = f.registry := by
  have heffect := f.effect dealing
  have hkey : dealing.keyIn f = none ∧ dealing ≠ .prune ∧ dealing ≠ .closeAll := by
    cases dealing with
    | use need => cases need <;> first | exact ⟨rfl, nofun, nofun⟩ | cases h
    | prune => cases h
    | closeAll => cases h
    | _ => first | exact ⟨rfl, nofun, nofun⟩ | cases h
  obtain ⟨hkey, hprune, hcloseAll⟩ := hkey
  generalize f.deal dealing = f' at heffect ⊢
  cases heffect with
  | stays => rfl
  | passes _ hregistry _ => exact hregistry
  | evicts hother => cases hkey.symm.trans hother
  | supplants hother => cases hkey.symm.trans hother
  | removes hother => cases hkey.symm.trans hother
  | prunes hpruned => exact absurd hpruned hprune
  | closesAll hclosed => exact absurd hclosed hcloseAll

theorem change (h : t.Sound) (hstep : t.step move = some t') : t.Change move t' := by
  cases move with
  | client requests =>
    simp only [step, Option.ite_none_right_eq_some, Option.some.injEq] at hstep
    obtain ⟨hrequests, rfl⟩ := hstep
    refine .joins rfl (.refl _) (Guest.sound_only .done ?_)
    intro a ha
    exact Access.sound_of_isRequest (List.all_eq_true.1 hrequests a ha) fun _ _ hhost => hhost
  | accept key peerAddr responder input output =>
    cases hstep
    have hnew := t.fabric.session?_addSession (j := t.fabric.seats.size)
      (.start key peerAddr .server) input output
    rw [if_pos rfl] at hnew
    refine .joins rfl (t.fabric.becomes_addSession (.start key peerAddr .server) _ _)
      (Guest.sound_only (.hosting ⟨_, hnew⟩) ?_)
    intro a ha
    rw [List.mem_singleton] at ha
    subst ha
    trivial
  | begin task =>
    simp only [step, Option.ite_none_right_eq_some, Option.some.injEq] at hstep
    obtain ⟨hfresh, rfl⟩ := hstep
    exact .joins rfl (.refl _) ⟨Task.sound_of_isFresh hfresh _, by simp⟩
  | go i place =>
    obtain ⟨guest, hguest, hgo⟩ := Option.bind_eq_some_iff.1 hstep
    exact change_go h hguest hgo
  | hear i number =>
    obtain ⟨guest, hguest, hhear⟩ := Option.bind_eq_some_iff.1 hstep
    obtain ⟨⟨place, need⟩, hneed, hhear⟩ := Option.bind_eq_some_iff.1 hhear
    exact change_hear h hguest (List.mem_of_getElem? hneed) hhear
  | stop i =>
    obtain ⟨guest, hguest, hstop⟩ := Option.bind_eq_some_iff.1 hstep
    exact change_stop h hguest hstop
  | cancel =>
    cases hstep
    exact .passes rfl (.refl _) fun _ => rfl
  | outside dealing =>
    simp only [step, Option.ite_none_right_eq_some, Option.some.injEq] at hstep
    obtain ⟨houtside, rfl⟩ := hstep
    exact .passes (outside_registry t.fabric houtside) (t.fabric.becomes_deal dealing) id

/-! ## What a change keeps -/

theorem sound_empty : Sound {} where
  kept := Fabric.kept_empty
  guests _ h := by cases h

theorem Change.becomes (h : t.Change move t') : t.fabric.Becomes t'.fabric := by
  cases h with
  | joins _ hbecomes => exact hbecomes
  | makes => exact t.fabric.becomes_access _
  | turns _ _ hbecomes => exact hbecomes
  | passes _ hbecomes => exact hbecomes

theorem Change.sound (h : t.Sound) (hchange : t.Change move t') : t'.Sound := by
  have hold : ∀ {f : Fabric}, t.fabric.Becomes f → ∀ guest ∈ t.guests,
      guest.Sound f t.listening :=
    fun hbecomes guest hguest => (h.guests guest hguest).mono hbecomes id
  cases hchange with
  | joins hregistry hbecomes hnew =>
    refine ⟨h.kept.of_same hbecomes hregistry, ?_⟩
    intro guest hguest
    rcases List.mem_append.1 hguest with hmem | hmem
    · exact hold hbecomes guest hmem
    · rw [List.mem_singleton] at hmem
      subst hmem
      exact hnew
  | @makes i place guest a later _ hguest htodo =>
    have hbecomes := t.fabric.becomes_access a
    have hsound := h.guests guest (List.mem_of_getElem? hguest)
    refine ⟨h.kept.access a, ?_⟩
    intro other hother
    rcases List.mem_or_eq_of_mem_set hother with hmem | rfl
    · exact hold hbecomes other hmem
    · refine Guest.Sound.plan (hsound.mono hbecomes id) (hsound.task.becomes hbecomes)
        (fun _ _ => Iff.rfl) ?_
      intro b hb
      refine Access.Sound.mono ?_ hbecomes id fun _ _ => Iff.rfl
      rcases List.mem_append.1 hb with hmore | hlater
      · exact (hsound.todo place a (htodo ▸ List.mem_cons_self)).follow h.kept b hmore
      · exact hsound.todo place b (htodo ▸ List.mem_cons_of_mem _ hlater)
  | turns _ hregistry hbecomes hsound _ =>
    refine ⟨h.kept.of_same hbecomes hregistry, ?_⟩
    intro other hother
    rcases List.mem_or_eq_of_mem_set hother with hmem | rfl
    · exact hold hbecomes other hmem
    · exact hsound
  | passes hregistry hbecomes hlistening =>
    refine ⟨h.kept.of_same hbecomes hregistry, ?_⟩
    exact fun guest hguest => (h.guests guest hguest).mono hbecomes hlistening

theorem sound_of_run {moves : List Move} (h : runFrom step {} moves = some t) : t.Sound :=
  runFrom_keeps (fun _ _ _ hs hstep => (change hs hstep).sound hs) sound_empty h

/-! ## Who leaves -/

theorem Change.leaves (h : t.Sound) (hchange : t.Change move t')
    (hin : t.fabric.registry.find? key = some id)
    (hout : t'.fabric.registry.find? key ≠ some id) :
    (t.Replaces move key id ∨ t.Removes move key) ∧ t'.Owes id ∨
      t.fabric.isClosed id = true ∨ t.Dismisses move key id := by
  have hsame : t'.fabric.registry ≠ t.fabric.registry := by
    intro heq
    rw [heq] at hout
    exact hout hin
  cases hchange with
  | joins hregistry => exact absurd hregistry hsame
  | turns _ hregistry => exact absurd hregistry hsame
  | passes hregistry => exact absurd hregistry hsame
  | @makes i place guest a later hmove hguest htodo =>
    have hmakes : t.Makes move guest a := ⟨i, place, later, hmove, hguest, htodo⟩
    rcases t.fabric.left_access a hin hout with ⟨hcause, hnext⟩ | hclosed | rfl
    · refine .inl ⟨?_, ?_⟩
      · rcases hcause with ⟨new, s, rfl, hs, hkey, hne⟩ | rfl
        · exact .inl ⟨guest, new, s, hmakes, hs, hkey, hne⟩
        · exact .inr ⟨guest, hmakes⟩
      · refine ⟨i, guest.plan place ((t.fabric.access a).2 ++ later), place, later, ?_, ?_⟩
        · obtain ⟨hi, -⟩ := List.getElem?_eq_some_iff.1 hguest
          simp [put, hi]
        · simp [Guest.plan, hnext]
    · exact .inr (.inl hclosed)
    · have hknown := (h.guests guest (List.mem_of_getElem? hguest)).todo place _
        (htodo ▸ List.mem_cons_self)
      rcases hknown with hshut | ⟨hlistening, hhosts⟩
      · exact .inr (.inl hshut.2)
      · exact .inr (.inr ⟨hlistening, guest, hmakes, hhosts⟩)

theorem Sound.closes (h : t.Sound) (howes : t.Owes id) :
    ∃ i place t', t.step (.go i place) = some t' ∧ t'.fabric.isClosed id = true := by
  obtain ⟨i, guest, place, later, hguest, htodo⟩ := howes
  have hstep : t.step (.go i place) = some
      ({ t with fabric := t.fabric.closeSession id }.put i (guest.plan place later)) := by
    simp only [step, hguest, Option.bind_some, go, htodo]
    rfl
  refine ⟨i, place, _, hstep, ?_⟩
  change (t.fabric.closeSession id).isClosed id = true
  exact Fabric.isClosed_closeSession h.kept.sound id

/-- When one guest has turned to something else, another one has still to close what he had to. -/
theorem owes_put {f : Fabric} {j : Nat} {old new : Guest} (hguest : t.guests[i]? = some guest)
    (htodo : guest.todo place = .act (.close id) :: later) (hold : t.guests[j]? = some old)
    (hnew : j = i → ∃ later', new.todo place = .act (.close id) :: later') :
    ({ t with fabric := f }.put j new).Owes id := by
  by_cases hij : j = i
  · obtain ⟨later', htodo'⟩ := hnew hij
    obtain ⟨hlt, -⟩ := List.getElem?_eq_some_iff.1 hold
    exact ⟨j, new, place, later', by simp [put, hlt], htodo'⟩
  · exact ⟨i, guest, place, later, by simp [put, List.getElem?_set_ne hij, hguest], htodo⟩

theorem Change.isOver (h : t.Sound) (hchange : t.Change move t') (hover : t.IsOver id) :
    t'.IsOver id := by
  have hbecomes := hchange.becomes
  obtain ⟨hhas, hover⟩ := hover
  refine ⟨hhas.becomes hbecomes, ?_⟩
  rcases hover with hclosed | ⟨i, guest, place, later, hguest, htodo⟩
  · exact .inl (Fabric.IsShut.becomes ⟨hhas, hclosed⟩ hbecomes).2
  · cases hchange with
    | joins =>
      obtain ⟨hlt, -⟩ := List.getElem?_eq_some_iff.1 hguest
      refine .inr ⟨i, guest, place, later, ?_, htodo⟩
      simp only [join, List.getElem?_append_left hlt, hguest]
    | @makes j p other a rest hmove hother hrest =>
      -- Only the guest itself can take it off its list, and then it does it.
      by_cases hdone : j = i ∧ p = place
      · obtain ⟨rfl, rfl⟩ := hdone
        cases hguest.symm.trans hother
        cases htodo.symm.trans hrest
        exact .inl (Fabric.isClosed_closeSession h.kept.sound id)
      · refine .inr (owes_put hguest htodo hother ?_)
        rintro rfl
        cases hguest.symm.trans hother
        refine ⟨later, ?_⟩
        simp only [Guest.plan]
        rw [if_neg fun hp => hdone ⟨rfl, hp.symm⟩]
        exact htodo
    | @turns fabric j other other' hother _ _ _ howes =>
      refine .inr (owes_put hguest htodo hother ?_)
      rintro rfl
      cases hguest.symm.trans hother
      exact howes place id later htodo
    | passes => exact .inr ⟨i, guest, place, later, hguest, htodo⟩

theorem Sound.isOver_run {moves : List Move} (h : t.Sound) (hover : t.IsOver id)
    (hrun : runFrom step t moves = some t') : t'.IsOver id := by
  have hend : t'.Sound ∧ t'.IsOver id := by
    refine runFrom_keeps (P := fun t => t.Sound ∧ t.IsOver id) ?_ ⟨h, hover⟩ hrun
    rintro t move t' ⟨h, hover⟩ hstep
    exact ⟨(change h hstep).sound h, (change h hstep).isOver h hover⟩
  exact hend.2

theorem Sound.isOver_of_left (h : t.Sound) (hchange : t.Change move t')
    (hin : t.fabric.registry.find? key = some id)
    (hout : t'.fabric.registry.find? key ≠ some id) (hdismissed : ¬ t.Dismisses move key id) :
    t'.IsOver id := by
  obtain ⟨s, hs, -⟩ := h.kept.ownKey key id hin
  rcases hchange.leaves h hin hout with ⟨-, howes⟩ | hclosed | hdismissed'
  · exact ⟨Fabric.Has.becomes ⟨s, hs⟩ hchange.becomes, .inr howes⟩
  · exact hchange.isOver h ⟨⟨s, hs⟩, .inl hclosed⟩
  · exact absurd hdismissed' hdismissed

/-- Who is evicted was found to be closed, or is dismissed. -/
theorem Sound.grounds {old : Nat} (h : t.Sound)
    (hmakes : t.Makes move guest (.act (.evict key old))) :
    t.fabric.isClosed old = true ∨ t.Dismisses move key old := by
  obtain ⟨i, place, later, -, hguest, htodo⟩ := id hmakes
  have hknown := (h.guests guest (List.mem_of_getElem? hguest)).todo place _
    (htodo ▸ List.mem_cons_self)
  exact hknown.imp And.right fun hhost => ⟨hhost.1, guest, hmakes, hhost.2⟩

theorem find?_of_evict {k : String} {old : Nat} (hstep : t.step move = some t')
    (hmakes : t.Makes move guest (.act (.evict key old))) (hne : id ≠ old)
    (hin : t.fabric.registry.find? k = some id) : t'.fabric.registry.find? k = some id := by
  obtain ⟨i, place, later, rfl, hguest, htodo⟩ := hmakes
  simp only [step, hguest, Option.bind_some, go, htodo, Option.some.injEq] at hstep
  subst hstep
  change (t.fabric.registry.evict key old).find? k = some id
  rw [Registry.find?_evict, if_neg]
  · exact hin
  · rintro ⟨-, hold⟩
    exact hne (Option.some.inj (hin.symm.trans hold))

/-- How eviction leaves the open sessions of a concourse alone. -/
structure KeepsLive (t : Concourse) : Prop where
  /-- An open session leaves the registry only when another one is registered in its place, when it
  is removed, or when its own listener takes it out after it was cancelled. -/
  leaves : ∀ move t' key id, t.step move = some t' → t.fabric.registry.find? key = some id →
    t.fabric.isClosed id = false → t'.fabric.registry.find? key ≠ some id →
      t.Replaces move key id ∨ t.Removes move key ∨ t.Dismisses move key id
  /-- Who evicts a session has found it closed, or is its own listener, which was cancelled. No
  other session leaves by it: neither the one that has been registered meanwhile under the same
  key, nor that of another key. -/
  evicts : ∀ move t' guest key old, t.step move = some t' →
    t.Makes move guest (.act (.evict key old)) →
      (t.fabric.isClosed old = true ∨ t.Dismisses move key old) ∧
      ∀ k id, id ≠ old → t.fabric.registry.find? k = some id →
        t'.fabric.registry.find? k = some id
  /-- A session that has left the registry is closed from then on, or somebody is about to close
  it, unless its own listener took it out. -/
  closes : ∀ move t' key id, t.step move = some t' → t.fabric.registry.find? key = some id →
    t'.fabric.registry.find? key ≠ some id → ¬ t.Dismisses move key id →
      ∀ moves t'', runFrom step t' moves = some t'' → t''.IsOver id
  /-- Who is about to close a session can do it. -/
  pays : ∀ id, t.Owes id →
    ∃ i place t', t.step (.go i place) = some t' ∧ t'.fabric.isClosed id = true

/-- **Eviction loses no open session.** However the accesses of clients, listeners and sweeps come
between one another, a session that is open leaves the registry only by a replacement or a removal,
after which it is closed, or with its listener. A late eviction of the session that was under a key
before takes nobody else out. -/
theorem live_sessions_stay (moves : List Move) (t : Concourse)
    (h : runFrom step {} moves = some t) : t.KeepsLive := by
  have hsound := sound_of_run h
  refine ⟨?_, ?_, ?_, fun id => hsound.closes⟩
  · intro move t' key id hstep hin hopen hout
    rcases (change hsound hstep).leaves hsound hin hout with ⟨hcause, -⟩ | hclosed | hdismissed
    · exact hcause.imp_right .inl
    · rw [hopen] at hclosed
      cases hclosed
    · exact .inr (.inr hdismissed)
  · intro move t' guest key old hstep hmakes
    exact ⟨hsound.grounds hmakes, fun k id hne hin => find?_of_evict hstep hmakes hne hin⟩
  · intro move t' key id hstep hin hout hdismissed moves t'' hrun
    have hchange := change hsound hstep
    exact (hchange.sound hsound).isOver_run (hsound.isOver_of_left hchange hin hout hdismissed) hrun

def evicts? (guest : Guest) : Option (String × Nat) :=
  match guest.todo 0 with
  | .act (.evict key id) :: _ => some (key, id)
  | _ => none

/-- A peer is registered and served, pinged by a sweep and looked up by a client when its connection
is lost. All three find that out and are about to evict its session, but the peer comes back first;
the old session is closed, and only then do the three get round to it. -/
def reconnection : List Move :=
  let sweep : Sweep := .start (.ofNames ["nas01"]) 1 (.ofSecs 5) ⟨1700000000, 0⟩
  [.accept "nas01" "10.0.0.7:50100" (.fixed .empty false) 0 0, .go 0 0, .hear 0 0,
    .begin (.sweep sweep), .hear 1 0, .hear 1 0, .go 1 0, .go 1 0, .go 1 0,
    .client [.find "nas01"], .go 2 0,
    .outside (.cancel 0), .hear 0 0, .hear 1 0, .go 2 0,
    .accept "nas01" "10.0.0.7:50200" (.fixed .empty false) 0 0, .go 3 0, .go 3 0,
    .go 0 0, .go 1 0, .go 2 0]

theorem live_sessions_stay_reconnection :
    ∃ t, runFrom step {} reconnection = some t ∧ t.KeepsLive ∧
      (runFrom step {} (reconnection.take 15)).map (fun t => t.guests.map evicts?) =
        some [some ("nas01", 0), some ("nas01", 0), some ("nas01", 0)] ∧
      t.fabric.registry.find? "nas01" = some 1 ∧ t.fabric.isClosed 1 = false ∧
      t.fabric.isClosed 0 = true := by
  have hrun : (runFrom step {} reconnection).map (fun t =>
      (t.fabric.registry.find? "nas01", t.fabric.isClosed 1, t.fabric.isClosed 0)) =
        some (some 1, false, true) := by decide +kernel
  obtain ⟨t, ht, heq⟩ := Option.map_eq_some_iff.1 hrun
  simp only [Prod.mk.injEq] at heq
  exact ⟨t, ht, live_sessions_stay reconnection t ht, by decide +kernel, heq⟩

end Switchboard.Concourse
