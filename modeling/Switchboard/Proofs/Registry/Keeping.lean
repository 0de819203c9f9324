import Mathlib.Data.List.Induction
import Switchboard.Proofs.Lifetime.Fabric
import Switchboard.Proofs.Registry.Entries

/-!
# What a registry keeps

`Dealing` is what may be done to a registry, and what may become of sessions meanwhile: they are
used, closed and cancelled, and their connections go on and fail. `Effect` lists what comes of one
dealing. From it follow the invariant `Kept` (`Kept.deal`), what a session that left the registry
has come to (`left_deal`) and what a dealing with one key leaves alone (`others_deal`).

`registry_keeps` puts this together for every run from a registry without entries.
-/

namespace Switchboard.Fabric

inductive Dealing where
  /-- The session of a key is asked for, and one is made if there is none that lives. -/
  | findOrAdd (key : String) (role : Role) (supplier : Except Fault String) (capacity : Nat)
  /-- A session is registered under its key. -/
  | insert (id : Nat)
  | get (key : String)
  | evict (key : String) (id : Nat)
  | remove (key : String)
  | prune
  | closeAll
  /-- A session begins that is not registered. -/
  | join (key peerAddr : String) (role : Role) (input output : Nat)
  /-- A session begins with a process that was started for it. -/
  | joinHelper (key peerAddr : String) (pid : Nat) (pipes : List Nat) (input output : Nat)
  /-- Somebody closes a session. -/
  | close (id : Nat)
  /-- The scope of a session is cancelled. -/
  | cancel (id : Nat)
  /-- The connection of a session goes on. -/
  | go (id : Nat)
  /-- The far end of a session disappears. -/
  | farDrop (id : Nat)
  /-- Somebody asks for what a task may wait for: the keys, a stream, bytes. -/
  | use (need : Need)
  | drop (stream : StreamRef)
  | abandon (id request : Nat)
  | leave (id acceptor : Nat)
  /-- Time passes, and the channels are as the peers have left them. -/
  | pass (millis : Nat) (pipes : Array Pipe)

def deal (f : Fabric) : Dealing → Fabric
  | .findOrAdd key role supplier capacity =>
    (f.lookupOrAdd key (supplier.map fun peerAddr => .start key peerAddr role) capacity).2.2
  | .insert id => f.register id
  | .get key => (f.lookup key).2
  | .evict key id => f.perform (.evict key id)
  | .remove key => (f.unregister key).2
  | .prune => f.prune.2
  | .closeAll => f.closeAll
  | .join key peerAddr role input output =>
    (f.addSession (.start key peerAddr role) input output).2
  | .joinHelper key peerAddr pid pipes input output =>
    let f := (f.addSession (.withChild key peerAddr pid) input output).2
    { f with processes := (pid, pipes) :: f.processes }
  | .close id => f.closeSession id
  | .cancel id => f.modifySession id Session.cancel
  | .go id => (f.stepSession id).2
  | .farDrop id => f.dropFarEnd id
  | .use need => (f.meet need).2
  | .drop stream => f.perform (.drop stream)
  | .abandon id request => f.perform (.abandon id request)
  | .leave id acceptor => f.perform (.leave id acceptor)
  | .pass millis pipes => { f with now := f.now + millis, pipes }

/-- The key that a dealing is with, if it is with one. -/
def Dealing.keyIn (f : Fabric) : Dealing → Option String
  | .findOrAdd key _ _ _ | .get key | .evict key _ | .remove key | .use (.peer key) => some key
  | .insert id => (f.session? id).map (·.key)
  | _ => none

def Registered (id : Nat) (f : Fabric) : Prop :=
  ∃ key, f.registry.find? key = some id

/-- A session takes the place of the one that is registered under a key, which is closed. -/
def supplant (key : String) (id : Nat) (f : Fabric) : Fabric :=
  { f with registry := (f.registry.insert key id).2 }.closeSessions (f.registry.find? key).toList

variable {f f' g : Fabric} {d : Dealing} {key k : String} {id j : Nat} {s : Session}

/-! ## One dealing -/

inductive Effect (f : Fabric) (d : Dealing) : Fabric → Prop where
  /-- Nothing happens. -/
  | stays : Effect f d f
  /-- It concerns sessions only. -/
  | passes {f' : Fabric} (hkey : d.keyIn f = none) (hregistry : f'.registry = f.registry)
      (hbecomes : f.Becomes f') : Effect f d f'
  /-- A session is taken out as it is. -/
  | evicts {key : String} {id : Nat} (hkey : d.keyIn f = some key)
      (hwhy : d = .evict key id ∨ f.isClosed id = true) :
      Effect f d { f with registry := f.registry.evict key id }
  /-- A session is registered, which may be a new one. -/
  | supplants {g : Fabric} {key : String} {id : Nat} {s : Session} (hkey : d.keyIn f = some key)
      (hregistry : g.registry = f.registry) (hbecomes : f.Becomes g)
      (hseats : ∀ j < f.seats.size, g.seats[j]? = f.seats[j]?) (hs : g.session? id = some s)
      (hskey : s.key = key) : Effect f d (g.supplant key id)
  | removes {key : String} (hkey : d.keyIn f = some key) : Effect f d (f.unregister key).2
  | prunes (hprune : d = .prune) : Effect f d f.prune.2
  | closesAll (hcloseAll : d = .closeAll) : Effect f d f.closeAll

theorem supplant_registry (f : Fabric) (key : String) (id : Nat) :
    (f.supplant key id).registry = (f.registry.insert key id).2 := by
  obtain ⟨seats, pipes, processes, heq⟩ := closeSessions_rest (f.registry.find? key).toList
    { f with registry := (f.registry.insert key id).2 }
  rw [supplant, heq]

theorem unregister_registry (f : Fabric) (key : String) :
    (f.unregister key).2.registry = f.registry.erase key := by
  obtain ⟨seats, pipes, processes, heq⟩ := closeSessions_rest (f.registry.find? key).toList
    { f with registry := f.registry.erase key }
  change ({ f with registry := f.registry.erase key }.closeSessions _).registry = _
  rw [heq]

theorem closeAll_registry (f : Fabric) : f.closeAll.registry = {} := by
  obtain ⟨seats, pipes, processes, heq⟩ :=
    closeSessions_rest (f.registry.entries.map Prod.snd) { f with registry := {} }
  change ({ f with registry := {} }.closeSessions _).registry = _
  rw [heq]

/-- What a task does besides waiting concerns the registry only if it evicts a session. -/
theorem perform_registry (f : Fabric) (deed : Deed) :
    (f.perform deed).registry =
      match deed with
      | .evict key id => f.registry.evict key id
      | _ => f.registry := by
  have hon : ∀ (f : Fabric) id (g : Session → Session),
      (f.modifySession id g).registry = f.registry := by
    intro f id g
    obtain ⟨seats, heq⟩ := f.onSession_rest id fun s => ((), g s)
    simp [modifySession, heq]
  cases deed with
  | drop ref => simp [perform, dropStream, hon]
  | abandon id request => simp [perform, hon]
  | leave id acceptor => simp [perform, hon]
  | name name ref =>
    simp only [perform, nameStream]
    split <;> simp [dropStream, hon]
  | close id =>
    obtain ⟨seats, pipes, processes, heq⟩ := f.closeSession_rest id
    simp [perform, heq]
  | _ => rfl

/-- What a task waits for concerns the registry only if it is the session of a key. -/
theorem meet_registry (f : Fabric) (need : Need) :
    (f.meet need).2.registry =
      match need with
      | .peer key => (f.lookup key).2.registry
      | _ => f.registry := by
  have hon : ∀ {α : Type} id (g : Session → α × Session),
      (f.onSession id g).2.registry = f.registry := by
    intro α id g
    obtain ⟨seats, heq⟩ := f.onSession_rest id g
    simp [heq]
  cases need with
  | request id => simp [meet, hon]
  | granted id request => simp [meet, hon]
  | queue id => simp [meet, hon]
  | accepted id acceptor => simp [meet, hon]
  | read ref room => simp [meet, onStream, hon]
  | write ref data start => simp [meet, onStream, hon]
  | finish ref => simp [meet, onStream, hon]
  | pour id data start =>
    simp only [meet]
    split <;> rfl
  | draw id room =>
    simp only [meet]
    split <;> rfl
  | _ => rfl

theorem lookup_effect (f : Fabric) (key : String) : (f.lookup key).2 = f ∨
    ∃ id, f.isClosed id = true ∧
      (f.lookup key).2 = { f with registry := f.registry.evict key id } := by
  unfold lookup
  rw [Registry.get_eq]
  cases hfound : (f.registry.find? key).filter f.isClosed with
  | none => exact .inl rfl
  | some id => exact .inr ⟨id, (Option.filter_eq_some_iff.1 hfound).2, rfl⟩

/-- A live session is given, or a new one is registered, or nothing happens. -/
theorem lookupOrAdd_cases (f : Fabric) (key : String) (supplier : Except Fault Session)
    (capacity : Nat) :
    (∃ id, f.registry.find? key = some id ∧ f.isClosed id = false ∧
      f.lookupOrAdd key supplier capacity = (.ok id, false, f)) ∨
    (∃ fault, supplier = .error fault ∧
      f.lookupOrAdd key supplier capacity = (.error fault, true, f)) ∨
    ∃ s, supplier = .ok s ∧ (∀ id, f.registry.find? key = some id → f.isClosed id = true) ∧
      f.lookupOrAdd key supplier capacity = (.ok f.seats.size, true,
        (f.addSilent capacity s).2.supplant key f.seats.size) := by
  rcases f.registry.findOrAdd_cases f.isClosed key (supplier.map fun _ => f.seats.size) with
    ⟨id, hfound, hlive, heq⟩ | ⟨hclosed, ⟨fault, hsupplier, heq⟩ | ⟨fresh, hsupplier, heq⟩⟩
  · exact .inl ⟨id, hfound, hlive, by simp only [lookupOrAdd, heq]; rfl⟩
  · cases supplier with
    | error fault =>
      cases hsupplier
      exact .inr (.inl ⟨fault, rfl, by simp only [lookupOrAdd, heq]; rfl⟩)
    | ok s => cases hsupplier
  · cases supplier with
    | error fault => cases hsupplier
    | ok s =>
      cases hsupplier
      exact .inr (.inr ⟨s, rfl, hclosed, by simp only [lookupOrAdd, heq]; rfl⟩)

theorem addSilent_session? (f : Fabric) (capacity : Nat) (s : Session) :
    (f.addSilent capacity s).2.session? j = if j = f.seats.size then some s else f.session? j := by
  exact session?_addSession _ s _ _

theorem effect (f : Fabric) (d : Dealing) : Effect f d (f.deal d) := by
  cases d with
  | findOrAdd key role supplier capacity =>
    rcases f.lookupOrAdd_cases key (supplier.map fun peerAddr => .start key peerAddr role) capacity
      with ⟨id, -, -, heq⟩ | ⟨fault, -, heq⟩ | ⟨s, hs, -, heq⟩
    · simp only [deal, heq]
      exact .stays
    · simp only [deal, heq]
      exact .stays
    · cases supplier with
      | error fault => cases hs
      | ok peerAddr =>
        cases hs
        simp only [deal, heq]
        refine .supplants (s := .start key peerAddr role) rfl rfl
          (.after (becomes_addSession _ (.start key peerAddr role) _ _) rfl) ?_ ?_ rfl
        · intro j hj
          simp [addSilent, addPipe, addSession, Array.getElem?_push, Nat.ne_of_lt hj]
        · rw [addSilent_session?, if_pos rfl]
  | insert id =>
    simp only [deal, register]
    cases hs : f.session? id with
    | none => exact .stays
    | some s =>
      exact .supplants (by simp [Dealing.keyIn, hs]) rfl (.refl f) (fun j _ => rfl) hs rfl
  | get key =>
    rcases f.lookup_effect key with heq | ⟨id, hclosed, heq⟩
    · simp only [deal, heq]
      exact .stays
    · simp only [deal, heq]
      exact .evicts rfl (.inr hclosed)
  | evict key id => exact .evicts rfl (.inl rfl)
  | remove key => exact .removes rfl
  | prune => exact .prunes rfl
  | closeAll => exact .closesAll rfl
  | join key peerAddr role input output =>
    exact .passes rfl rfl (f.becomes_addSession (.start key peerAddr role) input output)
  | joinHelper key peerAddr pid pipes input output =>
    exact .passes rfl rfl
      ((f.becomes_addSession (.withChild key peerAddr pid) input output).trans (.of_seats rfl))
  | close id =>
    obtain ⟨seats, pipes, processes, heq⟩ := f.closeSession_rest id
    exact .passes rfl (by simp [deal, heq]) (f.becomes_closeSession id)
  | cancel id =>
    obtain ⟨seats, heq⟩ := f.onSession_rest id fun s => ((), s.cancel)
    exact .passes rfl (by simp [deal, modifySession, heq])
      (f.becomes_modifySession id Session.becomes_cancel)
  | go id =>
    refine .passes rfl ?_ (f.becomes_stepSession id)
    rcases f.stepSession_cases id with heq | ⟨s, s', pipes, -, -, heq⟩
    · simp only [deal, heq]
    · obtain ⟨seats, hseats⟩ := f.onSession_rest id fun _ => ((), s')
      simp [deal, heq, hseats]
  | farDrop id =>
    simp only [deal, dropFarEnd]
    split
    · exact .stays
    · exact .passes rfl rfl (.of_seats rfl)
  | use need =>
    by_cases hpeer : ∃ key, need = .peer key
    · obtain ⟨key, rfl⟩ := hpeer
      rcases f.lookup_effect key with heq | ⟨id, hclosed, heq⟩
      · have hstays : f.deal (.use (.peer key)) = f := heq
        rw [hstays]
        exact .stays
      · have hevicts : f.deal (.use (.peer key)) =
            { f with registry := f.registry.evict key id } := heq
        rw [hevicts]
        exact .evicts rfl (.inr hclosed)
    · refine .passes ?_ ?_ (f.becomes_meet need)
      · cases need <;> first | rfl | exact absurd ⟨_, rfl⟩ hpeer
      · rw [deal, meet_registry]
        cases need <;> first | rfl | exact absurd ⟨_, rfl⟩ hpeer
  | drop stream =>
    exact .passes rfl (f.perform_registry (.drop stream)) (f.becomes_perform (.drop stream))
  | abandon id request =>
    exact .passes rfl (f.perform_registry (.abandon id request))
      (f.becomes_perform (.abandon id request))
  | leave id acceptor =>
    exact .passes rfl (f.perform_registry (.leave id acceptor))
      (f.becomes_perform (.leave id acceptor))
  | pass millis pipes => exact .passes rfl rfl (.of_seats rfl)

/-! ## The invariant -/

structure Kept (f : Fabric) : Prop where
  onePerKey : f.registry.OnePerKey
  /-- A session is registered under its own key. -/
  ownKey : ∀ key id, f.registry.find? key = some id → ∃ s, f.session? id = some s ∧ s.key = key
  sound : f.Sound

theorem kept_empty : Kept {} where
  onePerKey := Registry.onePerKey_empty
  ownKey _ _ h := by cases h
  sound _ _ h := by cases h

/-- Sessions keep their keys, so that only new entries are of interest. -/
theorem Kept.step (h : f.Kept) (hbecomes : f.Becomes f') (hone : f'.registry.OnePerKey)
    (hentries : ∀ key id, f'.registry.find? key = some id →
      f.registry.find? key = some id ∨ ∃ s, f'.session? id = some s ∧ s.key = key) :
    f'.Kept := by
  refine ⟨hone, ?_, hbecomes.sound h.sound⟩
  intro key id hid
  rcases hentries key id hid with hold | hnew
  · obtain ⟨s, hs, hkey⟩ := h.ownKey key id hold
    obtain ⟨s', hs', hs_s'⟩ := hbecomes.goOn id s hs
    exact ⟨s', hs', hs_s'.key.trans hkey⟩
  · exact hnew

theorem Kept.of_same (h : f.Kept) (hbecomes : f.Becomes f') (hregistry : f'.registry = f.registry) :
    f'.Kept := by
  refine h.step hbecomes (by rw [hregistry]; exact h.onePerKey) ?_
  intro k j hj
  rw [hregistry] at hj
  exact .inl hj

theorem Kept.of_evict (h : f.Kept) (hbecomes : f.Becomes f')
    (hregistry : f'.registry = f.registry.evict key id) : f'.Kept := by
  refine h.step hbecomes (by rw [hregistry]; exact h.onePerKey.evict _ _) ?_
  intro k j hj
  rw [hregistry, Registry.find?_evict] at hj
  split at hj
  · cases hj
  · exact .inl hj

theorem Kept.of_erase (h : f.Kept) (hbecomes : f.Becomes f')
    (hregistry : f'.registry = f.registry.erase key) : f'.Kept := by
  refine h.step hbecomes (by rw [hregistry]; exact h.onePerKey.filter _) ?_
  intro k j hj
  rw [hregistry, Registry.find?_erase] at hj
  split at hj
  · cases hj
  · exact .inl hj

theorem Kept.of_insert (h : f.Kept) (hbecomes : f.Becomes f')
    (hregistry : f'.registry = (f.registry.insert key id).2) (hs : f'.session? id = some s)
    (hkey : s.key = key) : f'.Kept := by
  refine h.step hbecomes (by rw [hregistry]; exact h.onePerKey.insert _ _) ?_
  intro k j hj
  rw [hregistry, Registry.find?_insert] at hj
  split at hj
  · rename_i hk
    cases hj
    exact .inr ⟨s, hs, hkey.trans hk.symm⟩
  · exact .inl hj

theorem becomes_supplant (f : Fabric) (key : String) (id : Nat) :
    f.Becomes (f.supplant key id) :=
  .after (becomes_closeSessions _ _) rfl

theorem becomes_unregister (f : Fabric) (key : String) : f.Becomes (f.unregister key).2 :=
  .after (becomes_closeSessions _ _) rfl

theorem becomes_closeAll (f : Fabric) : f.Becomes f.closeAll :=
  .after (becomes_closeSessions _ _) rfl

theorem becomes_deal (f : Fabric) (d : Dealing) : f.Becomes (f.deal d) := by
  have heffect := f.effect d
  generalize f.deal d = f' at heffect ⊢
  cases heffect with
  | stays => exact .refl f
  | passes _ _ hbecomes => exact hbecomes
  | evicts => exact .of_seats rfl
  | supplants _ _ hbecomes => exact hbecomes.trans (becomes_supplant _ _ _)
  | removes => exact f.becomes_unregister _
  | prunes => exact .of_seats rfl
  | closesAll => exact f.becomes_closeAll

theorem Kept.deal (h : f.Kept) (d : Dealing) : (f.deal d).Kept := by
  have hbecomes := f.becomes_deal d
  have heffect := f.effect d
  generalize f.deal d = f' at hbecomes heffect ⊢
  cases heffect with
  | stays => exact h
  | passes _ hregistry => exact h.of_same hbecomes hregistry
  | evicts => exact h.of_evict hbecomes rfl
  | @supplants g key id s _ hregistry _ _ hs hskey =>
    obtain ⟨s', hs', hs_s'⟩ := (g.becomes_supplant key id).goOn id s hs
    refine h.of_insert hbecomes ?_ hs' (hs_s'.key.trans hskey)
    rw [supplant_registry, hregistry]
  | removes => exact h.of_erase hbecomes (f.unregister_registry _)
  | prunes =>
    refine h.step hbecomes (h.onePerKey.filter _) ?_
    intro k j hj
    exact .inl ((Registry.find?_prune h.onePerKey).1 hj).1
  | closesAll =>
    refine h.step hbecomes ?_ ?_
    · rw [closeAll_registry]
      exact Registry.onePerKey_empty
    · intro k j hj
      rw [closeAll_registry] at hj
      cases hj

theorem kept_deals (h : f.Kept) (ds : List Dealing) : (ds.foldl deal f).Kept := by
  induction ds generalizing f with
  | nil => exact h
  | cons d ds ih => exact ih (h.deal d)

/-! ## What has left the registry -/

theorem isClosed_supplant (hf : f.Sound) (hs : f.session? j = some s)
    (hold : f.registry.find? key = some j) : (f.supplant key id).isClosed j = true :=
  isClosed_closeSessions (f := { f with registry := _ }) hf hs (by simp [hold])

theorem isClosed_unregister (hf : f.Sound) (hs : f.session? j = some s)
    (hold : f.registry.find? key = some j) : (f.unregister key).2.isClosed j = true :=
  isClosed_closeSessions (f := { f with registry := _ }) hf hs
    (by simp [hold])

theorem isClosed_closeAll (hf : f.Sound) (hs : f.session? j = some s)
    (hold : f.registry.find? key = some j) : f.closeAll.isClosed j = true :=
  isClosed_closeSessions (f := { f with registry := {} }) hf hs
    (List.mem_map.2 ⟨(key, j), Registry.mem_of_find? hold, rfl⟩)

/-- A session that leaves the registry is closed, unless it is evicted. -/
theorem left_deal (h : f.Kept) (hin : f.registry.find? k = some j)
    (hout : (f.deal d).registry.find? k ≠ some j) :
    (f.deal d).isClosed j = true ∨ d = .evict k j := by
  obtain ⟨s, hs, -⟩ := h.ownKey k j hin
  have heffect := f.effect d
  generalize f.deal d = f' at heffect hout ⊢
  cases heffect with
  | stays => exact absurd hin hout
  | passes _ hregistry =>
    rw [hregistry] at hout
    exact absurd hin hout
  | @evicts key id _ hwhy =>
    simp only [Registry.find?_evict] at hout
    split at hout
    · rename_i hk
      obtain ⟨rfl, hid⟩ := hk
      obtain rfl : j = id := Option.some.inj (hin.symm.trans hid)
      exact hwhy.symm
    · exact absurd hin hout
  | @supplants g key id _ _ hregistry hbecomes =>
    rw [supplant_registry, Registry.find?_insert, hregistry] at hout
    split at hout
    · rename_i hk
      subst hk
      obtain ⟨s', hs', -⟩ := hbecomes.goOn j s hs
      exact .inl (isClosed_supplant (hbecomes.sound h.sound) hs' (by rw [hregistry, hin]))
    · exact absurd hin hout
  | removes =>
    rw [unregister_registry, Registry.find?_erase] at hout
    split at hout
    · rename_i hk
      subst hk
      exact .inl (isClosed_unregister h.sound hs hin)
    · exact absurd hin hout
  | prunes =>
    refine .inl ?_
    cases hclosed : f.isClosed j with
    | true => exact hclosed
    | false => exact absurd ((Registry.find?_prune h.onePerKey).2 ⟨hin, hclosed⟩) hout
  | closesAll => exact .inl (isClosed_closeAll h.sound hs hin)

/-- In some dealings a session was evicted, and it did not come back. -/
def Evicted (id : Nat) (f : Fabric) (ds : List Dealing) : Prop :=
  ∃ earlier key later, ds = earlier ++ .evict key id :: later ∧
    (earlier.foldl deal f).registry.find? key = some id ∧
    ∀ past, past <+: later →
      ¬ (past.foldl deal ((earlier.foldl deal f).deal (.evict key id))).Registered id

theorem left_deals (h : f.Kept) (hin : f.Registered j) (ds : List Dealing)
    (hout : ¬ (ds.foldl deal f).Registered j) :
    (ds.foldl deal f).isClosed j = true ∨ Evicted j f ds := by
  induction ds using List.reverseRec with
  | nil => exact absurd hin hout
  | append_singleton ds d ih =>
    simp only [List.foldl_append, List.foldl_cons, List.foldl_nil] at hout ⊢
    have hkept := kept_deals h ds
    by_cases hbefore : (ds.foldl deal f).Registered j
    · -- The last dealing has taken it out.
      obtain ⟨k, hk⟩ := hbefore
      rcases left_deal hkept hk fun hstill => hout ⟨k, hstill⟩ with hclosed | rfl
      · exact .inl hclosed
      · refine .inr ⟨ds, k, [], rfl, hk, ?_⟩
        intro past hpast
        rw [List.prefix_nil.1 hpast]
        exact hout
    · -- It was out before, and goes on to be what it was.
      rcases ih hbefore with hclosed | ⟨earlier, k, later, rfl, hk, hsince⟩
      · obtain ⟨k, hk⟩ := hin
        obtain ⟨s, hs, -⟩ := h.ownKey k j hk
        obtain ⟨s', hs', -⟩ := (Becomes.foldl becomes_deal ds f).goOn j s hs
        exact .inl ((becomes_deal _ d).isClosed hs' hclosed)
      · refine .inr ⟨earlier, k, later ++ [d], by simp, hk, ?_⟩
        intro past hpast
        rcases List.prefix_concat_iff.1 hpast with rfl | hpast
        · simpa using hout
        · exact hsince past hpast

/-! ## What a dealing with one key leaves alone -/

/-- To register a session leaves all sessions of other keys as they are. -/
theorem supplant_seats (hold : f.registry.find? key ≠ some j) :
    (f.supplant key id).seats[j]? = f.seats[j]? := by
  refine closeSessions_seats { f with registry := _ } ?_
  simpa using hold

theorem unregister_seats (hold : f.registry.find? key ≠ some j) :
    (f.unregister key).2.seats[j]? = f.seats[j]? := by
  refine closeSessions_seats { f with registry := _ } ?_
  simpa [Registry.remove] using hold

theorem Kept.not_found (h : f.Kept) (hs : f.session? j = some s) (hne : s.key ≠ key) :
    f.registry.find? key ≠ some j := by
  intro hfound
  obtain ⟨s', hs', hkey⟩ := h.ownKey key j hfound
  rw [hs] at hs'
  cases hs'
  exact hne hkey

/-- The entry of another key stays, and so does every session of that key. -/
theorem others_deal (h : f.Kept) (hkey : d.keyIn f = some key) (hne : k ≠ key) :
    (f.deal d).registry.find? k = f.registry.find? k ∧
      ∀ j s, f.session? j = some s → s.key = k → (f.deal d).seats[j]? = f.seats[j]? := by
  have heffect := f.effect d
  generalize f.deal d = f' at heffect ⊢
  cases heffect with
  | stays => exact ⟨rfl, fun _ _ _ _ => rfl⟩
  | passes hnone => simp [hnone] at hkey
  | prunes hprune => simp [hprune, Dealing.keyIn] at hkey
  | closesAll hcloseAll => simp [hcloseAll, Dealing.keyIn] at hkey
  | evicts hkey' =>
    cases hkey.symm.trans hkey'
    refine ⟨?_, fun _ _ _ _ => rfl⟩
    simp [Registry.find?_evict, hne]
  | supplants hkey' hregistry _ hseats =>
    cases hkey.symm.trans hkey'
    refine ⟨?_, ?_⟩
    · rw [supplant_registry, Registry.find?_insert, if_neg hne, hregistry]
    · intro j s hs hsk
      have hother := h.not_found hs (hsk.trans_ne hne)
      rw [supplant_seats (by rw [hregistry]; exact hother), hseats j (session?_lt hs)]
  | removes hkey' =>
    cases hkey.symm.trans hkey'
    refine ⟨?_, ?_⟩
    · rw [unregister_registry, Registry.find?_erase, if_neg hne]
    · intro j s hs hsk
      exact unregister_seats (h.not_found hs (hsk.trans_ne hne))

/-- What is not done with a key, or with all of them, leaves the registry alone. -/
theorem registry_deal (hkey : d.keyIn f = none) (hprune : d ≠ .prune) (hall : d ≠ .closeAll) :
    (f.deal d).registry = f.registry := by
  have heffect := f.effect d
  generalize f.deal d = f' at heffect ⊢
  cases heffect with
  | stays => rfl
  | passes _ hregistry => exact hregistry
  | evicts hkey' => simp [hkey'] at hkey
  | supplants hkey' => simp [hkey'] at hkey
  | removes hkey' => simp [hkey'] at hkey
  | prunes h => exact absurd h hprune
  | closesAll h => exact absurd h hall

/-! ## What a registry gives -/

theorem lookup_live (h : (f.lookup key).1 = some id) :
    f.isClosed id = false ∧ f.registry.find? key = some id ∧ (f.lookup key).2 = f := by
  simp only [lookup, Registry.get_eq] at h ⊢
  obtain ⟨hfound, hlive⟩ := Option.filter_eq_some_iff.1 h
  have hclosed : f.isClosed id = false := by simpa using hlive
  refine ⟨hclosed, hfound, ?_⟩
  simp [hfound, Option.filter, hclosed]

theorem lookupOrAdd_live (h : f.Kept) {role : Role} {supplier : Except Fault String}
    {capacity : Nat}
    (hid : (f.lookupOrAdd key (supplier.map fun peerAddr => .start key peerAddr role)
      capacity).1 = .ok id) :
    (f.deal (.findOrAdd key role supplier capacity)).isClosed id = false ∧
      (f.deal (.findOrAdd key role supplier capacity)).registry.find? key = some id := by
  simp only [deal]
  rcases f.lookupOrAdd_cases key (supplier.map fun peerAddr => .start key peerAddr role) capacity
    with ⟨j, hfound, hlive, heq⟩ | ⟨fault, -, heq⟩ | ⟨s, hs, hclosed, heq⟩
  · rw [heq] at hid ⊢
    cases hid
    exact ⟨hlive, hfound⟩
  · rw [heq] at hid
    cases hid
  · rw [heq] at hid ⊢
    cases hid
    refine ⟨?_, ?_⟩
    · -- The session whose place it takes was there before, and so is another one.
      have hother : (f.addSilent capacity s).2.registry.find? key ≠ some f.seats.size := by
        intro hfound
        obtain ⟨s', hs', -⟩ := h.ownKey key f.seats.size hfound
        exact absurd (session?_lt hs') (Nat.lt_irrefl _)
      rw [isClosed_of_seats (supplant_seats hother),
        isClosed_of_session (s := s) (by rw [addSilent_session?, if_pos rfl])]
      cases supplier with
      | error fault => cases hs
      | ok peerAddr =>
        cases hs
        rfl
    · rw [supplant_registry, Registry.find?_insert, if_pos rfl]

/-! ## All of it -/

/-- How a registry stands, and what comes of it in some dealings. -/
structure RegistryKeeps (f : Fabric) (ds : List Dealing) : Prop where
  /-- A key has one entry, and the session there has that key. -/
  onePerKey : (f.registry.entries.map Prod.fst).Nodup
  ownKey : ∀ entry ∈ f.registry.entries, ∃ s, f.session? entry.2 = some s ∧ s.key = entry.1
  /-- A session that is registered no more is closed, unless it was evicted. -/
  left : ∀ id, f.Registered id → ¬ (ds.foldl deal f).Registered id →
    (ds.foldl deal f).isClosed id = true ∨ f.Evicted id ds
  /-- Who looks a key up gets no session but one that is open and registered under it. -/
  get : ∀ key id, (f.lookup key).1 = some id →
    f.isClosed id = false ∧ f.registry.find? key = some id ∧ (f.lookup key).2 = f
  /-- Who has one made if need be does too. -/
  findOrAdd : ∀ key role (supplier : Except Fault String) capacity id,
    (f.lookupOrAdd key (supplier.map fun peerAddr => .start key peerAddr role)
      capacity).1 = .ok id →
    (f.deal (.findOrAdd key role supplier capacity)).isClosed id = false ∧
      (f.deal (.findOrAdd key role supplier capacity)).registry.find? key = some id
  /-- What is done with a key leaves the entries and the sessions of all others as they are. -/
  others : ∀ d key, d.keyIn f = some key → ∀ k, k ≠ key →
    (f.deal d).registry.find? k = f.registry.find? k ∧
      ∀ id s, f.session? id = some s → s.key = k → (f.deal d).seats[id]? = f.seats[id]?
  /-- Two dealings apart, what is done with no key leaves all entries as they are. -/
  entries : ∀ d, d.keyIn f = none → d ≠ .prune → d ≠ .closeAll →
    (f.deal d).registry = f.registry
  /-- To prune takes out the sessions that are closed, and counts them. -/
  prune : f.prune.2.registry.entries = f.registry.entries.filter (fun e => !f.isClosed e.2) ∧
    f.prune.1 = (f.registry.entries.filter fun e => f.isClosed e.2).length ∧
    f.prune.2.seats = f.seats
  /-- To close all sessions closes those that are registered and no others, and takes them out. -/
  closeAll : f.closeAll.registry.entries = [] ∧
    (∀ id, f.Registered id → f.closeAll.isClosed id = true) ∧
    ∀ id, ¬ f.Registered id → f.closeAll.seats[id]? = f.seats[id]?
  /-- The keys that are listed are those of the entries, and as many as are counted. -/
  keys : f.registry.keys.Perm (f.registry.entries.map Prod.fst) ∧
    f.registry.size = f.registry.keys.length

/-- **A registry keeps one session per key**, through all that is done to it and to the sessions:
what it gives is alive, and what it lets go of is closed. -/
theorem registry_keeps (before after : List Dealing) :
    RegistryKeeps (before.foldl deal {}) after := by
  have h := kept_deals kept_empty before
  generalize before.foldl deal {} = f at h ⊢
  refine ⟨h.onePerKey, ?_, fun id hin => left_deals h hin after, fun key id => lookup_live,
    fun key role supplier capacity id => lookupOrAdd_live h, fun d key hkey k => others_deal h hkey,
    fun d => registry_deal, ⟨rfl, Registry.prune_fst _, rfl⟩, ⟨?_, ?_, ?_⟩, ?_, ?_⟩
  · intro entry hentry
    exact h.ownKey entry.1 entry.2 (Registry.find?_of_mem h.onePerKey hentry)
  · rw [closeAll_registry]
  · rintro id ⟨key, hkey⟩
    obtain ⟨s, hs, -⟩ := h.ownKey key id hkey
    exact isClosed_closeAll h.sound hs hkey
  · intro id hout
    refine closeSessions_seats { f with registry := {} } ?_
    intro hmem
    obtain ⟨entry, hentry, rfl⟩ := List.mem_map.1 hmem
    exact hout ⟨entry.1, Registry.find?_of_mem h.onePerKey hentry⟩
  · exact List.mergeSort_perm _ _
  · simp [Registry.size, Registry.keys]

/-- A session is replaced once it is closed, and the one before it can be evicted no more. -/
example :
    let f := [Dealing.findOrAdd "nas01" .server (.ok "mem") 64, .cancel 0,
      .findOrAdd "nas01" .server (.ok "mem") 64, .evict "nas01" 0].foldl deal {}
    f.registry.find? "nas01" = some 1 ∧ f.isClosed 0 = true ∧ f.isClosed 1 = false := by
  decide +kernel

end Switchboard.Fabric
