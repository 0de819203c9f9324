import Switchboard.Proofs.Registry.Keeping

/-!
# Who takes the place of a key

A session takes the place of a key when it is registered, or when it is made for somebody who asks
for the session of that key and finds none that lives. `register_live` says what comes of the one,
`callers_converge` of the other, however many ask, with whatever suppliers.

To register the session that has the place already closes it.
-/

namespace Switchboard.Fabric

variable {f f' f'' : Fabric} {key k : String} {id j : Nat} {s : Session}

/-! ## To register a session -/

theorem register_eq (hs : f.session? id = some s) : f.register id = f.supplant s.key id := by
  unfold register
  rw [hs]
  rfl

/-- What is registered and alive is found, and nothing changes. -/
theorem lookup_of_live (hfound : f.registry.find? key = some id) (hlive : f.isClosed id = false) :
    f.lookup key = (some id, f) := by
  unfold lookup
  rw [Registry.get_eq]
  simp [hfound, Option.filter, hlive]

/-- What is registered and closed is taken out, and nothing is found. -/
theorem lookup_of_closed (hfound : f.registry.find? key = some id)
    (hclosed : f.isClosed id = true) :
    f.lookup key = (none, { f with registry := f.registry.evict key id }) := by
  unfold lookup
  rw [Registry.get_eq]
  simp [hfound, Option.filter, hclosed]

theorem session?_supplant_of_new (hnew : f.registry.find? key ≠ some id) :
    (f.supplant key id).session? id = f.session? id :=
  congrArg (Option.map _) (supplant_seats hnew)

theorem find?_supplant (f : Fabric) (key : String) (id : Nat) :
    (f.supplant key id).registry.find? key = some id := by
  rw [supplant_registry, Registry.find?_insert, if_pos rfl]

theorem Kept.oneKey (h : f.Kept) (hk : f.registry.find? key = some j)
    (hk' : f.registry.find? k = some j) : k = key := by
  obtain ⟨s, hs, hkey⟩ := h.ownKey key j hk
  obtain ⟨s', hs', hkey'⟩ := h.ownKey k j hk'
  rw [hs] at hs'
  cases hs'
  exact hkey'.symm.trans hkey

/-- The session whose place is taken by another one has no place any more. -/
theorem Kept.not_registered_supplant (h : f.Kept) (hold : f.registry.find? key = some j)
    (hne : j ≠ id) : ¬ (f.supplant key id).Registered j := by
  rintro ⟨k, hk⟩
  rw [supplant_registry, Registry.find?_insert] at hk
  split at hk
  · exact hne (Option.some.inj hk).symm
  · rename_i hother
    exact hother (h.oneKey hold hk)

structure Succeeds (f : Fabric) (key : String) (id : Nat) : Prop where
  /-- If it did not have the place it is alive, and whoever looks the key up gets it. -/
  usable : f.registry.find? key ≠ some id →
    (f.register id).isClosed id = false ∧ (f.register id).lookup key = (some id, f.register id)
  /-- If it had the place it is closed, and whoever looks the key up gets nothing. -/
  again : f.registry.find? key = some id →
    (f.register id).isClosed id = true ∧ ((f.register id).lookup key).1 = none ∧
      ¬ ((f.register id).lookup key).2.Registered id
  /-- Another session that had the place is closed, and is under no key any more. -/
  replaced : ∀ j, f.registry.find? key = some j → j ≠ id →
    (f.register id).isClosed j = true ∧ ¬ (f.register id).Registered j
  /-- The entries of the other keys stay, and so do their sessions. -/
  others : ∀ k, k ≠ key → (f.register id).registry.find? k = f.registry.find? k ∧
    ∀ j s, f.session? j = some s → s.key = k → (f.register id).seats[j]? = f.seats[j]?
  /-- Nobody is touched but the one that had the place. -/
  untouched : ∀ j, f.registry.find? key ≠ some j → (f.register id).seats[j]? = f.seats[j]?

theorem Kept.succeeds (h : f.Kept) (hs : f.session? id = some s) (hlive : s.isClosed = false) :
    f.Succeeds s.key id := by
  have heq := register_eq hs
  have hkept : (f.register id).Kept := h.deal (.insert id)
  have hfound : (f.register id).registry.find? s.key = some id := by rw [heq, find?_supplant]
  refine ⟨fun hnew => ?_, fun hold => ?_, fun j hold hne => ?_, fun k => ?_, fun j hj => ?_⟩
  · have hopen : (f.register id).isClosed id = false := by
      rw [heq, isClosed_of_session ((session?_supplant_of_new hnew).trans hs), hlive]
    exact ⟨hopen, lookup_of_live hfound hopen⟩
  · have hclosed : (f.register id).isClosed id = true := by
      rw [heq]
      exact isClosed_supplant h.sound hs hold
    refine ⟨hclosed, ?_, ?_⟩
    · rw [lookup_of_closed hfound hclosed]
    · rintro ⟨k, hk⟩
      rw [lookup_of_closed hfound hclosed, Registry.find?_evict] at hk
      split at hk
      · cases hk
      · rename_i hother
        obtain rfl := hkept.oneKey hfound hk
        exact hother ⟨rfl, hfound⟩
  · obtain ⟨t, ht, -⟩ := h.ownKey s.key j hold
    rw [heq]
    exact ⟨isClosed_supplant h.sound ht hold, h.not_registered_supplant hold hne⟩
  · exact others_deal h (d := .insert id) (by simp [Dealing.keyIn, hs])
  · rw [heq, supplant_seats hj]

/-- **Whoever registers a session that is alive can use it**, in every registry and whatever was
under its key, unless it was there already: then it is closed. The one whose place it takes is
closed, and nothing else changes. -/
theorem register_live (before : List Dealing) (id : Nat) (s : Session)
    (hs : (before.foldl deal {}).session? id = some s) (hlive : s.isClosed = false) :
    (before.foldl deal {}).Succeeds s.key id :=
  (kept_deals kept_empty before).succeeds hs hlive

/-- A peer connects again before its first session has ended. -/
theorem register_live_reconnected :
    let f := [Dealing.findOrAdd "nas01" .server (.ok "mem") 64,
      .join "nas01" "mem" .server 0 0].foldl deal {}
    f.session? 1 = some (.start "nas01" "mem" .server) ∧ f.registry.find? "nas01" = some 0 ∧
      f.isClosed 0 = false ∧ f.Succeeds "nas01" 1 :=
  ⟨rfl, rfl, rfl, register_live [.findOrAdd "nas01" .server (.ok "mem") 64,
    .join "nas01" "mem" .server 0 0] 1 (.start "nas01" "mem" .server) rfl rfl⟩

theorem register_over_itself :
    let f := [Dealing.join "nas01" "mem" .server 0 0, .insert 0].foldl deal {}
    f.isClosed 0 = false ∧ f.lookup "nas01" = (some 0, f) ∧
      (f.register 0).isClosed 0 = true ∧ ((f.register 0).lookup "nas01").1 = none :=
  ⟨rfl, rfl, rfl, rfl⟩

/-! ## To ask for the session of a key -/

structure Caller where
  /-- What is there when the call is made. -/
  found : Fabric
  /-- What the supplier of the caller would give: the address of a peer, or a fault. -/
  supplier : Except Fault String
  /-- The room of the channels to that peer. -/
  capacity : Nat

namespace Caller

def result (key : String) (role : Role) (c : Caller) : Except Fault Nat × Bool × Fabric :=
  c.found.lookupOrAdd key (c.supplier.map fun peerAddr => .start key peerAddr role) c.capacity

def outcome (key : String) (role : Role) (c : Caller) : Except Fault Nat :=
  (c.result key role).1

def asked (key : String) (role : Role) (c : Caller) : Bool :=
  (c.result key role).2.1

def left (key : String) (role : Role) (c : Caller) : Fabric :=
  (c.result key role).2.2

def Fails (c : Caller) : Prop :=
  ∃ fault, c.supplier = .error fault

end Caller

/-- Between two calls sessions are used and new ones begin. The registry is left alone, and no
session is closed. -/
structure Quiet (f f' : Fabric) : Prop where
  registry : f'.registry = f.registry
  becomes : f.Becomes f'
  alive : ∀ id s, f.session? id = some s → f'.isClosed id = f.isClosed id
  role : ∀ id s, f.session? id = some s → ∃ s', f'.session? id = some s' ∧ s'.role = s.role

/-- Callers ask for the session of a key, one after the other. -/
inductive Callers (key : String) (role : Role) : Fabric → List Caller → Prop where
  | nil (f : Fabric) : Callers key role f []
  | cons {f : Fabric} {c : Caller} {callers : List Caller} (quiet : f.Quiet c.found)
      (later : Callers key role (c.left key role) callers) : Callers key role f (c :: callers)

def Present (key : String) (id : Nat) (f : Fabric) : Prop :=
  f.registry.find? key = some id ∧ f.isClosed id = false

/-- No session that lives has the place of a key. -/
def Absent (key : String) (f : Fabric) : Prop :=
  ∀ id, f.registry.find? key = some id → f.isClosed id = true

variable {c : Caller} {callers : List Caller} {role : Role} {peerAddr : String} {fault : Fault}

namespace Quiet

theorem refl (f : Fabric) : f.Quiet f :=
  ⟨rfl, .refl f, fun _ _ _ => rfl, fun _ s hs => ⟨s, hs, rfl⟩⟩

theorem trans (h : f.Quiet f') (h' : f'.Quiet f'') : f.Quiet f'' where
  registry := h'.registry.trans h.registry
  becomes := h.becomes.trans h'.becomes
  alive id s hs := by
    obtain ⟨s', hs', -⟩ := h.role id s hs
    rw [h'.alive id s' hs', h.alive id s hs]
  role id s hs := by
    obtain ⟨s', hs', hrole⟩ := h.role id s hs
    obtain ⟨s'', hs'', hrole'⟩ := h'.role id s' hs'
    exact ⟨s'', hs'', hrole'.trans hrole⟩

theorem kept (h : f.Quiet f') (hf : f.Kept) : f'.Kept :=
  hf.of_same h.becomes h.registry

theorem isClosed (h : f.Quiet f') (hf : f.Kept) (hfound : f.registry.find? key = some id) :
    f'.isClosed id = f.isClosed id := by
  obtain ⟨s, hs, -⟩ := hf.ownKey key id hfound
  exact h.alive id s hs

theorem present (h : f.Quiet f') (hf : f.Kept) (hpresent : f.Present key id) :
    f'.Present key id :=
  ⟨by rw [h.registry, hpresent.1], by rw [h.isClosed hf hpresent.1, hpresent.2]⟩

theorem absent (h : f.Quiet f') (hf : f.Kept) (habsent : f.Absent key) : f'.Absent key := by
  intro id hfound
  rw [h.registry] at hfound
  rw [h.isClosed hf hfound, habsent id hfound]

end Quiet

/-! ## One call -/

/-- Who finds a session that lives gets it, and nothing changes. -/
theorem result_of_present (role : Role) (h : c.found.Present key id) :
    c.result key role = (.ok id, false, c.found) := by
  obtain ⟨hfound, hlive⟩ := h
  simp only [Caller.result, lookupOrAdd, Registry.findOrAdd, hfound, hlive]
  rfl

theorem result_of_fault (role : Role) (h : c.found.Absent key)
    (hfault : c.supplier = .error fault) :
    c.result key role = (.error fault, true, c.found) := by
  unfold Caller.result
  rcases c.found.lookupOrAdd_cases key (c.supplier.map fun peerAddr => .start key peerAddr role)
    c.capacity with ⟨id, hfound, hlive, -⟩ | ⟨fault', hfault', heq⟩ | ⟨s, hs, -, -⟩
  · rw [h id hfound] at hlive
    cases hlive
  · rw [hfault] at hfault'
    cases hfault'
    exact heq
  · rw [hfault] at hs
    cases hs

/-- Whose supplier gives something gets a new session, which takes the place. -/
theorem result_of_made (role : Role) (h : c.found.Absent key) (hok : c.supplier = .ok peerAddr) :
    c.result key role = (.ok c.found.seats.size, true,
      (c.found.addSilent c.capacity (.start key peerAddr role)).2.supplant key
        c.found.seats.size) := by
  unfold Caller.result
  rcases c.found.lookupOrAdd_cases key (c.supplier.map fun peerAddr => .start key peerAddr role)
    c.capacity with ⟨id, hfound, hlive, -⟩ | ⟨fault, hfault, -⟩ | ⟨s, hs, -, heq⟩
  · rw [h id hfound] at hlive
    cases hlive
  · rw [hok] at hfault
    cases hfault
  · rw [hok] at hs
    cases hs
    exact heq

/-- A supplier is asked only if no session that lives is there. -/
theorem absent_of_asked (h : c.asked key role = true) : c.found.Absent key := by
  intro id hfound
  cases hclosed : c.found.isClosed id with
  | true => rfl
  | false =>
    rw [Caller.asked, result_of_present role ⟨hfound, hclosed⟩] at h
    cases h

/-! ## One call after the other -/

theorem Callers.of_present (h : Callers key role f callers) (hf : f.Kept)
    (hpresent : f.Present key id) : ∀ c ∈ callers,
      c.asked key role = false ∧ c.outcome key role = .ok id ∧ f.Quiet (c.left key role) := by
  induction h with
  | nil => simp
  | @cons f c callers hquiet _ ih =>
    have hresult := result_of_present role (hquiet.present hf hpresent)
    have hleft : c.left key role = c.found := congrArg (·.2.2) hresult
    rw [hleft] at ih
    intro d hd
    rcases List.mem_cons.1 hd with rfl | hd
    · exact ⟨congrArg (·.2.1) hresult, congrArg (·.1) hresult, by rw [hleft]; exact hquiet⟩
    · obtain ⟨hasked, houtcome, hd⟩ := ih (hquiet.kept hf) (hquiet.present hf hpresent) d hd
      exact ⟨hasked, houtcome, hquiet.trans hd⟩

/-- Callers whose suppliers fail leave everything to the next one. -/
theorem Callers.of_absent {earlier later : List Caller}
    (h : Callers key role f (earlier ++ c :: later)) (hf : f.Kept) (habsent : f.Absent key)
    (hfail : ∀ e ∈ earlier, e.Fails) :
    f.Quiet c.found ∧ Callers key role (c.left key role) later := by
  induction earlier generalizing f with
  | nil =>
    cases h with
    | cons hquiet hlater => exact ⟨hquiet, hlater⟩
  | cons e earlier ih =>
    cases h with
    | cons hquiet hlater =>
      obtain ⟨fault, hfault⟩ := hfail e List.mem_cons_self
      have hleft : e.left key role = e.found :=
        congrArg (·.2.2) (result_of_fault role (hquiet.absent hf habsent) hfault)
      rw [hleft] at hlater
      obtain ⟨hc, hlater⟩ := ih hlater (hquiet.kept hf) (hquiet.absent hf habsent)
        fun d hd => hfail d (List.mem_cons_of_mem _ hd)
      exact ⟨hquiet.trans hc, hlater⟩

structure Holds (key : String) (role : Role) (id : Nat) (f f' : Fabric) : Prop where
  present : f'.Present key id
  role : ∃ s, f'.session? id = some s ∧ s.role = role
  /-- Who had the place is somebody else, was closed by the registry, and is under no key. -/
  stale : ∀ j, f.registry.find? key = some j → j ≠ id ∧
    (∃ s, f'.session? j = some s ∧ s.isClosed = true ∧ s.closing = true) ∧ ¬ f'.Registered j

theorem Holds.quiet (h : Holds key role id f f') (hf : f'.Kept) (hquiet : f'.Quiet f'') :
    Holds key role id f f'' := by
  obtain ⟨s, hs, hrole⟩ := h.role
  obtain ⟨s', hs', hrole'⟩ := hquiet.role id s hs
  refine ⟨hquiet.present hf h.present, ⟨s', hs', hrole'.trans hrole⟩, fun j hj => ?_⟩
  obtain ⟨hne, ⟨t, ht, hclosed, hclosing⟩, hout⟩ := h.stale j hj
  obtain ⟨t', ht', hbecomes⟩ := hquiet.becomes.goOn j t ht
  refine ⟨hne, ⟨t', ht', hbecomes.isClosed hclosed, hbecomes.closing hclosing⟩, ?_⟩
  rintro ⟨k, hk⟩
  rw [hquiet.registry] at hk
  exact hout ⟨k, hk⟩

/-- The session whose place is taken is closed by the registry. -/
theorem closing_supplant (id : Nat) (hs : f.session? j = some s)
    (hold : f.registry.find? key = some j) :
    ∃ t, (f.supplant key id).session? j = some t ∧ t.closing = true := by
  refine ⟨s.close.2, ?_, s.closing_close⟩
  simp only [supplant, hold]
  let g : Fabric := { f with registry := (f.registry.insert key id).2 }
  have hclose : (g.closeSession j).session? j = _ := session?_closeSession g j
  rw [if_pos rfl] at hclose
  exact hclose.trans (congrArg (Option.map fun s => s.close.2) hs)

theorem holds_left (role : Role) (hf : c.found.Kept) (h : c.found.Absent key)
    (hok : c.supplier = .ok peerAddr) :
    Holds key role c.found.seats.size c.found (c.left key role) := by
  have hresult := result_of_made role h hok
  obtain ⟨hlive, hfound⟩ := lookupOrAdd_live hf (congrArg (·.1) hresult)
  have hleft : c.left key role = _ := congrArg (·.2.2) hresult
  dsimp only at hleft
  have hadded : c.found.Becomes (c.found.addSilent c.capacity (.start key peerAddr role)).2 :=
    .after (becomes_addSession _ (.start key peerAddr role) _ _) rfl
  have hnew : c.found.registry.find? key ≠ some c.found.seats.size := by
    intro hj
    obtain ⟨s, hs, -⟩ := hf.ownKey key _ hj
    exact absurd (session?_lt hs) (Nat.lt_irrefl _)
  refine ⟨⟨hfound, hlive⟩, ⟨.start key peerAddr role, ?_, ?_⟩, fun j hj => ⟨?_, ?_, ?_⟩⟩
  · rw [hleft]
    refine (session?_supplant_of_new ?_).trans ((addSilent_session? _ _ _).trans (if_pos rfl))
    exact hnew
  · cases role <;> rfl
  · rintro rfl
    exact hnew hj
  · obtain ⟨s, hs, -⟩ := hf.ownKey key j hj
    obtain ⟨s', hs', -⟩ := hadded.goOn j s hs
    obtain ⟨t, ht, hclosing⟩ := closing_supplant c.found.seats.size hs' hj
    have hclosed : (c.left key role).isClosed j = true :=
      (becomes_deal _ (.findOrAdd key role c.supplier c.capacity)).isClosed hs (h j hj)
    rw [hleft, isClosed_of_session ht] at hclosed
    exact ⟨t, by rw [hleft, ht], hclosed, hclosing⟩
  · rw [hleft]
    refine (hf.of_same hadded rfl).not_registered_supplant hj ?_
    rintro rfl
    exact hnew hj

/-- What callers get who ask for the session of a key, one after the other. -/
structure Converge (key : String) (role : Role) (f : Fabric) (callers : List Caller) : Prop where
  /-- If a session that lives has the place, no supplier is asked, and all get that session. -/
  present : ∀ id, f.Present key id → ∀ c ∈ callers,
    c.asked key role = false ∧ c.outcome key role = .ok id ∧ (c.left key role).registry = f.registry
  /-- Otherwise a supplier is asked as long as those before it have failed. -/
  asked : f.Absent key → ∀ earlier c later, callers = earlier ++ c :: later →
    (∀ e ∈ earlier, e.Fails) → c.asked key role = true
  /-- The first that does not fail makes a session, which has the place from then on. Everybody gets
  it, and nobody else's supplier is asked. -/
  made : f.Absent key → ∀ earlier c later peerAddr, callers = earlier ++ c :: later →
    (∀ e ∈ earlier, e.Fails) → c.supplier = .ok peerAddr → ∃ id, c.found.session? id = none ∧
      (∀ d ∈ c :: later, d.outcome key role = .ok id ∧ Holds key role id f (d.left key role)) ∧
      ∀ d ∈ later, d.asked key role = false
  /-- Whose supplier fails is told how, and nothing changes. -/
  failed : ∀ c ∈ callers, ∀ fault, c.asked key role = true → c.supplier = .error fault →
    c.outcome key role = .error fault ∧ c.left key role = c.found

/-- **Callers converge on one session.** Whatever is registered, and however many callers there are
with whatever suppliers: the first that can make a session makes it, and all after it share it. -/
theorem callers_converge (before : List Dealing) (key : String) (role : Role)
    (callers : List Caller) (h : Callers key role (before.foldl deal {}) callers) :
    Converge key role (before.foldl deal {}) callers := by
  have hf := kept_deals kept_empty before
  generalize before.foldl deal {} = f at h hf
  refine ⟨fun id hpresent c hc => ?_, ?_, ?_, ?_⟩
  · obtain ⟨hasked, houtcome, hquiet⟩ := h.of_present hf hpresent c hc
    exact ⟨hasked, houtcome, hquiet.registry⟩
  · rintro habsent earlier c later rfl hfail
    obtain ⟨hquiet, -⟩ := h.of_absent hf habsent hfail
    have hc := hquiet.absent hf habsent
    cases hsupplier : c.supplier with
    | error fault => exact congrArg (·.2.1) (result_of_fault role hc hsupplier)
    | ok peerAddr => exact congrArg (·.2.1) (result_of_made role hc hsupplier)
  · rintro habsent earlier c later peerAddr rfl hfail hok
    obtain ⟨hquiet, hlater⟩ := h.of_absent hf habsent hfail
    have hc := hquiet.kept hf
    have habsent' := hquiet.absent hf habsent
    have hkept : (c.left key role).Kept := hc.deal (.findOrAdd key role c.supplier c.capacity)
    have hmade : Holds key role c.found.seats.size f (c.left key role) := by
      obtain ⟨hpresent, hrole, hstale⟩ := holds_left role hc habsent' hok
      exact ⟨hpresent, hrole, fun j hj => hstale j (by rw [hquiet.registry, hj])⟩
    have hshared := hlater.of_present hkept hmade.present
    refine ⟨c.found.seats.size, session?_eq_none_iff.2 (Nat.le_refl _), fun d hd => ?_,
      fun d hd => (hshared d hd).1⟩
    rcases List.mem_cons.1 hd with rfl | hd
    · exact ⟨congrArg (·.1) (result_of_made role habsent' hok), hmade⟩
    · obtain ⟨-, houtcome, hthen⟩ := hshared d hd
      exact ⟨houtcome, hmade.quiet hkept hthen⟩
  · intro c _ fault hasked hfault
    have hresult := result_of_fault role (absent_of_asked hasked) hfault
    exact ⟨congrArg (·.1) hresult, congrArg (·.2.2) hresult⟩

/-- Callers with some suppliers, and nothing in between. -/
def inTurn (key : String) (role : Role) (capacity : Nat) :
    Fabric → List (Except Fault String) → List Caller
  | _, [] => []
  | f, supplier :: suppliers =>
    let c : Caller := ⟨f, supplier, capacity⟩
    c :: inTurn key role capacity (c.left key role) suppliers

theorem callers_inTurn (key : String) (role : Role) (capacity : Nat) (f : Fabric)
    (suppliers : List (Except Fault String)) :
    Callers key role f (inTurn key role capacity f suppliers) := by
  induction suppliers generalizing f with
  | nil => exact .nil f
  | cons supplier suppliers ih => exact .cons (.refl f) (ih _)

/-- The session of a peer has been cancelled; of four callers the first cannot reach the peer and
the second can. -/
theorem callers_converge_reconnected :
    let before := [Dealing.findOrAdd "nas01" .server (.ok "10.0.0.7:50100") 64, .cancel 0]
    let callers := inTurn "nas01" .server 64 (before.foldl deal {})
      [.error (.upgrade "bad handshake"), .ok "10.0.0.7:50200", .error (.helper "no such file"),
        .ok "10.0.0.7:50300"]
    Converge "nas01" .server (before.foldl deal {}) callers ∧
      callers.map (fun c => (c.outcome "nas01" .server, c.asked "nas01" .server)) =
        [(.error (.upgrade "bad handshake"), true), (.ok 1, true), (.ok 1, false),
          (.ok 1, false)] := by
  intro before callers
  exact ⟨callers_converge before "nas01" .server callers (callers_inTurn _ _ _ _ _),
    by decide +kernel⟩

end Switchboard.Fabric
