import Switchboard.Proofs.Registry.Keeping
import Switchboard.Proofs.Runs

/-!
# A registry in common use

Clients look keys up, register sessions and remove them; a listener registers the session of each
connection, has it served and evicts it; sweeps ping whoever is registered. A `Concourse` is any
number of them over one fabric. Each does one thing at a time with the registry or with a session,
an `Access`, and the others may do theirs in between: what somebody has found may be out of date
when it comes to acting on it.

Where nobody comes in between, the accesses of an operation come to the operation itself
(`find_alone`, `insert_alone`, `findOrAdd_alone`, `remove_alone`, `removeAll_alone`, `prune_alone`).
-/

namespace Switchboard

/-- One thing that is done at once with the registry or a session. -/
inductive Access where
  /-- Find the session of a key, closed or not. -/
  | find (key : String)
  /-- See whether the session that was found is closed. -/
  | check (key : String) (id : Nat)
  /-- Say what came of it. -/
  | tell (key : String) (session? : Option Nat)
  /-- Register a session under its key. -/
  | insert (id : Nat)
  /-- Find the session of a key, or register a new one in its place if it is closed. -/
  | findOrAdd (key : String) (role : Role) (supplier : Except Fault String) (capacity : Nat)
  | remove (key : String)
  /-- Take out the session of a key if it is closed. -/
  | weed (key : String)
  /-- List the keys, to remove the session of each. -/
  | removeAll
  /-- Do something besides: evict a session, close one, let go of a stream. -/
  | act (deed : Deed)

/-- What a client may begin with. An eviction is only ever what comes of a look at a session. -/
def Access.isRequest : Access → Bool
  | find _ | insert _ | findOrAdd .. | remove _ | weed _ | removeAll | act (.close _) => true
  | _ => false

namespace Fabric

/-- To close the session that has left the registry, if there is one. -/
def closings (session? : Option Nat) : List Access :=
  session?.toList.map fun id => .act (.close id)

/-- What an access makes of a fabric, and what is to be done next because of it. -/
def access (f : Fabric) : Access → Fabric × List Access
  | .find key =>
    (f, match f.registry.find? key with
      | none => [.tell key none]
      | some id => [.check key id])
  | .check key id =>
    (f, if f.isClosed id then [.act (.evict key id), .tell key none] else [.tell key (some id)])
  | .tell _ _ => (f, [])
  | .insert id =>
    match f.session? id with
    | none => (f, [])
    | some s =>
      let (stale?, registry) := f.registry.insert s.key id
      ({ f with registry }, closings stale?)
  | .findOrAdd key role supplier capacity =>
    let supplied := f.registry.findOrAdd f.isClosed key (supplier.map fun _ => f.seats.size)
    let g := match supplied.asked, supplier with
      | true, .ok peerAddr => (f.addSilent capacity (.start key peerAddr role)).2
      | _, _ => f
    ({ g with registry := supplied.registry }, closings supplied.stale?)
  | .remove key =>
    let (id?, registry) := f.registry.remove key
    ({ f with registry }, closings id?)
  | .weed key => ((f.lookup key).2, [])
  | .removeAll => (f, f.registry.entries.map fun entry => .remove entry.1)
  | .act deed => (f.perform deed, [])

def proceed (state : Fabric × List Access) : Fabric × List Access :=
  match state.2 with
  | [] => state
  | access :: later => ((state.1.access access).1, (state.1.access access).2 ++ later)

end Fabric

/-- Whoever uses the registry: a task, and what is yet to be done for each of its parts. A client
has a task that is done with everything. -/
structure Guest where
  task : Task
  todo : Nat → List Access

/-- The things to do for one part, and none for the others. -/
def Guest.only (place : Nat) (accesses : List Access) : Nat → List Access :=
  fun p => if p = place then accesses else []

def Guest.plan (guest : Guest) (place : Nat) (accesses : List Access) : Guest :=
  { guest with todo := fun p => if p = place then accesses else guest.todo p }

structure Concourse where
  fabric : Fabric := {}
  guests : List Guest := []
  /-- Whether the listener has not been cancelled. -/
  listening : Bool := true

/-- The tasks that may begin: sweeps and heartbeats of which nothing has happened yet. -/
def Task.isFresh : Task → Bool
  | .sweep s => s.workers.all fun
    | .free _ => true
    | _ => false
  | .heartbeat b =>
    match b.stage with
    | .waiting => true
    | _ => false
  | _ => false

/-- What happens to sessions, and is none of the registry's. -/
def Fabric.Dealing.isOutside : Fabric.Dealing → Bool
  | .findOrAdd .. | .insert _ | .get _ | .evict .. | .remove _ | .prune | .closeAll
  | .use (.peer _) => false
  | _ => true

namespace Concourse

inductive Move where
  /-- A client begins with some requests. -/
  | client (requests : List Access)
  /-- The listener takes a connection in, whose session is to be registered and served. -/
  | accept (key peerAddr : String) (responder : Responder) (input output : Nat)
  /-- A sweep or a heartbeat begins. -/
  | begin (task : Task)
  /-- A part of a guest does the next thing that it has to do. -/
  | go (guest place : Nat)
  /-- What a guest waits for has come: the need of that number. -/
  | hear (guest number : Nat)
  /-- A sweep or a heartbeat is given up, or the serving of a session once the listener is
  cancelled. -/
  | stop (guest : Nat)
  /-- The listener is cancelled. -/
  | cancel
  /-- Sessions begin, are used and closed, and their connections go on and fail. -/
  | outside (dealing : Fabric.Dealing)

def put (t : Concourse) (i : Nat) (guest : Guest) : Concourse :=
  { t with guests := t.guests.set i guest }

def join (t : Concourse) (guest : Guest) : Concourse :=
  { t with guests := t.guests ++ [guest] }

/-- A part of a guest has heard a signal, and has some deeds to do. -/
def told (t : Concourse) (i place : Nat) (need : Need) (signal : Signal) (guest : Guest)
    (later : List Access) : Concourse :=
  let (task, deeds) := guest.task.hear t.fabric.now place need signal
  t.put i ({ guest with task }.plan place (deeds.map Access.act ++ later))

/-- A part of a guest does a thing that it has to do. -/
def go (t : Concourse) (i place : Nat) (guest : Guest) : Option Concourse :=
  match guest.todo place with
  | [] => none
  | .tell key session? :: later => some (t.told i place (.peer key) (.peer session?) guest later)
  | access :: later =>
    let (fabric, more) := t.fabric.access access
    some ({ t with fabric }.put i (guest.plan place (more ++ later)))

/-- A part of a guest that has nothing to do gets what it waits for, if that is there. A session
that it looks for has to be found first. -/
def hear (t : Concourse) (i place : Nat) (need : Need) (guest : Guest) : Option Concourse :=
  if (guest.todo place).isEmpty then
    match need with
    | .peer key => some (t.put i (guest.plan place [.find key]))
    | need =>
      match t.fabric.meet need with
      | (some signal, fabric) => some ({ t with fabric }.told i place need signal guest [])
      | (none, _) => none
  else none

/-- A guest is stopped. The serving of a session is so only when the listener is cancelled, and
not before the session is registered. -/
def stop (t : Concourse) (i : Nat) (guest : Guest) : Option Concourse :=
  match guest.task with
  | .hosting h =>
    if t.listening || !(guest.todo 0).isEmpty || h.serving.stage = .done then none
    else
      let task := .hosting { h with serving := { h.serving with stage := .done } }
      some (t.put i ({ guest with task }.plan 0 (h.release.map Access.act)))
  | task =>
    some (t.put i ({ guest with task := .errand (.done .pending) }.plan 0
      (guest.todo 0 ++ task.release.map Access.act)))

/-- What a move makes of a concourse, if it is possible. -/
def step (t : Concourse) : Move → Option Concourse
  | .client requests =>
    if requests.all Access.isRequest then
      some (t.join ⟨.errand (.done .ok), Guest.only 0 requests⟩)
    else none
  | .accept key peerAddr responder input output =>
    let (id, fabric) := t.fabric.addSession (.start key peerAddr .server) input output
    some ({ t with fabric }.join
      ⟨.hosting ⟨key, { session := id, responder }⟩, Guest.only 0 [.insert id]⟩)
  | .begin task => if task.isFresh then some (t.join ⟨task, fun _ => []⟩) else none
  | .go i place => t.guests[i]?.bind (t.go i place)
  | .hear i number =>
    t.guests[i]?.bind fun guest =>
      guest.task.needs[number]?.bind fun (place, need) => t.hear i place need guest
  | .stop i => t.guests[i]?.bind (t.stop i)
  | .cancel => some { t with listening := false }
  | .outside dealing =>
    if dealing.isOutside then some { t with fabric := t.fabric.deal dealing } else none

end Concourse

/-! ## Accesses that nobody comes between -/

namespace Fabric

theorem repeat_proceed (n : Nat) (state : Fabric × List Access) :
    Nat.repeat proceed (n + 1) state = Nat.repeat proceed n (proceed state) := by
  induction n with
  | zero => rfl
  | succ n ih =>
    change proceed (Nat.repeat proceed (n + 1) state) = _
    rw [ih]
    rfl

/-- To find a session, see whether it is closed and evict it if so is to look it up. -/
theorem find_alone (f : Fabric) (key : String) :
    ∃ n, Nat.repeat proceed n (f, [.find key]) =
      ((f.lookup key).2, [.tell key (f.lookup key).1]) := by
  unfold lookup
  rw [Registry.get_eq]
  cases hfound : f.registry.find? key with
  | none => exact ⟨1, by simp [Nat.repeat, proceed, access, hfound]⟩
  | some id =>
    cases hclosed : f.isClosed id with
    | false => exact ⟨2, by simp [Nat.repeat, proceed, access, hfound, hclosed, Option.filter]⟩
    | true =>
      exact ⟨3, by simp [Nat.repeat, proceed, access, hfound, hclosed, Option.filter, perform]⟩

/-- The closings that follow an access close the session that has left. -/
theorem closings_alone (f : Fabric) (session? : Option Nat) :
    ∃ n, Nat.repeat proceed n (f, closings session?) = (f.closeSessions session?.toList, []) := by
  cases session? with
  | none => exact ⟨0, rfl⟩
  | some id => exact ⟨1, rfl⟩

/-- What one access leads to, and the accesses after it, in all. -/
theorem alone_of_access {access : Access} {f g : Fabric} {todo : List Access}
    (h : ∃ n, Nat.repeat proceed n (f.access access) = (g, todo)) :
    ∃ n, Nat.repeat proceed n (f, [access]) = (g, todo) := by
  obtain ⟨n, hn⟩ := h
  refine ⟨n + 1, ?_⟩
  rw [repeat_proceed, ← hn]
  simp [proceed]

/-- To register a session and to close the one whose place it took is to register it. -/
theorem insert_alone (f : Fabric) (id : Nat) :
    ∃ n, Nat.repeat proceed n (f, [.insert id]) = (f.register id, []) := by
  apply alone_of_access
  simp only [access, register]
  cases f.session? id with
  | none => exact ⟨0, rfl⟩
  | some s => exact closings_alone _ _

/-- To take a session out and to close it is to remove it. -/
theorem remove_alone (f : Fabric) (key : String) :
    ∃ n, Nat.repeat proceed n (f, [.remove key]) = ((f.unregister key).2, []) := by
  apply alone_of_access
  exact closings_alone _ _

theorem findOrAdd_alone (f : Fabric) (key : String) (role : Role)
    (supplier : Except Fault String) (capacity : Nat) :
    ∃ n, Nat.repeat proceed n (f, [.findOrAdd key role supplier capacity]) =
      (f.deal (.findOrAdd key role supplier capacity), []) := by
  apply alone_of_access
  simp only [access, deal, lookupOrAdd]
  cases supplier with
  | error fault =>
    simp only [Except.map]
    generalize f.registry.findOrAdd f.isClosed key (.error fault) = supplied
    cases supplied.asked <;> exact closings_alone _ _
  | ok peerAddr =>
    simp only [Except.map]
    generalize f.registry.findOrAdd f.isClosed key (.ok f.seats.size) = supplied
    cases supplied.asked <;> exact closings_alone _ _

/-- Whether a session is closed is none of the registry's. -/
theorem closeSession_registry (f : Fabric) (registry : Registry) (id : Nat) :
    { f with registry }.closeSession id = { f.closeSession id with registry } := by
  have hkill : ∀ (pid : Nat) (f : Fabric),
      { f with registry }.kill pid = { f.kill pid with registry } := by
    intro pid f
    have hfold : ∀ (pipes : List Nat) (f : Fabric),
        pipes.foldl (fun f id => f.closePipe id) { f with registry } =
          { pipes.foldl (fun f id => f.closePipe id) f with registry } := by
      intro pipes
      induction pipes with
      | nil => exact fun _ => rfl
      | cons pipe pipes ih => exact fun f => ih (f.closePipe pipe)
    exact hfold ((f.processes.lookup pid).getD [])
      { f with processes := f.processes.filter (·.1 ≠ pid) }
  unfold closeSession onSession
  cases f.seats[id]? with
  | none => rfl
  | some seat =>
    cases hchild : seat.session.close.1 with
    | none => simp only [hchild]
    | some pid =>
      simp only [hchild]
      exact hkill pid
        { f with seats := f.seats.set! id { seat with session := seat.session.close.2 } }

/-- To remove the session of every key is to take all of them out and to close them. -/
theorem removeAll_alone (f : Fabric) (h : f.registry.OnePerKey) :
    ∃ n, Nat.repeat proceed n (f, [.removeAll]) = (f.closeAll, []) := by
  have hremoves : ∀ (entries : List (String × Nat)) (f : Fabric), f.registry = ⟨entries⟩ →
      (entries.map Prod.fst).Nodup →
      ∃ n, Nat.repeat proceed n (f, entries.map fun entry => .remove entry.1) =
        ({ f with registry := {} }.closeSessions (entries.map Prod.snd), []) := by
    intro entries
    induction entries with
    | nil =>
      intro f hregistry _
      refine ⟨0, ?_⟩
      change (f, []) = ({ f with registry := ⟨[]⟩ }, [])
      rw [← hregistry]
    | cons entry entries ih =>
      obtain ⟨key, id⟩ := entry
      intro f hregistry hnodup
      simp only [List.map_cons, List.nodup_cons] at hnodup
      have hfound : f.registry.find? key = some id := by simp [hregistry, Registry.find?]
      have herase : f.registry.erase key = ⟨entries⟩ := by
        simp only [hregistry, Registry.erase, List.filter_cons]
        simp only [ne_eq, not_true_eq_false, decide_false, Bool.false_eq_true, if_false]
        congr 1
        refine List.filter_eq_self.2 ?_
        intro other hother
        refine decide_eq_true ?_
        rintro rfl
        exact hnodup.1 (List.mem_map_of_mem hother)
      obtain ⟨n, hn⟩ := ih ({ f with registry := ⟨entries⟩ }.closeSession id)
        (by rw [closeSession_registry]) hnodup.2
      refine ⟨n + 2, ?_⟩
      rw [repeat_proceed, repeat_proceed]
      have htwo : proceed (proceed (f, ((key, id) :: entries).map fun entry => .remove entry.1)) =
          ({ f with registry := ⟨entries⟩ }.closeSession id,
            entries.map fun entry => .remove entry.1) := by
        simp only [proceed, access, Registry.remove, hfound, herase, List.map_cons, closings,
          Option.toList_some, List.map_nil, List.cons_append, List.nil_append]
        rfl
      rw [htwo, hn, closeSession_registry]
      simp only [List.map_cons, closeSessions, List.foldl_cons, closeSession_registry f {}]
  apply alone_of_access
  exact hremoves f.registry.entries f rfl h

theorem lookup_snd (f : Fabric) (key : String) (h : f.registry.OnePerKey) :
    (f.lookup key).2 = { f with registry := ⟨f.registry.entries.filter fun entry =>
      !(entry.1 == key && f.isClosed entry.2)⟩ } := by
  rw [← Registry.get_snd h]
  rfl

theorem weeds_alone (keys : List String) (f : Fabric) (h : f.registry.OnePerKey) :
    ∃ n, Nat.repeat proceed n (f, keys.map .weed) =
      ({ f with registry := ⟨f.registry.entries.filter fun entry =>
        !(keys.contains entry.1 && f.isClosed entry.2)⟩ }, []) := by
  induction keys generalizing f with
  | nil =>
    refine ⟨0, ?_⟩
    have hall : f.registry.entries.filter (fun _ => true) = f.registry.entries :=
      List.filter_eq_self.2 fun _ _ => rfl
    simp only [List.contains_nil, Bool.false_and, Bool.not_false, hall]
    rfl
  | cons key keys ih =>
    have hlookup := f.lookup_snd key h
    obtain ⟨n, hn⟩ := ih (f.lookup key).2 (by rw [hlookup]; exact h.filter _)
    refine ⟨n + 1, ?_⟩
    rw [repeat_proceed]
    change Nat.repeat proceed n ((f.lookup key).2, keys.map .weed) = _
    have hclosed : (f.lookup key).2.isClosed = f.isClosed := rfl
    rw [hn, hclosed, hlookup, List.filter_filter]
    have hboth : ∀ entry : String × Nat,
        (!(keys.contains entry.1 && f.isClosed entry.2) &&
          !(entry.1 == key && f.isClosed entry.2)) =
        !((key :: keys).contains entry.1 && f.isClosed entry.2) := by
      intro entry
      rw [List.contains_cons]
      cases f.isClosed entry.2 <;> cases entry.1 == key <;> cases keys.contains entry.1 <;> rfl
    simp only [hboth]

/-- To take out the session of every key that has a closed one is to prune. -/
theorem prune_alone (f : Fabric) (h : f.registry.OnePerKey) :
    ∃ n, Nat.repeat proceed n (f, f.registry.entries.map fun entry => .weed entry.1) =
      (f.prune.2, []) := by
  obtain ⟨n, hn⟩ := weeds_alone (f.registry.entries.map Prod.fst) f h
  refine ⟨n, ?_⟩
  rw [List.map_map] at hn
  have hall : (f.registry.entries.filter fun entry =>
      !((f.registry.entries.map Prod.fst).contains entry.1 && f.isClosed entry.2)) =
      f.registry.entries.filter fun entry => !f.isClosed entry.2 := by
    refine List.filter_congr ?_
    intro entry hmem
    have hkey : (f.registry.entries.map Prod.fst).contains entry.1 = true :=
      List.contains_iff_mem.2 (List.mem_map_of_mem hmem)
    rw [hkey, Bool.true_and]
  rw [hall] at hn
  exact hn

end Fabric

end Switchboard
