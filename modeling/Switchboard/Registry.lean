import Switchboard.Fault

/-!
# Registries

A registry keeps one session per key. Who looks a key up never gets a session that is closed, and
who registers a session takes the place of the one before it, which is then to be closed. Whether a
session is closed is not for the registry to say: the operations that have to know are told. They
give back the sessions that are to be closed.
-/

namespace Switchboard

/-- Sessions by key (`SessionRegistry`). A key has at most one entry. -/
structure Registry where
  entries : List (String × Nat) := []
  deriving DecidableEq, Repr, Inhabited

/-- What comes of a request for a session that may have to be made. -/
structure Supplied where
  outcome : Except Fault Nat
  registry : Registry
  /-- Whether the supplier was asked. -/
  asked : Bool
  /-- The session to be closed. -/
  stale? : Option Nat := none

namespace Registry

/-- The session that is registered under a key, closed or not. -/
def find? (key : String) (r : Registry) : Option Nat :=
  r.entries.lookup key

def erase (key : String) (r : Registry) : Registry :=
  ⟨r.entries.filter (·.1 ≠ key)⟩

/-- Register a session; the one whose place it takes is to be closed, be it the same. -/
def insert (key : String) (session : Nat) (r : Registry) : Option Nat × Registry :=
  (r.find? key, ⟨(r.erase key).entries ++ [(key, session)]⟩)

/-- Take a session out, if it is the one that is registered under the key. It is not closed. -/
def evict (key : String) (session : Nat) (r : Registry) : Registry :=
  if r.find? key = some session then r.erase key else r

/-- The live session of a key. A closed one is taken out. -/
def get (isClosed : Nat → Bool) (key : String) (r : Registry) : Option Nat × Registry :=
  match r.find? key with
  | none => (none, r)
  | some session =>
    if isClosed session then (none, r.evict key session) else (some session, r)

/-- The live session of a key, or else the one that the supplier makes (`get_or_create`). A supplier
that fails leaves the registry as it is. -/
def findOrAdd (isClosed : Nat → Bool) (key : String) (supplier : Except Fault Nat)
    (r : Registry) : Supplied :=
  match r.find? key with
  | some session =>
    if isClosed session then
      match supplier with
      | .error fault => ⟨.error fault, r, true, none⟩
      | .ok fresh => ⟨.ok fresh, (r.insert key fresh).2, true, some session⟩
    else ⟨.ok session, r, false, none⟩
  | none =>
    match supplier with
    | .error fault => ⟨.error fault, r, true, none⟩
    | .ok fresh => ⟨.ok fresh, (r.insert key fresh).2, true, none⟩

/-- Take the session of a key out; it is to be closed. -/
def remove (key : String) (r : Registry) : Option Nat × Registry :=
  (r.find? key, r.erase key)

/-- Take every closed session out; how many there were. -/
def prune (isClosed : Nat → Bool) (r : Registry) : Nat × Registry :=
  let kept := r.entries.filter fun (_, session) => !isClosed session
  (r.entries.length - kept.length, ⟨kept⟩)

/-- Take every session out; they are to be closed (`close_all`). -/
def clear (r : Registry) : List Nat × Registry :=
  (r.entries.map Prod.snd, {})

def keys (r : Registry) : List String :=
  (r.entries.map Prod.fst).mergeSort fun a b => decide (a ≤ b)

def size (r : Registry) : Nat :=
  r.entries.length

end Registry

end Switchboard
