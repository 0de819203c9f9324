import Switchboard.Json.Writer
import Switchboard.Timestamp

/-!
# Peer statuses

What is known of each peer, in a table of slots. A slot changes only when its peer answers a ping
with a version (`record_alive`). `renewed` makes the table for other peers, in which known peers
keep their status, as `refreshed` does.
-/

namespace Switchboard

/-- What is known of a peer (`PeerStatus`). -/
structure PeerState where
  hostname : String
  version : Option String := none
  alive : Bool := false
  lastSeen : Option Timestamp := none
  deriving DecidableEq, Repr, Inhabited

namespace PeerState

def toJson (status : PeerState) : String :=
  let orNull (value : Option String) : List Char :=
    match value with
    | some s => Json.quote s
    | none => "null".toList
  String.ofList (Json.writeObject [("hostname", Json.quote status.hostname),
    ("version", orNull status.version), ("alive", (toString status.alive).toList),
    ("last_seen", orNull (status.lastSeen.map Timestamp.text))])

end PeerState

/-- The statuses of some peers, by slot (`PeerTable`). -/
abbrev Roster := Array PeerState

namespace Roster

/-- A table in which nothing is known of the peers. -/
def ofNames (hostnames : List String) : Roster :=
  (hostnames.map fun hostname => { hostname }).toArray

/-- The peer of a slot answered with a version at a moment (`record_alive`). -/
def noteAlive (table : Roster) (slot : Nat) (version : String) (moment : Timestamp) : Roster :=
  table.modify slot fun status =>
    { status with version := some version, alive := true, lastSeen := some moment }

def withoutRepeats : List String → List String
  | [] => []
  | [name] => [name]
  | a :: b :: rest => if a = b then withoutRepeats (b :: rest) else a :: withoutRepeats (b :: rest)

def inOrder (names : List String) : List String :=
  withoutRepeats (names.mergeSort fun a b => decide (a ≤ b))

/-- The table for some peers (`refreshed`): in order of their names, each once, with what the first
slot of that name knew. -/
def renewed (table : Roster) (hostnames : List String) : Roster :=
  ((inOrder hostnames).map fun hostname =>
    (table.toList.find? (·.hostname = hostname)).getD { hostname }).toArray

end Roster

end Switchboard
