import Switchboard.IoFault
import Switchboard.Text.Blank

/-!
# Networks

What a machine's network does for programs: it makes sense of the text of an address, connects to
one and listens on one, or fails as the operating system does. An address is a host, as four
numbers, in brackets or by name, a colon and a port.
-/

namespace Switchboard

/-- A host as an address names it. -/
inductive NetHost where
  | v4 (a b c d : Nat)
  /-- What stands in brackets. -/
  | v6 (text : String)
  | named (name : String)
  deriving DecidableEq, Repr, Inhabited

structure NetAddress where
  host : NetHost
  port : Nat
  deriving DecidableEq, Repr, Inhabited

namespace NetAddress

/-- The value of a text of decimal digits, if it is one and has at least one. -/
def decimal? (cs : List Char) : Option Nat :=
  if cs.isEmpty || !cs.all Char.isDigit then none
  else some (cs.foldl (fun n c => n * 10 + (c.toNat - 48)) 0)

/-- The port that a text stands for; a plus sign may stand before it. -/
def port? (cs : List Char) : Option Nat :=
  let digits := match cs with
    | '+' :: rest => rest
    | cs => cs
  (decimal? digits).filter (· < 65536)

def hostOf (text : String) : NetHost :=
  let parts := (text.splitOn ".").map fun part => (decimal? part.toList).filter (· < 256)
  match parts with
  | [some a, some b, some c, some d] => .v4 a b c d
  | _ =>
    match text.toList with
    | '[' :: rest =>
      if rest.getLast? = some ']' then .v6 (String.ofList rest.dropLast) else .named text
    | _ => .named text

/-- Split a text at its last colon. -/
def splitPort (text : String) : Option (String × List Char) :=
  match (text.toList.reverse).span (· ≠ ':') with
  | (port, _ :: host) => some (String.ofList host.reverse, port.reverse)
  | (_, []) => none

def ofText (text : String) : Except IoFault NetAddress :=
  match splitPort text with
  | none => .error ⟨.invalidInput, "invalid socket address"⟩
  | some (host, port) =>
    match port? port with
    | none => .error ⟨.invalidInput, "invalid port value"⟩
    | some port => .ok ⟨hostOf host, port⟩

end NetAddress

/-- What a machine's network can do. -/
structure Network where
  /-- The hosts that are known by name. -/
  names : List String := ["localhost"]
  /-- Why nothing can be connected to, if that is so. -/
  barrier? : Option IoFault := none
  deriving Inhabited

namespace Network

/-- A network that leads nowhere; a machine may still listen on its own addresses. -/
def isolated : Network :=
  { barrier? := some (.ofNumber 101) }

def unknownName (name : String) : IoFault :=
  ⟨.uncategorized, "failed to lookup address information: " ++
    if name.isEmpty then "Name or service not known" else "Temporary failure in name resolution"⟩

def resolve (network : Network) (text : String) : Except IoFault NetAddress := do
  let address ← NetAddress.ofText text
  match address.host with
  | .named name => if network.names.contains name then pure address else .error (unknownName name)
  | _ => pure address

def connect (network : Network) (text : String) : Except IoFault NetAddress := do
  let address ← network.resolve text
  match network.barrier? with
  | some fault => .error fault
  | none => pure address

/-- Whether a host can be listened on. No routes say of four numbers that they belong elsewhere; of
the hosts in brackets only the one that stands for all is known. -/
def isOwn : NetHost → Bool
  | .v4 .. | .named _ => true
  | .v6 text => text = "::"

/-- Listen on an address. Low ports are reserved; port 0 stands for any that is free. -/
def bind (network : Network) (text : String) : Except IoFault NetAddress := do
  let address ← network.resolve text
  if 0 < address.port && address.port < 1024 then .error (.ofNumber 13)
  else if isOwn address.host then pure address
  else .error (.ofNumber 99)

end Network

end Switchboard
