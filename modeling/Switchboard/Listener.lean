import Switchboard.Agent
import Switchboard.Service

/-!
# Listeners

A listener grants the upgrade requests for its path and registers a session for each, under the key
that the agent gave or else the address it came from. It serves every session until that closes or
the listener stops, and then takes it out of the registry if it is still the one under its key.
-/

namespace Switchboard

def handshakeLimit : Duration := .ofSecs 10

structure Listener where
  upgradePath : String
  peerHeader : String
  deriving DecidableEq, Repr, Inhabited

/-- What becomes of a connection. -/
inductive Admission where
  | registered (session : Session)
  | rejected (fault : Fault)
  | timedOut
  deriving Inhabited

namespace Listener

def ofConfig (config : Config) : Listener :=
  ⟨config.upgradePath, config.peerHeader⟩

/-- The key of the agent that sent a head from an address. -/
def keyOf (listener : Listener) (head : RequestHead) (remoteIp : String) : String :=
  match Headers.find? head.headers listener.peerHeader with
  | some key => if key.isEmpty then remoteIp else key
  | none => remoteIp

/-- Take in a connection from an address (`register_connection`). -/
def takeIn (listener : Listener) (remoteIp : String) (port : Nat) (c : Connection) :
    Admission × Connection :=
  let remote := s!"{remoteIp}:{port}"
  match c.grantUpgrade remote (some listener.upgradePath) with
  | (.waiting, c) => (.timedOut, c)
  | (.failed fault, c) => (.rejected fault, c)
  | (.done head, c) => (.registered (.start (listener.keyOf head remoteIp) remote .server), c)

end Listener

/-- The serving of a registered session. -/
structure Hosting where
  key : String
  serving : Serving

namespace Hosting

/-- What is done in the end: the session is taken out of the registry and let go of. -/
def farewell (hosting : Hosting) : List Deed :=
  [.evict hosting.key hosting.serving.session, .release hosting.serving.session]

def hear (signal : Signal) (hosting : Hosting) : Hosting × List Deed :=
  let (serving, deeds) := hosting.serving.hear signal
  let hosting := { hosting with serving }
  (hosting, if serving.stage = .done then deeds ++ hosting.farewell else deeds)

/-- What is let go of when the listener stops. -/
def release (hosting : Hosting) : List Deed :=
  hosting.serving.release ++ hosting.farewell

end Hosting

end Switchboard
