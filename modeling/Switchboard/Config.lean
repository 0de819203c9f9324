import Switchboard.Fault
import Switchboard.Json.Reader
import Switchboard.Json.Writer
import Switchboard.Text.Utf8

/-!
# Configuration

The settings of a switchboard: where it listens, how agents introduce themselves, how long calls
may take, how peers are polled, and, for an agent, which server it dials. A configuration is read
from JSON, in which every setting has a default but the server of an agent, and is then checked.
-/

namespace Switchboard

/-- How peers are polled (`PollerConfig`). Times are in seconds. -/
structure PollerSettings where
  /-- How many pings run at the same time. -/
  workers : UInt64 := 10
  pingTimeout : UInt64 := 3
  /-- The time from one sweep to the next; 0 for no sweeps. -/
  interval : UInt64 := 30
  deriving DecidableEq, Repr, Inhabited

namespace PollerSettings

def pingLimit (config : PollerSettings) : Duration :=
  .ofSecs config.pingTimeout.toNat

/-- The time from one sweep to the next (`interval`), if there are sweeps. -/
def period? (config : PollerSettings) : Option Duration :=
  if config.interval = 0 then none else some (.ofSecs config.interval.toNat)

end PollerSettings

/-- Which server an agent dials, and what it says about itself (`AgentConfig`). -/
structure AgentSettings where
  serverAddr : String
  /-- The key the agent is known by; the name of its host if there is none. -/
  peerKey : Option String := none
  headers : List (String × String) := []
  deriving DecidableEq, Repr, Inhabited

/-- The settings (`FabricConfig`). -/
structure Config where
  version : UInt32 := 1
  listenAddr : String := "0.0.0.0:8008"
  /-- The path that agents ask for. -/
  upgradePath : String := "/plus/arpc"
  /-- The header in which agents give their key. -/
  peerHeader : String := "X-Fleet-Peer"
  /-- How long a call may take, in seconds. -/
  callTimeout : UInt64 := 30
  /-- The variable that marks a helper process. -/
  childMarker : String := "FLEETLINK_CHILD"
  poller : PollerSettings := {}
  agent : Option AgentSettings := none
  deriving DecidableEq, Repr, Inhabited

/-! ## Reading -/

namespace Config

open Json (natural string optional)

def currentVersion : UInt32 := 1

def pollerShape : Json.Record PollerSettings where
  name := "PollerConfig"
  fields := ["workers", "ping_timeout_secs", "interval_secs"]
  required := 0
  requiredInList := 0
  blank := {}
  store field config :=
    match field with
    | 0 => do
      let n ← natural (2 ^ 64) "usize"
      pure { config with workers := UInt64.ofNat n }
    | 1 => do
      let n ← natural (2 ^ 64) "u64"
      pure { config with pingTimeout := UInt64.ofNat n }
    | _ => do
      let n ← natural (2 ^ 64) "u64"
      pure { config with interval := UInt64.ofNat n }

def agentShape : Json.Record AgentSettings where
  name := "AgentConfig"
  fields := ["server_addr", "peer_key", "headers"]
  required := 1
  requiredInList := 2
  blank := { serverAddr := "" }
  store field config :=
    match field with
    | 0 => do
      let serverAddr ← string
      pure { config with serverAddr }
    | 1 => do
      let peerKey ← optional string
      pure { config with peerKey }
    | _ => do
      let headers ← Json.list (Json.pair string string)
      pure { config with headers }

def shape : Json.Record Config where
  name := "FabricConfig"
  fields := ["version", "listen_addr", "upgrade_path", "peer_header", "call_timeout_secs",
    "child_env", "poller", "agent"]
  required := 0
  requiredInList := 0
  blank := {}
  store field config :=
    match field with
    | 0 => do
      let n ← natural (2 ^ 32) "u32"
      pure { config with version := UInt32.ofNat n }
    | 1 => do
      let listenAddr ← string
      pure { config with listenAddr }
    | 2 => do
      let upgradePath ← string
      pure { config with upgradePath }
    | 3 => do
      let peerHeader ← string
      pure { config with peerHeader }
    | 4 => do
      let n ← natural (2 ^ 64) "u64"
      pure { config with callTimeout := UInt64.ofNat n }
    | 5 => do
      let childMarker ← string
      pure { config with childMarker }
    | 6 => do
      let poller ← pollerShape.read
      pure { config with poller }
    | _ => do
      let agent ← optional agentShape.read
      pure { config with agent }

/-- What is wrong with the settings, if anything is: the first of the checks of `validate` that
fails. -/
def complaint? (config : Config) : Option String :=
  if currentVersion < config.version then
    some s!"unsupported config version {config.version} (max {currentVersion})"
  else if config.upgradePath.toList.head? ≠ some '/' then
    some s!"upgrade_path must start with '/': {config.upgradePath}"
  else if config.callTimeout = 0 then some "call_timeout_secs must be > 0"
  else if config.poller.workers = 0 then some "poller.workers must be > 0"
  else if config.childMarker.isEmpty then some "child_env must not be empty"
  else none

def validate (config : Config) : Except Fault Unit :=
  match config.complaint? with
  | some reason => .error (.config reason)
  | none => .ok ()

/-- Read a configuration from JSON and check it (`from_json`). -/
def ofJson (text : String) : Except Fault Config :=
  match Json.parse shape.read text with
  | .error flaw => .error (.config flaw.message)
  | .ok config => do
    config.validate
    pure config

def pollerOfJson (text : String) : Except Fault PollerSettings :=
  (Json.parse pollerShape.read text).mapError fun flaw => .config flaw.message

/-- Read a configuration from the contents of a file, or from the failure to read them (`load`). -/
def ofFile (path : String) (contents : Except IoFault ByteArray) : Except Fault Config :=
  match contents with
  | .error fault => .error (.config s!"{path}: {fault.text}")
  | .ok data =>
    match String.fromUTF8? data with
    | none => .error (.config s!"{path}: stream did not contain valid UTF-8")
    | some text => ofJson text

def callLimit (config : Config) : Duration :=
  .ofSecs config.callTimeout.toNat

/-! ## Writing -/

open Json (quote writeNat writeList writeObject)

def writePoller (config : PollerSettings) : List Char :=
  writeObject [("workers", writeNat config.workers.toNat),
    ("ping_timeout_secs", writeNat config.pingTimeout.toNat),
    ("interval_secs", writeNat config.interval.toNat)]

/-- The JSON of the settings of an agent; what is absent or empty is left out. -/
def writeAgent (config : AgentSettings) : List Char :=
  writeObject ([("server_addr", quote config.serverAddr)]
    ++ (config.peerKey.map fun key => ("peer_key", quote key)).toList
    ++ (if config.headers.isEmpty then []
      else [("headers", writeList (config.headers.map fun (name, value) =>
        writeList [quote name, quote value]))]))

def write (config : Config) : List Char :=
  writeObject ([("version", writeNat config.version.toNat),
    ("listen_addr", quote config.listenAddr),
    ("upgrade_path", quote config.upgradePath),
    ("peer_header", quote config.peerHeader),
    ("call_timeout_secs", writeNat config.callTimeout.toNat),
    ("child_env", quote config.childMarker),
    ("poller", writePoller config.poller)]
    ++ (config.agent.map fun agent => ("agent", writeAgent agent)).toList)

def toJson (config : Config) : String :=
  String.ofList config.write

end Config

end Switchboard
