import Switchboard.Command.Arguments
import Switchboard.Fabric.Helpers
import Switchboard.Listener

/-!
# The command

What the program does for its arguments on a machine: it reads the configuration, and then serves,
dials, answers its parent or pings a helper. `Ending.code` is the exit code and `Complaint.text`
what is said of a failure.
-/

namespace Switchboard

/-- What the program meets where it runs. -/
structure Machine where
  hostname : String
  /-- The contents of the file at a path. -/
  readFile : String → Except IoFault ByteArray
  /-- What comes of starting a helper. -/
  start : HelperCommand → Except IoFault Helper
  network : Network
  environment : Environment := []
  /-- What a server that is dialed will say. -/
  far : Source := {}

/-- Why the program failed: what it was at, and the causes of that. -/
structure Complaint where
  message : String
  causes : List String := []
  deriving DecidableEq, Repr, Inhabited

def Machine.ofFiles (hostname : String) (files : Files) (environment : Environment) (far : Source) :
    Machine :=
  ⟨hostname, files.read, Helper.start files, .isolated, environment, far⟩

namespace Complaint

/-- The complaint about a fault. The failure of a channel is a cause of its own. -/
def ofFault (fault : Fault) : Complaint :=
  match fault with
  | .transport cause => ⟨fault.message, [cause.text]⟩
  | _ => ⟨fault.message, []⟩

def inContext (message : String) (complaint : Complaint) : Complaint :=
  ⟨message, complaint.message :: complaint.causes⟩

def setIn (margin text : String) : String :=
  ("\n" ++ margin).intercalate (text.splitOn "\n")

def causeLines : List String → List String
  | [cause] => ["    " ++ setIn "    " cause]
  | causes => causes.zipIdx.map fun (cause, i) =>
      let number := toString i
      "".pushn ' ' (5 - number.length) ++ number ++ ": " ++ setIn "       " cause

def text (complaint : Complaint) : String :=
  let causes := if complaint.causes.isEmpty then ""
    else "\n\nCaused by:\n" ++ "\n".intercalate (causeLines complaint.causes)
  "Error: " ++ complaint.message ++ causes ++ "\n"

end Complaint

inductive Ending where
  /-- It has done what it was asked to. -/
  | done
  /-- A helper of a number has answered. -/
  | pinged (pid : Nat) (reply : PingReply)
  | failed (complaint : Complaint)
  /-- An explanation of the arguments is given. -/
  | explained
  /-- The arguments were not understood. -/
  | misused
  deriving Inhabited

namespace Ending

def code : Ending → UInt32
  | done | pinged .. | explained => 0
  | failed _ => 1
  | misused => 2

/-- The line about a helper that has answered; its number is given as text. -/
def pingText (pid : String) (reply : PingReply) : String :=
  s!"pid {pid} version {reply.version} host " ++ reply.hostname.getD "-" ++ "\n"

def output : Ending → String
  | pinged pid reply => pingText (toString pid) reply
  | explained => Arguments.usage
  | done | failed _ | misused => ""

def errors : Ending → String
  | failed complaint => complaint.text
  | misused => Arguments.usage
  | done | pinged .. | explained => ""

def ofExcept (result : Except Complaint Unit) : Ending :=
  match result with
  | .ok () => done
  | .error complaint => failed complaint

end Ending

namespace Invocation

def config (invocation : Invocation) (machine : Machine) : Except Complaint Config :=
  match invocation.config? with
  | none => .ok {}
  | some path =>
    (Config.ofFile path (machine.readFile path)).mapError fun fault =>
      (Complaint.ofFault fault).inContext s!"loading config from {path}"

/-- Accept agents until the program is interrupted (`serve`). -/
def serve (config : Config) (listen? : Option String) (machine : Machine) :
    Except Complaint Unit :=
  match machine.network.bind (listen?.getD config.listenAddr) with
  | .error fault => .error (.ofFault (.transport fault))
  | .ok _ => .ok ()

/-- The configuration with another server and another key. A key is of no use without a server. -/
def withAgent (config : Config) (server? peerKey? : Option String) : Config :=
  let agent := match server? with
    | none => config.agent
    | some serverAddr =>
      some ⟨serverAddr, config.agent.bind (·.peerKey), (config.agent.map (·.headers)).getD []⟩
  let agent := match peerKey? with
    | none => agent
    | some key => agent.map fun agent => { agent with peerKey := some key }
  { config with agent }

/-- Dial a server and answer its calls until it ends the session (`agent`). -/
def agent (config : Config) (server? peerKey? : Option String) (machine : Machine) :
    Except Complaint Unit :=
  match Dialer.ofConfig machine.hostname (withAgent config server? peerKey?) with
  | .error fault =>
    .error ((Complaint.ofFault fault).inContext
      "no control-plane address; pass --server or set `agent.server_addr`")
  | .ok dialer =>
    match (dialer.dial machine.network ⟨machine.far, {}⟩).1 with
    | .failed fault => .error (.ofFault fault)
    | .waiting | .done _ => .ok ()

/-- Answer the parent, if there is one, until it is gone (`child`). -/
def child (config : Config) (machine : Machine) : Except Complaint Unit :=
  match machine.environment.helper config.childMarker with
  | .error fault => .error (.ofFault fault)
  | .ok _ => .ok ()

/-- Start a helper, this program itself unless another is named, and ping it (`ping_child`). -/
def pingChild (config : Config) (program? : Option String) (seconds? : Option Nat)
    (machine : Machine) : Ending :=
  let command : HelperCommand := { program := program?.getD "", marker := config.childMarker }
  let found := match program? with
    | some _ => machine.start command
    | none => .ok (.answers (.answeringPing machine.hostname) config.childMarker)
  let limit := (seconds?.map .ofSecs).getD config.callLimit
  match (({} : Fabric).startCheckedHelper command found 1 limit).1 with
  | .error fault => .failed (.ofFault fault)
  | .ok (_, reply) => .pinged 1 reply

def run (invocation : Invocation) (machine : Machine) : Ending :=
  match invocation.config machine with
  | .error complaint => .failed complaint
  | .ok config =>
    match invocation.command with
    | .serve listen? => .ofExcept (serve config listen? machine)
    | .agent server? peerKey? => .ofExcept (agent config server? peerKey? machine)
    | .child => .ofExcept (child config machine)
    | .pingChild program? seconds? => pingChild config program? seconds? machine

end Invocation

def runCommand (args : List String) (machine : Machine) : Ending :=
  match Arguments.parse args with
  | .help => .explained
  | .mistake => .misused
  | .run invocation => invocation.run machine

end Switchboard
