import Switchboard.Fabric
import Switchboard.Helper

/-!
# Helpers of a fabric

A process is started with two pipes to it, and a session begins over them in which this side plays
the client. A process that ends closes its ends of the pipes.
-/

namespace Switchboard

namespace Fabric

def helperCapacity : Nat := 64 * 1024

/-- Let a process do its work between the pipe that it reads and the one that it writes. -/
def runHelper (process : Helper) (given : Environment) (input output : Nat)
    (fabric : Fabric) : Fabric :=
  match process with
  | .answers router marker =>
    match given.helper marker with
    | .error _ => (fabric.closePipe input).closePipe output
    | .ok _ =>
      let (id, fabric) := fabric.addSession (.start "parent" "stdio" .server) input output
      (fabric.spawn (.serving { session := id, responder := .router router }) false).2
  | .echoes => (fabric.spawn (.errand (.relay input output .empty 0)) false).2
  | .sleeps millis => (fabric.spawn (.errand (.doze (fabric.now + millis) [input, output])) false).2
  | .leaves => (fabric.closePipe input).closePipe output

/-- Start a command as the process that it was found to be (`spawn_child`); the session with it. -/
def startHelper (command : HelperCommand) (found : Except IoFault Helper) (pid : Nat)
    (fabric : Fabric) : Except Fault Nat × Fabric :=
  match command.started found with
  | .error fault => (.error (command.spawnFault fault), fabric)
  | .ok process =>
    let (there, fabric) := fabric.addPipe helperCapacity
    let (back, fabric) := fabric.addPipe helperCapacity
    let session := Session.withChild command.key "pipe" pid
    let (id, fabric) := fabric.addSession session back there
    let fabric := { fabric with processes := (pid, [there, back]) :: fabric.processes }
    (.ok id, fabric.runHelper process command.given there back)

def call (session : Nat) (envelope : Envelope) (limit : Duration) (fabric : Fabric) :
    Except Fault ByteArray × Fabric :=
  let now := fabric.now
  match fabric.doTask (.call (.start session envelope limit now) now) none with
  | (.reply outcome _, fabric) => (outcome, fabric)
  | (_, fabric) => (.error .closed, fabric)

/-- Start a command and ping it (`spawn_child_checked`). The session is closed if it does not
answer. -/
def startCheckedHelper (command : HelperCommand) (found : Except IoFault Helper) (pid : Nat)
    (limit : Duration) (fabric : Fabric) : Except Fault (Nat × PingReply) × Fabric :=
  match fabric.startHelper command found pid with
  | (.error fault, fabric) => (.error fault, fabric)
  | (.ok id, fabric) =>
    let (outcome, fabric) := fabric.call id (Method.ping.envelope ()) limit
    match Method.ping.response? outcome with
    | .ok reply => (.ok (id, reply), fabric)
    | .error fault =>
      (.error (HelperCommand.handshakeFault fault), fabric.closeSession id)

end Fabric

end Switchboard
