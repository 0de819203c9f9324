import Switchboard.Command

/-!
# The program

The outer layer of the command: it reads the arguments, the configuration file and the environment,
runs the command and writes what comes of it. In child mode the standard channels carry a session,
whose bytes are passed to a fabric and back. Nothing is decided here.
-/

namespace Switchboard.Main

/-- The number of a failure, which may be given with its sign turned. -/
def numbered (code : UInt32) : IoFault :=
  .ofNumber (if code < 0x80000000 then code.toNat else (0 - code).toNat)

def faultOf : IO.Error → IoFault
  | .noFileOrDirectory _ code _ => numbered code
  | .permissionDenied _ code _ => numbered code
  | .inappropriateType _ code _ => numbered code
  | .invalidArgument _ code _ => numbered code
  | .resourceExhausted _ code _ => numbered code
  | error => ⟨.other, toString error⟩

def readFile (path : String) : IO (Except IoFault ByteArray) := do
  try
    let data ← IO.FS.readBinFile path
    pure (.ok data)
  catch error => pure (.error (faultOf error))

def hostname : IO String := do
  match (← readFile "/etc/hostname").toOption.bind String.fromUTF8? with
  | some text =>
    let name := text.trimAscii.toString
    pure (if name.isEmpty then "localhost" else name)
  | none => pure "localhost"

/-- The machine that an invocation meets: the file and the variable that it asks for. -/
def machine (invocation : Invocation) : IO Machine := do
  let contents ← match invocation.config? with
    | some path => readFile path
    | none => pure (.error Files.noEntry)
  let marker := match invocation.config? with
    | some path => (Config.ofFile path contents).toOption.getD {}
    | none => {}
  let value? ← IO.getEnv marker.childMarker
  let environment := value?.toList.map fun value => (marker.childMarker, value.toUTF8)
  pure { Machine.ofFiles (← hostname) .usual environment {} with readFile := fun _ => contents }

/-- The parent's session over the standard channels, and the pipes that carry it. -/
def parentFabric (hostname : String) : Fabric :=
  let (input, fabric) := ({} : Fabric).addPipe Fabric.helperCapacity
  let (output, fabric) := fabric.addPipe Fabric.helperCapacity
  let (session, fabric) := fabric.addSession (.start "parent" "stdio" .server) input output
  let responder := Responder.router (.answeringPing hostname)
  (fabric.spawn (.serving { session, responder }) false).2

/-- How many bytes a fabric can do with: no more than the peer is about to send. -/
def wanted (fabric : Fabric) : Nat :=
  match fabric.session? 0 with
  | some session => max 1 session.connection.incoming.wanted
  | none => 1

/-- Pass bytes between the standard channels and a session until it is closed. -/
partial def carry (input output : IO.FS.Stream) (fabric : Fabric) : IO Unit := do
  let fabric := fabric.elapse (fabric.now + 1)
  let (ready, fabric) := fabric.meet (.draw 1 Errand.relayRoom)
  match ready with
  | some (.bytes data) =>
    if data.size = 0 then return
    output.write data
    output.flush
    carry input output fabric
  | _ =>
    let data ← input.read (wanted fabric).toUSize
    if data.size = 0 then carry input output (fabric.closePipe 0)
    else carry input output (fabric.doTask (.errand (.pour 0 data 0)) none).2

partial def linger : IO Unit := do
  IO.sleep 1000
  linger

/-- What goes on after a command has been found to be in order. -/
def goOn (command : Command) : IO Unit := do
  match command with
  | .serve _ => linger
  | .child => carry (← IO.getStdin) (← IO.getStdout) (parentFabric (← hostname))
  | .agent .. | .pingChild .. => pure ()

def run (args : List String) : IO UInt32 := do
  let ending ← match Arguments.parse args with
    | .help => pure .explained
    | .mistake => pure .misused
    | .run invocation => do
      let ending := invocation.run (← machine invocation)
      match ending with
      | .done => goOn invocation.command
      | _ => pure ()
      pure ending
  (← IO.getStdout).putStr ending.output
  (← IO.getStderr).putStr ending.errors
  pure ending.code

end Switchboard.Main

def main (args : List String) : IO UInt32 :=
  Switchboard.Main.run args
