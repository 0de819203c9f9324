import Switchboard.Call
import Switchboard.Config
import Switchboard.Files
import Switchboard.Router
import Switchboard.Session

/-!
# Helpers

A helper is a process that answers the process which started it, over its standard channels. A
variable in its environment, the marker, tells it so: it must be exactly "1". `HelperCommand` is
how a helper is started, and `Helper` what a program that was started does with its channels, be it
a helper or not.
-/

namespace Switchboard

/-- Variables and their values. A later entry hides those before it. -/
abbrev Environment := List (String × ByteArray)

namespace Environment

def isName (name : String) : Bool :=
  !name.isEmpty && !name.toList.contains '\x00'

/-- What a line of the environment, a name and a value with an equals sign between them, says of a
variable. -/
def valueIn? (name : String) (line : ByteArray) : Option ByteArray :=
  let start := (name ++ "=").toUTF8
  if line.extract 0 start.size = start then some (line.extract start.size line.size) else none

def value? (environment : Environment) (name : String) : Option ByteArray :=
  if isName name then
    environment.reverse.findSome? fun (known, value) =>
      valueIn? name ((known ++ "=").toUTF8 ++ value)
  else none

/-- Whether the process is a helper by a marker (`from_env_var`): the marker, if it is. -/
def helper (environment : Environment) (marker : String) : Except Fault String :=
  if environment.value? marker = some "1".toUTF8 then .ok marker
  else .error (.notAHelper marker)

end Environment

/-- How a helper is started (`ChildCommand`). -/
structure HelperCommand where
  program : String
  args : List String := []
  environment : List (String × String) := []
  marker : String := ({} : Config).childMarker
  key? : Option String := none
  deriving Inhabited

namespace HelperCommand

/-- The last step of a path, if it names a file or a directory. -/
def fileName? (path : String) : Option String :=
  match (Files.steps path).getLast? with
  | some step => if step = ".." then none else some step
  | none => none

/-- The key of the session with a helper (`session_key`): the name of the program unless one is set.
-/
def key (command : HelperCommand) : String :=
  match command.key? with
  | some key => key
  | none => (fileName? command.program).getD command.program

/-- The variables that the helper gets besides those of the process; the marker hides all else. -/
def given (command : HelperCommand) : Environment :=
  (command.environment ++ [(command.marker, "1")]).map fun (name, value) => (name, value.toUTF8)

def hasNul (command : HelperCommand) : Bool :=
  let texts := [command.program, command.marker] ++ command.args ++
    command.environment.flatMap fun (name, value) => [name, value]
  texts.any fun text => text.toList.contains '\x00'

/-- What comes of starting a command which the operating system would start as `found`. -/
def started (command : HelperCommand) (found : Except IoFault α) : Except IoFault α :=
  if command.hasNul then .error ⟨.invalidInput, "nul byte found in provided data"⟩ else found

def spawnFault (command : HelperCommand) (fault : IoFault) : Fault :=
  .helper s!"failed to spawn {command.program}: {fault.text}"

def handshakeFault (fault : Fault) : Fault :=
  .helper s!"handshake failed: {fault.message}"

end HelperCommand

/-- What a program that runs does with its channels. -/
inductive Helper where
  /-- It answers its parent if its environment has the marker that it looks for, and ends at once
  otherwise. -/
  | answers (router : Router) (marker : String)
  /-- It writes what it reads. -/
  | echoes
  /-- It does nothing for so many milliseconds. -/
  | sleeps (millis : Nat)
  /-- It ends at once. -/
  | leaves
  deriving Inhabited

namespace Helper

/-- The milliseconds that a text of seconds stands for: digits, perhaps a point and more digits, and
a letter for a longer unit. -/
def millis? (text : String) : Option Nat :=
  let (number, unit) := match text.toList.getLast? with
    | some 's' => (text.toList.dropLast, 1000)
    | some 'm' => (text.toList.dropLast, 60000)
    | some 'h' => (text.toList.dropLast, 3600000)
    | some 'd' => (text.toList.dropLast, 86400000)
    | _ => (text.toList, 1000)
  let whole := number.takeWhile (· ≠ '.')
  let part := (number.dropWhile (· ≠ '.')).drop 1
  let digits := whole ++ part
  if digits.isEmpty || !digits.all Char.isDigit then none
  else some (digits.foldl (fun n c => n * 10 + (c.toNat - 48)) 0 * unit / 10 ^ part.length)

def ofProgram (files : Files) (program : Program) (args : List String) : Helper :=
  match program.resolve files args with
  | (.echo, args) => if args.all (·.startsWith "-") then .echoes else .leaves
  | (.sleep, []) => .leaves
  | (.sleep, args) =>
    match args.mapM millis? with
    | some times => .sleeps times.sum
    | none => .leaves
  | (.leave, _) | (.shell, _) => .leaves

def start (files : Files) (command : HelperCommand) : Except IoFault Helper :=
  (files.program command.program).map fun program => ofProgram files program command.args

end Helper

end Switchboard
