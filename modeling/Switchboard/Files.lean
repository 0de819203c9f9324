import Switchboard.IoFault
import Switchboard.Text.Blank

/-!
# Files

The part of a file tree that a program can meet before it has written anything: directories, files
with their contents, and the usual small programs. `Files.find` walks a path and fails as the
operating system does; `read` gives the contents of a file and `program` what a file does when it
is run.
-/

namespace Switchboard

/-- What a small program does with its standard channels. -/
inductive Program where
  /-- It writes what it reads. -/
  | echo
  /-- It ends at once. -/
  | leave
  /-- It does nothing for the seconds that its first argument says. -/
  | sleep
  /-- It runs the command that its second argument says. -/
  | shell
  deriving DecidableEq, Repr

inductive Node where
  | directory
  | file (contents : ByteArray)
  | program (does : Program)
  deriving DecidableEq

/-- A file tree, as a table of the nodes at absolute paths. -/
structure Files where
  nodes : List (List String × Node)

namespace Files

/-- The operating system's numbers of failures. -/
def noEntry : IoFault := .ofNumber 2
def noAccess : IoFault := .ofNumber 13
def noDirectory : IoFault := .ofNumber 20
def isDirectory : IoFault := .ofNumber 21

def steps (path : String) : List String :=
  (path.splitOn "/").filter fun step => step ≠ "" ∧ step ≠ "."

def at? (files : Files) (place : List String) : Option Node :=
  if place.isEmpty then some .directory else files.nodes.lookup place

/-- Walk on from a directory; `place` is where it is. -/
def walk (files : Files) (place : List String) : List String → Except IoFault Node
  | [] =>
    match files.at? place with
    | some node => .ok node
    | none => .error noEntry
  | step :: rest =>
    match files.at? place with
    | some .directory =>
      if step = ".." then files.walk place.dropLast rest else files.walk (place ++ [step]) rest
    | some _ => .error noDirectory
    | none => .error noEntry

/-- Whether only a directory can stand at a path, by the way it ends. -/
def endsInDirectory (path : String) : Bool :=
  path.endsWith "/" || path.endsWith "/."

/-- The node at a path. Nothing stands at the empty path, nor where no directory leads. -/
def find (files : Files) (path : String) : Except IoFault Node :=
  if path.isEmpty then .error noEntry
  else
    match files.walk [] (steps path) with
    | .ok .directory => .ok .directory
    | .ok node => if endsInDirectory path then .error noDirectory else .ok node
    | .error fault => .error fault

/-- How every program's file starts; it is no text. -/
def programContents : ByteArray :=
  ⟨#[0x7F, 0x45, 0x4C, 0x46, 0x80]⟩

def read (files : Files) (path : String) : Except IoFault ByteArray :=
  if path.contains '\x00' then
    .error ⟨.invalidInput, "file name contained an unexpected NUL byte"⟩
  else
    match files.find path with
    | .ok .directory => .error isDirectory
    | .ok (.file contents) => .ok contents
    | .ok (.program _) => .ok programContents
    | .error fault => .error fault

/-- What the program of a name does; a name without a slash is looked for where programs are. -/
def program (files : Files) (name : String) : Except IoFault Program :=
  let path := if name.contains '/' || name.isEmpty then name else "/usr/bin/" ++ name
  match files.find path with
  | .ok (.program does) => .ok does
  | .ok _ => .error noAccess
  | .error fault => .error fault

def programs (directory : List String) : List (List String × Node) :=
  let leaving := ["true", "false", "echo", "printf", "yes", "ls", "pwd", "env", "date", "id",
    "uname", "hostname", "touch", "test"]
  let others : List (String × Program) :=
    [("cat", .echo), ("tee", .echo), ("sleep", .sleep), ("sh", .shell), ("bash", .shell)]
  (leaving.map (·, Program.leave) ++ others).map fun (name, does) =>
    (directory ++ [name], .program does)

def usual : Files where
  nodes :=
    [["bin"], ["usr"], ["usr", "bin"], ["etc"], ["tmp"], ["proc"], ["dev"], ["root"], ["home"],
      ["var"], ["sys"], ["opt"], ["lib"], ["usr", "lib"], ["var", "tmp"]].map (·, .directory)
    ++ [(["etc", "passwd"], .file "root:x:0:0:root:/root:/bin/bash\n".toUTF8),
      (["etc", "hostname"], .file "localhost\n".toUTF8),
      (["dev", "null"], .file ByteArray.empty)]
    ++ programs ["usr", "bin"] ++ programs ["bin"]

end Files

namespace Program

/-- What a shell's command does: the program it names, if that is a small one. -/
def ofCommand (files : Files) (command : String) : Program × List String :=
  match (Text.words command.toList).map String.ofList with
  | "exec" :: name :: args | name :: args => ((files.program name).toOption.getD .leave, args)
  | [] => (.leave, [])

/-- The program that really runs: a shell is what its command is. -/
def resolve (files : Files) (does : Program) (args : List String) : Program × List String :=
  match does, args with
  | .shell, "-c" :: command :: _ => ofCommand files command
  | does, args => (does, args)

end Program

end Switchboard
