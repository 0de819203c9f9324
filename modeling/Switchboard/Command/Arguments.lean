import Switchboard.Instances

/-!
# Arguments

The arguments of the command: options of the whole program, which may stand before or behind the
name of a subcommand, and those of the subcommand. A letter stands behind one dash, letters may
share it, and a value follows its option, with or without an equals sign. What cannot be read is a
mistake in the usage.
-/

namespace Switchboard

inductive Command where
  /-- Accept agents, perhaps at another address than the configured one. -/
  | serve (listen? : Option String)
  /-- Dial a server, perhaps another one and under another key. -/
  | agent (server? peerKey? : Option String)
  /-- Answer the parent over the standard channels. -/
  | child
  /-- Start a helper and ping it, perhaps another program and within so many seconds. -/
  | pingChild (program? : Option String) (seconds? : Option Nat)
  deriving DecidableEq, Repr

structure Invocation where
  config? : Option String
  command : Command
  deriving DecidableEq, Repr

namespace Arguments

def usage : String :=
  "Usage: switchboard [-c FILE] [-d] COMMAND\n\n" ++
  "  serve [--listen ADDRESS]\n" ++
  "  agent [--server ADDRESS] [--peer-key KEY]\n" ++
  "  child\n" ++
  "  ping-child [PROGRAM] [--timeout-secs SECONDS]\n"

inductive ValueKind where
  | text
  /-- A path, which is never empty. -/
  | path
  /-- A number below 2^64. -/
  | number
  deriving DecidableEq, Repr

/-- The options of a level: those with a value, and how many words may stand beside them. -/
structure Level where
  options : List (String × ValueKind)
  words : Nat := 0

structure Matches where
  values : List (String × String) := []
  debug : Bool := false
  words : List String := []
  /-- Whether all that follows is words. -/
  escaped : Bool := false

inductive Token where
  | word
  | escape
  /-- Options without a value, and then perhaps one with a value, which may be part of the
  argument. -/
  | options (debugs : Nat) (last? : Option (String × Option String))
  | help
  | unknown

/-- The number that a text stands for, if it is below 2^64; a plus sign may stand before it. -/
def number? (text : String) : Option Nat :=
  let digits := match text.toList with
    | '+' :: rest => rest
    | cs => cs
  if digits.isEmpty || !digits.all Char.isDigit then none
  else (some (digits.foldl (fun n c => n * 10 + (c.toNat - 48)) 0)).filter (· < 2 ^ 64)

def ValueKind.accepts (kind : ValueKind) (text : String) : Bool :=
  match kind with
  | .text => true
  | .path => !text.isEmpty
  | .number => (number? text).isSome

def letters : List Char → Token
  | [] => .options 0 none
  | 'h' :: _ => .help
  | 'd' :: rest =>
    match letters rest with
    | .options n last => .options (n + 1) last
    | other => other
  | ['c'] => .options 0 (some ("config", none))
  | 'c' :: '=' :: value => .options 0 (some ("config", some (String.ofList value)))
  | 'c' :: value => .options 0 (some ("config", some (String.ofList value)))
  | _ => .unknown

def long (level : Level) (text : List Char) : Token :=
  let name := String.ofList (text.takeWhile (· ≠ '='))
  let value? := match text.dropWhile (· ≠ '=') with
    | _ :: value => some (String.ofList value)
    | [] => none
  if name = "help" && value?.isNone then .help
  else if name = "debug" && value?.isNone then .options 1 none
  else if (level.options.lookup name).isSome then .options 0 (some (name, value?))
  else .unknown

def token (level : Level) (arg : String) : Token :=
  match arg.toList with
  | ['-', '-'] => .escape
  | '-' :: '-' :: name => long level name
  | '-' :: c :: rest => letters (c :: rest)
  | _ => .word

/-- Whether an argument looks like an option, so that it is no value of the one before it. -/
def isDashed (arg : String) : Bool :=
  match arg.toList with
  | '-' :: _ :: _ => true
  | _ => false

inductive Reading where
  | done (found : Matches) (rest : List String)
  | help
  | mistake

/-- Take note of options without a value. One may stand only once. -/
def Matches.addDebug (n : Nat) (m : Matches) : Option Matches :=
  if n = 0 then some m
  else if n = 1 && !m.debug then some { m with debug := true }
  else none

def Matches.addValue (level : Level) (name value : String) (m : Matches) : Option Matches :=
  match level.options.lookup name with
  | some kind =>
    if (m.values.lookup name).isSome || !kind.accepts value then none
    else some { m with values := m.values ++ [(name, value)] }
  | none => none

/-- Read the arguments of a level. Where no words may stand, the first one ends it. -/
def read (level : Level) (stops : Bool) (m : Matches) : List String → Reading
  | [] => .done m []
  | arg :: rest =>
    let asWord : Reading :=
      if stops then .done m (arg :: rest)
      else if level.words ≤ m.words.length || arg.isEmpty then .mistake
      else read level stops { m with words := m.words ++ [arg] } rest
    if m.escaped then asWord
    else
      match token level arg with
      | .word => asWord
      | .escape => if stops then .mistake else read level stops { m with escaped := true } rest
      | .help => .help
      | .unknown => .mistake
      | .options n last? =>
        match m.addDebug n, last? with
        | none, _ => .mistake
        | some m, none => read level stops m rest
        | some m, some (name, some value) =>
          match m.addValue level name value with
          | none => .mistake
          | some m => read level stops m rest
        | some m, some (name, none) =>
          match rest with
          | [] => .mistake
          | value :: rest =>
            if isDashed value then .mistake
            else
              match m.addValue level name value with
              | none => .mistake
              | some m => read level stops m rest

/-- The option that stands at every level. -/
def everywhere : List (String × ValueKind) :=
  [("config", .path)]

def level? : String → Option Level
  | "serve" => some ⟨everywhere ++ [("listen", .text)], 0⟩
  | "agent" => some ⟨everywhere ++ [("server", .text), ("peer-key", .text)], 0⟩
  | "child" => some ⟨everywhere, 0⟩
  | "ping-child" => some ⟨everywhere ++ [("timeout-secs", .number)], 1⟩
  | _ => none

def command (name : String) (m : Matches) : Command :=
  match name with
  | "serve" => .serve (m.values.lookup "listen")
  | "agent" => .agent (m.values.lookup "server") (m.values.lookup "peer-key")
  | "child" => .child
  | _ => .pingChild m.words.head? ((m.values.lookup "timeout-secs").bind number?)

inductive Parsed where
  | run (invocation : Invocation)
  /-- An explanation was asked for. -/
  | help
  | mistake
  deriving DecidableEq, Repr

def explain : List String → Parsed
  | [] | ["help"] => .help
  | [name] => if (level? name).isSome then .help else .mistake
  | _ => .mistake

def parse (args : List String) : Parsed :=
  match read ⟨everywhere, 0⟩ true {} args with
  | .help => .help
  | .mistake | .done _ [] => .mistake
  | .done before (name :: rest) =>
    match level? name with
    | none => if name = "help" then explain rest else .mistake
    | some level =>
      match read level false {} rest with
      | .help => .help
      | .mistake => .mistake
      | .done m _ =>
        let config? := (m.values.lookup "config").orElse fun _ => before.values.lookup "config"
        .run ⟨config?, command name m⟩

end Arguments

end Switchboard
