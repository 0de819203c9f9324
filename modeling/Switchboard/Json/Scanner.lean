import Switchboard.Mismatch

/-!
# Scanning JSON

A scanner is a place in a text, counted in lines and in bytes of the line, with what lies ahead. A
flaw is a cause and the place where it is reported: either the place reached, or, where the next
character is to blame, the place after its first byte.
-/

namespace Switchboard.Json

/-- A place in a text: the line, from 1, and the bytes of the line before it. -/
structure Place where
  line : Nat := 1
  column : Nat := 0
  deriving DecidableEq, Repr, Inhabited

def Place.past (place : Place) (c : Char) : Place :=
  if c = '\n' then ⟨place.line + 1, 0⟩ else ⟨place.line, place.column + c.utf8Size⟩

def Place.pastBytes (place : Place) : Nat → List Char → Place
  | _, [] => place
  | n, c :: cs =>
    if c.utf8Size ≤ n then (place.past c).pastBytes (n - c.utf8Size) cs
    else ⟨place.line, place.column + n⟩

/-- A place in a text and what lies ahead. -/
structure Scanner where
  rest : List Char
  place : Place := {}
  deriving DecidableEq, Repr, Inhabited

inductive Cause where
  | endInList
  | endInObject
  | endInString
  | endInValue
  | noColon
  | noListEnd
  | noObjectEnd
  | noIdentifier
  | noValue
  | badEscape
  | badNumber
  | outOfRange
  | control
  | keyNotString
  | loneSurrogate
  | hexEscapeCut
  | trailingComma
  | trailing
  | mismatch (what : Mismatch)
  deriving DecidableEq, Repr, Inhabited

def Cause.message : Cause → String
  | endInList => "EOF while parsing a list"
  | endInObject => "EOF while parsing an object"
  | endInString => "EOF while parsing a string"
  | endInValue => "EOF while parsing a value"
  | noColon => "expected `:`"
  | noListEnd => "expected `,` or `]`"
  | noObjectEnd => "expected `,` or `\x7d`"
  | noIdentifier => "expected ident"
  | noValue => "expected value"
  | badEscape => "invalid escape"
  | badNumber => "invalid number"
  | outOfRange => "number out of range"
  | control => "control character (\\u0000-\\u001F) found while parsing a string"
  | keyNotString => "key must be a string"
  | loneSurrogate => "lone leading surrogate in hex escape"
  | hexEscapeCut => "unexpected end of hex escape"
  | trailingComma => "trailing comma"
  | trailing => "trailing characters"
  | mismatch what => what.message

structure Flaw where
  cause : Cause
  place : Place
  deriving DecidableEq, Repr, Inhabited

def Flaw.message (flaw : Flaw) : String :=
  s!"{flaw.cause.message} at line {flaw.place.line} column {flaw.place.column}"

/-- A reader of one thing, which leaves the scanner after it. -/
def Reader (α : Type) : Type := Scanner → Except Flaw (α × Scanner)

@[always_inline]
instance : Monad Reader where
  pure a := fun s => .ok (a, s)
  bind r f := fun s =>
    match r s with
    | .error flaw => .error flaw
    | .ok (a, s) => f a s

def fail (cause : Cause) : Reader α := fun s =>
  .error ⟨cause, s.place⟩

def Scanner.nextPlace (s : Scanner) : Place :=
  s.place.pastBytes 1 s.rest

/-- Report a cause for which the next character is to blame. -/
def failAhead (cause : Cause) : Reader α := fun s =>
  .error ⟨cause, s.nextPlace⟩

def peek : Reader (Option Char) := fun s =>
  .ok (s.rest.head?, s)

def next : Reader (Option Char) := fun s =>
  match s.rest with
  | [] => .ok (none, s)
  | c :: cs => .ok (some c, ⟨cs, s.place.past c⟩)

def advance : Reader Unit := do
  let _ ← next

def isSpace (c : Char) : Bool :=
  c = ' ' || c = '\n' || c = '\t' || c = '\r'

def Scanner.afterSpaces (s : Scanner) : Scanner :=
  go s.rest s.place
where
  go : List Char → Place → Scanner
    | [], place => ⟨[], place⟩
    | c :: cs, place => if isSpace c then go cs (place.past c) else ⟨c :: cs, place⟩

/-- Pass over spaces and look at the character after them. -/
def peekToken : Reader (Option Char) := fun s =>
  let s := s.afterSpaces
  .ok (s.rest.head?, s)

def peekValue : Reader Char := do
  match ← peekToken with
  | some c => pure c
  | none => failAhead .endInValue

/-- Pass over the rest of a word. -/
def word : List Char → Reader Unit
  | [] => pure ()
  | c :: cs => do
    match ← peek with
    | none => fail .endInValue
    | some d =>
      if d = c then do
        advance
        word cs
      else failAhead .noIdentifier

end Switchboard.Json
