import Switchboard.Json.Number
import Switchboard.Json.Text

/-!
# Reading JSON into values

`skip` passes over one value of any shape. The typed readers read one value and refuse a value of
another kind. A `Record` is read from an object, whose keys may come in any order and whose unknown
keys are passed over, or from a list of its fields in order.

What is wrong with a record as a whole, a field that is missing or stands twice or a list that is
too short, is reported where the reading of the record stops: behind its closing bracket if that
comes next.
-/

namespace Switchboard.Json

/-! ## Any value -/

inductive Bracket where
  | list
  | object
  deriving DecidableEq, Repr

namespace Bracket

def close : Bracket → Char
  | list => ']'
  | object => '\x7d'

/-- A list or an object is not closed at the end of the text. -/
def unclosed : Bracket → Cause
  | list => .endInList
  | object => .endInObject

/-- Neither another part nor the end follows a part. -/
def noEnd : Bracket → Cause
  | list => .noListEnd
  | object => .noObjectEnd

end Bracket

/-- Pass over the character that must come next, after spaces. -/
def punctuation (wanted : Char) (cause atEnd : Cause) : Reader Unit := do
  match ← peekToken with
  | some c => if c = wanted then advance else failAhead cause
  | none => failAhead atEnd

/-- After a value or an opening bracket: pass over the brackets that close now, innermost first,
and a comma where one may stand. What is left is still open. -/
def settle (commaMayCome : Bool) : List Bracket → Reader (List Bracket)
  | [] => pure []
  | b :: outer => do
    match ← peekToken with
    | none => failAhead b.unclosed
    | some c =>
      if c = ',' ∧ commaMayCome then
        advance
        pure (b :: outer)
      else if c = b.close then
        advance
        settle true outer
      else if commaMayCome then failAhead b.noEnd
      else pure (b :: outer)

/-- Pass over a value that has no parts, of which the first character is ahead. -/
def skipPlain (c : Char) : Reader Unit :=
  if c = 'n' then do
    advance
    word ['u', 'l', 'l']
  else if c = 't' then do
    advance
    word ['r', 'u', 'e']
  else if c = 'f' then do
    advance
    word ['a', 'l', 's', 'e']
  else if c = '"' then do
    advance
    skipText
  else if c = '-' ∨ isDigit c then skipNumber
  else failAhead .noValue

def skipKey : List Bracket → Reader Unit
  | .object :: _ => do
    punctuation '"' .keyNotString .endInObject
    skipText
    punctuation ':' .noColon .endInObject
  | _ => pure ()

/-- Pass over a value inside the brackets that are open, and over what follows it in them. -/
def skipInside (opened : List Bracket) : Nat → Reader Unit
  | 0 => fail .endInValue
  | fuel + 1 => do
    let c ← peekValue
    let opened ←
      if c = '[' then do
        advance
        settle false (.list :: opened)
      else if c = '\x7b' then do
        advance
        settle false (.object :: opened)
      else do
        skipPlain c
        settle true opened
    if opened.isEmpty then pure ()
    else
      skipKey opened
      skipInside opened fuel

def skip : Reader Unit := fun s =>
  skipInside [] (s.rest.length + 1) s

/-! ## Typed values -/

def wrongKind (found : Found) (wanted : String) : Reader α :=
  fail (.mismatch (.wrongKind found wanted))

/-- What is wrong with a value, of which the first character is ahead, where another kind of value
was wanted. Plain values are read first. -/
def unwanted (wanted : String) (c : Char) : Reader α :=
  if c = 'n' then do
    skipPlain c
    wrongKind (.nothing "null") wanted
  else if c = 't' ∨ c = 'f' then do
    skipPlain c
    wrongKind (.boolean (c = 't')) wanted
  else if c = '-' ∨ isDigit c then do
    let n ← number
    wrongKind n.found wanted
  else if c = '"' then do
    advance
    let s ← text
    wrongKind (.text s) wanted
  else if c = '[' then wrongKind .sequence wanted
  else if c = '\x7b' then wrongKind .map wanted
  else failAhead .noValue

def string : Reader String := do
  let c ← peekValue
  if c = '"' then
    advance
    text
  else unwanted "a string" c

/-- Read a number below `limit`; `wanted` names its type. -/
def natural (limit : Nat) (wanted : String) : Reader Nat := do
  let c ← peekValue
  if c = '-' ∨ isDigit c then
    match ← number with
    | .whole n =>
      if 0 ≤ n ∧ n < limit then pure n.toNat
      else fail (.mismatch (.wrongValue (.integer n) wanted))
    | n => wrongKind n.found wanted
  else unwanted wanted c

def optional (r : Reader α) : Reader (Option α) := do
  if (← peekToken) = some 'n' then
    skipPlain 'n'
    pure none
  else some <$> r

def nextElement (isFirst : Bool) : Reader Bool := do
  match ← peekToken with
  | none => failAhead .endInList
  | some c =>
    if c = ']' then pure false
    else if isFirst then pure true
    else if c = ',' then
      advance
      match ← peekToken with
      | some ']' => failAhead .trailingComma
      | some _ => pure true
      | none => failAhead .endInValue
    else failAhead .noListEnd

def closeList : Reader Unit := do
  match ← peekToken with
  | none => failAhead .endInList
  | some c =>
    if c = ']' then advance
    else if c = ',' then
      advance
      if (← peekToken) = some ']' then failAhead .trailingComma else failAhead .trailing
    else failAhead .trailing

def nextKey (isFirst : Bool) : Reader Bool := do
  match ← peekToken with
  | none => failAhead .endInObject
  | some c =>
    if c = '\x7d' then pure false
    else if isFirst then
      if c = '"' then pure true else failAhead .keyNotString
    else if c = ',' then
      advance
      match ← peekToken with
      | some '"' => pure true
      | some '\x7d' => failAhead .trailingComma
      | some _ => failAhead .keyNotString
      | none => failAhead .endInValue
    else failAhead .noObjectEnd

def closeObject : Reader Unit :=
  punctuation '\x7d' .trailing .endInObject

/-- The place where the reading of a list stops when what is in it is not wanted. -/
def Scanner.listEnd (s : Scanner) : Place :=
  let s := s.afterSpaces
  match s.rest with
  | ']' :: _ => s.nextPlace
  | ',' :: rest => (Scanner.mk rest s.nextPlace).afterSpaces.place
  | _ => s.place

def Scanner.objectEnd (s : Scanner) : Place :=
  let s := s.afterSpaces
  match s.rest with
  | '\x7d' :: _ => s.nextPlace
  | _ => s.place

/-- Report what is wrong with a list as a whole. -/
def failList (what : Mismatch) : Reader α := fun s =>
  .error ⟨.mismatch what, s.listEnd⟩

def failObject (what : Mismatch) : Reader α := fun s =>
  .error ⟨.mismatch what, s.objectEnd⟩

/-- Read the elements of a list on to those already read, of which the last comes first. -/
def elementsOnto (r : Reader α) (done : List α) : Nat → Reader (List α)
  | 0 => fail .endInList
  | fuel + 1 => do
    if ← nextElement done.isEmpty then
      let a ← r
      elementsOnto r (a :: done) fuel
    else pure done.reverse

def list (r : Reader α) : Reader (List α) := do
  let c ← peekValue
  if c = '[' then
    advance
    let as ← fun s => elementsOnto r [] (s.rest.length + 1) s
    closeList
    pure as
  else unwanted "a sequence" c

def pair (first : Reader α) (second : Reader β) : Reader (α × β) := do
  let wanted := "a tuple of size 2"
  let c ← peekValue
  if c = '[' then
    advance
    if ← nextElement true then
      let a ← first
      if ← nextElement false then
        let b ← second
        closeList
        pure (a, b)
      else failList (.tooShort 1 wanted)
    else failList (.tooShort 0 wanted)
  else unwanted wanted c

/-! ## Records -/

/-- How a record is read into a value of `α`. -/
structure Record (α : Type) where
  /-- The name of the record. -/
  name : String
  fields : List String
  /-- How many of the fields, from the first on, must be there in an object. -/
  required : Nat
  /-- How many of the fields, from the first on, must be there in a list. -/
  requiredInList : Nat
  /-- The record in which every field has its default. -/
  blank : α
  /-- Read a field, by its place, into a record. -/
  store : (field : Nat) → α → Reader α

namespace Record

variable {α : Type} (shape : Record α)

/-- A record, as it is named where one was wanted. -/
def wanted : String :=
  s!"struct {shape.name}"

def wantedInFull : String :=
  s!"{shape.wanted} with {shape.fields.length} elements"

def fieldName (field : Nat) : String :=
  shape.fields[field]?.getD ""

/-- The field that is first missing among those that were not seen. -/
def missing? (seen : List Nat) : Option Nat :=
  (List.range shape.required).find? fun field => !seen.contains field

/-- Read the keys and values of an object into a record in which the fields `seen` are set. -/
def entriesOnto (isFirst : Bool) (seen : List Nat) (a : α) : Nat → Reader α
  | 0 => fail .endInObject
  | fuel + 1 => do
    if ← nextKey isFirst then
      advance
      let key ← text
      match shape.fields.findIdx? (· == key) with
      | none =>
        punctuation ':' .noColon .endInObject
        skip
        entriesOnto false seen a fuel
      | some field =>
        if seen.contains field then failObject (.duplicate key)
        else
          punctuation ':' .noColon .endInObject
          let a ← shape.store field a
          entriesOnto false (field :: seen) a fuel
    else
      match shape.missing? seen with
      | some field => failObject (.missing (shape.fieldName field))
      | none => pure a

/-- Read the fields from `field` on from a list; `more` fields are left. -/
def fieldsOnto (field : Nat) (a : α) : Nat → Reader α
  | 0 => pure a
  | more + 1 => do
    if ← nextElement (field = 0) then
      let a ← shape.store field a
      fieldsOnto (field + 1) a more
    else if field < shape.requiredInList then failList (.tooShort field shape.wantedInFull)
    else pure a

/-- Read a record: an object, or a list of its fields in order. -/
def read : Reader α := do
  let c ← peekValue
  if c = '[' then
    advance
    let a ← shape.fieldsOnto 0 shape.blank shape.fields.length
    closeList
    pure a
  else if c = '\x7b' then
    advance
    let a ← fun s => shape.entriesOnto true [] shape.blank (s.rest.length + 1) s
    closeObject
    pure a
  else unwanted shape.wanted c

end Record

/-- Read a text that holds one value and nothing else. -/
def parse (r : Reader α) (s : String) : Except Flaw α := do
  let (a, scanner) ← r ⟨s.toList, {}⟩
  let scanner := scanner.afterSpaces
  if scanner.rest.isEmpty then pure a else .error ⟨.trailing, scanner.nextPlace⟩

end Switchboard.Json
