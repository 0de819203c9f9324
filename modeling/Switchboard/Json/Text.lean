import Switchboard.Instances
import Switchboard.Json.Scanner

/-!
# Texts in JSON

`text` reads a text from behind its opening quote and `skipText` passes over one; the latter does
not look at which characters the escapes stand for. `quote` writes a text.
-/

namespace Switchboard.Json

def hexValue? (c : Char) : Option Nat :=
  if '0' ≤ c ∧ c ≤ '9' then some (c.toNat - '0'.toNat)
  else if 'a' ≤ c ∧ c ≤ 'f' then some (c.toNat - 'a'.toNat + 10)
  else if 'A' ≤ c ∧ c ≤ 'F' then some (c.toNat - 'A'.toNat + 10)
  else none

/-- Read the four hexadecimal digits of an escape. Four bytes are taken, whatever they are. -/
def hexEscape : Reader Nat := fun s =>
  if ((s.rest.take 4).map Char.utf8Size).sum < 4 then
    .error ⟨.endInString, s.rest.foldl Place.past s.place⟩
  else
    match s.rest with
    | a :: b :: c :: d :: rest =>
      match hexValue? a, hexValue? b, hexValue? c, hexValue? d with
      | some a', some b', some c', some d' =>
        .ok (((a' * 16 + b') * 16 + c') * 16 + d',
          ⟨rest, [a, b, c, d].foldl Place.past s.place⟩)
      | _, _, _, _ => .error ⟨.badEscape, s.place.pastBytes 4 s.rest⟩
    | _ => .error ⟨.badEscape, s.place.pastBytes 4 s.rest⟩

def peekInText : Reader Char := do
  match ← peek with
  | some c => pure c
  | none => fail .endInString

def secondHalf (wanted : Char) : Reader Unit := do
  if (← peekInText) = wanted then advance else failAhead .hexEscapeCut

/-- The character of an escape by number: one number, or a pair that stands for a character beyond
the first plane. -/
def unicodeEscape : Reader Char := do
  let n ← hexEscape
  if 0xDC00 ≤ n ∧ n ≤ 0xDFFF then fail .loneSurrogate
  else if n < 0xD800 ∨ 0xDBFF < n then pure (Char.ofNat n)
  else
    secondHalf '\\'
    secondHalf 'u'
    let m ← hexEscape
    if m < 0xDC00 ∨ 0xDFFF < m then fail .loneSurrogate
    else pure (Char.ofNat ((n - 0xD800) * 1024 + (m - 0xDC00) + 0x10000))

/-- The character that a letter after a backslash stands for. -/
def letterEscape? (c : Char) : Option Char :=
  match c with
  | '"' => some '"'
  | '\\' => some '\\'
  | '/' => some '/'
  | 'b' => some '\x08'
  | 'f' => some '\x0c'
  | 'n' => some '\n'
  | 'r' => some '\r'
  | 't' => some '\t'
  | _ => none

def escape : Reader Char := do
  let c ← peekInText
  if c = 'u' then
    advance
    unicodeEscape
  else
    match letterEscape? c with
    | some d =>
      advance
      pure d
    | none => failAhead .badEscape

/-- Read the rest of a text on to what was read of it, last character first. -/
def textOnto (done : List Char) : Nat → Reader String
  | 0 => fail .endInString
  | fuel + 1 => do
    let c ← peekInText
    if c.toNat < 0x20 then failAhead .control
    else
      advance
      if c = '"' then pure (String.ofList done.reverse)
      else if c = '\\' then
        let d ← escape
        textOnto (d :: done) fuel
      else textOnto (c :: done) fuel

/-- Read a text from behind its opening quote. -/
def text : Reader String := fun s =>
  textOnto [] (s.rest.length + 1) s

def skipEscape : Reader Unit := do
  let c ← peekInText
  if c = 'u' then
    advance
    let _ ← hexEscape
  else if (letterEscape? c).isSome then advance
  else failAhead .badEscape

def skipTextWith : Nat → Reader Unit
  | 0 => fail .endInString
  | fuel + 1 => do
    let c ← peekInText
    if c.toNat < 0x20 then fail .control
    else
      advance
      if c = '"' then pure ()
      else if c = '\\' then
        skipEscape
        skipTextWith fuel
      else skipTextWith fuel

def skipText : Reader Unit := fun s =>
  skipTextWith (s.rest.length + 1) s

def hexDigit (n : Nat) : Char :=
  if n < 10 then Char.ofNat (n + '0'.toNat) else Char.ofNat (n - 10 + 'a'.toNat)

def escaped (c : Char) : List Char :=
  match c with
  | '"' => ['\\', '"']
  | '\\' => ['\\', '\\']
  | '\x08' => ['\\', 'b']
  | '\x0c' => ['\\', 'f']
  | '\n' => ['\\', 'n']
  | '\r' => ['\\', 'r']
  | '\t' => ['\\', 't']
  | c =>
    if c.toNat < 0x20 then ['\\', 'u', '0', '0', hexDigit (c.toNat / 16), hexDigit (c.toNat % 16)]
    else [c]

def quote (s : String) : List Char :=
  '"' :: (s.toList.flatMap escaped ++ ['"'])

end Switchboard.Json
