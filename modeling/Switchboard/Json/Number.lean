import Switchboard.Decimal.Shortest
import Switchboard.Json.Scanner

/-!
# Numbers in JSON

A number is whole if it is written with digits only and fits 64 bits; every other number, and the
negative zero, has a fraction, and is computed from its first digits, as many as fit 64 bits, and
a power of ten. `skipNumber` passes over a number without computing it.
-/

namespace Switchboard.Json

inductive Number where
  | whole (value : Int)
  | fraction (value : Float)

def Number.found : Number → Found
  | whole value => .integer value
  | fraction value => .float (Binary.ofBits64 value.toBits.toNat).compact

def isDigit (c : Char) : Bool :=
  '0' ≤ c && c ≤ '9'

def digit (c : Char) : Nat :=
  c.toNat - '0'.toNat

def digits : Reader (List Char) := fun s =>
  let ds := s.rest.takeWhile isDigit
  .ok (ds, ⟨s.rest.dropWhile isDigit, ds.foldl Place.past s.place⟩)

/-- Append digits to a number as long as it fits 64 bits; the number, and the digits that are left
over. -/
def accumulate (n : Nat) : List Char → Nat × List Char
  | [] => (n, [])
  | d :: ds =>
    let m := n * 10 + digit d
    if m < 2 ^ 64 then accumulate m ds else (n, d :: ds)

def atExponent : Reader Bool := do
  let c ← peek
  pure (c = some 'e' ∨ c = some 'E')

/-- Divide by ten to the 308, `n` times, or until nothing is left. -/
def shrink (value : Float) : Nat → Float
  | 0 => value
  | n + 1 => if value == 0.0 then value else shrink (value / 1e308) n

/-- The number `significand * 10 ^ exponent` with a sign. -/
def scale (positive : Bool) (significand : Nat) (exponent : Int) : Reader Float := do
  let signed (value : Float) : Float := if positive then value else -value
  let start := significand.toUInt64.toFloat
  if 0 ≤ exponent then
    if exponent ≤ 308 then
      let value := start * Float.ofScientific 1 false exponent.toNat
      if value.isInf then fail .outOfRange else pure (signed value)
    else if significand = 0 then pure (signed start)
    else fail .outOfRange
  else
    let steps := (exponent.natAbs - 1) / 308
    let value := shrink start steps
    pure (signed (value / Float.ofScientific 1 false (exponent.natAbs - steps * 308)))

def greatestExponent : Nat := 2 ^ 31 - 1

/-- The number that digits write, unless it exceeds the greatest exponent; in that case, how many
digits it took. -/
def exponentOf (n : Nat) (read : Nat) : List Char → Except Nat Nat
  | [] => .ok n
  | d :: ds =>
    let m := n * 10 + digit d
    if m ≤ greatestExponent then exponentOf m (read + 1) ds else .error (read + 1)

/-- Read the exponent of a number, from its letter on. -/
def exponent (positive : Bool) (significand : Nat) (shift : Int) : Reader Float := do
  advance
  let sign ← peek
  if sign = some '+' ∨ sign = some '-' then advance
  let up := sign ≠ some '-'
  match ← peek with
  | none => fail .endInValue
  | some c =>
    if !isDigit c then failAhead .badNumber
    else
      advance
      let start : Reader Scanner := fun s => .ok (s, s)
      let s ← start
      let ds ← digits
      match exponentOf (digit c) 0 ds with
      | .ok n => scale positive significand (if up then shift + n else shift - n)
      | .error read =>
        if significand ≠ 0 ∧ up then
          fun _ => .error ⟨.outOfRange, (ds.take read).foldl Place.past s.place⟩
        else pure (if positive then 0.0 else -0.0)

/-- Read the digits after the point of a number, from the point on. -/
def fraction (positive : Bool) (significand : Nat) (shift : Int) : Reader Float := do
  advance
  let ds ← digits
  if ds.isEmpty then
    if (← peek).isSome then failAhead .badNumber else failAhead .endInValue
  else
    let (significand, left) := accumulate significand ds
    let shift := shift - (ds.length - left.length : Nat)
    if ← atExponent then exponent positive significand shift
    else scale positive significand shift

def numberAfter (positive : Bool) (significand : Nat) (left : List Char) : Reader Number := do
  let shift := left.length
  if (← peek) = some '.' then .fraction <$> fraction positive significand shift
  else if ← atExponent then .fraction <$> exponent positive significand shift
  else if !left.isEmpty then .fraction <$> scale positive significand shift
  else if positive then pure (.whole significand)
  else if 0 < significand ∧ significand ≤ 2 ^ 63 then pure (.whole (-significand))
  else pure (.fraction (-significand.toUInt64.toFloat))

def numberBody (positive : Bool) : Reader Number := do
  match ← peek with
  | none => fail .endInValue
  | some '0' =>
    advance
    match ← peek with
    | some c => if isDigit c then failAhead .badNumber else numberAfter positive 0 []
    | none => numberAfter positive 0 []
  | some c =>
    if isDigit c then
      let ds ← digits
      let (significand, left) := accumulate 0 ds
      numberAfter positive significand left
    else failAhead .badNumber

def number : Reader Number := do
  if (← peek) = some '-' then
    advance
    numberBody false
  else numberBody true

def skipExponent : Reader Unit := do
  advance
  let sign ← peek
  if sign = some '+' ∨ sign = some '-' then advance
  match ← peek with
  | none => fail .badNumber
  | some c =>
    if isDigit c then
      let _ ← digits
    else failAhead .badNumber

def skipAfterWhole : Reader Unit := do
  if (← peek) = some '.' then
    advance
    let ds ← digits
    if ds.isEmpty then failAhead .badNumber
    else if ← atExponent then skipExponent
  else if ← atExponent then skipExponent

def skipNumber : Reader Unit := do
  if (← peek) = some '-' then advance
  match ← peek with
  | none => fail .badNumber
  | some '0' =>
    advance
    match ← peek with
    | some c => if isDigit c then failAhead .badNumber else skipAfterWhole
    | none => pure ()
  | some c =>
    if isDigit c then
      let _ ← digits
      skipAfterWhole
    else failAhead .badNumber

end Switchboard.Json
