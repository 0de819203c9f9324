import Switchboard.Instances

/-!
# Shortest decimals

A binary number of 64 bits as an exact fraction, and the decimal that stands for it: of the
decimals with the fewest digits that round back to it, the nearest. Two ways to write the digits
are given: `positional` never uses an exponent, `compact` uses one outside the middle range.
-/

namespace Switchboard

inductive Binary where
  | notANumber
  | infinite (negative : Bool)
  /-- The number `mantissa * 2 ^ exponent`. -/
  | finite (negative : Bool) (mantissa : Nat) (exponent : Int)
  deriving DecidableEq, Repr, Inhabited

namespace Binary

def leastExponent : Int := -1074

/-- Read a number from its sign, exponent and fraction fields; the fraction has `places` bits and
the greatest exponent field is `top`, with bias `bias`. -/
def ofFields (places top : Nat) (bias : Int) (bits : Nat) : Binary :=
  let fraction := bits % 2 ^ places
  let exponent := bits / 2 ^ places % (top + 1)
  let negative := bits / 2 ^ places / (top + 1) % 2 == 1
  if exponent = top then
    if fraction = 0 then infinite negative else notANumber
  else if exponent = 0 then finite negative fraction (1 - bias - places)
  else finite negative (2 ^ places + fraction) (exponent - bias - places)

def ofBits64 (bits : Nat) : Binary :=
  ofFields 52 2047 1023 bits

def normalize : Binary → Binary
  | finite negative mantissa exponent =>
    if mantissa = 0 then finite negative 0 leastExponent
    else
      let shift := 52 - Nat.log2 mantissa
      finite negative (mantissa * 2 ^ shift) (exponent - shift)
  | other => other

def ofBits32 (bits : Nat) : Binary :=
  (ofFields 23 255 127 bits).normalize

end Binary

/-- The decimal `digits * 10 ^ exponent`. -/
structure Decimal where
  digits : Nat
  exponent : Int
  deriving DecidableEq, Repr, Inhabited

namespace Decimal

def width (n : Nat) : Nat :=
  (Nat.toDigits 10 n).length

/-- The interval of numbers that round to a binary number, as numerators over one denominator. -/
structure Interval where
  low : Nat
  value : Nat
  high : Nat
  denominator : Nat
  closed : Bool

/-- The interval of `mantissa * 2 ^ exponent`: half way to both neighbours, of which the lower one
is nearer below a power of two. An end belongs to it if the mantissa is even. -/
def interval (mantissa : Nat) (exponent : Int) : Interval :=
  let unit := 2 ^ exponent.toNat
  let below := if mantissa = 2 ^ 52 ∧ Binary.leastExponent < exponent then 1 else 2
  ⟨(4 * mantissa - below) * unit, 4 * mantissa * unit, (4 * mantissa + 2) * unit,
    4 * 2 ^ (-exponent).toNat, mantissa % 2 == 0⟩

def Interval.contains (range : Interval) (n : Nat) : Bool :=
  if range.closed then range.low ≤ n && n ≤ range.high else range.low < n && n < range.high

/-- The multiple of `10 ^ exponent` in an interval that is nearest to its value; an even digit
wins a tie. -/
def nearest? (range : Interval) (exponent : Int) : Option Nat :=
  let scale := 10 ^ (-exponent).toNat
  let range : Interval := ⟨range.low * scale, range.value * scale, range.high * scale,
    range.denominator, range.closed⟩
  let step := range.denominator * 10 ^ exponent.toNat
  let below := range.value / step
  let above := below + 1
  let hasBelow := range.contains (below * step)
  let hasAbove := range.contains (above * step)
  let low := range.value - below * step
  let high := above * step - range.value
  if hasBelow && hasAbove then
    some (if low < high || (low = high && below % 2 = 0) then below else above)
  else if hasBelow then some below
  else if hasAbove then some above
  else none

/-- The power of ten of the first digit of a fraction. -/
def leading (numerator denominator : Nat) : Int :=
  (width (numerator * 10 ^ 400 / denominator) : Int) - 401

/-- The shortest decimal that rounds to `mantissa * 2 ^ exponent`, nearest of those. -/
def shortest (mantissa : Nat) (exponent : Int) : Decimal :=
  if mantissa = 0 then ⟨0, 0⟩
  else
    let range := interval mantissa exponent
    let first := leading range.value range.denominator
    let candidate (n : Nat) : Option Decimal :=
      (nearest? range (first - n)).map fun digits => ⟨digits, first - n⟩
    ((List.range 17).findSome? candidate).getD ⟨mantissa, exponent⟩

def trimmed (d : Decimal) : List Char × Int :=
  let chars := Nat.toDigits 10 d.digits
  let zeros := (chars.reverse.takeWhile (· = '0')).length
  if zeros = chars.length then (['0'], 0)
  else (chars.take (chars.length - zeros), d.exponent + zeros)

def zeros (n : Int) : List Char :=
  List.replicate n.toNat '0'

/-- A decimal written in full, with at least one digit on either side of the point. -/
def inFull (d : Decimal) : List Char :=
  let (chars, exponent) := d.trimmed
  let point := (chars.length : Int) + exponent
  if 0 ≤ exponent then chars ++ zeros exponent ++ ['.', '0']
  else if 0 < point then chars.take point.toNat ++ '.' :: chars.drop point.toNat
  else '0' :: '.' :: (zeros (-point) ++ chars)

/-- A power of ten with its sign and at least two digits. -/
def power (n : Int) : List Char :=
  let digits := Nat.toDigits 10 n.natAbs
  (if n < 0 then '-' else '+') :: (List.replicate (2 - digits.length) '0' ++ digits)

def scientific (d : Decimal) : List Char :=
  let (chars, exponent) := d.trimmed
  let point := (chars.length : Int) + exponent - 1
  match chars with
  | [] => []
  | [c] => c :: 'e' :: power point
  | c :: cs => c :: '.' :: (cs ++ 'e' :: power point)

/-- Whether a decimal is written in full where exponents may be used: its point stands at most
sixteen digits after its first digit and at most five zeros before it. -/
def inMiddleRange (d : Decimal) : Bool :=
  let (chars, exponent) := d.trimmed
  let point := (chars.length : Int) + exponent
  decide (-5 < point) && decide (point ≤ 16)

end Decimal

namespace Binary

def render (write : Decimal → List Char) : Binary → String
  | notANumber => "NaN"
  | infinite negative => if negative then "-inf" else "inf"
  | finite negative mantissa exponent =>
    let chars := write (Decimal.shortest mantissa exponent)
    String.ofList (if negative then '-' :: chars else chars)

def positional : Binary → String :=
  render Decimal.inFull

/-- The text of a number, with an exponent outside the middle range. -/
def compact : Binary → String :=
  render fun d => if d.inMiddleRange then d.inFull else d.scientific

end Binary

end Switchboard
