import Switchboard.Text.Quoted

/-!
# Mismatches

What is said of data that is well formed and not what was asked for: a value of another kind, a
number out of range, a list that is too short, a field that is missing or stands twice.
-/

namespace Switchboard

/-- A value as it is named where another kind of value was wanted. -/
inductive Found where
  | boolean (value : Bool)
  | integer (value : Int)
  /-- A number with a fraction, by its text. -/
  | float (text : String)
  | text (value : String)
  | bytes
  /-- No value, by its name. -/
  | nothing (name : String)
  | sequence
  | map
  /-- A value of a type that the format leaves open. -/
  | extension
  deriving DecidableEq, Repr, Inhabited

def Found.message : Found → String
  | boolean value => s!"boolean `{value}`"
  | integer value => s!"integer `{value}`"
  | float digits => s!"floating point `{digits}`"
  | text value => "string " ++ Text.quoted value
  | bytes => "byte array"
  | nothing name => name
  | sequence => "sequence"
  | map => "map"
  | extension => "newtype struct"

/-- How data differs from what was asked for. -/
inductive Mismatch where
  | wrongKind (found : Found) (wanted : String)
  | wrongValue (found : Found) (wanted : String)
  /-- A list that ends after `length` elements. -/
  | tooShort (length : Nat) (wanted : String)
  | missing (field : String)
  | duplicate (field : String)
  deriving DecidableEq, Repr, Inhabited

def Mismatch.message : Mismatch → String
  | wrongKind found wanted => s!"invalid type: {found.message}, expected {wanted}"
  | wrongValue found wanted => s!"invalid value: {found.message}, expected {wanted}"
  | tooShort length wanted => s!"invalid length {length}, expected {wanted}"
  | missing field => s!"missing field `{field}`"
  | duplicate field => s!"duplicate field `{field}`"

end Switchboard
