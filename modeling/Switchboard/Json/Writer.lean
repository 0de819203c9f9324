import Switchboard.Json.Text

/-!
# Writing JSON

Values are written without spaces. A written value is the list of its characters.
-/

namespace Switchboard.Json

def writeNat (n : Nat) : List Char :=
  Nat.toDigits 10 n

def commaSeparated : List (List Char) → List Char
  | [] => []
  | [v] => v
  | v :: vs => v ++ ',' :: commaSeparated vs

def writeList (values : List (List Char)) : List Char :=
  '[' :: (commaSeparated values ++ [']'])

def writeObject (fields : List (String × List Char)) : List Char :=
  '\x7b' :: (commaSeparated (fields.map fun (key, value) => quote key ++ ':' :: value) ++ ['\x7d'])

end Switchboard.Json
