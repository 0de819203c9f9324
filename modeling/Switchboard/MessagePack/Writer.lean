import Switchboard.Instances

/-!
# Writing MessagePack

Every number, text, byte string, list and map is written in its shortest form. Maps of named
fields are a map header followed by each name and value in turn.
-/

namespace Switchboard.MessagePack.Writer

/-- The last `width` bytes of a number, most significant first. -/
def bigEndian : (width : Nat) → Nat → List UInt8
  | 0, _ => []
  | width + 1, n => UInt8.ofNat (n / 256 ^ width) :: bigEndian width n

def marked (marker : UInt8) (rest : List UInt8) : ByteArray :=
  ⟨(marker :: rest).toArray⟩

def nothing : ByteArray :=
  marked 0xC0 []

def natural (n : Nat) : ByteArray :=
  if n < 128 then marked (UInt8.ofNat n) []
  else if n < 2 ^ 8 then marked 0xCC (bigEndian 1 n)
  else if n < 2 ^ 16 then marked 0xCD (bigEndian 2 n)
  else if n < 2 ^ 32 then marked 0xCE (bigEndian 4 n)
  else marked 0xCF (bigEndian 8 n)

def textHeader (n : Nat) : ByteArray :=
  if n < 32 then marked (0xA0 + UInt8.ofNat n) []
  else if n < 2 ^ 8 then marked 0xD9 (bigEndian 1 n)
  else if n < 2 ^ 16 then marked 0xDA (bigEndian 2 n)
  else marked 0xDB (bigEndian 4 n)

def bytesHeader (n : Nat) : ByteArray :=
  if n < 2 ^ 8 then marked 0xC4 (bigEndian 1 n)
  else if n < 2 ^ 16 then marked 0xC5 (bigEndian 2 n)
  else marked 0xC6 (bigEndian 4 n)

def listHeader (n : Nat) : ByteArray :=
  if n < 16 then marked (0x90 + UInt8.ofNat n) []
  else if n < 2 ^ 16 then marked 0xDC (bigEndian 2 n)
  else marked 0xDD (bigEndian 4 n)

def mapHeader (n : Nat) : ByteArray :=
  if n < 16 then marked (0x80 + UInt8.ofNat n) []
  else if n < 2 ^ 16 then marked 0xDE (bigEndian 2 n)
  else marked 0xDF (bigEndian 4 n)

def text (s : String) : ByteArray :=
  textHeader s.utf8ByteSize ++ s.toUTF8

def bytes (data : ByteArray) : ByteArray :=
  bytesHeader data.size ++ data

/-- A list of values, each of which `element` writes. -/
def list (element : α → ByteArray) (values : List α) : ByteArray :=
  values.foldl (fun written value => written ++ element value) (listHeader values.length)

/-- A map of named fields, whose values are written. -/
def fields (values : List (String × ByteArray)) : ByteArray :=
  values.foldl (fun written (name, value) => written ++ text name ++ value)
    (mapHeader values.length)

end Switchboard.MessagePack.Writer
