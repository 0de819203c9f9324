/-!
# Reading text from bytes

Texts travel as UTF-8. A byte sequence is cut into pieces: characters, and the maximal runs of
bytes that no character can start with. `decode` refuses the first such run and says where it is;
`lossy` puts the replacement character in the place of each.
-/

namespace Switchboard.Utf8

/-- One piece of a byte sequence read as text. -/
inductive Piece where
  /-- A character. -/
  | char (c : Char)
  /-- A run of so many bytes that can be no part of a character. -/
  | bad (length : Nat)
  /-- A run of so many bytes at the end of the sequence that a character could start with. -/
  | cut (length : Nat)
  deriving DecidableEq, Repr

def isTail (b : UInt8) : Bool :=
  0x80 ≤ b && b ≤ 0xBF

/-- The number of bytes of a character that starts with this byte, 0 if none does. -/
def width (b : UInt8) : Nat :=
  if b < 0x80 then 1
  else if 0xC2 ≤ b && b ≤ 0xDF then 2
  else if 0xE0 ≤ b && b ≤ 0xEF then 3
  else if 0xF0 ≤ b && b ≤ 0xF4 then 4
  else 0

/-- Whether the second byte of a character of three or four bytes is in range for its first. -/
def isSecond (lead b : UInt8) : Bool :=
  if lead = 0xE0 then 0xA0 ≤ b && b ≤ 0xBF
  else if lead = 0xED then 0x80 ≤ b && b ≤ 0x9F
  else if lead = 0xF0 then 0x90 ≤ b && b ≤ 0xBF
  else if lead = 0xF4 then 0x80 ≤ b && b ≤ 0x8F
  else isTail b

def char2 (a b : UInt8) : Char :=
  Char.ofNat ((a.toNat % 32) * 64 + b.toNat % 64)

def char3 (a b c : UInt8) : Char :=
  Char.ofNat ((a.toNat % 16) * 4096 + (b.toNat % 64) * 64 + c.toNat % 64)

def char4 (a b c d : UInt8) : Char :=
  Char.ofNat ((a.toNat % 8) * 262144 + (b.toNat % 64) * 4096 + (c.toNat % 64) * 64 + d.toNat % 64)

def pieces : List UInt8 → List Piece
  | [] => []
  | a :: s =>
    match width a with
    | 1 => .char (Char.ofNat a.toNat) :: pieces s
    | 2 =>
      match s with
      | [] => [.cut 1]
      | b :: s => if isTail b then .char (char2 a b) :: pieces s else .bad 1 :: pieces (b :: s)
    | 3 =>
      match s with
      | [] => [.cut 1]
      | b :: s =>
        if isSecond a b then
          match s with
          | [] => [.cut 2]
          | c :: s =>
            if isTail c then .char (char3 a b c) :: pieces s else .bad 2 :: pieces (c :: s)
        else .bad 1 :: pieces (b :: s)
    | 4 =>
      match s with
      | [] => [.cut 1]
      | b :: s =>
        if isSecond a b then
          match s with
          | [] => [.cut 2]
          | c :: s =>
            if isTail c then
              match s with
              | [] => [.cut 3]
              | d :: s =>
                if isTail d then .char (char4 a b c d) :: pieces s else .bad 3 :: pieces (d :: s)
            else .bad 2 :: pieces (c :: s)
        else .bad 1 :: pieces (b :: s)
    | _ => .bad 1 :: pieces s

/-- Where a byte sequence stops being text: the bytes before, and the length of the run that can
be no part of a character, or none if the sequence ends inside a character. -/
structure Flaw where
  index : Nat
  length : Option Nat
  deriving DecidableEq, Repr

/-- The flaw of the first piece that is no character; `index` bytes stand before the pieces. -/
def firstFlaw (index : Nat) : List Piece → Option Flaw
  | [] => none
  | .char c :: rest => firstFlaw (index + c.utf8Size) rest
  | .bad n :: _ => some ⟨index, some n⟩
  | .cut _ :: _ => some ⟨index, none⟩

def Flaw.message (flaw : Flaw) : String :=
  match flaw.length with
  | some n => s!"invalid utf-8 sequence of {n} bytes from index {flaw.index}"
  | none => s!"incomplete utf-8 byte sequence from index {flaw.index}"

/-- A piece with the replacement character for a run that is no character. -/
def Piece.orReplacement : Piece → Char
  | .char c => c
  | .bad _ | .cut _ => '\uFFFD'

/-- Read bytes as text; the first flaw if they are none. -/
def decode (bytes : ByteArray) : Except Flaw String :=
  match String.fromUTF8? bytes with
  | some text => .ok text
  | none => .error ((firstFlaw 0 (pieces bytes.toList)).getD ⟨0, none⟩)

/-- Read bytes as text, with the replacement character for each maximal run that is no text. -/
def lossy (bytes : ByteArray) : String :=
  match String.fromUTF8? bytes with
  | some text => text
  | none => String.ofList ((pieces bytes.toList).map Piece.orReplacement)

end Switchboard.Utf8
