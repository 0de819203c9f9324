import Switchboard.Fault
import Switchboard.Frame

/-!
# Packets

What two multiplexed connections say to each other, in the format of the frames of yamux: bytes of a
stream, credit to send more of them (a window update), a ping, or a goodbye (go away). A packet is a
header of twelve bytes and, for bytes of a stream, a body. The header is the version, which is 0,
the kind, two bytes of flags, and then the stream and a number in four bytes each, most significant
first. All flags that there are stand in the second of their bytes: 1 opens a stream (SYN), 2
acknowledges it (ACK), 4 ends what this side sends (FIN), 8 resets it (RST). A body of more than a
mebibyte is refused.

`Packet.encode` writes a packet. `Assembly` puts one together from bytes that arrive piece by piece
and never asks for more bytes than the packet has, so that no byte of the next one is touched.
-/

namespace Switchboard.Mux

inductive PacketKind where
  | data
  | window
  | ping
  | goodbye
  deriving DecidableEq, Repr, Inhabited

namespace PacketKind

def byte : PacketKind → UInt8
  | data => 0
  | window => 1
  | ping => 2
  | goodbye => 3

def ofByte? (b : UInt8) : Option PacketKind :=
  if b = 0 then some data
  else if b = 1 then some window
  else if b = 2 then some ping
  else if b = 3 then some goodbye
  else none

theorem ofByte?_byte (kind : PacketKind) : ofByte? kind.byte = some kind := by
  cases kind <;> rfl

end PacketKind

/-- What a packet says of its stream besides what it carries. -/
structure Marks where
  /-- The stream begins. -/
  opens : Bool := false
  /-- The stream that the peer began is known here. -/
  acknowledges : Bool := false
  /-- This side will send no more. -/
  ends : Bool := false
  /-- The stream is gone. -/
  resets : Bool := false
  deriving DecidableEq, Repr, Inhabited

namespace Marks

def byte (m : Marks) : UInt8 :=
  (if m.opens then 1 else 0) ||| (if m.acknowledges then 2 else 0) ||| (if m.ends then 4 else 0) |||
    (if m.resets then 8 else 0)

/-- The marks that a byte of bits stands for; other bits mean nothing. -/
def ofByte (b : UInt8) : Marks :=
  ⟨b &&& 1 ≠ 0, b &&& 2 ≠ 0, b &&& 4 ≠ 0, b &&& 8 ≠ 0⟩

theorem ofByte_byte (m : Marks) : ofByte m.byte = m := by
  rcases m with ⟨a, b, c, d⟩
  cases a <;> cases b <;> cases c <;> cases d <;> rfl

end Marks

/-- A packet. Its number is the length of the body, a credit, the token of a ping or the reason of
a goodbye. -/
structure Packet where
  kind : PacketKind
  stream : Nat := 0
  marks : Marks := {}
  number : Nat := 0
  body : ByteArray := ByteArray.empty
  deriving DecidableEq, Inhabited

namespace Packet

def headerSize : Nat := 12

/-- The most bytes that a body may have. -/
def maxBody : Nat := 1024 * 1024

def data (stream : Nat) (marks : Marks) (body : ByteArray) : Packet :=
  ⟨.data, stream, marks, body.size, body⟩

def credit (stream : Nat) (marks : Marks) (amount : Nat) : Packet :=
  { kind := .window, stream, marks, number := amount }

/-- A goodbye with a reason: 0 for none, 1 for a breach of the rules, 2 for a failure inside. -/
def goodbye (reason : Nat) : Packet :=
  { kind := .goodbye, number := reason }

def encode (p : Packet) : ByteArray :=
  ⟨([0, p.kind.byte, 0, p.marks.byte] ++ Frame.lengthBytes p.stream ++
    Frame.lengthBytes p.number).toArray⟩ ++ p.body

/-- The packet, without its body, that a header announces. -/
def ofHeader (b : ByteArray) : Except MuxFault Packet :=
  if h : b.size < 12 then .error (.decode "header too short")
  else if b[0] ≠ 0 then .error (.decode s!"unknown version: {b[0].toNat}")
  else
    match PacketKind.ofByte? b[1] with
    | none => .error (.decode s!"unknown packet type: {b[1].toNat}")
    | some kind =>
      let number := Frame.lengthOf b[8] b[9] b[10] b[11]
      if kind = .data && maxBody < number then
        .error (.decode s!"packet body of {number} bytes is too large")
      else
        .ok { kind, stream := Frame.lengthOf b[4] b[5] b[6] b[7], marks := .ofByte b[3], number }

def bodySize (p : Packet) : Nat :=
  if p.kind = .data then p.number else 0

end Packet

/-- What has arrived of the next packet: its header, once it is complete, and the bytes after the
last complete part. -/
structure Assembly where
  header : Option Packet := none
  bytes : ByteArray := ByteArray.empty
  deriving Inhabited

namespace Assembly

/-- How many bytes complete the part that is being read. -/
def wanted (a : Assembly) : Nat :=
  match a.header with
  | none => Packet.headerSize - a.bytes.size
  | some p => p.bodySize - a.bytes.size

def isEmpty (a : Assembly) : Bool :=
  a.header.isNone && a.bytes.size = 0

/-- Add bytes, no more than are wanted: the packet that they complete, if they do. -/
def feed (chunk : ByteArray) (a : Assembly) : Except MuxFault (Option Packet × Assembly) :=
  let bytes := a.bytes ++ chunk
  match a.header with
  | some p =>
    if bytes.size < p.bodySize then .ok (none, ⟨some p, bytes⟩)
    else .ok (some { p with body := bytes }, {})
  | none =>
    if bytes.size < Packet.headerSize then .ok (none, ⟨none, bytes⟩)
    else
      match Packet.ofHeader bytes with
      | .error fault => .error fault
      | .ok p => if p.bodySize = 0 then .ok (some p, {}) else .ok (none, ⟨some p, .empty⟩)

/-- How a connection fails whose channel ends here: between two packets that is a plain end. -/
def ended (a : Assembly) : MuxFault :=
  if a.isEmpty then .closed else .io (.bare .unexpectedEof)

end Assembly

end Switchboard.Mux
