import Switchboard.Fault
import Switchboard.MessagePack.Reader
import Switchboard.MessagePack.Writer

/-!
# Payloads

The messages that a call carries: the envelope that names a method beside its payload, the reply
to a ping, and the listing of a directory. Each has a codec, which writes it as MessagePack and
reads it back. An empty payload is read as nothing. A codec may refuse to write a value; those of
the messages here write every one.
-/

namespace Switchboard

open MessagePack

/-- How values of a type are written and read. -/
structure Codec (α : Type) where
  /-- The bytes of a value that is not refused. -/
  encode : α → ByteArray
  read : (depth : Nat) → Reader α
  /-- Why a value cannot be written, if it cannot. -/
  refusal? : α → Option Fault := fun _ => none

namespace Codec

/-- Write a value (`encode_payload`). -/
def write (codec : Codec α) (value : α) : Except Fault ByteArray :=
  match codec.refusal? value with
  | some fault => .error fault
  | none => .ok (codec.encode value)

def decodeStrict (codec : Codec α) (data : ByteArray) : Except Fault α :=
  (MessagePack.decode codec.read data).mapError fun flaw => .malformed flaw.message

/-- Read a value from bytes; no bytes at all are read as nothing (`decode_payload`). -/
def decode (codec : Codec α) (data : ByteArray) : Except Fault α :=
  codec.decodeStrict (if data.size = 0 then Writer.nothing else data)

def nothing : Codec Unit where
  encode _ := Writer.nothing
  read := MessagePack.nothing

def text : Codec String where
  encode := Writer.text
  read := MessagePack.text

def bytes : Codec ByteArray where
  encode := Writer.bytes
  read := MessagePack.bytes

end Codec

/-- A request (`RequestEnvelope`): the method that is called and its payload. -/
structure Envelope where
  method : String
  payload : ByteArray
  deriving DecidableEq, Inhabited

namespace Envelope

def shape : Record Envelope where
  name := "RequestEnvelope"
  fields := ["method", "payload"]
  required := 1
  firstWanted := "a string"
  blank := ⟨"", ByteArray.empty⟩
  store depth field envelope :=
    match field with
    | 0 => do
      let method ← MessagePack.text depth
      pure { envelope with method }
    | _ => do
      let payload ← MessagePack.bytes depth
      pure { envelope with payload }

def codec : Codec Envelope where
  encode envelope :=
    Writer.fields [("method", Writer.text envelope.method),
      ("payload", Writer.bytes envelope.payload)]
  read := shape.read

def encode (envelope : Envelope) : ByteArray :=
  codec.encode envelope

def decode (data : ByteArray) : Except Fault Envelope :=
  codec.decodeStrict data

end Envelope

/-- The reply to a ping (`PingResponse`): the version that answers, and the host it runs on if that
is known. -/
structure PingReply where
  version : String
  hostname : Option String
  deriving DecidableEq, Repr, Inhabited

namespace PingReply

def shape : Record PingReply where
  name := "PingResponse"
  fields := ["version", "hostname"]
  required := 1
  firstWanted := "a string"
  blank := ⟨"", none⟩
  store depth field reply :=
    match field with
    | 0 => do
      let version ← MessagePack.text depth
      pure { reply with version }
    | _ => do
      let hostname ← MessagePack.text? depth
      pure { reply with hostname }

/-- The codec of replies to a ping; an unknown host is left out. -/
def codec : Codec PingReply where
  encode reply :=
    Writer.fields (("version", Writer.text reply.version) ::
      (reply.hostname.map fun host => ("hostname", Writer.text host)).toList)
  read := shape.read

end PingReply

/-- An entry of a directory (`DirEntry`): its name, its mode, an identifier that stays the same
across snapshots, and the number of links to it. -/
structure FileEntry where
  name : String
  mode : UInt32
  stableId : UInt64
  links : UInt32
  deriving DecidableEq, Repr, Inhabited

namespace FileEntry

def shape : Record FileEntry where
  name := "DirEntry"
  fields := ["name", "mode", "stable_id", "nlink"]
  required := 4
  firstWanted := "a string"
  blank := ⟨"", 0, 0, 0⟩
  store depth field entry :=
    match field with
    | 0 => do
      let name ← MessagePack.text depth
      pure { entry with name }
    | 1 => do
      let mode ← MessagePack.natural (2 ^ 32) "u32"
      pure { entry with mode := UInt32.ofNat mode }
    | 2 => do
      let stableId ← MessagePack.natural (2 ^ 64) "u64"
      pure { entry with stableId := UInt64.ofNat stableId }
    | _ => do
      let links ← MessagePack.natural (2 ^ 32) "u32"
      pure { entry with links := UInt32.ofNat links }

def codec : Codec FileEntry where
  encode entry :=
    Writer.fields [("name", Writer.text entry.name), ("mode", Writer.natural entry.mode.toNat),
      ("stable_id", Writer.natural entry.stableId.toNat),
      ("nlink", Writer.natural entry.links.toNat)]
  read := shape.read

end FileEntry

/-- The listing of a directory (`DirEntryListing`). -/
structure Listing where
  entries : List FileEntry
  deriving DecidableEq, Repr, Inhabited

namespace Listing

def shape : Record Listing where
  name := "DirEntryListing"
  fields := ["entries"]
  required := 1
  firstWanted := "a sequence"
  blank := ⟨[]⟩
  store depth _ _ := do
    let entries ← MessagePack.list FileEntry.shape.wanted FileEntry.shape.read depth
    pure ⟨entries⟩

def codec : Codec Listing where
  encode listing :=
    Writer.fields [("entries", Writer.list FileEntry.codec.encode listing.entries)]
  read := shape.read

end Listing

end Switchboard
