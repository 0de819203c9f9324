import Switchboard.IoFault
import Switchboard.Text.Utf8

/-!
# Frames

A frame carries one message of a call. It is written as a byte for its kind, the length of its
payload as four bytes, most significant first, and the payload. `Frame.encode` and `Frame.decode`
are the functions `encode` and `decode` of frames: one writes a frame, the other takes one off the
front of a buffer, or says that more bytes are needed. `Decoder.feed` decodes a stream that arrives
in chunks.
-/

namespace Switchboard

/-- The kinds of frame (`MessageType`). -/
inductive FrameKind where
  | request
  | response
  | error
  deriving DecidableEq, Repr, Inhabited

namespace FrameKind

def byte : FrameKind → UInt8
  | request => 1
  | response => 2
  | error => 3

def ofByte? (b : UInt8) : Option FrameKind :=
  if b = 1 then some request
  else if b = 2 then some response
  else if b = 3 then some error
  else none

theorem ofByte?_byte (kind : FrameKind) : ofByte? kind.byte = some kind := by
  cases kind <;> rfl

def name : FrameKind → String
  | request => "Request"
  | response => "Response"
  | error => "Error"

end FrameKind

/-- A frame: a request, its response, or the words of the error that took the place of one. -/
inductive Frame where
  | request (data : ByteArray)
  | response (data : ByteArray)
  | error (text : String)
  deriving DecidableEq, Inhabited

namespace Frame

/-- The bytes before the payload: the kind and the length. -/
def headerSize : Nat := 5

/-- The most bytes that a payload may have. -/
def maxPayload : Nat := 16 * 1024 * 1024

def kind : Frame → FrameKind
  | request _ => .request
  | response _ => .response
  | error _ => .error

def payload : Frame → ByteArray
  | request data => data
  | response data => data
  | error text => text.toUTF8

/-- The frame of a kind with a payload; the payload of an error is read as text, with the
replacement character where it is none. -/
def ofParts (kind : FrameKind) (data : ByteArray) : Frame :=
  match kind with
  | .request => request data
  | .response => response data
  | .error => error (Utf8.lossy data)

/-- Four bytes that write a number below 2^32, most significant first. -/
def lengthBytes (n : Nat) : List UInt8 :=
  [UInt8.ofNat (n / 2 ^ 24), UInt8.ofNat (n / 2 ^ 16), UInt8.ofNat (n / 2 ^ 8), UInt8.ofNat n]

def lengthOf (a b c d : UInt8) : Nat :=
  ((a.toNat * 256 + b.toNat) * 256 + c.toNat) * 256 + d.toNat

def header (kind : FrameKind) (length : Nat) : ByteArray :=
  ⟨(kind.byte :: lengthBytes length).toArray⟩

/-- A payload is longer than a frame may carry. -/
def tooLarge (kind : IoKind) (length : Nat) : IoFault :=
  ⟨kind, s!"Payload too large: {length} bytes"⟩

/-- A byte stands for no kind of frame. -/
def unknownKind (b : UInt8) : IoFault :=
  ⟨.invalidData, s!"Unknown message type: {b.toNat}"⟩

/-- The bytes of a frame; refused if its payload is too large. -/
def encode (frame : Frame) : Except IoFault ByteArray :=
  let data := frame.payload
  if maxPayload < data.size then .error (tooLarge .invalidInput data.size)
  else .ok (header frame.kind data.size ++ data)

/-- What the header of a buffer says, if it is there: the kind of the frame and the length of its
payload, or why the frame is refused. -/
def readHeader (buffer : ByteArray) : Option (Except IoFault (FrameKind × Nat)) :=
  if h : buffer.size < 5 then none
  else
    let length := lengthOf buffer[1] buffer[2] buffer[3] buffer[4]
    if maxPayload < length then some (.error (tooLarge .invalidData length))
    else
      match FrameKind.ofByte? buffer[0] with
      | none => some (.error (unknownKind buffer[0]))
      | some kind => some (.ok (kind, length))

/-- Take a frame off the front of a buffer: the frame and the bytes after it, or nothing if more
bytes are needed. A length over the limit is reported before an unknown kind. -/
def decode (buffer : ByteArray) : Except IoFault (Option (Frame × ByteArray)) :=
  if h : buffer.size < 5 then .ok none
  else
    let length := lengthOf buffer[1] buffer[2] buffer[3] buffer[4]
    if maxPayload < length then .error (tooLarge .invalidData length)
    else
      match FrameKind.ofByte? buffer[0] with
      | none => .error (unknownKind buffer[0])
      | some kind =>
        let stop := headerSize + length
        if buffer.size < stop then .ok none
        else .ok (some (ofParts kind (buffer.extract headerSize stop),
          buffer.extract stop buffer.size))

/-- What is left of a buffer after a frame was taken off it is shorter. -/
theorem size_lt_of_decode {buffer rest : ByteArray} {frame : Frame}
    (h : decode buffer = .ok (some (frame, rest))) : rest.size < buffer.size := by
  unfold decode at h
  split at h
  · simp at h
  · next hs =>
    simp only at h
    split at h
    · simp at h
    · split at h
      · simp at h
      · split at h
        · simp at h
        · simp only [Except.ok.injEq, Option.some.injEq, Prod.mk.injEq] at h
          obtain ⟨-, rfl⟩ := h
          simp only [ByteArray.size_extract, headerSize]
          omega

end Frame

/-- What a decoder has made of the bytes that it was fed: the frames, the bytes that begin no
whole frame yet, and the fault at which it stopped. -/
structure Decoder where
  frames : List Frame := []
  rest : ByteArray := ByteArray.empty
  fault : Option IoFault := none

namespace Decoder

/-- Take frames off the front of a buffer as long as there are any. -/
def drain (buffer : ByteArray) : Decoder :=
  match h : Frame.decode buffer with
  | .error fault => ⟨[], buffer, some fault⟩
  | .ok none => ⟨[], buffer, none⟩
  | .ok (some (frame, rest)) =>
    have := Frame.size_lt_of_decode h
    let after := drain rest
    { after with frames := frame :: after.frames }
termination_by buffer.size

/-- Append a chunk and take the frames off that it completes. A decoder that met a fault stays as
it is. -/
def feed (decoder : Decoder) (chunk : ByteArray) : Decoder :=
  match decoder.fault with
  | some _ => decoder
  | none =>
    let after := drain (decoder.rest ++ chunk)
    { after with frames := decoder.frames ++ after.frames }

def feedAll (chunks : List ByteArray) : Decoder :=
  chunks.foldl feed {}

end Decoder

end Switchboard
