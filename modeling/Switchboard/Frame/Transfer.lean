import Switchboard.Channel.Sink
import Switchboard.Channel.Source
import Switchboard.Frame

/-!
# Frames over channels

`receiveFrame` reads one frame from a source as `read_frame` does, and `sendFrame` writes one to a
sink as `write_frame` does. A reader has a buffer of its own, which starts small and doubles when it
is full; what it has read beyond its frame goes with it.
-/

namespace Switchboard

inductive Received where
  | frame (frame : Frame)
  /-- The channel ended before the frame began. -/
  | ended
  | fault (fault : IoFault)
  /-- It does not end: the channel is silent. -/
  | waiting

/-- The room that a reader's buffer has to start with. -/
def readerCapacity : Nat := 1024

/-- The channel ended after so many bytes of a frame. -/
def endedInside (size : Nat) : IoFault :=
  ⟨.unexpectedEof, s!"stream ended inside a frame ({size} bytes buffered)"⟩

/-- The capacity of a buffer of `size` bytes once it has room for another. -/
def withRoom (capacity size : Nat) : Nat :=
  if size < capacity then capacity else max (2 * capacity) (size + 64)

theorem lt_withRoom (capacity size : Nat) : size < withRoom capacity size := by
  unfold withRoom
  split <;> omega

/-- What a reader has of the frame that it reads, and the room that its buffer has in all. -/
structure FrameReader where
  capacity : Nat := readerCapacity
  buffer : ByteArray := ByteArray.empty
  deriving Inhabited

namespace FrameReader

def nextCapacity (reader : FrameReader) : Nat :=
  withRoom reader.capacity reader.buffer.size

def room (reader : FrameReader) : Nat :=
  reader.nextCapacity - reader.buffer.size

theorem room_pos (reader : FrameReader) : 0 < reader.room := by
  have := lt_withRoom reader.capacity reader.buffer.size
  unfold room nextCapacity
  omega

/-- The bytes of one read: what they complete, or the reader that goes on. -/
def feed (data : ByteArray) (reader : FrameReader) : Received ⊕ FrameReader :=
  let capacity := reader.nextCapacity
  let buffer := reader.buffer ++ data
  match Frame.decode buffer with
  | .error fault => .inl (.fault fault)
  | .ok (some (frame, _)) => .inl (.frame frame)
  | .ok none => .inr ⟨capacity, buffer⟩

def ended (reader : FrameReader) : Received :=
  if reader.buffer.size = 0 then .ended else .fault (endedInside reader.buffer.size)

def receive (reader : FrameReader) (source : Source) : Received × Source :=
  match h : source.read reader.room with
  | (.bytes data, rest) =>
    have : rest.weight < source.weight := by
      have := Source.weight_read_lt reader.room_pos (Source.arrivals_ne_nil_of_read_bytes h)
      rwa [h] at this
    match reader.feed data with
    | .inl received => (received, rest)
    | .inr reader => receive reader rest
  | (.fault kind, rest) => (.fault (.bare kind), rest)
  | (.waiting, rest) => (.waiting, rest)
  | (.ended, rest) => (reader.ended, rest)
termination_by source.weight

end FrameReader

/-- Read one frame (`read_frame`). -/
def receiveFrame (source : Source) : Received × Source :=
  ({} : FrameReader).receive source

/-- Write one frame and flush it (`write_frame`); the failure, if any. A frame that is too large is
refused before anything is written. -/
def sendFrame (frame : Frame) (sink : Sink) : Option IoFault × Sink :=
  match frame.encode with
  | .error fault => (some fault, sink)
  | .ok data =>
    match sink.writeAll data with
    | (some fault, sink) => (some fault, sink)
    | (none, sink) => sink.flush

/-- Write frames one after the other; the failure of each, if any. -/
def sendFrames (frames : List Frame) (sink : Sink) : List (Option IoFault) × Sink :=
  match frames with
  | [] => ([], sink)
  | frame :: later =>
    let (fault, sink) := sendFrame frame sink
    let (faults, sink) := sendFrames later sink
    (fault :: faults, sink)

end Switchboard
