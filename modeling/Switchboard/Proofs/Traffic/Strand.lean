import Switchboard.Call
import Switchboard.Service
import Switchboard.Proofs.Envelope
import Switchboard.Proofs.FrameStream

/-!
# Streams that carry one frame each way

A stream as its two ends see it, whatever carries it: two flows, of which each gives what was
written to it in order, in portions that nobody foresees. What goes over a flow is one frame.
`Flow.Carries` says that what was written so far is a beginning of that frame, and
`Flow.Carries.feed` that a reader makes that frame of it and nothing else.
-/

namespace Switchboard

structure Flow where
  /-- The bytes that were written to it. -/
  written : ByteArray := ByteArray.empty
  /-- How many of them were read. -/
  taken : Nat := 0
  /-- Whether its writer is done. -/
  ended : Bool := false

inductive Portion where
  /-- So many bytes pass. -/
  | bytes (count : Nat)
  | ended
  | failed (fault : IoFault)

namespace Flow

/-- Read from a flow. One that is broken may give its end or a failure at any time. -/
def read (broken : Bool) (room : Nat) (flow : Flow) : Portion → Option (Signal × Flow)
  | .bytes n =>
    if 0 < n ∧ n ≤ room ∧ flow.taken + n ≤ flow.written.size then
      some (.bytes (flow.written.extract flow.taken (flow.taken + n)),
        { flow with taken := flow.taken + n })
    else none
  | .ended =>
    if flow.ended ∧ flow.taken = flow.written.size ∨ broken then
      some (.bytes ByteArray.empty, flow)
    else none
  | .failed fault => if broken then some (.failed fault, flow) else none

/-- Write some of the bytes from `start` on to a flow. -/
def write (broken : Bool) (data : ByteArray) (start : Nat) (flow : Flow) :
    Portion → Option (Signal × Flow)
  | .bytes n =>
    if 0 < n ∧ start + n ≤ data.size then
      some (.taken n, { flow with written := flow.written ++ data.extract start (start + n) })
    else none
  | .ended => none
  | .failed fault => if broken then some (.failed fault, flow) else none

def finish (broken : Bool) (flow : Flow) : Portion → Option (Signal × Flow)
  | .bytes _ => none
  | .ended => some (.done, { flow with ended := true })
  | .failed fault => if broken then some (.failed fault, flow) else none

structure Fresh (flow : Flow) : Prop where
  empty : flow.written = ByteArray.empty
  more : flow.ended = false

theorem Fresh.size_eq {flow : Flow} (h : flow.Fresh) : flow.written.size = 0 := by
  rw [h.empty]
  rfl

/-- A flow carries a frame: a beginning of its bytes was written, and all of them before the
end. -/
def Carries (flow : Flow) (frame : Frame) : Prop :=
  ∃ data, frame.encode = .ok data ∧ flow.written = data.extract 0 flow.written.size ∧
    (flow.ended = true → flow.written = data)

/-- A reader has read what was taken from a flow, and it was no whole frame. -/
structure ReadBy (flow : Flow) (reader : FrameReader) : Prop where
  buffer : reader.buffer = flow.written.extract 0 flow.taken
  pending : Frame.decode reader.buffer = .ok none

variable {flow : Flow} {frame : Frame} {reader : FrameReader} {data : ByteArray} {n : Nat}

theorem readBy_start (h : flow.taken = 0) : flow.ReadBy {} := by
  refine ⟨?_, rfl⟩
  rw [h]
  exact (ByteArray.extract_eq_empty_iff.2 (by omega)).symm

/-- What a reader has read does not change when more is written. -/
theorem ReadBy.write (h : flow.ReadBy reader) (htaken : flow.taken ≤ flow.written.size)
    (more : ByteArray) : ReadBy { flow with written := flow.written ++ more } reader := by
  refine ⟨?_, h.pending⟩
  rw [h.buffer]
  exact (Bytes.extract_append_left htaken).symm

theorem carries_of_written (hencode : frame.encode = .ok data)
    (hwritten : flow.written = data.extract 0 n) (hn : n ≤ data.size)
    (hended : flow.ended = false) :
    flow.Carries frame := by
  refine ⟨data, hencode, ?_, by simp [hended]⟩
  rw [hwritten, ByteArray.size_extract]
  congr 1
  omega

theorem carries_of_whole (hencode : frame.encode = .ok flow.written) : flow.Carries frame :=
  ⟨flow.written, hencode, ByteArray.extract_zero_size.symm, fun _ => rfl⟩

theorem Carries.written_beginning (hencode : frame.encode = .ok data) (h : flow.Carries frame) :
    flow.written = data.extract 0 flow.written.size := by
  obtain ⟨data', hencode', hwritten, -⟩ := h
  rw [hencode] at hencode'
  cases hencode'
  exact hwritten

theorem Carries.size_le (h : flow.Carries frame) :
    flow.written.size ≤ Frame.headerSize + Frame.maxPayload := by
  obtain ⟨data, hencode, hwritten, -⟩ := h
  have hsize := congrArg ByteArray.size hwritten
  rw [ByteArray.size_extract] at hsize
  obtain ⟨hpayload, rfl⟩ := Frame.encode_ok hencode
  rw [ByteArray.size_append, Frame.size_header] at hsize
  omega

/-- What a reader has of a frame ends before the frame does. -/
theorem Carries.taken_lt (hencode : frame.encode = .ok data) (h : flow.Carries frame)
    (hread : flow.ReadBy reader) (htaken : flow.taken ≤ flow.written.size) :
    flow.taken < data.size := by
  rcases Nat.lt_or_ge flow.taken data.size with hlt | hge
  · exact hlt
  · have hwritten := h.written_beginning hencode
    have hbuffer : reader.buffer = data := by
      rw [hread.buffer, Bytes.extract_zero_of_le (by
        rw [hwritten, ByteArray.size_extract]; omega), hwritten]
      exact Bytes.extract_zero_of_le (by omega)
    have hnone := hread.pending
    have hsome := Frame.decode_encode hencode ByteArray.empty
    rw [ByteArray.append_empty, ← hbuffer, hnone] at hsome
    cases hsome

/-- A reader that has taken all there is has not come to the end. -/
theorem Carries.not_ended (h : flow.Carries frame) (hread : flow.ReadBy reader)
    (htaken : flow.taken = flow.written.size) : flow.ended = false := by
  obtain ⟨data, hencode, -, hended⟩ := id h
  have hlt := h.taken_lt hencode hread (Nat.le_of_eq htaken)
  cases he : flow.ended with
  | false => rfl
  | true =>
    rw [htaken, hended he] at hlt
    omega

/-- **A reader makes the frame of a flow that it carries.** With the next bytes it has either all
of the frame, or goes on with what was taken. -/
theorem Carries.feed (hencode : frame.encode = .ok data) (h : flow.Carries frame)
    (hread : flow.ReadBy reader) (htaken : flow.taken + n ≤ flow.written.size) :
    (reader.feed (flow.written.extract flow.taken (flow.taken + n)) = .inl (.frame frame) ∧
      flow.taken + n = data.size ∧ flow.written = data) ∨
    ∃ next, reader.feed (flow.written.extract flow.taken (flow.taken + n)) = .inr next ∧
      ReadBy { flow with taken := flow.taken + n } next := by
  have hwritten := h.written_beginning hencode
  have hle : flow.written.size ≤ data.size := by
    have hsize := congrArg ByteArray.size hwritten
    rw [ByteArray.size_extract] at hsize
    omega
  have hbuffer : reader.buffer ++ flow.written.extract flow.taken (flow.taken + n) =
      data.extract 0 (flow.taken + n) := by
    rw [hread.buffer, Bytes.extract_append_next (by omega)]
    conv => lhs; rw [hwritten]
    exact Bytes.extract_extract_zero htaken
  unfold FrameReader.feed
  simp only [hbuffer]
  rcases Nat.lt_or_ge (flow.taken + n) data.size with hlt | hge
  · have hnone := Frame.decode_beginning hencode hlt
    refine .inr ⟨⟨reader.nextCapacity, data.extract 0 (flow.taken + n)⟩, by rw [hnone], ?_, hnone⟩
    conv => rhs; rw [hwritten]
    exact (Bytes.extract_extract_zero htaken).symm
  · have hall : flow.written = data := by
      rw [hwritten]
      exact Bytes.extract_zero_of_le (by omega)
    have hsome := Frame.decode_encode hencode ByteArray.empty
    rw [ByteArray.append_empty] at hsome
    refine .inl ⟨?_, by omega, hall⟩
    rw [Bytes.extract_zero_of_le hge, hsome]

end Flow

end Switchboard
