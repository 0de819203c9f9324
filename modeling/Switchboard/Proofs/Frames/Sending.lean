import Mathlib.Data.List.Forall2
import Switchboard.Proofs.Channel.Writing
import Switchboard.Proofs.Frames.Receiving

/-!
# Writing frames to a channel

A frame that is written contributes its whole encoding to the channel, or a beginning of it, or
nothing: the whole if the call succeeds or fails in flushing, a beginning if the channel takes no
more, and nothing if the frame is too large, in which case the channel is not even asked. `Delivery`
has these four cases; `Deliveries` is a run of them, each with the channel that the one before has
left. What the channel has taken is what the frames contributed, in order
(`sendFrames_delivers`), and if no call fails, reading it gives the frames back (`ReadBack`).
-/

namespace Switchboard

variable {frame : Frame} {frames : List Frame} {before after sink : Sink} {failure : Option IoFault}
  {failures : List (Option IoFault)} {part : ByteArray} {parts : List ByteArray}

/-! ## One frame -/

/-- What writing a frame comes to: the failure, if any, what the frame contributes to the bytes that
the channel takes, and the channel after it. -/
inductive Delivery (frame : Frame) (before : Sink) : Option IoFault → ByteArray → Sink → Prop
  /-- The frame is too large, and the channel is left alone. -/
  | refused (hlarge : Frame.maxPayload < frame.payload.size) :
      Delivery frame before
        (some ⟨.invalidInput, s!"Payload too large: {frame.payload.size} bytes"⟩)
        ByteArray.empty before
  /-- The channel takes no more than a beginning. -/
  | cut {data : ByteArray} {n writes : Nat} {fault : IoFault} (hdata : frame.encode = .ok data)
      (hn : n < data.size) (hrefuses : before.Refuses n fault) :
      Delivery frame before (some fault) (data.extract 0 n)
        { before with written := before.written ++ data.extract 0 n, writes }
  /-- The channel takes everything, and fails to flush it. -/
  | unflushed {data : ByteArray} {writes : Nat} {kind : IoKind} (hdata : frame.encode = .ok data)
      (hfits : before.Fits data.size) (hflush : before.flushFault before.flushes = some kind) :
      Delivery frame before (some (.bare kind)) data
        { before with
          written := before.written ++ data, writes, flushes := before.flushes + 1 }
  | sent {data : ByteArray} {writes : Nat} (hdata : frame.encode = .ok data)
      (hfits : before.Fits data.size) (hflush : before.flushFault before.flushes = none) :
      Delivery frame before none data
        { before with
          written := before.written ++ data, writes, flushes := before.flushes + 1 }

theorem delivery_sendFrame (frame : Frame) (sink : Sink) :
    ∃ part, Delivery frame sink (sendFrame frame sink).1 part (sendFrame frame sink).2 := by
  unfold sendFrame
  by_cases hlarge : Frame.maxPayload < frame.payload.size
  · rw [Frame.encode_large hlarge]
    exact ⟨_, .refused hlarge⟩
  · obtain ⟨data, hdata⟩ : ∃ data, frame.encode = .ok data :=
      ⟨_, Frame.encode_fits (Nat.not_lt.1 hlarge)⟩
    rcases hrun : sink.writeAll data with ⟨failure, between⟩
    obtain ⟨part, hwriting⟩ := Sink.writing_of_writeAll hrun
    rw [hdata]
    simp only [hrun]
    cases hwriting with
    | cut hn hrefuses => exact ⟨_, .cut hdata hn hrefuses⟩
    | whole hfits =>
      simp only [Sink.flush]
      cases hflush : sink.flushFault sink.flushes with
      | some kind => exact ⟨data, .unflushed hdata hfits hflush⟩
      | none => exact ⟨data, .sent hdata hfits hflush⟩

theorem Delivery.written (h : Delivery frame before failure part after) :
    after.written = before.written ++ part := by
  cases h with
  | refused => rw [ByteArray.append_empty]
  | cut => rfl
  | unflushed => rfl
  | sent => rfl

theorem Delivery.encoding (h : Delivery frame before none part after) :
    frame.encode = .ok part := by
  cases h with
  | sent hdata => exact hdata

/-! ## Frames one after the other -/

/-- Frames are written one after the other, each to the channel as the one before has left it. -/
inductive Deliveries :
    List Frame → Sink → List (Option IoFault) → List ByteArray → Sink → Prop
  | nil {sink : Sink} : Deliveries [] sink [] [] sink
  | cons {frame : Frame} {frames : List Frame} {before between after : Sink}
      {failure : Option IoFault} {failures : List (Option IoFault)} {part : ByteArray}
      {parts : List ByteArray} (hfirst : Delivery frame before failure part between)
      (hlater : Deliveries frames between failures parts after) :
      Deliveries (frame :: frames) before (failure :: failures) (part :: parts) after

theorem deliveries_sendFrames (frames : List Frame) (sink : Sink) :
    ∃ parts, Deliveries frames sink (sendFrames frames sink).1 parts
      (sendFrames frames sink).2 := by
  induction frames generalizing sink with
  | nil => exact ⟨[], .nil⟩
  | cons frame frames ih =>
    obtain ⟨part, hfirst⟩ := delivery_sendFrame frame sink
    obtain ⟨parts, hlater⟩ := ih (sendFrame frame sink).2
    exact ⟨part :: parts, .cons hfirst hlater⟩

/-- By induction on the frames: every contribution is appended to those before it. -/
theorem Deliveries.written (h : Deliveries frames before failures parts after) :
    after.written = before.written ++ joined parts := by
  induction h with
  | nil => rw [joined_nil, ByteArray.append_empty]
  | cons hfirst hlater ih => rw [ih, hfirst.written, joined_cons, ByteArray.append_assoc]

theorem Deliveries.encodings (h : Deliveries frames before failures parts after)
    (hnone : ∀ failure ∈ failures, failure = none) :
    List.Forall₂ (fun frame part => frame.encode = .ok part) frames parts := by
  induction h with
  | nil => exact .nil
  | cons hfirst hlater ih =>
    rw [hnone _ List.mem_cons_self] at hfirst
    exact .cons hfirst.encoding (ih fun failure hm => hnone failure (List.mem_cons_of_mem _ hm))

/-! ## Reading back -/

/-- Bytes in parts, one for each frame, are read as these frames. -/
structure ReadBack (frames : List Frame) (parts : List ByteArray) : Prop where
  /-- Nothing is left over once the frames are taken off. -/
  drained : Decoder.drain (joined parts) = ⟨frames, ByteArray.empty, none⟩
  /-- It does not matter in what chunks the bytes arrive. -/
  chunks : ∀ chunks, joined chunks = joined parts →
    (Decoder.feedAll chunks).Agrees ⟨frames, ByteArray.empty, none⟩
  /-- A source that begins with the part of a frame gives the frame. -/
  received : List.Forall₂ (fun frame part => ∀ source : Source, ∀ behind,
    source.front = part ++ behind → (receiveFrame source).1 = .frame frame) frames parts

theorem drain_encodings_joined
    (h : List.Forall₂ (fun frame part => frame.encode = .ok part) frames parts) :
    Decoder.drain (joined parts) = ⟨frames, ByteArray.empty, none⟩ := by
  induction h with
  | nil => exact Decoder.drain_none Frame.decode_empty
  | cons hpart hlater ih => rw [joined_cons, Decoder.drain_encode hpart, ih]

theorem receiveFrame_encoding {source : Source} {behind : ByteArray}
    (h : frame.encode = .ok part) (hfront : source.front = part ++ behind) :
    (receiveFrame source).1 = .frame frame := by
  have hreceived : (receiveFrame source).1 = _ :=
    FrameReader.receive_eq_outcome readerCapacity source
  rw [hreceived, hfront]
  exact FrameReader.outcome_frame (Frame.decode_encode h behind) source.ending

theorem readBack_encodings
    (h : List.Forall₂ (fun frame part => frame.encode = .ok part) frames parts) :
    ReadBack frames parts where
  drained := drain_encodings_joined h
  chunks chunks hchunks := by
    have hfed := Decoder.feedAll_agrees_drain chunks
    rwa [hchunks, drain_encodings_joined h] at hfed
  received := h.imp fun _ _ hpart _ _ hfront => receiveFrame_encoding hpart hfront

/-- **A frame is written whole, or a beginning of it.** Whatever portions the channel takes, where
it breaks and which flushes fail: what it has taken of some frames that are written one after the
other is what they contributed, in order, and each contributed its whole encoding if its call
succeeded or failed in flushing, a beginning of it if its call failed in writing, and nothing if it
was refused for its size. If no call failed, what the channel has taken reads as the frames. -/
theorem sendFrames_delivers (frames : List Frame) (sink : Sink) :
    ∃ parts,
      Deliveries frames sink (sendFrames frames sink).1 parts (sendFrames frames sink).2 ∧
      (sendFrames frames sink).2.written = sink.written ++ joined parts ∧
      ((∀ failure ∈ (sendFrames frames sink).1, failure = none) → ReadBack frames parts) := by
  obtain ⟨parts, hparts⟩ := deliveries_sendFrames frames sink
  exact ⟨parts, hparts, hparts.written, fun hnone => readBack_encodings (hparts.encodings hnone)⟩

/-- Two frames in portions of four bytes; and to a channel that fails in the first flush and breaks
inside the second header. -/
theorem sendFrames_delivers_in_portions :
    let frames := [Frame.request ⟨#[9]⟩, Frame.error "é"]
    let sink : Sink := { portion := fun _ => some 4 }
    let broken : Sink :=
      { sink with
        breaksAt := some (9, .brokenPipe)
        flushFault := fun i => if i = 0 then some .timedOut else none }
    (∀ failure ∈ (sendFrames frames sink).1, failure = none) ∧
      Decoder.drain (sendFrames frames sink).2.written = ⟨frames, ByteArray.empty, none⟩ ∧
      (sendFrames frames broken).1 = [some (.bare .timedOut), some (.bare .brokenPipe)] ∧
      (sendFrames frames broken).2.written = ⟨#[1, 0, 0, 0, 1, 9, 3, 0, 0]⟩ := by
  intro frames sink broken
  have hnone : (sendFrames frames sink).1 = [none, none] := by decide +kernel
  have hall : ∀ failure ∈ (sendFrames frames sink).1, failure = none := by
    rw [hnone]
    decide
  obtain ⟨parts, -, hwritten, hread⟩ := sendFrames_delivers frames sink
  refine ⟨hall, ?_, by decide +kernel, by decide +kernel⟩
  rw [hwritten, ByteArray.empty_append]
  exact (hread hall).drained

end Switchboard
