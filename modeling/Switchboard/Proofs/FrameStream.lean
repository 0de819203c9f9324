import Switchboard.Frame
import Switchboard.Proofs.Text

/-!
# Frames in a stream of bytes

What `Frame.decode` says of a buffer is settled by the bytes that it looks at: more bytes behind a
whole frame, or behind a fault, change nothing (`decode_append_some`, `decode_append_error`). From
this `drain_append` follows, how a buffer is worked off whose end arrives later, and from that
the two statements about streams:

* `feedAll_cut`: the frames, the fault and the bytes left over do not depend on how a stream is cut
  into chunks.
* `drain_encodings`: the encodings of some frames, with the beginning of another behind them, give
  these frames and leave that beginning; and both directions have the same limit.
-/

namespace Switchboard

namespace Frame

/-! ## Headers -/

/-- Decoding is reading the header and then waiting for the payload. -/
theorem decode_eq (buffer : ByteArray) :
    decode buffer =
      match readHeader buffer with
      | none => .ok none
      | some (.error fault) => .error fault
      | some (.ok (kind, length)) =>
        if buffer.size < headerSize + length then .ok none
        else .ok (some (ofParts kind (buffer.extract headerSize (headerSize + length)),
          buffer.extract (headerSize + length) buffer.size)) := by
  unfold decode readHeader
  by_cases hs : buffer.size < 5
  · simp only [dif_pos hs]
  · simp only [dif_neg hs]
    by_cases hl : maxPayload < lengthOf buffer[1] buffer[2] buffer[3] buffer[4]
    · simp only [if_pos hl]
    · simp only [if_neg hl]
      cases FrameKind.ofByte? buffer[0] <;> rfl

/-- A header that is there is not changed by what comes after it. -/
theorem readHeader_append {buffer : ByteArray} {verdict : Except IoFault (FrameKind × Nat)}
    (more : ByteArray) (h : readHeader buffer = some verdict) :
    readHeader (buffer ++ more) = some verdict := by
  unfold readHeader at h ⊢
  by_cases hs : buffer.size < 5
  · rw [dif_pos hs] at h; cases h
  · rw [dif_neg hs] at h
    have hs' : ¬ (buffer ++ more).size < 5 := by rw [ByteArray.size_append]; omega
    rw [dif_neg hs', ← h]
    simp only [ByteArray.getElem_append_left (show 0 < buffer.size by omega),
      ByteArray.getElem_append_left (show 1 < buffer.size by omega),
      ByteArray.getElem_append_left (show 2 < buffer.size by omega),
      ByteArray.getElem_append_left (show 3 < buffer.size by omega),
      ByteArray.getElem_append_left (show 4 < buffer.size by omega)]

theorem headerSize_le_of_readHeader {buffer : ByteArray}
    {verdict : Except IoFault (FrameKind × Nat)} (h : readHeader buffer = some verdict) :
    headerSize ≤ buffer.size := by
  unfold readHeader at h
  split at h
  · cases h
  · simp only [headerSize]; omega

theorem size_header (kind : FrameKind) (length : Nat) : (header kind length).size = headerSize :=
  rfl

theorem lengthOf_lengthBytes {n : Nat} (h : n < 2 ^ 32) :
    lengthOf (UInt8.ofNat (n / 2 ^ 24)) (UInt8.ofNat (n / 2 ^ 16)) (UInt8.ofNat (n / 2 ^ 8))
      (UInt8.ofNat n) = n := by
  simp only [lengthOf, UInt8.toNat_ofNat']
  omega

/-- A header is read as it was written, unless it announces too much. -/
theorem readHeader_header (kind : FrameKind) {n : Nat} (h : n < 2 ^ 32) :
    readHeader (header kind n) =
      if maxPayload < n then some (.error (tooLarge .invalidData n)) else some (.ok (kind, n)) := by
  have hs : ¬ (header kind n).size < 5 := by rw [size_header, headerSize]; omega
  have hk : FrameKind.ofByte? (header kind n)[0] = some kind := FrameKind.ofByte?_byte kind
  have hl : lengthOf (header kind n)[1] (header kind n)[2] (header kind n)[3] (header kind n)[4] =
      n := lengthOf_lengthBytes h
  simp only [readHeader, dif_neg hs, hl, hk]

/-! ## More bytes behind a buffer -/

theorem decode_append_error {buffer : ByteArray} {fault : IoFault} (more : ByteArray)
    (h : decode buffer = .error fault) : decode (buffer ++ more) = .error fault := by
  rw [decode_eq] at h ⊢
  cases hr : readHeader buffer with
  | none => simp [hr] at h
  | some verdict =>
    rw [readHeader_append more hr]
    rw [hr] at h
    cases verdict with
    | error cause => exact h
    | ok parts =>
      simp only at h
      split at h <;> cases h

theorem decode_append_some {buffer rest : ByteArray} {frame : Frame} (more : ByteArray)
    (h : decode buffer = .ok (some (frame, rest))) :
    decode (buffer ++ more) = .ok (some (frame, rest ++ more)) := by
  rw [decode_eq] at h ⊢
  cases hr : readHeader buffer with
  | none => simp [hr] at h
  | some verdict =>
    rw [readHeader_append more hr]
    rw [hr] at h
    cases verdict with
    | error cause => cases h
    | ok parts =>
      obtain ⟨kind, length⟩ := parts
      have h5 := headerSize_le_of_readHeader hr
      simp only at h ⊢
      generalize headerSize + length = stop at h ⊢
      split at h
      · cases h
      · rename_i hstop
        simp only [Except.ok.injEq, Option.some.injEq, Prod.mk.injEq] at h
        obtain ⟨rfl, rfl⟩ := h
        rw [if_neg (by rw [ByteArray.size_append]; omega)]
        rw [Bytes.extract_append_left (by omega), Bytes.extract_append_to_end (by omega)]

/-! ## Encodings -/

theorem ofParts_payload (frame : Frame) : ofParts frame.kind frame.payload = frame := by
  cases frame with
  | request data => rfl
  | response data => rfl
  | error text => exact congrArg Frame.error (Utf8.lossy_toUTF8 text)

theorem encode_large {frame : Frame} (h : maxPayload < frame.payload.size) :
    encode frame = .error (tooLarge .invalidInput frame.payload.size) :=
  if_pos h

theorem encode_fits {frame : Frame} (h : frame.payload.size ≤ maxPayload) :
    encode frame = .ok (header frame.kind frame.payload.size ++ frame.payload) :=
  if_neg (Nat.not_lt.2 h)

theorem encode_ok {frame : Frame} {data : ByteArray} (h : encode frame = .ok data) :
    frame.payload.size ≤ maxPayload ∧
      data = header frame.kind frame.payload.size ++ frame.payload := by
  by_cases hl : maxPayload < frame.payload.size
  · rw [encode_large hl] at h; cases h
  · rw [encode_fits (Nat.not_lt.1 hl)] at h
    cases h
    exact ⟨Nat.not_lt.1 hl, rfl⟩

/-- The header of a frame that can be written is read back, whatever stands behind it. -/
theorem readHeader_encoding {frame : Frame} (h : frame.payload.size ≤ maxPayload)
    (rest : ByteArray) :
    readHeader (header frame.kind frame.payload.size ++ rest) =
      some (.ok (frame.kind, frame.payload.size)) := by
  have h32 : frame.payload.size < 2 ^ 32 := Nat.lt_of_le_of_lt h (by decide)
  have hr := readHeader_header frame.kind h32
  rw [if_neg (Nat.not_lt.2 h)] at hr
  exact readHeader_append rest hr

/-- Decoding undoes encoding, and leaves what stands behind the frame. -/
theorem decode_encode {frame : Frame} {data : ByteArray} (h : encode frame = .ok data)
    (rest : ByteArray) : decode (data ++ rest) = .ok (some (frame, rest)) := by
  obtain ⟨hl, rfl⟩ := encode_ok h
  have hr := readHeader_encoding hl (frame.payload ++ rest)
  rw [decode_eq, ByteArray.append_assoc, hr]
  have hs := size_header frame.kind frame.payload.size
  generalize header frame.kind frame.payload.size = head at hs ⊢
  have hbody : (head ++ (frame.payload ++ rest)).extract headerSize
      (headerSize + frame.payload.size) = frame.payload := by
    rw [← ByteArray.append_assoc, Bytes.extract_append_left (by rw [ByteArray.size_append]; omega)]
    exact ByteArray.extract_append_eq_right hs.symm (by rw [hs])
  have hrest : (head ++ (frame.payload ++ rest)).extract (headerSize + frame.payload.size)
      (head ++ (frame.payload ++ rest)).size = rest := by
    rw [← ByteArray.append_assoc]
    exact ByteArray.extract_append_eq_right (by rw [ByteArray.size_append, hs])
      ByteArray.size_append
  simp only [hbody, hrest, ofParts_payload]
  rw [if_neg (by simp only [ByteArray.size_append, hs]; omega)]

/-- A proper beginning of an encoding is no frame yet, and no fault. -/
theorem decode_beginning {frame : Frame} {data : ByteArray} (h : encode frame = .ok data) {n : Nat}
    (hn : n < data.size) : decode (data.extract 0 n) = .ok none := by
  obtain ⟨hl, rfl⟩ := encode_ok h
  have hs := size_header frame.kind frame.payload.size
  have hr := readHeader_encoding hl
  rw [ByteArray.size_append, hs] at hn
  generalize header frame.kind frame.payload.size = head at hs hr ⊢
  rw [decode_eq]
  by_cases h5 : n < headerSize
  · -- not even the header is there
    have hshort : ((head ++ frame.payload).extract 0 n).size < 5 := by
      rw [ByteArray.size_extract, ByteArray.size_append, hs]
      simp only [headerSize] at h5 ⊢; omega
    rw [readHeader, dif_pos hshort]
  · have hcut : (head ++ frame.payload).extract 0 n =
        head ++ frame.payload.extract 0 (n - headerSize) := by
      rw [ByteArray.extract_append, hs, Bytes.extract_zero_of_le (by rw [hs]; omega)]
      simp only [Nat.zero_sub]
    rw [hcut, hr]
    have hshort : (head ++ frame.payload.extract 0 (n - headerSize)).size <
        headerSize + frame.payload.size := by
      rw [ByteArray.size_append, ByteArray.size_extract, hs]; omega
    simp only [if_pos hshort]

/-- Decoding refuses a header exactly for the lengths for which encoding refuses a payload. -/
theorem decode_header_refused_iff (kind : FrameKind) {length : Nat} (h : length < 2 ^ 32)
    (rest : ByteArray) :
    (∃ fault, decode (header kind length ++ rest) = .error fault) ↔ maxPayload < length := by
  have hr := readHeader_header kind h
  rw [decode_eq]
  by_cases hl : maxPayload < length
  · rw [if_pos hl] at hr
    rw [readHeader_append rest hr]
    exact ⟨fun _ => hl, fun _ => ⟨_, rfl⟩⟩
  · rw [if_neg hl] at hr
    rw [readHeader_append rest hr]
    refine ⟨?_, fun hl' => absurd hl' hl⟩
    rintro ⟨fault, hf⟩
    simp only at hf
    split at hf <;> cases hf

end Frame

namespace Decoder

/-! ## Working a buffer off -/

theorem drain_error {buffer : ByteArray} {fault : IoFault}
    (h : Frame.decode buffer = .error fault) :
    drain buffer = ⟨[], buffer, some fault⟩ := by
  rw [drain]
  split <;> simp_all

theorem drain_none {buffer : ByteArray} (h : Frame.decode buffer = .ok none) :
    drain buffer = ⟨[], buffer, none⟩ := by
  rw [drain]
  split <;> simp_all

theorem drain_some {buffer rest : ByteArray} {frame : Frame}
    (h : Frame.decode buffer = .ok (some (frame, rest))) :
    drain buffer = ⟨frame :: (drain rest).frames, (drain rest).rest, (drain rest).fault⟩ := by
  rw [drain]
  split <;> simp_all

/-- What is left of a buffer without a fault begins no whole frame. -/
theorem decode_rest_drain {buffer : ByteArray} (h : (drain buffer).fault = none) :
    Frame.decode (drain buffer).rest = .ok none := by
  induction hn : buffer.size using Nat.strongRecOn generalizing buffer with
  | ind n ih =>
    subst hn
    cases hd : Frame.decode buffer with
    | error fault => rw [drain_error hd] at h; cases h
    | ok next =>
      cases next with
      | none => rw [drain_none hd]; exact hd
      | some next =>
        obtain ⟨frame, rest⟩ := next
        rw [drain_some hd] at h ⊢
        exact ih rest.size (Frame.size_lt_of_decode hd) h rfl

/-- More bytes behind a buffer: after a fault they change nothing but what is left; else the rest of
the buffer is worked off with them. -/
theorem drain_append (buffer more : ByteArray) :
    drain (buffer ++ more) =
      match (drain buffer).fault with
      | some fault => ⟨(drain buffer).frames, (drain buffer).rest ++ more, some fault⟩
      | none =>
        ⟨(drain buffer).frames ++ (drain ((drain buffer).rest ++ more)).frames,
          (drain ((drain buffer).rest ++ more)).rest,
          (drain ((drain buffer).rest ++ more)).fault⟩ := by
  induction hn : buffer.size using Nat.strongRecOn generalizing buffer with
  | ind n ih =>
    subst hn
    cases hd : Frame.decode buffer with
    | error fault =>
      rw [drain_error hd, drain_error (Frame.decode_append_error more hd)]
    | ok next =>
      cases next with
      | none => rw [drain_none hd]; rfl
      | some next =>
        obtain ⟨frame, rest⟩ := next
        rw [drain_some hd, drain_some (Frame.decode_append_some more hd),
          ih rest.size (Frame.size_lt_of_decode hd) rest rfl]
        cases (drain rest).fault <;> rfl

/-! ## Cutting a stream -/

/-- Two decoders have taken the same frames and met the same fault, or none and kept the same
bytes. -/
structure Agrees (d e : Decoder) : Prop where
  frames : d.frames = e.frames
  fault : d.fault = e.fault
  rest : d.fault = none → d.rest = e.rest

theorem Agrees.refl (d : Decoder) : d.Agrees d := ⟨rfl, rfl, fun _ => rfl⟩

theorem Agrees.symm {d e : Decoder} (h : d.Agrees e) : e.Agrees d :=
  ⟨h.frames.symm, h.fault.symm, fun he => (h.rest (h.fault.trans he)).symm⟩

theorem Agrees.trans {c d e : Decoder} (h : c.Agrees d) (h' : d.Agrees e) : c.Agrees e :=
  ⟨h.frames.trans h'.frames, h.fault.trans h'.fault,
    fun hc => (h.rest hc).trans (h'.rest (h.fault.symm.trans hc))⟩

/-- Every frame that the bytes of a decoder complete has been taken. -/
def Settled (d : Decoder) : Prop :=
  d.fault = none → Frame.decode d.rest = .ok none

theorem feed_fault {d : Decoder} {fault : IoFault} (h : d.fault = some fault) (chunk : ByteArray) :
    d.feed chunk = d := by
  simp only [feed, h]

theorem feed_none {d : Decoder} (h : d.fault = none) (chunk : ByteArray) :
    d.feed chunk = ⟨d.frames ++ (drain (d.rest ++ chunk)).frames, (drain (d.rest ++ chunk)).rest,
      (drain (d.rest ++ chunk)).fault⟩ := by
  simp only [feed, h]

theorem Settled.feed {d : Decoder} (h : d.Settled) (chunk : ByteArray) :
    (d.feed chunk).Settled := by
  cases hf : d.fault with
  | some fault => rw [feed_fault hf]; exact h
  | none =>
    rw [feed_none hf]
    intro hn
    exact decode_rest_drain hn

theorem feed_empty {d : Decoder} (h : d.Settled) : d.feed ByteArray.empty = d := by
  cases hf : d.fault with
  | some fault => exact feed_fault hf _
  | none =>
    rw [feed_none hf, ByteArray.append_empty, drain_none (h hf), List.append_nil, ← hf]

theorem feed_feed (d : Decoder) (chunk more : ByteArray) :
    ((d.feed chunk).feed more).Agrees (d.feed (chunk ++ more)) := by
  cases hf : d.fault with
  | some fault => rw [feed_fault hf, feed_fault hf, feed_fault hf]; exact .refl _
  | none =>
    have ha := drain_append (d.rest ++ chunk) more
    rw [feed_none hf chunk, feed_none hf, ← ByteArray.append_assoc]
    cases hc : (drain (d.rest ++ chunk)).fault with
    | some fault =>
      simp only [hc] at ha
      rw [feed_fault rfl, ha]
      exact ⟨rfl, rfl, fun hn => by cases hn⟩
    | none =>
      simp only [hc] at ha
      rw [feed_none rfl, ha]
      exact ⟨List.append_assoc _ _ _, rfl, fun _ => rfl⟩

/-- By induction on the chunks, with any decoder to begin with: what has been fed so far and what is
still to come are one chunk each. -/
theorem foldl_feed (chunks : List ByteArray) :
    ∀ d : Decoder, d.Settled → (chunks.foldl feed d).Agrees (d.feed (joined chunks)) := by
  induction chunks with
  | nil =>
    intro d hd
    rw [joined_nil, feed_empty hd]
    exact .refl d
  | cons chunk chunks ih =>
    intro d hd
    exact (ih (d.feed chunk) (hd.feed chunk)).trans (feed_feed d chunk (joined chunks))

theorem feedAll_agrees_drain (chunks : List ByteArray) :
    (feedAll chunks).Agrees (drain (joined chunks)) := by
  have hs : Settled {} := fun _ => rfl
  have h := foldl_feed chunks {} hs
  rw [feed_none rfl, ByteArray.empty_append] at h
  exact h

/-- **Decoding does not depend on how a stream is cut.** Two ways to cut the same bytes into chunks
give the same frames and then the same fault, or none and the same bytes left over; and these are
what the bytes give in one piece. -/
theorem feedAll_cut (bytes : ByteArray) (cut other : List ByteArray) (hcut : joined cut = bytes)
    (hother : joined other = bytes) :
    (feedAll cut).Agrees (feedAll other) ∧ (feedAll cut).Agrees (drain bytes) := by
  have h := feedAll_agrees_drain cut
  have h' := feedAll_agrees_drain other
  rw [hcut] at h
  rw [hother] at h'
  exact ⟨h.trans h'.symm, h⟩

theorem feedAll_cut_in_header :
    joined [⟨#[3, 0, 0]⟩, ⟨#[0, 1, 104, 0x7F]⟩, ⟨#[0, 0, 0, 0]⟩] =
        ⟨#[3, 0, 0, 0, 1, 104, 0x7F, 0, 0, 0, 0]⟩ ∧
      joined [⟨#[]⟩, ⟨#[3, 0, 0, 0, 1, 104, 0x7F, 0, 0]⟩, ⟨#[0, 0]⟩] =
        ⟨#[3, 0, 0, 0, 1, 104, 0x7F, 0, 0, 0, 0]⟩ ∧
      (feedAll [⟨#[3, 0, 0]⟩, ⟨#[0, 1, 104, 0x7F]⟩, ⟨#[0, 0, 0, 0]⟩]).Agrees
        (feedAll [⟨#[]⟩, ⟨#[3, 0, 0, 0, 1, 104, 0x7F, 0, 0]⟩, ⟨#[0, 0]⟩]) :=
  ⟨by decide, by decide, (feedAll_cut _ _ _ (by decide) rfl).1⟩

/-! ## Streams of encodings -/

theorem drain_encode {frame : Frame} {data : ByteArray} (h : frame.encode = .ok data)
    (rest : ByteArray) :
    drain (data ++ rest) = ⟨frame :: (drain rest).frames, (drain rest).rest, (drain rest).fault⟩ :=
  drain_some (Frame.decode_encode h rest)

/-- Frames that fit can be written, and their encodings are worked off before what stands behind
them. -/
theorem drain_mapM_encode {frames : List Frame}
    (hfits : ∀ frame ∈ frames, frame.payload.size ≤ Frame.maxPayload) {tail : ByteArray}
    (htail : Frame.decode tail = .ok none) :
    ∃ parts, frames.mapM Frame.encode = .ok parts ∧
      drain (joined parts ++ tail) = ⟨frames, tail, none⟩ := by
  induction frames with
  | nil =>
    refine ⟨[], rfl, ?_⟩
    rw [joined_nil, ByteArray.empty_append, drain_none htail]
  | cons frame frames ih =>
    obtain ⟨parts, hparts, hdrain⟩ := ih fun f hf => hfits f (List.mem_cons_of_mem _ hf)
    obtain ⟨data, hdata⟩ : ∃ data, frame.encode = .ok data :=
      ⟨_, Frame.encode_fits (hfits frame List.mem_cons_self)⟩
    refine ⟨data :: parts, ?_, ?_⟩
    · rw [List.mapM_cons, hdata, hparts]; rfl
    · rw [joined_cons, ByteArray.append_assoc, drain_encode hdata, hdrain]

/-- **Decoding undoes encoding over whole streams.** Frames whose payloads fit can be written; their
encodings, with a proper beginning of another encoding behind them, decode to these frames in order,
then to nothing, and leave that beginning. A larger payload is refused when it is written, and when
a header announces it, and no other is. -/
theorem drain_encodings (frames : List Frame) (next : Frame) (data : ByteArray) (n : Nat)
    (hfits : ∀ frame ∈ frames, frame.payload.size ≤ Frame.maxPayload)
    (hnext : next.encode = .ok data) (hn : n < data.size) :
    (∃ parts, frames.mapM Frame.encode = .ok parts ∧
      drain (joined parts ++ data.extract 0 n) = ⟨frames, data.extract 0 n, none⟩ ∧
      Frame.decode (data.extract 0 n) = .ok none) ∧
    (∀ frame : Frame, Frame.maxPayload < frame.payload.size →
      frame.encode = .error (Frame.tooLarge .invalidInput frame.payload.size)) ∧
    (∀ (kind : FrameKind) (length : Nat) (rest : ByteArray), length < 2 ^ 32 →
      ((∃ fault, Frame.decode (Frame.header kind length ++ rest) = .error fault) ↔
        Frame.maxPayload < length)) := by
  have htail := Frame.decode_beginning hnext hn
  obtain ⟨parts, hparts, hdrain⟩ := drain_mapM_encode hfits htail
  exact ⟨⟨parts, hparts, hdrain, htail⟩, fun _ => Frame.encode_large,
    fun kind _ rest h => Frame.decode_header_refused_iff kind h rest⟩

/-- A frame at the limit, an error with a letter of two bytes, and a header of which the last byte
is missing. -/
theorem drain_encodings_at_limit :
    (∀ frame ∈ [Frame.request ⟨Array.replicate Frame.maxPayload 7⟩, Frame.error "é"],
      frame.payload.size ≤ Frame.maxPayload) ∧
    (Frame.response ⟨#[9]⟩).encode = .ok ⟨#[2, 0, 0, 0, 1, 9]⟩ ∧
    4 < (⟨#[2, 0, 0, 0, 1, 9]⟩ : ByteArray).size ∧
    ∃ parts, [Frame.request ⟨Array.replicate Frame.maxPayload 7⟩, Frame.error "é"].mapM
        Frame.encode = .ok parts ∧
      drain (joined parts ++ (⟨#[2, 0, 0, 0, 1, 9]⟩ : ByteArray).extract 0 4) =
        ⟨[Frame.request ⟨Array.replicate Frame.maxPayload 7⟩, Frame.error "é"],
          (⟨#[2, 0, 0, 0, 1, 9]⟩ : ByteArray).extract 0 4, none⟩ := by
  have hfits : ∀ frame ∈ [Frame.request ⟨Array.replicate Frame.maxPayload 7⟩, Frame.error "é"],
      frame.payload.size ≤ Frame.maxPayload := by
    intro frame hf
    simp only [List.mem_cons, List.not_mem_nil, or_false] at hf
    rcases hf with rfl | rfl
    · exact Nat.le_of_eq Array.size_replicate
    · decide
  have hnext : (Frame.response ⟨#[9]⟩).encode = .ok ⟨#[2, 0, 0, 0, 1, 9]⟩ := rfl
  obtain ⟨⟨parts, hparts, hdrain, -⟩, -⟩ :=
    drain_encodings _ (.response ⟨#[9]⟩) ⟨#[2, 0, 0, 0, 1, 9]⟩ 4 hfits hnext (by decide)
  exact ⟨hfits, hnext, by decide, parts, hparts, hdrain⟩

end Decoder

end Switchboard
