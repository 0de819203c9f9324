import Switchboard.Proofs.FrameStream

/-!
# What a buffer decodes to

A buffer of five bytes or more begins with a byte for the kind of a frame and the length of its
payload (`exists_opens`), and these two numbers and the size of the buffer settle what decoding
says (`verdict`): the length is judged first, then the kind, then whether the payload is all there.
`decode_judged` collects when each answer is given, what becomes of the buffer, and when the
frame that is taken off would be written with the very bytes that it was taken from
(`encode_ofParts_iff`): always, but for the words of an error that are no text.
-/

namespace Switchboard

namespace FrameKind

theorem ofByte?_eq_some_iff {mark : UInt8} {kind : FrameKind} :
    ofByte? mark = some kind ↔ mark = kind.byte := by
  constructor
  · intro h
    unfold ofByte? at h
    split at h
    · cases h; assumption
    · split at h
      · cases h; assumption
      · split at h <;> cases h
        assumption
  · intro h
    rw [h, ofByte?_byte]

theorem ofByte?_eq_none_iff {mark : UInt8} :
    ofByte? mark = none ↔ ∀ kind : FrameKind, mark ≠ kind.byte := by
  rw [Option.eq_none_iff_forall_ne_some]
  exact forall_congr' fun kind => not_congr ofByte?_eq_some_iff

end FrameKind

namespace Frame

variable {buffer rest : ByteArray} {mark : UInt8} {kind : FrameKind} {length : Nat}

/-! ## The header of a buffer -/

/-- A buffer opens with a byte for the kind of a frame and the length of its payload. -/
def Opens (buffer : ByteArray) (mark : UInt8) (length : Nat) : Prop :=
  length < 2 ^ 32 ∧ ∃ behind, buffer = ⟨(mark :: lengthBytes length).toArray⟩ ++ behind

theorem lengthOf_lt (a b c d : UInt8) : lengthOf a b c d < 2 ^ 32 := by
  have ha := a.toNat_lt
  have hb := b.toNat_lt
  have hc := c.toNat_lt
  have hd := d.toNat_lt
  unfold lengthOf
  omega

/-- Any four bytes are those of the number that they write. -/
theorem lengthBytes_lengthOf (a b c d : UInt8) : lengthBytes (lengthOf a b c d) = [a, b, c, d] := by
  have ha := a.toNat_lt
  have hb := b.toNat_lt
  have hc := c.toNat_lt
  have hd := d.toNat_lt
  simp only [lengthBytes, lengthOf, List.cons.injEq, and_true, ← UInt8.toNat_inj,
    UInt8.toNat_ofNat']
  omega

theorem exists_opens (h : 5 ≤ buffer.size) : ∃ mark length, Opens buffer mark length := by
  have hlist : ∃ mark a b c d behind, bytesOf buffer = mark :: a :: b :: c :: d :: behind := by
    have hlength : 5 ≤ (bytesOf buffer).length := by simpa using h
    match hb : bytesOf buffer with
    | mark :: a :: b :: c :: d :: behind => exact ⟨mark, a, b, c, d, behind, rfl⟩
    | [] | [_] | [_, _] | [_, _, _] | [_, _, _, _] => simp [hb] at hlength
  obtain ⟨mark, a, b, c, d, behind, hbytes⟩ := hlist
  refine ⟨mark, lengthOf a b c d, lengthOf_lt a b c d, behind.toByteArray, ?_⟩
  apply bytesOf_inj
  simp [bytesOf, lengthBytes_lengthOf, ← hbytes]

theorem Opens.readHeader (h : Opens buffer mark length) :
    readHeader buffer = some (if maxPayload < length then .error (tooLarge .invalidData length)
      else match FrameKind.ofByte? mark with
        | none => .error (unknownKind mark)
        | some kind => .ok (kind, length)) := by
  obtain ⟨hlt, behind, rfl⟩ := h
  apply readHeader_append
  have hlength := lengthOf_lengthBytes hlt
  generalize hhead : (⟨(mark :: lengthBytes length).toArray⟩ : ByteArray) = head
  have hs : ¬ head.size < 5 := by subst hhead; exact Nat.lt_irrefl 5
  have hmark : head[0] = mark := by subst hhead; rfl
  have hl : lengthOf head[1] head[2] head[3] head[4] = length := by subst hhead; exact hlength
  simp only [Frame.readHeader, dif_neg hs, hl, hmark]
  by_cases hlarge : maxPayload < length
  · rw [if_pos hlarge, if_pos hlarge]
  · rw [if_neg hlarge, if_neg hlarge]
    cases FrameKind.ofByte? mark <;> rfl

theorem Opens.eq_header_append (h : Opens buffer kind.byte length) :
    ∃ behind, buffer = header kind length ++ behind :=
  h.2

/-! ## Verdicts -/

/-- What decoding a buffer says, by its header and its size. -/
inductive Verdict (buffer : ByteArray) : Except IoFault (Option (Frame × ByteArray)) → Prop
  /-- The header is not there yet. -/
  | short (hsize : buffer.size < 5) : Verdict buffer (.ok none)
  | large {mark : UInt8} {length : Nat} (hopens : Opens buffer mark length)
      (hlarge : maxPayload < length) : Verdict buffer (.error (tooLarge .invalidData length))
  | unknown {mark : UInt8} {length : Nat} (hopens : Opens buffer mark length)
      (hfits : length ≤ maxPayload) (hkind : ∀ kind : FrameKind, mark ≠ kind.byte) :
      Verdict buffer (.error (unknownKind mark))
  /-- The payload is not all there yet. -/
  | begun {kind : FrameKind} {length : Nat} (hopens : Opens buffer kind.byte length)
      (hfits : length ≤ maxPayload) (hsize : buffer.size < 5 + length) : Verdict buffer (.ok none)
  | whole {kind : FrameKind} {length : Nat} (hopens : Opens buffer kind.byte length)
      (hfits : length ≤ maxPayload) (hsize : 5 + length ≤ buffer.size) :
      Verdict buffer (.ok (some (ofParts kind (buffer.extract 5 (5 + length)),
        buffer.extract (5 + length) buffer.size)))

theorem decode_short (hsize : buffer.size < 5) : decode buffer = .ok none :=
  dif_pos hsize

theorem decode_empty : decode ByteArray.empty = .ok none :=
  decode_short (by decide)

theorem decode_large (hopens : Opens buffer mark length) (hlarge : maxPayload < length) :
    decode buffer = .error (tooLarge .invalidData length) := by
  rw [decode_eq, hopens.readHeader, if_pos hlarge]

theorem decode_unknown (hopens : Opens buffer mark length) (hfits : length ≤ maxPayload)
    (hkind : ∀ kind : FrameKind, mark ≠ kind.byte) :
    decode buffer = .error (unknownKind mark) := by
  rw [decode_eq, hopens.readHeader, if_neg (Nat.not_lt.2 hfits),
    FrameKind.ofByte?_eq_none_iff.2 hkind]

theorem readHeader_known (hopens : Opens buffer kind.byte length) (hfits : length ≤ maxPayload) :
    readHeader buffer = some (.ok (kind, length)) := by
  rw [hopens.readHeader, if_neg (Nat.not_lt.2 hfits), FrameKind.ofByte?_byte]

theorem decode_begun (hopens : Opens buffer kind.byte length) (hfits : length ≤ maxPayload)
    (hsize : buffer.size < 5 + length) : decode buffer = .ok none := by
  rw [decode_eq, readHeader_known hopens hfits]
  exact if_pos hsize

theorem decode_whole (hopens : Opens buffer kind.byte length) (hfits : length ≤ maxPayload)
    (hsize : 5 + length ≤ buffer.size) :
    decode buffer = .ok (some (ofParts kind (buffer.extract 5 (5 + length)),
      buffer.extract (5 + length) buffer.size)) := by
  rw [decode_eq, readHeader_known hopens hfits]
  exact if_neg (Nat.not_lt.2 hsize)

theorem verdict (buffer : ByteArray) : Verdict buffer (decode buffer) := by
  by_cases hsize : buffer.size < 5
  · rw [decode_short hsize]
    exact .short hsize
  · obtain ⟨mark, length, hopens⟩ := exists_opens (Nat.not_lt.1 hsize)
    by_cases hlarge : maxPayload < length
    · rw [decode_large hopens hlarge]
      exact .large hopens hlarge
    · have hfits : length ≤ maxPayload := Nat.not_lt.1 hlarge
      cases hkind : FrameKind.ofByte? mark with
      | none =>
        have hunknown := FrameKind.ofByte?_eq_none_iff.1 hkind
        rw [decode_unknown hopens hfits hunknown]
        exact .unknown hopens hfits hunknown
      | some kind =>
        rw [FrameKind.ofByte?_eq_some_iff.1 hkind] at hopens
        by_cases hall : buffer.size < 5 + length
        · rw [decode_begun hopens hfits hall]
          exact .begun hopens hfits hall
        · rw [decode_whole hopens hfits (Nat.not_lt.1 hall)]
          exact .whole hopens hfits (Nat.not_lt.1 hall)

/-! ## Writing what was read -/

theorem kind_ofParts (kind : FrameKind) (data : ByteArray) : (ofParts kind data).kind = kind := by
  cases kind <;> rfl

/-- The frame of some parts is written with these parts, unless it is an error of which the payload
is no text. -/
theorem encode_ofParts_iff (kind : FrameKind) (data : ByteArray) (hfits : data.size ≤ maxPayload) :
    encode (ofParts kind data) = .ok (header kind data.size ++ data) ↔
      kind ≠ .error ∨ data.IsValidUTF8 := by
  have hparts : ∀ frame : Frame, frame.kind = kind → frame.payload = data →
      encode frame = .ok (header kind data.size ++ data) := by
    rintro frame rfl rfl
    exact encode_fits hfits
  constructor
  · intro h
    cases kind with
    | request => simp
    | response => simp
    | error =>
      right
      obtain ⟨-, heq⟩ := encode_ok h
      have hsize : (header .error data.size).size =
          (header .error (ofParts .error data).payload.size).size := rfl
      have hpayload : data = (Utf8.lossy data).toUTF8 :=
        ((ByteArray.append_eq_append_iff_of_size_eq_left hsize).1 heq).2
      rw [hpayload]
      exact (Utf8.lossy data).isValidUTF8
  · intro h
    apply hparts _ (kind_ofParts kind data)
    cases kind with
    | request => rfl
    | response => rfl
    | error =>
      have hvalid : data.IsValidUTF8 := by simpa using h
      have hlossy : Utf8.lossy (String.ofByteArray data hvalid).toUTF8 = _ := Utf8.lossy_toUTF8 _
      exact congrArg String.toUTF8 hlossy

/-- The bytes that a frame is taken from are its header and its payload. -/
theorem Opens.front_eq (hopens : Opens buffer kind.byte length) (hsize : 5 + length ≤ buffer.size) :
    buffer.extract 0 (5 + length) = header kind length ++ buffer.extract 5 (5 + length) := by
  obtain ⟨behind, rfl⟩ := hopens.eq_header_append
  have hheader : (header kind length).size = 5 := rfl
  rw [← Bytes.extract_append_next (show 5 ≤ 5 + length by omega),
    Bytes.extract_append_left (by omega), Bytes.extract_zero_of_le (by omega)]

/-! ## Sizes as machine words -/

theorem toNat_ofNat_word {n : Nat} (h : n < 2 ^ 32) : (USize.ofNat n).toNat = n :=
  USize.toNat_ofNat_of_lt (Nat.lt_of_lt_of_le h USize.le_size)

/-- The size of a frame that is not too large, worked out in machine words, does not wrap. -/
theorem toNat_size_word (hfits : length ≤ maxPayload) :
    (USize.ofNat 5 + USize.ofNat length).toNat = 5 + length := by
  have hsum : 5 + length < 2 ^ 32 := by
    simp only [maxPayload] at hfits
    omega
  rw [USize.toNat_add, toNat_ofNat_word (by omega), toNat_ofNat_word (by omega)]
  exact Nat.mod_eq_of_lt (Nat.lt_of_lt_of_le hsum USize.le_size)

/-! ## All verdicts -/

structure Judged (buffer : ByteArray) : Prop where
  none_iff : decode buffer = .ok none ↔ buffer.size < 5 ∨ ∃ kind : FrameKind, ∃ length,
    Opens buffer kind.byte length ∧ length ≤ maxPayload ∧ buffer.size < 5 + length
  error_iff : (∃ fault, decode buffer = .error fault) ↔ ∃ mark length,
    Opens buffer mark length ∧ (maxPayload < length ∨ ∀ kind : FrameKind, mark ≠ kind.byte)
  some_iff : (∃ frame rest, decode buffer = .ok (some (frame, rest))) ↔ ∃ kind : FrameKind,
    ∃ length, Opens buffer kind.byte length ∧ length ≤ maxPayload ∧ 5 + length ≤ buffer.size
  /-- The length is judged before the kind. -/
  large : ∀ mark length, Opens buffer mark length → maxPayload < length →
    decode buffer = .error ⟨.invalidData, s!"Payload too large: {length} bytes"⟩
  unknown : ∀ mark length, Opens buffer mark length → length ≤ maxPayload →
    (∀ kind : FrameKind, mark ≠ kind.byte) →
    decode buffer = .error ⟨.invalidData, s!"Unknown message type: {mark.toNat}"⟩
  /-- Where no frame is taken off, a decoder keeps the buffer as it is. -/
  kept_none : decode buffer = .ok none → Decoder.drain buffer = ⟨[], buffer, none⟩
  kept_error : ∀ fault, decode buffer = .error fault →
    Decoder.drain buffer = ⟨[], buffer, some fault⟩
  /-- A frame is taken off with its bytes, and would be written with them. -/
  taken : ∀ frame rest, decode buffer = .ok (some (frame, rest)) → ∃ length,
    Opens buffer frame.kind.byte length ∧ buffer.size = 5 + length + rest.size ∧
    buffer = buffer.extract 0 (5 + length) ++ rest ∧
    (frame.encode = .ok (buffer.extract 0 (5 + length)) ↔
      frame.kind ≠ .error ∨ (buffer.extract 5 (5 + length)).IsValidUTF8)
  /-- A length, and the size that is worked out from one within the limit, fit machine words. -/
  noWrap : ∀ mark length, Opens buffer mark length → (USize.ofNat length).toNat = length ∧
    (length ≤ maxPayload → (USize.ofNat 5 + USize.ofNat length).toNat = 5 + length)

theorem error_of_decode {fault : IoFault} (h : decode buffer = .error fault) :
    ∃ mark length, Opens buffer mark length ∧
      (maxPayload < length ∨ ∀ kind : FrameKind, mark ≠ kind.byte) := by
  have hverdict := verdict buffer
  rw [h] at hverdict
  cases hverdict with
  | large hopens hlarge => exact ⟨_, _, hopens, .inl hlarge⟩
  | unknown hopens hfits hkind => exact ⟨_, _, hopens, .inr hkind⟩

theorem decode_refused (hopens : Opens buffer mark length)
    (h : maxPayload < length ∨ ∀ kind : FrameKind, mark ≠ kind.byte) :
    ∃ fault, decode buffer = .error fault := by
  by_cases hlarge : maxPayload < length
  · exact ⟨_, decode_large hopens hlarge⟩
  · exact ⟨_, decode_unknown hopens (Nat.not_lt.1 hlarge) (h.resolve_left hlarge)⟩

theorem begun_of_decode (h : decode buffer = .ok none) :
    buffer.size < 5 ∨ ∃ kind : FrameKind, ∃ length,
      Opens buffer kind.byte length ∧ length ≤ maxPayload ∧ buffer.size < 5 + length := by
  have hverdict := verdict buffer
  rw [h] at hverdict
  cases hverdict with
  | short hsize => exact .inl hsize
  | begun hopens hfits hsize => exact .inr ⟨_, _, hopens, hfits, hsize⟩

theorem whole_of_decode {frame : Frame} (h : decode buffer = .ok (some (frame, rest))) :
    ∃ length, Opens buffer frame.kind.byte length ∧ length ≤ maxPayload ∧
      5 + length ≤ buffer.size ∧
      frame = ofParts frame.kind (buffer.extract 5 (5 + length)) ∧
      rest = buffer.extract (5 + length) buffer.size := by
  have hverdict := verdict buffer
  rw [h] at hverdict
  cases hverdict with
  | whole hopens hfits hsize =>
    rw [kind_ofParts]
    exact ⟨_, hopens, hfits, hsize, rfl, rfl⟩

theorem taken_of_decode {frame : Frame} (h : decode buffer = .ok (some (frame, rest))) :
    ∃ length, Opens buffer frame.kind.byte length ∧ buffer.size = 5 + length + rest.size ∧
      buffer = buffer.extract 0 (5 + length) ++ rest ∧
      (frame.encode = .ok (buffer.extract 0 (5 + length)) ↔
        frame.kind ≠ .error ∨ (buffer.extract 5 (5 + length)).IsValidUTF8) := by
  obtain ⟨length, hopens, hfits, hsize, hframe, rfl⟩ := whole_of_decode h
  have hdata : (buffer.extract 5 (5 + length)).size = length := by
    rw [ByteArray.size_extract]
    omega
  refine ⟨length, hopens, ?_, Bytes.extract_append_rest.symm, ?_⟩
  · rw [ByteArray.size_extract]
    omega
  · have hencode := encode_ofParts_iff frame.kind (buffer.extract 5 (5 + length))
      (by omega)
    rw [← hframe, hdata, ← hopens.front_eq hsize] at hencode
    exact hencode

/-- **What a buffer decodes to.** It decodes to nothing if its header is not there, or is in order
and the payload is not all there; it is refused, with the length judged first, if the length is over
the limit or the byte for the kind stands for none; and otherwise a frame is taken off it, with
exactly its bytes, which are those that the frame would be written with, if it is no error or its
words were text. Where no frame is taken off the buffer stays as it is, and no size wraps. -/
theorem decode_judged (buffer : ByteArray) : Judged buffer where
  none_iff := by
    constructor
    · exact begun_of_decode
    · rintro (hsize | ⟨kind, length, hopens, hfits, hsize⟩)
      · exact decode_short hsize
      · exact decode_begun hopens hfits hsize
  error_iff := by
    constructor
    · rintro ⟨fault, h⟩
      exact error_of_decode h
    · rintro ⟨mark, length, hopens, hrefused⟩
      exact decode_refused hopens hrefused
  some_iff := by
    constructor
    · rintro ⟨frame, rest, h⟩
      obtain ⟨length, hopens, hfits, hsize, -⟩ := whole_of_decode h
      exact ⟨frame.kind, length, hopens, hfits, hsize⟩
    · rintro ⟨kind, length, hopens, hfits, hsize⟩
      exact ⟨_, _, decode_whole hopens hfits hsize⟩
  large _ _ hopens hlarge := decode_large hopens hlarge
  unknown _ _ hopens hfits hkind := decode_unknown hopens hfits hkind
  kept_none h := Decoder.drain_none h
  kept_error _ h := Decoder.drain_error h
  taken _ _ h := taken_of_decode h
  noWrap _ _ hopens := ⟨toNat_ofNat_word hopens.1, toNat_size_word⟩

/-- The words of an error that are no text are read with a replacement character, which would be
written with three bytes. -/
example : (decode ⟨#[3, 0, 0, 0, 1, 0xFF, 7]⟩).toOption =
    some (some (.error "\uFFFD", ⟨#[7]⟩)) := by
  decide +kernel

end Frame

end Switchboard
