import Switchboard.Frame
import Switchboard.Payload
import Switchboard.Proofs.MessagePack.Reading

/-!
# Envelopes are read back

An envelope that a frame can carry is read back as it was written: the method by its text and the
payload byte for byte.
-/

namespace Switchboard.Envelope

open MessagePack

theorem bytesOf_encode (envelope : Envelope) :
    Switchboard.bytesOf envelope.encode =
      Switchboard.bytesOf (Writer.mapHeader 2) ++ (Switchboard.bytesOf (Writer.text "method") ++
        (Switchboard.bytesOf (Writer.text envelope.method) ++
        (Switchboard.bytesOf (Writer.text "payload") ++
        (Switchboard.bytesOf (Writer.bytes envelope.payload) ++ [])))) := by
  simp only [encode, codec, bytesOf_fields, List.flatMap_cons, List.flatMap_nil, List.length_cons,
    List.length_nil, List.append_assoc]

theorem size_method_le (envelope : Envelope) :
    envelope.method.utf8ByteSize ≤ envelope.encode.size := by
  have hsize := congrArg List.length envelope.bytesOf_encode
  simp only [length_bytesOf, List.length_append, Writer.text, ByteArray.size_append] at hsize
  change envelope.method.toUTF8.size ≤ _
  omega

theorem size_payload_le (envelope : Envelope) :
    envelope.payload.size ≤ envelope.encode.size := by
  have hsize := congrArg List.length envelope.bytesOf_encode
  simp only [length_bytesOf, List.length_append, Writer.bytes, ByteArray.size_append] at hsize
  omega

/-- What was written of an envelope is read as that envelope, if its lengths can be written. -/
theorem reads_encode {envelope : Envelope} (hmethod : envelope.method.utf8ByteSize < 2 ^ 32)
    (hpayload : envelope.payload.size < 2 ^ 32) :
    Reads (shape.read maxDepth) (Switchboard.bytesOf envelope.encode) envelope := by
  rw [bytesOf_encode]
  have hend : Reads (shape.entriesOnto 1022 [1, 0] envelope 0) [] envelope :=
    shape.reads_end 1022 rfl
  have hsecond := shape.reads_entry 1022 (a := ⟨envelope.method, ByteArray.empty⟩)
    (reads_key shape 1022 "payload" (by decide)) rfl
    ((reads_bytes 1022 hpayload).bind_last (Reads.pure _)) hend
  have hfirst := shape.reads_entry 1022 (a := shape.blank)
    (reads_key shape 1022 "method" (by decide)) rfl
    ((reads_text 1022 hmethod).bind_last (Reads.pure _)) hsecond
  exact shape.reads_map 1022 (by decide) hfirst

/-- **An envelope is read back.** What was written of an envelope that a frame can carry is read as
that envelope. -/
theorem decode_encode {envelope : Envelope} (h : envelope.encode.size ≤ Frame.maxPayload) :
    decode envelope.encode = .ok envelope := by
  have hmethod := envelope.size_method_le
  have hpayload := envelope.size_payload_le
  have hmax : Frame.maxPayload < 2 ^ 32 := by decide
  have hread : Reads (codec.read maxDepth) (Switchboard.bytesOf envelope.encode) envelope :=
    reads_encode (by omega) (by omega)
  unfold decode Codec.decodeStrict
  rw [decode_of_reads hread]
  rfl

end Switchboard.Envelope
