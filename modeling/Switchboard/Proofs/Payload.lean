import Switchboard.Proofs.Envelope
import Switchboard.Proofs.MessagePack.Locality

/-!
# Payloads say where they end

Envelopes, replies to a ping and listings are read back as they were written, whatever stands
behind them, and no beginning of what was written is read as anything: each is refused as
malformed. The empty beginning is no exception, though no bytes at all are read as nothing: a
record is not nothing.
-/

namespace Switchboard

open MessagePack

/-- Bytes that are read as `a` whatever stands behind them, and of which no beginning is read. -/
structure SelfDelimiting {α : Type} (decode : ByteArray → Except Fault α) (written : ByteArray)
    (a : α) : Prop where
  whole : ∀ later, decode (written ++ later) = .ok a
  cut : ∀ n < written.size, ∃ reason, decode (written.extract 0 n) = .error (.malformed reason)

namespace Codec

variable {α : Type} {codec : Codec α} {written : ByteArray} {a : α}

theorem decodeStrict_selfDelimiting (hlocal : Local (codec.read maxDepth))
    (hreads : Reads (codec.read maxDepth) (Switchboard.bytesOf written) a) :
    SelfDelimiting codec.decodeStrict written a where
  whole later := by
    unfold decodeStrict
    rw [decode_append_of_reads hreads later]
    rfl
  cut n hn := by
    obtain ⟨flaw, hflaw⟩ := decode_cut_of_reads hlocal hreads hn
    exact ⟨flaw.message, by unfold decodeStrict; rw [hflaw]; rfl⟩

/-- What is written of a value is never empty, if nothing is not such a value. -/
theorem size_ne_zero {flaw : Flaw}
    (hreads : Reads (codec.read maxDepth) (Switchboard.bytesOf written) a)
    (hnothing : MessagePack.decode codec.read Writer.nothing = .error flaw) :
    written.size ≠ 0 := by
  intro hsize
  have hempty : written = ByteArray.empty := ByteArray.size_eq_zero_iff.1 hsize
  have hread := decode_append_of_reads hreads Writer.nothing
  rw [hempty, ByteArray.empty_append, hnothing] at hread
  cases hread

/-- No bytes at all are read as nothing, so a value must not be read from nothing. -/
theorem decode_selfDelimiting (hlocal : Local (codec.read maxDepth))
    (hreads : Reads (codec.read maxDepth) (Switchboard.bytesOf written) a) {flaw : Flaw}
    (hnothing : MessagePack.decode codec.read Writer.nothing = .error flaw) :
    SelfDelimiting codec.decode written a := by
  have hstrict := decodeStrict_selfDelimiting hlocal hreads
  have hsome := size_ne_zero hreads hnothing
  constructor
  · intro later
    unfold decode
    rw [if_neg (by rw [ByteArray.size_append]; omega)]
    exact hstrict.whole later
  · intro n hn
    unfold decode
    split
    · exact ⟨flaw.message, by unfold decodeStrict; rw [hnothing]; rfl⟩
    · exact hstrict.cut n hn

end Codec

theorem MessagePack.Record.decode_nothing {α : Type} (shape : Record α) :
    MessagePack.decode shape.read Writer.nothing =
      .error (.mismatch (.wrongKind (.nothing "unit value") shape.wanted)) :=
  rfl

/-! ## Envelopes -/

namespace Envelope

theorem local_store (depth field : Nat) (envelope : Envelope) :
    Local (shape.store depth field envelope) := by
  match field with
  | 0 => exact (local_text depth).bind fun _ => Local.pure _
  | _ + 1 => exact (local_bytes depth).bind fun _ => Local.pure _

end Envelope

/-! ## Replies to a ping -/

namespace PingReply

theorem local_store (depth field : Nat) (reply : PingReply) :
    Local (shape.store depth field reply) := by
  match field with
  | 0 => exact (local_text depth).bind fun _ => Local.pure _
  | _ + 1 => exact (local_text? depth).bind fun _ => Local.pure _

theorem reads_encode {reply : PingReply} (hversion : reply.version.utf8ByteSize < 2 ^ 32)
    (hhostname : ∀ host ∈ reply.hostname, host.utf8ByteSize < 2 ^ 32) :
    Reads (shape.read maxDepth) (Switchboard.bytesOf (codec.encode reply)) reply := by
  obtain ⟨version, hostname⟩ := reply
  have hkey := reads_key shape 1022 "version" (by decide)
  have htext : Reads (shape.store 1022 0 shape.blank) (Switchboard.bytesOf (Writer.text version))
      ⟨version, none⟩ :=
    (reads_text 1022 hversion).bind_last (Reads.pure _)
  cases hostname with
  | none =>
    have hend : Reads (shape.entriesOnto 1022 [0] ⟨version, none⟩ 0) [] ⟨version, none⟩ :=
      shape.reads_end 1022 rfl
    have hfirst := shape.reads_entry 1022 hkey rfl htext hend
    simp only [codec, bytesOf_fields, Option.map_none, Option.toList_none, List.flatMap_cons,
      List.flatMap_nil, List.length_cons, List.length_nil, List.append_assoc]
    exact shape.reads_map 1022 (by decide) hfirst
  | some host =>
    have hend : Reads (shape.entriesOnto 1022 [1, 0] ⟨version, some host⟩ 0) []
        ⟨version, some host⟩ :=
      shape.reads_end 1022 rfl
    have hsecond := shape.reads_entry 1022 (a := ⟨version, none⟩)
      (reads_key shape 1022 "hostname" (by decide)) rfl
      ((reads_text? 1022 (hhostname host rfl)).bind_last (Reads.pure _)) hend
    have hfirst := shape.reads_entry 1022 hkey rfl htext hsecond
    simp only [codec, bytesOf_fields, Option.map_some, Option.toList_some, List.flatMap_cons,
      List.flatMap_nil, List.length_cons, List.length_nil, List.append_assoc]
    exact shape.reads_map 1022 (by decide) hfirst

end PingReply

/-! ## Listings -/

namespace FileEntry

theorem local_store (depth field : Nat) (entry : FileEntry) :
    Local (shape.store depth field entry) := by
  match field with
  | 0 => exact (local_text depth).bind fun _ => Local.pure _
  | 1 => exact (local_natural _ _).bind fun _ => Local.pure _
  | 2 => exact (local_natural _ _).bind fun _ => Local.pure _
  | _ + 3 => exact (local_natural _ _).bind fun _ => Local.pure _

/-- An entry is read back, each of its numbers in its width. -/
theorem reads_encode {entry : FileEntry} (hname : entry.name.utf8ByteSize < 2 ^ 32)
    (depth : Nat) :
    Reads (shape.read (depth + 1)) (Switchboard.bytesOf (codec.encode entry)) entry := by
  obtain ⟨name, mode, stableId, links⟩ := entry
  have hend : Reads (shape.entriesOnto depth [3, 2, 1, 0] ⟨name, mode, stableId, links⟩ 0) []
      ⟨name, mode, stableId, links⟩ :=
    shape.reads_end depth rfl
  have hlinks : Reads (shape.store depth 3 ⟨name, mode, stableId, 0⟩)
      (Switchboard.bytesOf (Writer.natural links.toNat)) ⟨name, mode, stableId, links⟩ :=
    (reads_natural "u32" links.toNat_lt (by decide)).bind_last
      (by rw [UInt32.ofNat_toNat]; exact Reads.pure _)
  have hstableId : Reads (shape.store depth 2 ⟨name, mode, 0, 0⟩)
      (Switchboard.bytesOf (Writer.natural stableId.toNat)) ⟨name, mode, stableId, 0⟩ :=
    (reads_natural "u64" stableId.toNat_lt (by decide)).bind_last
      (by rw [UInt64.ofNat_toNat]; exact Reads.pure _)
  have hmode : Reads (shape.store depth 1 ⟨name, 0, 0, 0⟩)
      (Switchboard.bytesOf (Writer.natural mode.toNat)) ⟨name, mode, 0, 0⟩ :=
    (reads_natural "u32" mode.toNat_lt (by decide)).bind_last
      (by rw [UInt32.ofNat_toNat]; exact Reads.pure _)
  have htext : Reads (shape.store depth 0 shape.blank) (Switchboard.bytesOf (Writer.text name))
      ⟨name, 0, 0, 0⟩ :=
    (reads_text depth hname).bind_last (Reads.pure _)
  have hfourth :=
    shape.reads_entry depth (reads_key shape depth "nlink" (by decide)) rfl hlinks hend
  have hthird :=
    shape.reads_entry depth (reads_key shape depth "stable_id" (by decide)) rfl hstableId hfourth
  have hsecond :=
    shape.reads_entry depth (reads_key shape depth "mode" (by decide)) rfl hmode hthird
  have hfirst :=
    shape.reads_entry depth (reads_key shape depth "name" (by decide)) rfl htext hsecond
  simp only [codec, bytesOf_fields, List.flatMap_cons, List.flatMap_nil, List.length_cons,
    List.length_nil, List.append_assoc]
  exact shape.reads_map depth (by decide) hfirst

end FileEntry

namespace Listing

theorem local_store (depth field : Nat) (listing : Listing) :
    Local (shape.store depth field listing) :=
  (local_list _ (Record.local_read FileEntry.local_store) depth).bind fun _ => Local.pure _

theorem reads_encode {listing : Listing} (hlength : listing.entries.length < 2 ^ 32)
    (hnames : ∀ entry ∈ listing.entries, entry.name.utf8ByteSize < 2 ^ 32) :
    Reads (shape.read maxDepth) (Switchboard.bytesOf (codec.encode listing)) listing := by
  have hend : Reads (shape.entriesOnto 1022 [0] listing 0) [] listing :=
    shape.reads_end 1022 rfl
  have hentries : Reads (shape.store 1022 0 shape.blank)
      (Switchboard.bytesOf (Writer.list FileEntry.codec.encode listing.entries)) listing :=
    (reads_list _ 1021 hlength fun entry hentry =>
      FileEntry.reads_encode (hnames entry hentry) 1020).bind_last (Reads.pure _)
  have hfirst :=
    shape.reads_entry 1022 (reads_key shape 1022 "entries" (by decide)) rfl hentries hend
  simp only [codec, bytesOf_fields, List.flatMap_cons, List.flatMap_nil, List.length_cons,
    List.length_nil, List.append_assoc]
  exact shape.reads_map 1022 (by decide) hfirst

end Listing

/-! ## All payloads -/

def Envelope.IsWritable (envelope : Envelope) : Prop :=
  envelope.method.utf8ByteSize < 2 ^ 32 ∧ envelope.payload.size < 2 ^ 32

def PingReply.IsWritable (reply : PingReply) : Prop :=
  reply.version.utf8ByteSize < 2 ^ 32 ∧ ∀ host ∈ reply.hostname, host.utf8ByteSize < 2 ^ 32

def Listing.IsWritable (listing : Listing) : Prop :=
  listing.entries.length < 2 ^ 32 ∧
    ∀ entry ∈ listing.entries, entry.name.utf8ByteSize < 2 ^ 32

/-- **Payloads say where they end.** Every envelope, every reply to a ping and every listing whose
lengths can be written is read back from its bytes, whatever stands behind them, and each strict
beginning of its bytes is refused as malformed. -/
theorem payloads_selfDelimiting :
    (∀ envelope : Envelope, envelope.IsWritable →
      SelfDelimiting Envelope.decode envelope.encode envelope) ∧
    (∀ reply : PingReply, reply.IsWritable →
      SelfDelimiting PingReply.codec.decode (PingReply.codec.encode reply) reply) ∧
    (∀ listing : Listing, listing.IsWritable →
      SelfDelimiting Listing.codec.decode (Listing.codec.encode listing) listing) := by
  refine ⟨fun envelope h => ?_, fun reply h => ?_, fun listing h => ?_⟩
  · exact Codec.decodeStrict_selfDelimiting (Record.local_read Envelope.local_store maxDepth)
      (Envelope.reads_encode h.1 h.2)
  · exact Codec.decode_selfDelimiting (Record.local_read PingReply.local_store maxDepth)
      (PingReply.reads_encode h.1 h.2) (Record.decode_nothing _)
  · exact Codec.decode_selfDelimiting (Record.local_read Listing.local_store maxDepth)
      (Listing.reads_encode h.1 h.2) (Record.decode_nothing _)

/-- A listing whose numbers are written in every width, an envelope that carries it, and replies
without a host and with one. -/
theorem payloads_selfDelimiting_readdir :
    let listing : Listing := ⟨[⟨"etc", 0o40755, 0x1122334455667788, 2⟩, ⟨"", 200, 70000, 0⟩]⟩
    let envelope : Envelope := ⟨"fs.readdir", Listing.codec.encode listing⟩
    SelfDelimiting Envelope.decode envelope.encode envelope ∧
      SelfDelimiting PingReply.codec.decode (PingReply.codec.encode ⟨"1.2.3", none⟩)
        ⟨"1.2.3", none⟩ ∧
      SelfDelimiting PingReply.codec.decode (PingReply.codec.encode ⟨"1.2.3", some "nas01"⟩)
        ⟨"1.2.3", some "nas01"⟩ ∧
      SelfDelimiting Listing.codec.decode (Listing.codec.encode listing) listing := by
  intro listing envelope
  refine ⟨payloads_selfDelimiting.1 envelope ?_, payloads_selfDelimiting.2.1 _ ?_,
    payloads_selfDelimiting.2.1 _ ?_, payloads_selfDelimiting.2.2 listing ?_⟩
  · exact ⟨by decide, by decide +kernel⟩
  · exact ⟨by decide, by simp⟩
  · exact ⟨by decide, fun host hhost => by cases hhost; decide⟩
  · exact ⟨by decide, fun entry hentry => by
      simp only [listing, List.mem_cons, List.not_mem_nil, or_false] at hentry
      rcases hentry with rfl | rfl <;> decide⟩

end Switchboard
