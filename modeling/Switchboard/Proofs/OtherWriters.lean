import Switchboard.Proofs.MessagePack.Records
import Switchboard.Proofs.Payload

/-!
# Payloads of other writers

A peer need not write its payloads as this program does. `Envelope.fields`, `PingReply.fields` and
`FileEntry.fields` say how each field may be written. Every map that tells the fields of a value is
read as that value, in whatever order they stand and whatever stands between them, and so is the
list of the fields; a map that repeats a known key or lacks a required one is refused
(`payloads_of_other_writers`). Each record is put together as its `part`, in which those fields are
set that have been read.
-/

namespace Switchboard

open MessagePack

/-- What is read of what other writers may make of values. -/
structure Tolerant {α : Type} (decode : ByteArray → Except Fault α)
    (fields : α → List (FieldForm UInt8)) (known required : List String) : Prop where
  map : ∀ a data, IsMapOf (fields a) (maxDepth - 1) (bytesOf data) → decode data = .ok a
  list : ∀ a data, IsListOf (fields a) (bytesOf data) → decode data = .ok a
  faulty : ∀ data, IsFaultyMap known required (bytesOf data) →
    ∃ reason, decode data = .error (.malformed reason)

namespace Codec

variable {α : Type} {codec : Codec α} {shape : Record α} {fields : α → List (FieldForm UInt8)}
  {part : α → List Nat → α}

theorem decodeStrict_of_reads {data : ByteArray} {a : α}
    (h : Reads (codec.read maxDepth) (bytesOf data) a) : codec.decodeStrict data = .ok a := by
  unfold decodeStrict
  rw [decode_of_reads h]
  rfl

theorem decode_of_ne_nil {data : ByteArray} (h : bytesOf data ≠ []) :
    codec.decode data = codec.decodeStrict data := by
  unfold decode
  have hsize : data.size ≠ 0 := by
    rw [← length_bytesOf]
    exact fun hzero => h (List.length_eq_zero_iff.1 hzero)
  rw [if_neg hsize]

theorem decodeStrict_tolerant (hcodec : codec.read = shape.read)
    (hassembles : ∀ a, Assembles shape.fields shape.required shape.blank (fields a) (part a) a)
    (hstores : ∀ a, shape.Stores (fields a) (part a))
    (hrequired : shape.required ≤ shape.fields.length)
    (hpasses : ∀ depth field a, Passes (shape.store depth field a)) :
    Tolerant codec.decodeStrict fields shape.fields (shape.fields.take shape.required) where
  map a data h := by
    have hreads : Reads (shape.read maxDepth) (bytesOf data) a :=
      Record.reads_of_map (hassembles a) (hstores a) h
    exact decodeStrict_of_reads (by rw [hcodec]; exact hreads)
  list a data h := by
    have hreads : Reads (shape.read maxDepth) (bytesOf data) a :=
      Record.reads_of_list (hassembles a) (hstores a) h
    exact decodeStrict_of_reads (by rw [hcodec]; exact hreads)
  faulty data h := by
    have hdistinct : shape.fields.Nodup := by
      rw [(hassembles shape.blank).names]
      exact (hassembles shape.blank).distinct
    unfold decodeStrict MessagePack.decode
    cases hread : codec.read maxDepth ⟨data, 0⟩ with
    | error flaw => exact ⟨flaw.message, rfl⟩
    | ok found =>
      rw [hcodec] at hread
      have hview : Cursor.view ⟨data, 0⟩ = bytesOf data := List.drop_zero
      exact absurd hread (Record.not_read_of_faulty hdistinct hrequired hpasses h hview found)

theorem decode_tolerant (hcodec : codec.read = shape.read)
    (hassembles : ∀ a, Assembles shape.fields shape.required shape.blank (fields a) (part a) a)
    (hstores : ∀ a, shape.Stores (fields a) (part a))
    (hrequired : shape.required ≤ shape.fields.length)
    (hpasses : ∀ depth field a, Passes (shape.store depth field a)) :
    Tolerant codec.decode fields shape.fields (shape.fields.take shape.required) := by
  have hstrict := decodeStrict_tolerant hcodec hassembles hstores hrequired hpasses
  refine ⟨fun a data h => ?_, fun a data h => ?_, fun data h => ?_⟩
  · rw [decode_of_ne_nil h.ne_nil]
    exact hstrict.map a data h
  · rw [decode_of_ne_nil h.ne_nil]
    exact hstrict.list a data h
  · rw [decode_of_ne_nil h.ne_nil]
    exact hstrict.faulty data h

end Codec

/-! ## Envelopes -/

namespace Envelope

/-- How the fields of an envelope may be written. -/
def fields (envelope : Envelope) : List (FieldForm UInt8) :=
  [⟨"method", TextForm envelope.method, False⟩,
    ⟨"payload", BytesForm envelope.payload, envelope.payload = ByteArray.empty⟩]

/-- The envelope in which only some fields are set. -/
def part (envelope : Envelope) (seen : List Nat) : Envelope where
  method := if 0 ∈ seen then envelope.method else ""
  payload := if 1 ∈ seen then envelope.payload else ByteArray.empty

theorem passes_store (depth field : Nat) (envelope : Envelope) :
    Passes (shape.store depth field envelope) := by
  match field with
  | 0 => exact (passes_text depth).map
  | _ + 1 => exact (passes_bytes depth).map

theorem stores (envelope : Envelope) : shape.Stores envelope.fields envelope.part := by
  intro depth seen place field value hfield hform
  match place, hfield with
  | 0, rfl =>
    refine (hform.reads_text depth).bind_last ?_
    exact .pure_eq (by simp [part])
  | 1, rfl =>
    refine (hform.reads_bytes depth).bind_last ?_
    exact .pure_eq (by simp [part])

theorem assembles (envelope : Envelope) :
    Assembles shape.fields shape.required shape.blank envelope.fields envelope.part envelope where
  names := rfl
  distinct := by simp [fields]
  blank := rfl
  required := by
    intro place hplace
    match place, hplace with
    | 0, _ => exact ⟨_, rfl, id⟩
  whole seen h :=
    have hmethod : (envelope.part seen).method = envelope.method :=
      ite_eq_left_iff.2 fun hnot => (h 0 _ rfl hnot).elim
    have hpayload : (envelope.part seen).payload = envelope.payload :=
      ite_eq_left_iff.2 fun hnot => (h 1 _ rfl hnot).symm
    congrArg₂ Envelope.mk hmethod hpayload

end Envelope

/-! ## Replies to a ping -/

namespace PingReply

/-- How a host may be written: nothing, or its name. -/
def HostForm : Option String → List UInt8 → Prop
  | none, written => written = [0xC0]
  | some host, written => TextForm host written

def fields (reply : PingReply) : List (FieldForm UInt8) :=
  [⟨"version", TextForm reply.version, False⟩,
    ⟨"hostname", HostForm reply.hostname, reply.hostname = none⟩]

def part (reply : PingReply) (seen : List Nat) : PingReply where
  version := if 0 ∈ seen then reply.version else ""
  hostname := if 1 ∈ seen then reply.hostname else none

theorem passes_store (depth field : Nat) (reply : PingReply) :
    Passes (shape.store depth field reply) := by
  match field with
  | 0 => exact (passes_text depth).map
  | _ + 1 => exact (passes_text? depth).map

theorem HostForm.reads {hostname : Option String} {written : List UInt8}
    (h : HostForm hostname written) (depth : Nat) : Reads (text? depth) written hostname := by
  match hostname, h with
  | none, rfl => exact reads_null.bind_last (Reads.pure none)
  | some host, h => exact TextForm.reads_text? h depth

theorem stores (reply : PingReply) : shape.Stores reply.fields reply.part := by
  intro depth seen place field value hfield hform
  match place, hfield with
  | 0, rfl =>
    refine (hform.reads_text depth).bind_last ?_
    exact .pure_eq (by simp [part])
  | 1, rfl =>
    refine (HostForm.reads hform depth).bind_last ?_
    exact .pure_eq (by simp [part])

theorem assembles (reply : PingReply) :
    Assembles shape.fields shape.required shape.blank reply.fields reply.part reply where
  names := rfl
  distinct := by simp [fields]
  blank := rfl
  required := by
    intro place hplace
    match place, hplace with
    | 0, _ => exact ⟨_, rfl, id⟩
  whole seen h :=
    have hversion : (reply.part seen).version = reply.version :=
      ite_eq_left_iff.2 fun hnot => (h 0 _ rfl hnot).elim
    have hhostname : (reply.part seen).hostname = reply.hostname :=
      ite_eq_left_iff.2 fun hnot => (h 1 _ rfl hnot).symm
    congrArg₂ PingReply.mk hversion hhostname

end PingReply

/-! ## Entries of a directory -/

namespace FileEntry

def fields (entry : FileEntry) : List (FieldForm UInt8) :=
  [⟨"name", TextForm entry.name, False⟩, ⟨"mode", NumberForm entry.mode.toNat, False⟩,
    ⟨"stable_id", NumberForm entry.stableId.toNat, False⟩,
    ⟨"nlink", NumberForm entry.links.toNat, False⟩]

def part (entry : FileEntry) (seen : List Nat) : FileEntry where
  name := if 0 ∈ seen then entry.name else ""
  mode := if 1 ∈ seen then entry.mode else 0
  stableId := if 2 ∈ seen then entry.stableId else 0
  links := if 3 ∈ seen then entry.links else 0

theorem passes_store (depth field : Nat) (entry : FileEntry) :
    Passes (shape.store depth field entry) := by
  match field with
  | 0 => exact (passes_text depth).map
  | 1 => exact (passes_natural _ _).map
  | 2 => exact (passes_natural _ _).map
  | _ + 3 => exact (passes_natural _ _).map

theorem stores (entry : FileEntry) : shape.Stores entry.fields entry.part := by
  intro depth seen place field value hfield hform
  match place, hfield with
  | 0, rfl =>
    refine (hform.reads_text depth).bind_last ?_
    exact .pure_eq (by simp [part])
  | 1, rfl =>
    refine (hform.reads_natural "u32" entry.mode.toNat_lt).bind_last ?_
    exact .pure_eq (by simp [part])
  | 2, rfl =>
    refine (hform.reads_natural "u64" entry.stableId.toNat_lt).bind_last ?_
    exact .pure_eq (by simp [part])
  | 3, rfl =>
    refine (hform.reads_natural "u32" entry.links.toNat_lt).bind_last ?_
    exact .pure_eq (by simp [part])

theorem assembles (entry : FileEntry) :
    Assembles shape.fields shape.required shape.blank entry.fields entry.part entry where
  names := rfl
  distinct := by simp [fields]
  blank := rfl
  required := by
    intro place hplace
    match place, hplace with
    | 0, _ | 1, _ | 2, _ | 3, _ => exact ⟨_, rfl, id⟩
  whole seen h := by
    have hname : 0 ∈ seen := Classical.not_not.1 fun hnot => h 0 _ rfl hnot
    have hmode : 1 ∈ seen := Classical.not_not.1 fun hnot => h 1 _ rfl hnot
    have hstableId : 2 ∈ seen := Classical.not_not.1 fun hnot => h 2 _ rfl hnot
    have hlinks : 3 ∈ seen := Classical.not_not.1 fun hnot => h 3 _ rfl hnot
    simp only [part, hname, hmode, hstableId, hlinks, if_true]

end FileEntry

/-- **Payloads of other writers are read.** Every map that tells the fields of an envelope, of a
reply to a ping or of an entry is read as it: the fields in any order and in any of their forms, one
with a default left out if it has it, and between them any values under keys that are not known,
nested as deep as the limit allows. So is the list of the fields. A map that repeats a known key or
lacks a required one is refused as malformed. -/
theorem payloads_of_other_writers :
    Tolerant Envelope.decode Envelope.fields ["method", "payload"] ["method"] ∧
      Tolerant PingReply.codec.decode PingReply.fields ["version", "hostname"] ["version"] ∧
      Tolerant FileEntry.codec.decode FileEntry.fields ["name", "mode", "stable_id", "nlink"]
        ["name", "mode", "stable_id", "nlink"] := by
  refine ⟨?_, ?_, ?_⟩
  · exact Codec.decodeStrict_tolerant rfl Envelope.assembles Envelope.stores (by decide)
      Envelope.passes_store
  · exact Codec.decode_tolerant rfl PingReply.assembles PingReply.stores (by decide)
      PingReply.passes_store
  · exact Codec.decode_tolerant rfl FileEntry.assembles FileEntry.stores (by decide)
      FileEntry.passes_store

/-- An envelope whose payload stands before its method, both with longer lengths than they need and
with a nested value between them that nobody knows; a reply as a list, whose host is nothing; and an
entry whose name comes twice. -/
theorem payloads_of_other_writers_reordered :
    let unknown : List UInt8 := [0x92, 0xC0, 0xDE, 0, 1, 0x01, 0xD4, 0x05, 0xFF]
    let envelope : ByteArray := ⟨([0xDE, 0, 3, 0xD9, 7] ++ bytesOf "payload".toUTF8 ++
      [0xC5, 0, 2, 0xAB, 0xCD] ++ [0xA1, 120] ++ unknown ++ [0xA6] ++ bytesOf "method".toUTF8 ++
      [0xDB, 0, 0, 0, 1, 109]).toArray⟩
    let reply : ByteArray := ⟨#[0xDC, 0, 2, 0xD9, 1, 49, 0xC0]⟩
    let entry : ByteArray := ⟨#[0x82, 0xA4, 110, 97, 109, 101, 0xA0, 0xA4, 110, 97, 109, 101, 0xC0]⟩
    Envelope.decode envelope = .ok ⟨"m", ⟨#[0xAB, 0xCD]⟩⟩ ∧
      PingReply.codec.decode reply = .ok ⟨"1", none⟩ ∧
      ∃ reason, FileEntry.codec.decode entry = .error (.malformed reason) := by
  intro unknown envelope reply entry
  have hextension : IsValue 1020 ([0xD4] ++ 0x05 :: bytesOf ⟨#[0xFF]⟩) :=
    .extension (.fixed 0xD4 (by decide)) 0x05
  have hmap : IsValue 1021 ([0xDE, 0, 1] ++ [[0x01], [0xD4, 0x05, 0xFF]].flatten) := by
    refine .map (n := 1) (.wide 0xDE 2 (by decide) (by decide)) rfl fun part hpart => ?_
    simp only [List.mem_cons, List.not_mem_nil, or_false] at hpart
    rcases hpart with rfl | rfl
    · exact .small (by decide)
    · exact hextension
  have hunknown : IsValue (maxDepth - 1)
      ([0x92] ++ [[0xC0], [0xDE, 0, 1, 0x01, 0xD4, 0x05, 0xFF]].flatten) := by
    refine .list (.short (by decide)) fun part hpart => ?_
    simp only [List.mem_cons, List.not_mem_nil, or_false] at hpart
    rcases hpart with rfl | rfl
    · exact .small (by decide)
    · exact hmap
  refine ⟨payloads_of_other_writers.1.map _ _ ?_, payloads_of_other_writers.2.1.list _ _ ?_,
    payloads_of_other_writers.2.2.faulty _ ?_⟩
  · have hpayload : TextForm "payload" ([0xD9, 7] ++ bytesOf "payload".toUTF8) :=
      ⟨_, .wide 0xD9 1 (by decide) (by decide), rfl⟩
    have hx : TextForm "x" [0xA1, 120] := ⟨_, .short (by decide), by decide +kernel⟩
    have hmethod : TextForm "method" ([0xA6] ++ bytesOf "method".toUTF8) :=
      ⟨_, .short (by decide), rfl⟩
    refine ⟨[("payload", [0xC5, 0, 2, 0xAB, 0xCD]), ("x", unknown),
      ("method", [0xDB, 0, 0, 0, 1, 109])], ⟨_, _, .wide 0xDE 2 (by decide) (by decide),
      .cons hpayload (.cons hx (.cons hmethod .nil)), by decide +kernel⟩, ?_⟩
    have hm : TextForm "m" [0xDB, 0, 0, 0, 1, 109] :=
      ⟨_, .wide 0xDB 4 (by decide) (by decide), by decide +kernel⟩
    have hdata : BytesForm ⟨#[0xAB, 0xCD]⟩ [0xC5, 0, 2, 0xAB, 0xCD] :=
      ⟨_, .wide 0xC5 2 (by decide) (by decide), rfl⟩
    constructor
    · simp [Envelope.fields]
    · simp
    · simp [Envelope.fields, hm, hdata]
    · intro place field hfield _ hkey
      match place, hfield with
      | 0, rfl => exact absurd (by decide) hkey
      | 1, rfl => exact absurd (by decide) hkey
    · simpa [Envelope.fields] using hunknown
  · refine ⟨_, [[0xD9, 1, 49], [0xC0]], .wide 0xDC 2 (by decide) (by decide), ?_, by decide +kernel⟩
    refine .cons ⟨_, .wide 0xD9 1 (by decide) (by decide), by decide +kernel⟩ (.cons rfl .nil)
  · have hname : TextForm "name" ([0xA4] ++ bytesOf "name".toUTF8) := ⟨_, .short (by decide), rfl⟩
    refine ⟨[("name", [0xA0]), ("name", [0xC0])], ⟨_, _, .short (by decide),
      .cons hname (.cons hname .nil), by decide +kernel⟩, ?_, .inl ⟨"name", by decide, by decide⟩⟩
    intro value hvalue
    simp only [List.mem_cons, List.not_mem_nil, or_false] at hvalue
    rcases hvalue with rfl | rfl
    · have hempty : IsValue 0 ([0xA0] ++ bytesOf ByteArray.empty) := .text (.short (by decide))
      exact ⟨0, hempty⟩
    · exact ⟨0, .small (by decide)⟩

end Switchboard
