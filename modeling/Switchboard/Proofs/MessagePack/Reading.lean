import Switchboard.MessagePack.Reader
import Switchboard.MessagePack.Writer
import Switchboard.Proofs.Text

/-!
# What was written is read back

`Reads r written a` says that a reader makes `a` of some bytes, whatever stands behind them, and
leaves the cursor there. The writers of numbers, headers, texts and byte strings are matched with
their readers one by one; values in a row are read by `Reads.bind`.
-/

namespace Switchboard.MessagePack

/-- A reader makes `a` of some bytes, and leaves what stands behind them. -/
def Reads {α : Type} (r : Reader α) (written : List UInt8) (a : α) : Prop :=
  ∀ (c : Cursor) (rest : List UInt8), c.view = written ++ rest →
    ∃ d, r c = .ok (a, d) ∧ d.view = rest

variable {α β : Type} {r : Reader α} {a : α}

theorem bind_apply (r : Reader α) (f : α → Reader β) (c : Cursor) :
    (r >>= f) c =
      match r c with
      | .error flaw => .error flaw
      | .ok (a, c) => f a c :=
  rfl

theorem bind_of_ok {c d : Cursor} (h : r c = .ok (a, d)) (f : α → Reader β) :
    (r >>= f) c = f a d := by
  rw [bind_apply, h]

theorem ok_of_bind {f : α → Reader β} {c e : Cursor} {b : β} (h : (r >>= f) c = .ok (b, e)) :
    ∃ a d, r c = .ok (a, d) ∧ f a d = .ok (b, e) := by
  rw [bind_apply] at h
  cases hc : r c with
  | error flaw => rw [hc] at h; cases h
  | ok found =>
    rw [hc] at h
    exact ⟨found.1, found.2, rfl, h⟩

namespace Reads

theorem pure (a : α) : Reads (Pure.pure a) [] a :=
  fun c _ h => ⟨c, rfl, h⟩

theorem pure_eq {a b : α} (h : a = b) : Reads (Pure.pure a) [] b :=
  h ▸ pure a

theorem bind {written later : List UInt8} {f : α → Reader β} {b : β} (hr : Reads r written a)
    (hf : Reads (f a) later b) : Reads (r >>= f) (written ++ later) b := by
  intro c rest h
  rw [List.append_assoc] at h
  obtain ⟨d, hd, hview⟩ := hr c (later ++ rest) h
  obtain ⟨e, he, hrest⟩ := hf d rest hview
  refine ⟨e, ?_, hrest⟩
  rw [bind_apply, hd]
  exact he

theorem bind_last {written : List UInt8} {f : α → Reader β} {b : β} (hr : Reads r written a)
    (hf : Reads (f a) [] b) : Reads (r >>= f) written b := by
  have h := hr.bind hf
  rwa [List.append_nil] at h

theorem map {written : List UInt8} (f : α → β) (hr : Reads r written a) :
    Reads (f <$> r) written (f a) :=
  hr.bind_last (pure (f a))

end Reads

/-! ## Bytes -/

theorem next?_of_view {c : Cursor} {b : UInt8} {rest : List UInt8} (h : c.view = b :: rest) :
    ∃ d, c.next? = some (b, d) ∧ d.view = rest := by
  cases hn : c.next? with
  | none => rw [Cursor.next?_eq_none_iff.1 hn] at h; cases h
  | some next =>
    obtain ⟨b', d⟩ := next
    have hview := Cursor.view_of_next? hn
    rw [h] at hview
    cases hview
    exact ⟨d, rfl, rfl⟩

theorem reads_marker (b : UInt8) : Reads marker [b] (Marker.ofByte b) := by
  intro c rest h
  obtain ⟨d, hd, hview⟩ := next?_of_view h
  exact ⟨d, by simp only [marker, hd], hview⟩

/-- The bytes of a number are read on top of what was read before. -/
theorem reads_unsignedFrom (value width n : Nat) :
    Reads (unsignedFrom value width) (Writer.bigEndian width n)
      (value * 256 ^ width + n % 256 ^ width) := by
  induction width generalizing value with
  | zero =>
    rw [Nat.pow_zero, Nat.mod_one, Nat.mul_one, Nat.add_zero]
    exact Reads.pure value
  | succ width ih =>
    intro c rest h
    obtain ⟨d, hd, hview⟩ := next?_of_view h
    obtain ⟨e, he, hrest⟩ := ih (value * 256 + (UInt8.ofNat (n / 256 ^ width)).toNat) d rest hview
    refine ⟨e, ?_, hrest⟩
    have hvalue : value * 256 ^ (width + 1) + n % 256 ^ (width + 1) =
        (value * 256 + (UInt8.ofNat (n / 256 ^ width)).toNat) * 256 ^ width + n % 256 ^ width := by
      have hbyte : (UInt8.ofNat (n / 256 ^ width)).toNat = n / 256 ^ width % 256 :=
        UInt8.toNat_ofNat'
      rw [hbyte, Nat.mod_pow_succ, Nat.pow_succ, Nat.add_mul, Nat.mul_right_comm,
        Nat.mul_assoc value, Nat.mul_comm (256 ^ width) (_ % 256)]
      omega
    rw [hvalue, ← he]
    simp only [unsignedFrom, hd]

theorem reads_unsigned (width : Nat) {n : Nat} (h : n < 256 ^ width) :
    Reads (unsigned width) (Writer.bigEndian width n) n := by
  have hreads := reads_unsignedFrom 0 width n
  rwa [Nat.zero_mul, Nat.zero_add, Nat.mod_eq_of_lt h] at hreads

theorem reads_body (data : ByteArray) : Reads (body data.size) (Switchboard.bytesOf data) data := by
  intro c rest h
  cases ht : c.take? data.size with
  | none =>
    have := Cursor.take?_eq_none_iff.1 ht
    rw [h, List.length_append, length_bytesOf] at this
    omega
  | some next =>
    obtain ⟨found, d⟩ := next
    obtain ⟨hsize, hview⟩ := Cursor.view_of_take? ht
    rw [h] at hview
    obtain ⟨hdata, hrest⟩ := List.append_inj hview (by simpa using hsize.symm)
    have hfound : found = data := (Switchboard.bytesOf_inj hdata).symm
    subst hfound
    exact ⟨d, by simp only [body, ht], hrest.symm⟩

/-! ## Heads -/

/-- A head is read by its marker and what the marker asks for. -/
theorem reads_head {b : UInt8} {later : List UInt8} {a : Head}
    (h : Reads (headOf (Marker.ofByte b)) later a) : Reads head (b :: later) a :=
  (reads_marker b).bind h

theorem reads_null : Reads head [0xC0] .null :=
  reads_head (Reads.pure Head.null)

/-- The ways in which the size of a value may be written: in the marker, where `first` is that of
the size 0 and there is room for so many, or in so many bytes behind a marker. -/
inductive SizeForm (first : UInt8) (room : Nat) (wide : List (UInt8 × Nat)) (n : Nat) :
    List UInt8 → Prop
  | short (h : n < room) : SizeForm first room wide n [first + UInt8.ofNat n]
  | wide (marker : UInt8) (width : Nat) (hform : (marker, width) ∈ wide) (h : n < 256 ^ width) :
    SizeForm first room wide n (marker :: Writer.bigEndian width n)

abbrev TextHeader : Nat → List UInt8 → Prop :=
  SizeForm 0xA0 32 [(0xD9, 1), (0xDA, 2), (0xDB, 4)]

/-- The headers of a byte string of `n` bytes; none has its size in the marker. -/
abbrev BytesHeader : Nat → List UInt8 → Prop :=
  SizeForm 0xC4 0 [(0xC4, 1), (0xC5, 2), (0xC6, 4)]

abbrev ListHeader : Nat → List UInt8 → Prop :=
  SizeForm 0x90 16 [(0xDC, 2), (0xDD, 4)]

abbrev MapHeader : Nat → List UInt8 → Prop :=
  SizeForm 0x80 16 [(0xDE, 2), (0xDF, 4)]

theorem ofByte_fixStr : ∀ n : Fin 32,
    Marker.ofByte (0xA0 + UInt8.ofNat n) = .fixStr (UInt8.ofNat n) := by decide

theorem ofByte_fixArray : ∀ n : Fin 16,
    Marker.ofByte (0x90 + UInt8.ofNat n) = .fixArray (UInt8.ofNat n) := by decide

theorem ofByte_fixMap : ∀ n : Fin 16,
    Marker.ofByte (0x80 + UInt8.ofNat n) = .fixMap (UInt8.ofNat n) := by decide

theorem toNat_ofNat {n : Nat} (h : n < 256) : (UInt8.ofNat n).toNat = n := by
  rw [UInt8.toNat_ofNat', Nat.mod_eq_of_lt h]

/-- A size is read in each of its forms, if each of its markers asks for it. -/
theorem SizeForm.reads {first : UInt8} {room : Nat} {wide : List (UInt8 × Nat)} {n : Nat}
    {header later : List UInt8} {a : Head} {r : Nat → Reader Head}
    (h : SizeForm first room wide n header)
    (hshort : ∀ n < room, headOf (Marker.ofByte (first + UInt8.ofNat n)) = r n)
    (hwide : ∀ form ∈ wide, headOf (Marker.ofByte form.1) = unsigned form.2 >>= r)
    (hr : Reads (r n) later a) : Reads head (header ++ later) a := by
  cases h with
  | short hn =>
    refine reads_head ?_
    rw [hshort n hn]
    exact hr
  | wide marker width hform hn =>
    refine reads_head ?_
    rw [hwide _ hform]
    exact (reads_unsigned _ hn).bind hr

theorem SizeForm.ne_nil {first : UInt8} {room : Nat} {wide : List (UInt8 × Nat)} {n : Nat}
    {header : List UInt8} (h : SizeForm first room wide n header) : header ≠ [] := by
  cases h <;> exact List.cons_ne_nil _ _

theorem TextHeader.reads {header : List UInt8} {data : ByteArray}
    (h : TextHeader data.size header) :
    Reads head (header ++ Switchboard.bytesOf data) (.text data) := by
  apply SizeForm.reads h (r := textOf)
  · intro n hn
    have hsize : (UInt8.ofNat n).toNat = n := toNat_ofNat (by omega)
    rw [ofByte_fixStr ⟨n, hn⟩]
    change textOf (UInt8.ofNat n).toNat = textOf n
    rw [hsize]
  · simp only [List.mem_cons, List.not_mem_nil, or_false]
    rintro form (rfl | rfl | rfl) <;> rfl
  · exact (reads_body data).map Head.text

theorem BytesHeader.reads {header : List UInt8} {data : ByteArray}
    (h : BytesHeader data.size header) :
    Reads head (header ++ Switchboard.bytesOf data) (.bytes data) := by
  apply SizeForm.reads h (r := bytesOf)
  · intro n hn
    omega
  · simp only [List.mem_cons, List.not_mem_nil, or_false]
    rintro form (rfl | rfl | rfl) <;> rfl
  · exact (reads_body data).map Head.bytes

theorem ListHeader.reads {n : Nat} {header : List UInt8} (h : ListHeader n header) :
    Reads head header (.list n) := by
  rw [← List.append_nil header]
  apply SizeForm.reads h (r := fun n => Pure.pure (.list n))
  · intro n hn
    have hsize : (UInt8.ofNat n).toNat = n := toNat_ofNat (by omega)
    rw [ofByte_fixArray ⟨n, hn⟩]
    change Pure.pure (Head.list (UInt8.ofNat n).toNat) = (Pure.pure (Head.list n) : Reader Head)
    rw [hsize]
  · simp only [List.mem_cons, List.not_mem_nil, or_false]
    rintro form (rfl | rfl) <;> rfl
  · exact Reads.pure _

theorem MapHeader.reads {n : Nat} {header : List UInt8} (h : MapHeader n header) :
    Reads head header (.map n) := by
  rw [← List.append_nil header]
  apply SizeForm.reads h (r := fun n => Pure.pure (.map n))
  · intro n hn
    have hsize : (UInt8.ofNat n).toNat = n := toNat_ofNat (by omega)
    rw [ofByte_fixMap ⟨n, hn⟩]
    change Pure.pure (Head.map (UInt8.ofNat n).toNat) = (Pure.pure (Head.map n) : Reader Head)
    rw [hsize]
  · simp only [List.mem_cons, List.not_mem_nil, or_false]
    rintro form (rfl | rfl) <;> rfl
  · exact Reads.pure _

/-! The writer takes one of these forms. -/

theorem textHeader_form {n : Nat} (h : n < 2 ^ 32) :
    TextHeader n (Switchboard.bytesOf (Writer.textHeader n)) := by
  unfold Writer.textHeader
  split
  · exact .short (by omega)
  · split
    · exact .wide 0xD9 1 (by simp) (by omega)
    · split
      · exact .wide 0xDA 2 (by simp) (by omega)
      · exact .wide 0xDB 4 (by simp) (by omega)

theorem bytesHeader_form {n : Nat} (h : n < 2 ^ 32) :
    BytesHeader n (Switchboard.bytesOf (Writer.bytesHeader n)) := by
  unfold Writer.bytesHeader
  split
  · exact .wide 0xC4 1 (by simp) (by omega)
  · split
    · exact .wide 0xC5 2 (by simp) (by omega)
    · exact .wide 0xC6 4 (by simp) (by omega)

theorem listHeader_form {n : Nat} (h : n < 2 ^ 32) :
    ListHeader n (Switchboard.bytesOf (Writer.listHeader n)) := by
  unfold Writer.listHeader
  split
  · exact .short (by omega)
  · split
    · exact .wide 0xDC 2 (by simp) (by omega)
    · exact .wide 0xDD 4 (by simp) (by omega)

theorem mapHeader_form {n : Nat} (h : n < 2 ^ 32) :
    MapHeader n (Switchboard.bytesOf (Writer.mapHeader n)) := by
  unfold Writer.mapHeader
  split
  · exact .short (by omega)
  · split
    · exact .wide 0xDE 2 (by simp) (by omega)
    · exact .wide 0xDF 4 (by simp) (by omega)

/-! ## Numbers -/

/-- The ways in which a number may be written: in the marker, or in so many bytes behind a marker,
with a sign bit or without one. -/
inductive NumberForm (n : Nat) : List UInt8 → Prop
  | short (h : n < 128) : NumberForm n [UInt8.ofNat n]
  | unsigned (marker : UInt8) (width : Nat)
    (hform : (marker, width) ∈ [(0xCC, 1), (0xCD, 2), (0xCE, 4), (0xCF, 8)])
    (h : n < 256 ^ width) : NumberForm n (marker :: Writer.bigEndian width n)
  | signed (marker : UInt8) (width : Nat)
    (hform : (marker, width) ∈ [(0xD0, 1), (0xD1, 2), (0xD2, 4), (0xD3, 8)])
    (h : n < 256 ^ width / 2) : NumberForm n (marker :: Writer.bigEndian width n)

theorem ofByte_fixPos : ∀ n : Fin 128,
    Marker.ofByte (UInt8.ofNat n) = .fixPos (UInt8.ofNat n) := by decide

/-- A scalar is read by its marker and what the marker asks for. -/
theorem reads_scalar {b : UInt8} {later : List UInt8} {a : Head} {r : Reader Head}
    (hr : scalar? (Marker.ofByte b) = some r) (h : Reads r later a) :
    Reads scalar (b :: later) a := by
  refine (reads_marker b).bind ?_
  rw [hr]
  exact h

theorem reads_signed (width : Nat) {n : Nat} (h : n < 256 ^ width / 2) :
    Reads (signed width) (Writer.bigEndian width n) n := by
  have hsmall : n < 256 ^ width := by omega
  refine (reads_unsigned width hsmall).bind_last ?_
  rw [if_pos h]
  exact Reads.pure _

theorem NumberForm.reads {n : Nat} {written : List UInt8} (h : NumberForm n written) :
    Reads scalar written (.unsigned n) ∨ Reads scalar written (.signed n) := by
  cases h with
  | short hn =>
    left
    have hsize : (UInt8.ofNat n).toNat = n := toNat_ofNat (by omega)
    refine reads_scalar (r := Pure.pure (.unsigned (UInt8.ofNat n).toNat))
      (by rw [ofByte_fixPos ⟨n, hn⟩]; rfl) ?_
    rw [hsize]
    exact Reads.pure _
  | unsigned marker width hform hn =>
    left
    have hreads := (reads_unsigned _ hn).map Head.unsigned
    simp only [List.mem_cons, Prod.mk.injEq, List.not_mem_nil, or_false] at hform
    rcases hform with ⟨rfl, rfl⟩ | ⟨rfl, rfl⟩ | ⟨rfl, rfl⟩ | ⟨rfl, rfl⟩ <;>
      exact reads_scalar rfl hreads
  | signed marker width hform hn =>
    right
    have hreads := (reads_signed _ hn).map Head.signed
    simp only [List.mem_cons, Prod.mk.injEq, List.not_mem_nil, or_false] at hform
    rcases hform with ⟨rfl, rfl⟩ | ⟨rfl, rfl⟩ | ⟨rfl, rfl⟩ | ⟨rfl, rfl⟩ <;>
      exact reads_scalar rfl hreads

theorem NumberForm.reads_natural {n limit : Nat} {written : List UInt8} (wanted : String)
    (h : NumberForm n written) (hn : n < limit) : Reads (natural limit wanted) written n := by
  rcases h.reads with hreads | hreads
  · refine hreads.bind_last ?_
    simp only [if_pos hn]
    exact Reads.pure n
  · refine hreads.bind_last ?_
    have hrange : (0 : Int) ≤ n ∧ (n : Int) < limit := by omega
    simp only [if_pos hrange, Int.toNat_natCast]
    exact Reads.pure n

/-- The writer takes the shortest form without a sign bit. -/
theorem natural_form {n : Nat} (h : n < 2 ^ 64) :
    NumberForm n (Switchboard.bytesOf (Writer.natural n)) := by
  unfold Writer.natural
  split
  · exact .short (by omega)
  · split
    · exact .unsigned 0xCC 1 (by simp) (by omega)
    · split
      · exact .unsigned 0xCD 2 (by simp) (by omega)
      · split
        · exact .unsigned 0xCE 4 (by simp) (by omega)
        · exact .unsigned 0xCF 8 (by simp) (by omega)

theorem reads_natural {n limit : Nat} (wanted : String) (h : n < limit) (hlimit : limit ≤ 2 ^ 64) :
    Reads (natural limit wanted) (Switchboard.bytesOf (Writer.natural n)) n :=
  (natural_form (Nat.lt_of_lt_of_le h hlimit)).reads_natural wanted h

/-! ## Texts, byte strings and keys -/

def TextForm (s : String) (written : List UInt8) : Prop :=
  ∃ header, TextHeader s.toUTF8.size header ∧ written = header ++ Switchboard.bytesOf s.toUTF8

/-- The ways in which a byte string may be written. -/
def BytesForm (data : ByteArray) (written : List UInt8) : Prop :=
  ∃ header, BytesHeader data.size header ∧ written = header ++ Switchboard.bytesOf data

theorem TextForm.reads {s : String} {written : List UInt8} (h : TextForm s written) :
    Reads head written (.text s.toUTF8) := by
  obtain ⟨header, hheader, rfl⟩ := h
  exact hheader.reads

theorem BytesForm.reads {data : ByteArray} {written : List UInt8} (h : BytesForm data written) :
    Reads head written (.bytes data) := by
  obtain ⟨header, hheader, rfl⟩ := h
  exact hheader.reads

theorem TextForm.reads_text {s : String} {written : List UInt8} (h : TextForm s written)
    (depth : Nat) : Reads (text depth) written s := by
  refine h.reads.bind_last ?_
  simp only [textOfHead, Utf8.decode_toUTF8]
  exact Reads.pure s

theorem TextForm.reads_text? {s : String} {written : List UInt8} (h : TextForm s written)
    (depth : Nat) : Reads (text? depth) written (some s) := by
  refine h.reads.bind_last ?_
  simp only [textOfHead, Utf8.decode_toUTF8]
  exact (Reads.pure s).map some

theorem BytesForm.reads_bytes {data : ByteArray} {written : List UInt8} (h : BytesForm data written)
    (depth : Nat) : Reads (bytes depth) written data :=
  h.reads.bind_last (Reads.pure data)

theorem TextForm.reads_key {α : Type} (shape : Record α) (depth : Nat) {name : String}
    {written : List UInt8} (h : TextForm name written) :
    Reads (shape.key depth) written (shape.fields.findIdx? (·.toUTF8 == name.toUTF8)) :=
  h.reads.bind_last (Reads.pure _)

theorem text_form {s : String} (h : s.utf8ByteSize < 2 ^ 32) :
    TextForm s (Switchboard.bytesOf (Writer.text s)) :=
  ⟨_, textHeader_form h, Switchboard.bytesOf_append _ _⟩

theorem bytes_form {data : ByteArray} (h : data.size < 2 ^ 32) :
    BytesForm data (Switchboard.bytesOf (Writer.bytes data)) :=
  ⟨_, bytesHeader_form h, Switchboard.bytesOf_append _ _⟩

theorem reads_text (depth : Nat) {s : String} (h : s.utf8ByteSize < 2 ^ 32) :
    Reads (text depth) (Switchboard.bytesOf (Writer.text s)) s :=
  (text_form h).reads_text depth

theorem reads_text? (depth : Nat) {s : String} (h : s.utf8ByteSize < 2 ^ 32) :
    Reads (text? depth) (Switchboard.bytesOf (Writer.text s)) (some s) :=
  (text_form h).reads_text? depth

theorem reads_bytes (depth : Nat) {data : ByteArray} (h : data.size < 2 ^ 32) :
    Reads (bytes depth) (Switchboard.bytesOf (Writer.bytes data)) data :=
  (bytes_form h).reads_bytes depth

theorem reads_key {α : Type} (shape : Record α) (depth : Nat) (name : String)
    (h : name.utf8ByteSize < 2 ^ 32) :
    Reads (shape.key depth) (Switchboard.bytesOf (Writer.text name))
      (shape.fields.findIdx? (·.toUTF8 == name.toUTF8)) :=
  (text_form h).reads_key shape depth

/-! ## Lists -/

theorem bytesOf_list (element : α → ByteArray) (values : List α) :
    Switchboard.bytesOf (Writer.list element values) =
      Switchboard.bytesOf (Writer.listHeader values.length) ++
        values.flatMap fun value => Switchboard.bytesOf (element value) := by
  unfold Writer.list
  generalize Writer.listHeader values.length = written
  induction values generalizing written with
  | nil => rw [List.foldl_nil, List.flatMap_nil, List.append_nil]
  | cons value values ih =>
    rw [List.foldl_cons, ih, Switchboard.bytesOf_append, List.flatMap_cons, List.append_assoc]

/-- The values of a list are read one after the other, behind those already read. -/
theorem reads_listOnto {element : α → List UInt8} {values : List α}
    (h : ∀ value ∈ values, Reads r (element value) value) (done : List α) :
    Reads (listOnto r done values.length) (values.flatMap element) (done.reverse ++ values) := by
  induction values generalizing done with
  | nil =>
    rw [List.append_nil]
    exact Reads.pure _
  | cons value values ih =>
    have hlater := ih (fun other hother => h other (List.mem_cons_of_mem value hother))
      (value :: done)
    rw [List.reverse_cons, List.append_assoc] at hlater
    exact (h value List.mem_cons_self).bind hlater

theorem reads_list (wanted : String) {element : Nat → Reader α} (depth : Nat)
    {write : α → ByteArray} {values : List α} (hlength : values.length < 2 ^ 32)
    (h : ∀ value ∈ values, Reads (element depth) (Switchboard.bytesOf (write value)) value) :
    Reads (list wanted element (depth + 1)) (Switchboard.bytesOf (Writer.list write values))
      values := by
  rw [bytesOf_list]
  exact (listHeader_form hlength).reads.bind (reads_listOnto h [])

/-! ## Records -/

/-- The fields of a record stand behind their count, each name before its value. -/
theorem bytesOf_fields (values : List (String × ByteArray)) :
    Switchboard.bytesOf (Writer.fields values) =
      Switchboard.bytesOf (Writer.mapHeader values.length) ++
        values.flatMap fun entry =>
          Switchboard.bytesOf (Writer.text entry.1) ++ Switchboard.bytesOf entry.2 := by
  unfold Writer.fields
  generalize Writer.mapHeader values.length = written
  induction values generalizing written with
  | nil => rw [List.foldl_nil, List.flatMap_nil, List.append_nil]
  | cons entry values ih =>
    rw [List.foldl_cons, ih, List.flatMap_cons, Switchboard.bytesOf_append,
      Switchboard.bytesOf_append, List.append_assoc, List.append_assoc, List.append_assoc]

namespace Record

variable {α : Type} (shape : Record α) (depth : Nat) {seen : List Nat} {a b : α}

/-- One entry of a map is read: its key, its value, and the entries after it. -/
theorem reads_entry {name value later : List UInt8} {field n : Nat} {made : α}
    (hkey : Reads (shape.key depth) name (some field)) (hnew : seen.contains field = false)
    (hvalue : Reads (shape.store depth field a) value made)
    (hlater : Reads (shape.entriesOnto depth (field :: seen) made n) later b) :
    Reads (shape.entriesOnto depth seen a (n + 1)) (name ++ (value ++ later)) b := by
  refine hkey.bind ?_
  simp only [hnew, Bool.false_eq_true, if_false]
  exact hvalue.bind hlater

/-- After the last entry a record is whole if none of the required fields is missing. -/
theorem reads_end (h : shape.missing? seen = none) :
    Reads (shape.entriesOnto depth seen a 0) [] a := by
  simp only [entriesOnto, h]
  exact Reads.pure a

theorem reads_map {entries : List UInt8} {n : Nat} (hn : n < 16)
    (h : Reads (shape.entriesOnto depth [] shape.blank n) entries b) :
    Reads (shape.read (depth + 1)) (Switchboard.bytesOf (Writer.mapHeader n) ++ entries) b :=
  (mapHeader_form (by omega)).reads.bind h

end Record

/-- What a reader makes of some bytes, with more of them behind. -/
theorem decode_append_of_reads {r : Nat → Reader α} {data : ByteArray}
    (h : Reads (r maxDepth) (Switchboard.bytesOf data) a) (later : ByteArray) :
    decode r (data ++ later) = .ok a := by
  obtain ⟨c, hc, -⟩ := h ⟨data ++ later, 0⟩ (Switchboard.bytesOf later) (by simp [Cursor.view])
  unfold decode
  rw [hc]
  rfl

theorem decode_of_reads {r : Nat → Reader α} {data : ByteArray}
    (h : Reads (r maxDepth) (Switchboard.bytesOf data) a) : decode r data = .ok a := by
  have hdecode := decode_append_of_reads h ByteArray.empty
  rwa [ByteArray.append_empty] at hdecode

end Switchboard.MessagePack
