import Switchboard.Proofs.MessagePack.Reading

/-!
# Values of any shape

`IsValue depth written` says of some bytes that they are one MessagePack value whose parts lie at
most so deep. Sizes and numbers may be written in any form that is wide enough. Passing over a value
takes all of its bytes and no other ones (`IsValue.reads_skip`), and a reader that wants a value of
some kind takes, if it succeeds, what passing over it would take (`Passes`).
-/

namespace Switchboard.MessagePack

/-- The beginnings of a value of an open type that has `n` bytes. -/
inductive ExtensionHeader (n : Nat) : List UInt8 → Prop
  | fixed (marker : UInt8)
    (hform : (marker, n) ∈ [(0xD4, 1), (0xD5, 2), (0xD6, 4), (0xD7, 8), (0xD8, 16)]) :
    ExtensionHeader n [marker]
  | wide (marker : UInt8) (width : Nat)
    (hform : (marker, width) ∈ [(0xC7, 1), (0xC8, 2), (0xC9, 4)]) (h : n < 256 ^ width) :
    ExtensionHeader n (marker :: Writer.bigEndian width n)

/-- The bytes of one value, if so many levels of lists, maps and extension values may be entered. A
text need not be one of characters. -/
inductive IsValue : Nat → List UInt8 → Prop
  /-- Nothing, a truth value, or a small number. -/
  | small {depth : Nat} {b : UInt8} (h : b < 0x80 ∨ 0xE0 ≤ b ∨ b ∈ [0xC0, 0xC2, 0xC3]) :
    IsValue depth [b]
  /-- A number of so many bytes: a float, or one without a sign or with one. -/
  | number {depth : Nat} (marker : UInt8) (width : Nat)
    (hform : (marker, width) ∈ [(0xCA, 4), (0xCB, 8), (0xCC, 1), (0xCD, 2), (0xCE, 4), (0xCF, 8),
      (0xD0, 1), (0xD1, 2), (0xD2, 4), (0xD3, 8)]) (n : Nat) :
    IsValue depth (marker :: Writer.bigEndian width n)
  | text {depth : Nat} {header : List UInt8} {data : ByteArray} (h : TextHeader data.size header) :
    IsValue depth (header ++ Switchboard.bytesOf data)
  | bytes {depth : Nat} {header : List UInt8} {data : ByteArray}
    (h : BytesHeader data.size header) :
    IsValue depth (header ++ Switchboard.bytesOf data)
  | list {depth : Nat} {header : List UInt8} {parts : List (List UInt8)}
    (h : ListHeader parts.length header) (hparts : ∀ part ∈ parts, IsValue depth part) :
    IsValue (depth + 1) (header ++ parts.flatten)
  /-- The parts of a map are its keys and values in turn. -/
  | map {depth n : Nat} {header : List UInt8} {parts : List (List UInt8)} (h : MapHeader n header)
    (hlength : parts.length = 2 * n) (hparts : ∀ part ∈ parts, IsValue depth part) :
    IsValue (depth + 1) (header ++ parts.flatten)
  | extension {depth : Nat} {header : List UInt8} {data : ByteArray}
    (h : ExtensionHeader data.size header) (kind : UInt8) :
    IsValue (depth + 1) (header ++ kind :: Switchboard.bytesOf data)

/-- A head after which nothing of the value is left. -/
def Head.IsWhole : Head → Prop
  | .list _ | .map _ | .extension _ => False
  | _ => True

theorem skipRest_whole (depth : Nat) {value : Head} (h : value.IsWhole) :
    skipRest depth value = pure () := by
  cases value <;> first | exact h.elim | (cases depth <;> rfl)

/-- A value that is read with its head is passed over with it. -/
theorem reads_skip_whole (depth : Nat) {written : List UInt8} {value : Head}
    (h : Reads head written value) (hvalue : value.IsWhole) : Reads (skip depth) written () := by
  refine h.bind_last ?_
  rw [skipRest_whole depth hvalue]
  exact Reads.pure ()

/-! ## Heads of any shape -/

theorem headOf_scalar {m : Marker} {r : Reader Head} (h : scalar? m = some r) : headOf m = r := by
  rw [headOf, h, Option.getD_some]

theorem reads_small {b : UInt8} (h : b < 0x80 ∨ 0xE0 ≤ b ∨ b ∈ [0xC0, 0xC2, 0xC3]) :
    ∃ value : Head, Reads head [b] value ∧ value.IsWhole := by
  rcases h with hb | hb | hb
  · refine ⟨.unsigned b.toNat, reads_head ?_, trivial⟩
    rw [Marker.ofByte, if_pos hb]
    exact Reads.pure _
  · refine ⟨.signed (b.toNat - 256), reads_head ?_, trivial⟩
    have hnot : ∀ limit : UInt8, limit ≤ 0xE0 → ¬ b < limit := fun limit hlimit hlt =>
      absurd (UInt8.lt_of_lt_of_le hlt (UInt8.le_trans hlimit hb)) (UInt8.lt_irrefl b)
    rw [Marker.ofByte, if_neg (hnot 0x80 (by decide)), if_neg (hnot 0x90 (by decide)),
      if_neg (hnot 0xA0 (by decide)), if_neg (hnot 0xC0 (by decide)),
      if_neg (hnot 0xE0 (by decide))]
    exact Reads.pure _
  · simp only [List.mem_cons, List.not_mem_nil, or_false] at hb
    rcases hb with rfl | rfl | rfl
    · exact ⟨.null, reads_null, trivial⟩
    · exact ⟨.boolean false, reads_head (Reads.pure _), trivial⟩
    · exact ⟨.boolean true, reads_head (Reads.pure _), trivial⟩

theorem reads_unsigned_mod (width n : Nat) :
    Reads (unsigned width) (Writer.bigEndian width n) (n % 256 ^ width) := by
  have h := reads_unsignedFrom 0 width n
  rwa [Nat.zero_mul, Nat.zero_add] at h

theorem reads_wide {marker : UInt8} {width : Nat}
    (hform : (marker, width) ∈ [(0xCA, 4), (0xCB, 8), (0xCC, 1), (0xCD, 2), (0xCE, 4), (0xCF, 8),
      (0xD0, 1), (0xD1, 2), (0xD2, 4), (0xD3, 8)]) (n : Nat) :
    ∃ value : Head, Reads head (marker :: Writer.bigEndian width n) value ∧ value.IsWhole := by
  have hfloat := (reads_unsigned_mod width n).map fun n => Head.float (.ofBits32 n)
  have hdouble := (reads_unsigned_mod width n).map fun n => Head.float (.ofBits64 n)
  have hunsigned := (reads_unsigned_mod width n).map Head.unsigned
  have hsigned := Reads.map Head.signed (r := signed width)
    ((reads_unsigned_mod width n).bind_last (Reads.pure _))
  simp only [List.mem_cons, Prod.mk.injEq, List.not_mem_nil, or_false] at hform
  rcases hform with ⟨rfl, rfl⟩ | ⟨rfl, rfl⟩ | hform
  · exact ⟨_, reads_head hfloat, trivial⟩
  · exact ⟨_, reads_head hdouble, trivial⟩
  · rcases hform with ⟨rfl, rfl⟩ | ⟨rfl, rfl⟩ | ⟨rfl, rfl⟩ | ⟨rfl, rfl⟩ | hform
    · exact ⟨_, reads_head hunsigned, trivial⟩
    · exact ⟨_, reads_head hunsigned, trivial⟩
    · exact ⟨_, reads_head hunsigned, trivial⟩
    · exact ⟨_, reads_head hunsigned, trivial⟩
    · rcases hform with ⟨rfl, rfl⟩ | ⟨rfl, rfl⟩ | ⟨rfl, rfl⟩ | ⟨rfl, rfl⟩ <;>
        exact ⟨_, reads_head hsigned, trivial⟩

theorem ExtensionHeader.reads {n : Nat} {header : List UInt8} (h : ExtensionHeader n header) :
    Reads head header (.extension n) := by
  cases h with
  | fixed marker hform =>
    simp only [List.mem_cons, Prod.mk.injEq, List.not_mem_nil, or_false] at hform
    rcases hform with ⟨rfl, rfl⟩ | ⟨rfl, rfl⟩ | ⟨rfl, rfl⟩ | ⟨rfl, rfl⟩ | ⟨rfl, rfl⟩ <;>
      exact reads_head (Reads.pure _)
  | wide marker width hform hn =>
    have hreads := (reads_unsigned _ hn).map Head.extension
    simp only [List.mem_cons, Prod.mk.injEq, List.not_mem_nil, or_false] at hform
    rcases hform with ⟨rfl, rfl⟩ | ⟨rfl, rfl⟩ | ⟨rfl, rfl⟩ <;> exact reads_head hreads

/-! ## Passing over -/

theorem reads_passOver {r : Reader Unit} {parts : List (List UInt8)}
    (h : ∀ part ∈ parts, Reads r part ()) : Reads (passOver r parts.length) parts.flatten () := by
  induction parts with
  | nil => exact Reads.pure ()
  | cons part parts ih =>
    have hlater := ih fun other hother => h other (List.mem_cons_of_mem part hother)
    exact (h part List.mem_cons_self).bind hlater

/-- **A value is passed over whole.** By induction on the shape of the value: its parts are passed
over one after the other, at one level less. -/
theorem IsValue.reads_skip {depth : Nat} {written : List UInt8} (h : IsValue depth written) :
    Reads (skip depth) written () := by
  induction h with
  | small h =>
    obtain ⟨value, hreads, hvalue⟩ := reads_small h
    exact reads_skip_whole _ hreads hvalue
  | number marker width hform n =>
    obtain ⟨value, hreads, hvalue⟩ := reads_wide hform n
    exact reads_skip_whole _ hreads hvalue
  | text h => exact reads_skip_whole _ h.reads trivial
  | bytes h => exact reads_skip_whole _ h.reads trivial
  | list h _ ih => exact h.reads.bind (reads_passOver ih)
  | map h hlength _ ih =>
    refine h.reads.bind ?_
    have hparts := reads_passOver ih
    rw [hlength] at hparts
    exact hparts
  | extension h kind =>
    have hkind : Reads (unsigned 1) [kind] kind.toNat := by
      have hbyte := reads_unsigned 1 kind.toNat_lt
      rwa [show Writer.bigEndian 1 kind.toNat = [kind] by simp [Writer.bigEndian]] at hbyte
    exact h.reads.bind (hkind.bind ((reads_body _).bind_last (Reads.pure ())))

/-! ## What a reader takes -/

variable {α β : Type} {r r' : Reader α}

/-- A reader that succeeds wherever another one does, and as it does. -/
def Covers (r r' : Reader α) : Prop :=
  ∀ c found, r c = .ok found → r' c = .ok found

namespace Covers

theorem refl (r : Reader α) : Covers r r := fun _ _ h => h

theorem fail (flaw : Flaw) (r : Reader α) : Covers (MessagePack.fail flaw) r := by
  intro c found h
  cases h

theorem bind {f f' : α → Reader β} (hr : Covers r r') (hf : ∀ a, Covers (f a) (f' a)) :
    Covers (r >>= f) (r' >>= f') := by
  intro c found h
  obtain ⟨a, d, hc, hd⟩ := ok_of_bind h
  rw [bind_of_ok (hr c _ hc)]
  exact hf a d found hd

theorem passOver {r r' : Reader Unit} (h : Covers r r') (n : Nat) :
    Covers (MessagePack.passOver r n) (MessagePack.passOver r' n) := by
  induction n with
  | zero => exact refl _
  | succ n ih => exact h.bind fun _ => ih

end Covers

/-- With more levels left a value is passed over as with fewer. By induction on the levels. -/
theorem covers_skipRest {depth deeper : Nat} (h : depth ≤ deeper) (value : Head) :
    Covers (skipRest depth value) (skipRest deeper value) := by
  induction depth generalizing deeper value with
  | zero =>
    by_cases hvalue : value.IsWhole
    · rw [skipRest_whole 0 hvalue, skipRest_whole deeper hvalue]
      exact Covers.refl _
    · cases value <;> first | exact Covers.fail _ _ | exact absurd trivial hvalue
  | succ depth ih =>
    obtain ⟨deeper, rfl⟩ : ∃ n, deeper = n + 1 := ⟨deeper - 1, by omega⟩
    have hpart : Covers (skip depth) (skip deeper) :=
      (Covers.refl head).bind fun part => ih (by omega) part
    cases value with
    | list n => exact hpart.passOver n
    | map n => exact hpart.passOver (2 * n)
    | _ => exact Covers.refl _

theorem covers_skip {depth deeper : Nat} (h : depth ≤ deeper) :
    Covers (skip depth) (skip deeper) :=
  (Covers.refl head).bind fun value => covers_skipRest h value

/-- When a reader of a value succeeds, it has taken what passing over the value takes. -/
def Passes (r : Reader α) : Prop :=
  ∀ c d a, r c = .ok (a, d) → ∃ depth, skip depth c = .ok ((), d)

/-- What is behind a value is what a reader leaves that succeeds on it. -/
theorem Passes.view_eq (h : Passes r) {depth : Nat} {written rest : List UInt8}
    (hvalue : IsValue depth written) {c d : Cursor} {a : α} (hc : c.view = written ++ rest)
    (hr : r c = .ok (a, d)) : d.view = rest := by
  obtain ⟨levels, hskip⟩ := h c d a hr
  obtain ⟨e, he, hrest⟩ := hvalue.reads_skip c rest hc
  have hall := covers_skip (Nat.le_max_left levels depth) c _ hskip
  have hsame := covers_skip (Nat.le_max_right levels depth) c _ he
  rw [hall] at hsame
  cases hsame
  exact hrest

theorem Passes.map {f : α → β} (h : Passes r) : Passes (r >>= fun a => pure (f a)) := by
  intro c e b hr
  obtain ⟨a, d, hc, hd⟩ := ok_of_bind hr
  cases hd
  exact h c _ a hc

/-- A value that was read with its head is passed over with it. -/
theorem skip_of_head {c d : Cursor} {value : Head} (h : head c = .ok (value, d))
    (hvalue : value.IsWhole) (depth : Nat) : skip depth c = .ok ((), d) := by
  unfold skip
  rw [bind_of_ok h, skipRest_whole depth hvalue]
  rfl

theorem not_unwanted_ok {wanted : String} {depth : Nat} {value : Head} {c : Cursor}
    {found : α × Cursor} (h : unwanted wanted depth value c = .ok found) : False := by
  cases value with
  | text data =>
    simp only [unwanted] at h
    generalize Utf8.decode data = text at h
    cases text <;> cases h
  | list _ => cases depth <;> cases h
  | map _ => cases depth <;> cases h
  | extension _ => cases depth <;> cases h
  | _ => cases h

theorem textOfHead_ok {depth : Nat} {value : Head} {c d : Cursor} {s : String}
    (h : textOfHead depth value c = .ok (s, d)) : value.IsWhole ∧ c = d := by
  cases value with
  | text data | bytes data =>
    simp only [textOfHead] at h
    generalize Utf8.decode data = text at h
    cases text <;> cases h
    exact ⟨trivial, rfl⟩
  | _ => simp only [textOfHead] at h; exact (not_unwanted_ok h).elim

theorem passes_text (depth : Nat) : Passes (text depth) := by
  intro c e s h
  obtain ⟨value, d, hc, hd⟩ := ok_of_bind h
  obtain ⟨hvalue, rfl⟩ := textOfHead_ok hd
  exact ⟨0, skip_of_head hc hvalue 0⟩

theorem passes_text? (depth : Nat) : Passes (text? depth) := by
  intro c e s h
  obtain ⟨value, d, hc, hd⟩ := ok_of_bind h
  by_cases hnull : value = .null
  · subst hnull
    cases hd
    exact ⟨0, skip_of_head hc trivial 0⟩
  · have hmap : (some <$> textOfHead depth value) d = .ok (s, e) := by
      cases value <;> first | exact hd | exact absurd rfl hnull
    obtain ⟨s, e, htext, hpure⟩ := ok_of_bind hmap
    cases hpure
    obtain ⟨hvalue, rfl⟩ := textOfHead_ok htext
    exact ⟨0, skip_of_head hc hvalue 0⟩

/-- What is read as a scalar is the head of a value that has nothing behind it. -/
theorem head_of_scalar {c d : Cursor} {value : Head} (h : scalar c = .ok (value, d)) :
    head c = .ok (value, d) ∧ value.IsWhole := by
  obtain ⟨m, d', hc, hd⟩ := ok_of_bind h
  cases hm : scalar? m with
  | none => rw [hm] at hd; cases hd
  | some r =>
    rw [hm] at hd
    refine ⟨?_, ?_⟩
    · unfold head
      rw [bind_of_ok hc, headOf_scalar hm]
      exact hd
    · cases m <;> cases hm <;> first
        | (cases hd; trivial)
        | (obtain ⟨n, e, -, hpure⟩ := ok_of_bind hd; cases hpure; trivial)

theorem skip_of_natural {limit n : Nat} {wanted : String} {c e : Cursor}
    (h : natural limit wanted c = .ok (n, e)) (depth : Nat) : skip depth c = .ok ((), e) := by
  obtain ⟨value, d, hc, hd⟩ := ok_of_bind h
  obtain ⟨hhead, hvalue⟩ := head_of_scalar hc
  have hend : d = e := by
    cases value with
    | unsigned n => simp only at hd; split at hd <;> cases hd; rfl
    | signed n => simp only at hd; split at hd <;> cases hd; rfl
    | _ => exact (not_unwanted_ok hd).elim
  subst hend
  exact skip_of_head hhead hvalue depth

theorem passes_natural (limit : Nat) (wanted : String) : Passes (natural limit wanted) :=
  fun _ _ _ h => ⟨0, skip_of_natural h 0⟩

theorem passOver_of_octetsOnto {n : Nat} {data made : ByteArray} {c e : Cursor}
    (h : octetsOnto data n c = .ok (made, e)) : passOver (skip 0) n c = .ok ((), e) := by
  induction n generalizing data c with
  | zero => cases h; rfl
  | succ n ih =>
    obtain ⟨b, d, hc, hd⟩ := ok_of_bind h
    obtain ⟨k, d, hk, hpure⟩ := ok_of_bind hc
    cases hpure
    have hfirst : (skip 0 >>= fun _ => passOver (skip 0) n) c = .ok ((), e) := by
      rw [bind_of_ok (skip_of_natural hk 0)]
      exact ih hd
    exact hfirst

theorem passes_bytes (depth : Nat) : Passes (bytes depth) := by
  intro c e data h
  obtain ⟨value, d, hc, hd⟩ := ok_of_bind h
  cases value with
  | bytes data => cases hd; exact ⟨0, skip_of_head hc trivial 0⟩
  | text data => cases hd; exact ⟨0, skip_of_head hc trivial 0⟩
  | list n =>
    cases depth with
    | zero => cases hd
    | succ depth =>
      refine ⟨1, ?_⟩
      unfold skip
      rw [bind_of_ok hc]
      exact passOver_of_octetsOnto hd
  | _ => exact (not_unwanted_ok hd).elim

end Switchboard.MessagePack
