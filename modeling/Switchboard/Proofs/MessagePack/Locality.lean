import Switchboard.Proofs.MessagePack.Reading

/-!
# Readers look at nothing but what they take

`Local r` says that what a reader makes of some bytes it makes of them whatever stands behind
them: every reader of values is local, since it is put together from those of a marker, of a number
and of a body (`Local.bind`). So a local reader that reads all of what was written cannot do with
less of it (`Local.cut`).
-/

namespace Switchboard.MessagePack

/-- When a reader succeeds, it has taken some bytes, and what it makes of them does not depend on
what stands behind. -/
def Local {α : Type} (r : Reader α) : Prop :=
  ∀ (c d : Cursor) (a : α), r c = .ok (a, d) →
    ∃ taken, c.view = taken ++ d.view ∧ Reads r taken a

variable {α β : Type} {r : Reader α}

namespace Local

theorem pure (a : α) : Local (Pure.pure a) := by
  intro c d b h
  cases h
  exact ⟨[], rfl, Reads.pure a⟩

theorem fail (flaw : Flaw) : Local (fail flaw : Reader α) := by
  intro c d a h
  cases h

theorem bind {f : α → Reader β} (hr : Local r) (hf : ∀ a, Local (f a)) : Local (r >>= f) := by
  intro c e b h
  obtain ⟨a, d, hc, hd⟩ := ok_of_bind h
  obtain ⟨first, hfirst, hreads⟩ := hr c d a hc
  obtain ⟨second, hsecond, hlater⟩ := hf a d e b hd
  refine ⟨first ++ second, ?_, hreads.bind hlater⟩
  rw [hfirst, hsecond, List.append_assoc]

theorem map (f : α → β) (hr : Local r) : Local (f <$> r) :=
  hr.bind fun a => pure (f a)

theorem ite {p : Prop} [Decidable p] {r' : Reader α} (h : Local r) (h' : Local r') :
    Local (if p then r else r') := by
  by_cases hp : p
  · rw [if_pos hp]; exact h
  · rw [if_neg hp]; exact h'

/-- **A local reader cannot do with less.** Of a beginning of what it reads, with nothing behind, it
makes nothing. -/
theorem cut {written : List UInt8} {a : α} (h : Local r) (hr : Reads r written a) (c : Cursor)
    {n : Nat} (hn : n < written.length) (hc : c.view = written.take n) :
    ∃ flaw, r c = .error flaw := by
  cases hresult : r c with
  | error flaw => exact ⟨flaw, rfl⟩
  | ok found =>
    obtain ⟨b, d⟩ := found
    obtain ⟨taken, hview, htaken⟩ := h c d b hresult
    -- With all of it in view the reader would stop early, and not at the end.
    let whole : Cursor := ⟨⟨written.toArray⟩, 0⟩
    have hwhole : whole.view = written := List.drop_zero
    have hsplit : whole.view = taken ++ (d.view ++ written.drop n) := by
      rw [hwhole, ← List.append_assoc, ← hview, hc, List.take_append_drop]
    obtain ⟨early, hearly, hleft⟩ := htaken whole _ hsplit
    obtain ⟨last, hlast, hnone⟩ := hr whole [] (by rw [hwhole, List.append_nil])
    rw [hearly] at hlast
    cases hlast
    have hlength := congrArg List.length (hleft.symm.trans hnone)
    simp only [List.length_append, List.length_drop, List.length_nil] at hlength
    omega

end Local

/-! ## Bytes and numbers -/

theorem local_marker : Local marker := by
  intro c d m h
  unfold marker at h
  cases hn : c.next? with
  | none => rw [hn] at h; cases h
  | some next =>
    obtain ⟨b, c'⟩ := next
    rw [hn] at h
    cases h
    exact ⟨[b], Cursor.view_of_next? hn, reads_marker b⟩

/-- By induction on the bytes of the number that are left. -/
theorem local_unsignedFrom (value width : Nat) : Local (unsignedFrom value width) := by
  induction width generalizing value with
  | zero => exact Local.pure value
  | succ width ih =>
    intro c e n h
    unfold unsignedFrom at h
    cases hn : c.next? with
    | none => rw [hn] at h; cases h
    | some next =>
      obtain ⟨b, d⟩ := next
      rw [hn] at h
      obtain ⟨taken, hview, hreads⟩ := ih _ d e n h
      refine ⟨b :: taken, ?_, fun c' rest hc' => ?_⟩
      · rw [Cursor.view_of_next? hn, hview, List.cons_append]
      · obtain ⟨d', hd', hrest⟩ := next?_of_view hc'
        obtain ⟨e', he', hleft⟩ := hreads d' rest hrest
        refine ⟨e', ?_, hleft⟩
        simp only [unsignedFrom, hd', he']

theorem local_unsigned (width : Nat) : Local (unsigned width) :=
  local_unsignedFrom 0 width

theorem local_signed (width : Nat) : Local (signed width) :=
  (local_unsigned width).bind fun _ => Local.pure _

theorem local_body (n : Nat) : Local (body n) := by
  intro c d data h
  unfold body at h
  cases ht : c.take? n with
  | none => rw [ht] at h; cases h
  | some next =>
    obtain ⟨found, c'⟩ := next
    rw [ht] at h
    cases h
    obtain ⟨hsize, hview⟩ := Cursor.view_of_take? ht
    subst hsize
    exact ⟨_, hview, reads_body data⟩

/-! ## Heads -/

theorem local_scalar {m : Marker} {r : Reader Head} (h : scalar? m = some r) : Local r := by
  cases m <;> cases h <;>
    first
    | exact Local.pure _
    | exact (local_unsigned _).map _
    | exact (local_signed _).map _

theorem local_sized (m : Marker) : Local (sized m) := by
  cases m <;>
    first
    | exact Local.pure _
    | exact Local.fail _
    | exact (local_body _).map _
    | exact (local_unsigned _).map _
    | exact (local_unsigned _).bind fun _ => (local_body _).map _

theorem local_headOf (m : Marker) : Local (headOf m) := by
  unfold headOf
  cases h : scalar? m with
  | none => exact local_sized m
  | some r => exact local_scalar h

theorem local_head : Local head :=
  local_marker.bind local_headOf

theorem local_scalarHead : Local scalar := by
  refine local_marker.bind fun m => ?_
  cases h : scalar? m with
  | none => exact Local.fail _
  | some r => exact local_scalar h

theorem local_within (depth : Nat) {inner : Nat → Reader α} (h : ∀ depth, Local (inner depth)) :
    Local (within depth inner) := by
  cases depth with
  | zero => exact Local.fail _
  | succ depth => exact h depth

theorem local_unwanted (wanted : String) (depth : Nat) (head : Head) :
    Local (unwanted wanted depth head : Reader α) := by
  cases head with
  | text data =>
    simp only [unwanted]
    cases Utf8.decode data with
    | ok text => exact Local.fail _
    | error flaw => exact Local.fail _
  | list _ => exact local_within depth fun _ => Local.fail _
  | map _ => exact local_within depth fun _ => Local.fail _
  | extension _ => exact local_within depth fun _ => Local.fail _
  | _ => exact Local.fail _

/-! ## Values that are passed over -/

theorem local_passOver {r : Reader Unit} (h : Local r) (n : Nat) : Local (passOver r n) := by
  induction n with
  | zero => exact Local.pure ()
  | succ n ih => exact h.bind fun _ => ih

theorem local_skipRest (depth : Nat) (value : Head) : Local (skipRest depth value) := by
  induction depth generalizing value with
  | zero =>
    cases value <;>
      first
      | exact Local.fail _
      | exact Local.pure ()
  | succ depth ih =>
    cases value with
    | list n => exact local_passOver (local_head.bind ih) n
    | map n => exact local_passOver (local_head.bind ih) (2 * n)
    | extension n =>
      exact (local_unsigned 1).bind fun _ => (local_body n).bind fun _ => Local.pure ()
    | _ => exact Local.pure ()

theorem local_skip (depth : Nat) : Local (skip depth) :=
  local_head.bind (local_skipRest depth)

/-! ## Values -/

theorem local_textOfHead (depth : Nat) (head : Head) : Local (textOfHead depth head) := by
  cases head with
  | text data =>
    simp only [textOfHead]
    cases Utf8.decode data with
    | ok text => exact Local.pure text
    | error flaw => exact Local.fail _
  | bytes data =>
    simp only [textOfHead]
    cases Utf8.decode data with
    | ok text => exact Local.pure text
    | error flaw => exact Local.fail _
  | _ => simp only [textOfHead, local_unwanted]

theorem local_text (depth : Nat) : Local (text depth) :=
  local_head.bind (local_textOfHead depth)

theorem local_text? (depth : Nat) : Local (text? depth) := by
  refine local_head.bind fun head => ?_
  cases head with
  | null => exact Local.pure none
  | _ => exact (local_textOfHead depth _).map some

theorem local_natural (limit : Nat) (wanted : String) : Local (natural limit wanted) := by
  refine local_scalarHead.bind fun head => ?_
  cases head with
  | unsigned n => exact Local.ite (Local.pure n) (Local.fail _)
  | signed n => exact Local.ite (Local.pure n.toNat) (Local.fail _)
  | _ => exact local_unwanted _ _ _

theorem local_octetsOnto (data : ByteArray) (n : Nat) : Local (octetsOnto data n) := by
  induction n generalizing data with
  | zero => exact Local.pure data
  | succ n ih => exact ((local_natural 256 "u8").map _).bind fun b => ih (data.push b)

theorem local_bytes (depth : Nat) : Local (bytes depth) := by
  refine local_head.bind fun head => ?_
  cases head with
  | bytes data => exact Local.pure data
  | text data => exact Local.pure data
  | list n => exact local_within depth fun _ => local_octetsOnto _ n
  | _ => exact local_unwanted _ _ _

theorem local_octetsFor (wanted : String) (data : ByteArray) {empty : Reader α}
    (h : Local empty) : Local (octetsFor wanted data empty) := by
  unfold octetsFor
  cases data.data[0]? with
  | none => exact h
  | some b => exact Local.fail _

theorem local_listOnto (h : Local r) (done : List α) (n : Nat) : Local (listOnto r done n) := by
  induction n generalizing done with
  | zero => exact Local.pure done.reverse
  | succ n ih => exact h.bind fun a => ih (a :: done)

theorem local_list (wanted : String) {element : Nat → Reader α}
    (h : ∀ depth, Local (element depth)) (depth : Nat) : Local (list wanted element depth) := by
  refine local_head.bind fun head => ?_
  cases head with
  | list n => exact local_within depth fun depth => local_listOnto (h depth) [] n
  | bytes data => exact local_octetsFor wanted data (Local.pure [])
  | _ => exact local_unwanted _ _ _

/-! ## Records -/

namespace Record

variable {shape : Record α} (hstore : ∀ depth field a, Local (shape.store depth field a))

theorem local_key (shape : Record α) (depth : Nat) : Local (shape.key depth) := by
  refine local_head.bind fun head => ?_
  cases head with
  | unsigned n => exact Local.pure _
  | text data => exact Local.pure _
  | bytes data => exact Local.pure _
  | _ => exact local_unwanted _ _ _

include hstore

theorem local_entriesOnto (depth : Nat) (seen : List Nat) (a : α) (n : Nat) :
    Local (shape.entriesOnto depth seen a n) := by
  induction n generalizing seen a with
  | zero =>
    unfold entriesOnto
    cases shape.missing? seen with
    | none => exact Local.pure a
    | some field => exact Local.fail _
  | succ n ih =>
    refine (local_key shape depth).bind fun field? => ?_
    cases field? with
    | none => exact (local_skip depth).bind fun _ => ih seen a
    | some field =>
      exact Local.ite (Local.fail _) ((hstore depth field a).bind fun a => ih (field :: seen) a)

theorem local_elementsOnto (depth n field : Nat) (a : α) (more : Nat) :
    Local (shape.elementsOnto depth n field a more) := by
  induction more generalizing n field a with
  | zero => exact Local.ite (Local.fail _) (Local.pure a)
  | succ more ih =>
    exact Local.ite ((hstore depth field a).bind fun a => ih (n - 1) (field + 1) a)
      (Local.ite (Local.fail _) (Local.pure a))

theorem local_read (depth : Nat) : Local (shape.read depth) := by
  refine local_head.bind fun head => ?_
  cases head with
  | map n => exact local_within depth fun depth => local_entriesOnto hstore depth [] _ n
  | list n => exact local_within depth fun depth => local_elementsOnto hstore depth n 0 _ _
  | bytes data => exact local_octetsFor _ data (Local.fail _)
  | _ => exact local_unwanted _ _ _

end Record

theorem decode_cut_of_reads {read : Nat → Reader α} {data : ByteArray} {a : α}
    (h : Local (read maxDepth)) (hr : Reads (read maxDepth) (Switchboard.bytesOf data) a) {n : Nat}
    (hn : n < data.size) : ∃ flaw, decode read (data.extract 0 n) = .error flaw := by
  obtain ⟨flaw, hflaw⟩ := h.cut hr ⟨data.extract 0 n, 0⟩ (n := n) (by rwa [length_bytesOf])
    (by rw [Cursor.view, List.drop_zero]; exact bytesOf_beginning data n)
  exact ⟨flaw, by unfold decode; rw [hflaw]; rfl⟩

end Switchboard.MessagePack
