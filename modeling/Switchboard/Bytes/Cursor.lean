/-!
# Reading bytes in order

A cursor is a place in a byte sequence. `view` is what lies ahead of it, and the two ways to move
on, one byte or a run of them, are determined by the view.
-/

namespace Switchboard

/-- A place in a byte sequence. -/
structure Cursor where
  bytes : ByteArray
  pos : Nat := 0

namespace Cursor

def view (c : Cursor) : List UInt8 :=
  c.bytes.data.toList.drop c.pos

def remaining (c : Cursor) : Nat :=
  c.bytes.size - c.pos

def next? (c : Cursor) : Option (UInt8 × Cursor) :=
  if h : c.pos < c.bytes.size then some (c.bytes[c.pos], { c with pos := c.pos + 1 }) else none

def take? (n : Nat) (c : Cursor) : Option (ByteArray × Cursor) :=
  if n ≤ c.remaining then
    some (c.bytes.extract c.pos (c.pos + n), { c with pos := c.pos + n })
  else none

theorem next?_eq_none_iff {c : Cursor} : c.next? = none ↔ c.view = [] := by
  simp only [next?, view]
  split
  · next h =>
    simp only [reduceCtorEq, false_iff, List.drop_eq_nil_iff, Nat.not_le]
    exact h
  · next h =>
    simp only [true_iff, List.drop_eq_nil_iff]
    exact Nat.not_lt.1 h

theorem view_of_next? {c d : Cursor} {b : UInt8} (h : c.next? = some (b, d)) :
    c.view = b :: d.view := by
  simp only [next?] at h
  split at h
  · next hp =>
    simp only [Option.some.injEq, Prod.mk.injEq] at h
    obtain ⟨rfl, rfl⟩ := h
    have hl : c.pos < c.bytes.data.toList.length := hp
    simp only [view]
    rw [List.drop_eq_getElem_cons hl]
    rfl
  · simp at h

theorem length_view (c : Cursor) : c.view.length = c.remaining := by
  simp only [view, List.length_drop, remaining]
  rfl

theorem take?_eq_none_iff {c : Cursor} {n : Nat} : c.take? n = none ↔ c.view.length < n := by
  rw [length_view]
  simp only [take?]
  split
  · next h => simp only [reduceCtorEq, false_iff, Nat.not_lt, h]
  · next h => simp only [Nat.lt_of_not_le h]

theorem view_of_take? {c d : Cursor} {n : Nat} {data : ByteArray} (h : c.take? n = some (data, d)) :
    data.size = n ∧ c.view = data.data.toList ++ d.view := by
  simp only [take?] at h
  split at h
  · next hn =>
    simp only [Option.some.injEq, Prod.mk.injEq] at h
    obtain ⟨rfl, rfl⟩ := h
    simp only [remaining] at hn
    refine ⟨by rw [ByteArray.size_extract]; omega, ?_⟩
    simp only [view, ByteArray.data_extract, Array.toList_extract, List.extract,
      Nat.add_sub_cancel_left]
    rw [← List.drop_drop, List.take_append_drop]
  · simp at h

end Cursor

end Switchboard
