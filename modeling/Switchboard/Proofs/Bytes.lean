/-!
# Pieces of byte sequences

Cutting a byte sequence into pieces and putting it together again. Everything that travels in
pieces is compared with the whole through `joined` and through the beginnings
`data.extract 0 n` of a sequence.
-/

namespace Switchboard

def joined (chunks : List ByteArray) : ByteArray :=
  chunks.foldr (· ++ ·) ByteArray.empty

@[simp] theorem joined_nil : joined [] = ByteArray.empty := rfl

@[simp] theorem joined_cons (chunk : ByteArray) (chunks : List ByteArray) :
    joined (chunk :: chunks) = chunk ++ joined chunks := rfl

theorem joined_append (chunks more : List ByteArray) :
    joined (chunks ++ more) = joined chunks ++ joined more := by
  induction chunks with
  | nil => simp
  | cons chunk chunks ih => simp [ih, ByteArray.append_assoc]

abbrev bytesOf (data : ByteArray) : List UInt8 :=
  data.data.toList

@[simp] theorem bytesOf_append (a b : ByteArray) : bytesOf (a ++ b) = bytesOf a ++ bytesOf b := by
  simp [bytesOf]

@[simp] theorem length_bytesOf (a : ByteArray) : (bytesOf a).length = a.size := by
  simp [bytesOf]

theorem bytesOf_inj {a b : ByteArray} (h : bytesOf a = bytesOf b) : a = b :=
  ByteArray.ext (Array.toList_inj.1 h)

theorem bytesOf_extract (a : ByteArray) (i j : Nat) :
    bytesOf (a.extract i j) = ((bytesOf a).take j).drop i := by
  simp [bytesOf, List.extract_eq_drop_take', ByteArray.data_extract, Array.toList_extract]

theorem bytesOf_beginning (a : ByteArray) (n : Nat) :
    bytesOf (a.extract 0 n) = (bytesOf a).take n := by
  rw [bytesOf_extract, List.drop_zero]

instance lawfulBEqByteArray : LawfulBEq ByteArray where
  eq_of_beq h := ByteArray.ext (eq_of_beq h)
  rfl {a} := beq_self_eq_true a.data

namespace Bytes

variable {a b : ByteArray} {i j k : Nat}

theorem extract_append_left (h : j ≤ a.size) : (a ++ b).extract i j = a.extract i j := by
  rw [ByteArray.extract_append, show j - a.size = 0 by omega]
  have hb : b.extract (i - a.size) 0 = ByteArray.empty := by
    rw [ByteArray.extract_eq_empty_iff]; omega
  rw [hb, ByteArray.append_empty]

theorem extract_append_to_end (h : i ≤ a.size) :
    (a ++ b).extract i (a ++ b).size = a.extract i a.size ++ b := by
  have ha : (a ++ b).extract i a.size = a.extract i a.size := extract_append_left (Nat.le_refl _)
  have hb : (a ++ b).extract a.size (a ++ b).size = b :=
    ByteArray.extract_append_eq_right rfl ByteArray.size_append
  rw [ByteArray.extract_eq_extract_append_extract a.size h (by rw [ByteArray.size_append]; omega),
    ha, hb]

/-- A beginning that is no shorter than the whole is the whole. -/
theorem extract_zero_of_le (h : a.size ≤ j) : a.extract 0 j = a := by
  have hj : max j a.size = j := by omega
  rw [← hj, ByteArray.extract_zero_max_size]

theorem extract_append_rest : a.extract 0 i ++ a.extract i a.size = a := by
  by_cases h : i ≤ a.size
  · rw [← ByteArray.extract_eq_extract_append_extract i (Nat.zero_le i) h,
      ByteArray.extract_zero_size]
  · have hempty : a.extract i a.size = ByteArray.empty := by
      rw [ByteArray.extract_eq_empty_iff]; omega
    rw [hempty, ByteArray.append_empty, extract_zero_of_le (by omega)]

/-- The next piece after a beginning makes a longer beginning. -/
theorem extract_append_next (h : i ≤ j) : a.extract 0 i ++ a.extract i j = a.extract 0 j :=
  (ByteArray.extract_eq_extract_append_extract i (Nat.zero_le i) h).symm

theorem extract_extract_zero (h : j ≤ k) : (a.extract 0 k).extract i j = a.extract i j := by
  rw [ByteArray.extract_extract, Nat.zero_add, Nat.zero_add, Nat.min_eq_left h]

theorem eq_beginning_of_append {c : ByteArray} (h : a ++ b = c) : a = c.extract 0 a.size := by
  rw [← h, extract_append_left (Nat.le_refl _), ByteArray.extract_zero_size]

end Bytes

end Switchboard
