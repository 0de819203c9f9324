import Mathlib.Data.List.Forall2
import Switchboard.Json.Reader
import Switchboard.Json.Writer

/-!
# Reading what was written as JSON

`Reads r ahead a rest` says that a reader makes `a` of the characters ahead and leaves `rest` of
them, wherever they stand in their text. Readers in a row are followed by `Reads.bind`.

Every character of a text is read as itself, however it is spelled (`Spells`), and the digits of a
number are read as that number if what stands behind them `Closes` it: they say nowhere that they
are the last ones.
-/

namespace Switchboard.Json

/-- A reader makes `a` of the characters ahead, and leaves `rest` of them. -/
def Reads {α : Type} (r : Reader α) (ahead : List Char) (a : α) (rest : List Char) : Prop :=
  ∀ place, ∃ after, r ⟨ahead, place⟩ = .ok (a, ⟨rest, after⟩)

variable {α β : Type} {r : Reader α} {a : α} {b : β} {ahead later rest : List Char} {c d : Char}

theorem bind_apply (r : Reader α) (f : α → Reader β) (s : Scanner) :
    (r >>= f) s =
      match r s with
      | .error flaw => .error flaw
      | .ok (a, s) => f a s :=
  rfl

namespace Reads

theorem pure (a : α) (rest : List Char) : Reads (Pure.pure a) rest a rest :=
  fun place => ⟨place, rfl⟩

theorem bind {f : α → Reader β} (hr : Reads r ahead a later) (hf : Reads (f a) later b rest) :
    Reads (r >>= f) ahead b rest := by
  intro place
  obtain ⟨between, hbetween⟩ := hr place
  obtain ⟨after, hafter⟩ := hf between
  refine ⟨after, ?_⟩
  rw [bind_apply, hbetween]
  exact hafter

theorem map (f : α → β) (hr : Reads r ahead a rest) : Reads (f <$> r) ahead (f a) rest :=
  hr.bind (pure (f a) rest)

end Reads

/-! ## Single characters -/

theorem reads_peek (ahead : List Char) : Reads peek ahead ahead.head? ahead :=
  fun place => ⟨place, rfl⟩

theorem reads_advance (c : Char) (rest : List Char) : Reads advance (c :: rest) () rest :=
  fun place => ⟨place.past c, rfl⟩

theorem reads_peekInText (c : Char) (rest : List Char) :
    Reads peekInText (c :: rest) c (c :: rest) :=
  (reads_peek (c :: rest)).bind (.pure c _)

theorem reads_peekToken (h : isSpace c = false) (rest : List Char) :
    Reads peekToken (c :: rest) (some c) (c :: rest) := by
  intro place
  have hhere : Scanner.afterSpaces ⟨c :: rest, place⟩ = ⟨c :: rest, place⟩ := by
    simp only [Scanner.afterSpaces, Scanner.afterSpaces.go, h, Bool.false_eq_true, if_false]
  exact ⟨place, by simp only [peekToken, hhere, List.head?_cons]⟩

theorem reads_peekValue (h : isSpace c = false) (rest : List Char) :
    Reads peekValue (c :: rest) c (c :: rest) :=
  (reads_peekToken h rest).bind (.pure c _)

theorem reads_punctuation (h : isSpace c = false) (cause atEnd : Cause) (rest : List Char) :
    Reads (punctuation c cause atEnd) (c :: rest) () rest := by
  refine (reads_peekToken h rest).bind ?_
  simp only [if_true]
  exact reads_advance c rest

/-! ## Texts -/

/-- Four hexadecimal digits, in either case, and the number that they write. -/
inductive HexForm : Nat → List Char → Prop
  | digits {a b c d : Char} {a' b' c' d' : Nat} (ha : hexValue? a = some a')
    (hb : hexValue? b = some b') (hc : hexValue? c = some c') (hd : hexValue? d = some d') :
    HexForm (((a' * 16 + b') * 16 + c') * 16 + d') [a, b, c, d]

/-- The ways in which a character may stand in a text: as itself, escaped by a letter or by its
number, or, beyond the first plane, escaped by a pair of numbers. -/
inductive Spells : Char → List Char → Prop
  | plain {c : Char} (hprints : ¬ c.toNat < 0x20) (hopen : c ≠ '"') (hplain : c ≠ '\\') :
    Spells c [c]
  | letter {c d : Char} (h : letterEscape? d = some c) : Spells c ['\\', d]
  | number {n : Nat} {ds : List Char} (h : HexForm n ds) (hwhole : n < 0xD800 ∨ 0xDFFF < n) :
    Spells (Char.ofNat n) ('\\' :: 'u' :: ds)
  | pair {n m : Nat} {ds es : List Char} (hhigh : HexForm n ds) (hn : 0xD800 ≤ n ∧ n ≤ 0xDBFF)
    (hlow : HexForm m es) (hm : 0xDC00 ≤ m ∧ m ≤ 0xDFFF) :
    Spells (Char.ofNat ((n - 0xD800) * 1024 + (m - 0xDC00) + 0x10000))
      ('\\' :: 'u' :: (ds ++ '\\' :: 'u' :: es))

def TextForm (s : String) (written : List Char) : Prop :=
  ∃ pieces, List.Forall₂ Spells s.toList pieces ∧ written = '"' :: (pieces.flatten ++ ['"'])

theorem utf8Size_of_hexValue? {n : Nat} (h : hexValue? c = some n) : c.utf8Size = 1 := by
  rw [Char.utf8Size_eq_one_iff]
  unfold hexValue? at h
  split at h
  · rename_i hc
    exact UInt32.le_trans hc.2 (by decide)
  · split at h
    · rename_i hc
      exact UInt32.le_trans hc.2 (by decide)
    · split at h
      · rename_i hc
        exact UInt32.le_trans hc.2 (by decide)
      · cases h

theorem HexForm.reads {n : Nat} {ds : List Char} (h : HexForm n ds) (rest : List Char) :
    Reads hexEscape (ds ++ rest) n rest := by
  obtain @⟨a, b, c, d, _, _, _, _, ha, hb, hc, hd⟩ := h
  intro place
  refine ⟨[a, b, c, d].foldl Place.past place, ?_⟩
  simp only [hexEscape, List.cons_append, List.nil_append, List.take_succ_cons, List.take_zero,
    List.map_cons, List.map_nil, utf8Size_of_hexValue? ha, utf8Size_of_hexValue? hb,
    utf8Size_of_hexValue? hc, utf8Size_of_hexValue? hd, ha, hb, hc, hd]
  rfl

theorem reads_letter (h : letterEscape? d = some c) (rest : List Char) :
    Reads escape (d :: rest) c rest := by
  have hletter : d ≠ 'u' := by
    intro hd
    subst hd
    cases h
  refine (reads_peekInText d rest).bind ?_
  simp only [if_neg hletter, h]
  exact (reads_advance d rest).bind (.pure c rest)

theorem reads_unicode (h : Reads unicodeEscape ahead c rest) :
    Reads escape ('u' :: ahead) c rest := by
  refine (reads_peekInText 'u' ahead).bind ?_
  simp only [if_true]
  exact (reads_advance 'u' ahead).bind h

theorem reads_secondHalf (c : Char) (rest : List Char) :
    Reads (secondHalf c) (c :: rest) () rest := by
  refine (reads_peekInText c rest).bind ?_
  simp only [if_true]
  exact reads_advance c rest

section TextOnto

variable {done : List Char} {fuel : Nat} {s : String} {w : List Char}

theorem reads_escaped (hescape : Reads escape ahead c later)
    (hlater : Reads (textOnto (c :: done) fuel) later s rest) :
    Reads (textOnto done (fuel + 1)) ('\\' :: ahead) s rest := by
  have hprints : ¬ '\\'.toNat < 0x20 := by decide
  have hopen : '\\' ≠ '"' := by decide
  refine (reads_peekInText '\\' ahead).bind ?_
  simp only [if_neg hprints]
  refine (reads_advance '\\' ahead).bind ?_
  simp only [if_neg hopen, if_true]
  exact hescape.bind hlater

theorem Spells.reads (h : Spells c w) (hlater : Reads (textOnto (c :: done) fuel) later s rest) :
    Reads (textOnto done (fuel + 1)) (w ++ later) s rest := by
  cases h with
  | plain hprints hopen hplain =>
    refine (reads_peekInText c later).bind ?_
    simp only [if_neg hprints]
    refine (reads_advance c later).bind ?_
    simp only [if_neg hopen, if_neg hplain]
    exact hlater
  | letter h => exact reads_escaped (reads_letter h later) hlater
  | @number n ds h hwhole =>
    refine reads_escaped (reads_unicode ((h.reads later).bind ?_)) hlater
    have hlone : ¬ (0xDC00 ≤ n ∧ n ≤ 0xDFFF) := by omega
    have hplain : n < 0xD800 ∨ 0xDBFF < n := by omega
    simp only [if_neg hlone, if_pos hplain]
    exact .pure _ later
  | @pair n m ds es hhigh hn hlow hm =>
    have hescape : Reads unicodeEscape (ds ++ ('\\' :: 'u' :: (es ++ later)))
        (Char.ofNat ((n - 0xD800) * 1024 + (m - 0xDC00) + 0x10000)) later := by
      refine (hhigh.reads _).bind ?_
      have hlone : ¬ (0xDC00 ≤ n ∧ n ≤ 0xDFFF) := by omega
      have hpair : ¬ (n < 0xD800 ∨ 0xDBFF < n) := by omega
      have hsecond : ¬ (m < 0xDC00 ∨ 0xDFFF < m) := by omega
      simp only [if_neg hlone, if_neg hpair]
      refine (reads_secondHalf '\\' _).bind ((reads_secondHalf 'u' _).bind ?_)
      refine (hlow.reads later).bind ?_
      simp only [if_neg hsecond]
      exact .pure _ later
    have hreads := reads_escaped (reads_unicode hescape) hlater
    simpa only [List.cons_append, List.append_assoc] using hreads

theorem reads_textOnto_end (done : List Char) (fuel : Nat) (rest : List Char) :
    Reads (textOnto done (fuel + 1)) ('"' :: rest) (String.ofList done.reverse) rest := by
  have hprints : ¬ '"'.toNat < 0x20 := by decide
  refine (reads_peekInText '"' rest).bind ?_
  simp only [if_neg hprints]
  refine (reads_advance '"' rest).bind ?_
  simp only [if_true]
  exact .pure _ rest

theorem reads_textOnto {chars : List Char} {pieces : List (List Char)}
    (hpieces : List.Forall₂ Spells chars pieces) (h : chars.length < fuel) (done rest : List Char) :
    Reads (textOnto done fuel) (pieces.flatten ++ '"' :: rest)
      (String.ofList (done.reverse ++ chars)) rest := by
  induction hpieces generalizing done fuel with
  | nil =>
    obtain ⟨fuel, rfl⟩ := Nat.exists_eq_add_of_lt h
    simp only [List.append_nil, List.flatten_nil, List.nil_append]
    exact reads_textOnto_end done _ rest
  | @cons c piece chars pieces hpiece _ ih =>
    rw [List.length_cons] at h
    obtain ⟨fuel, rfl⟩ := Nat.exists_eq_add_of_lt h
    have hless : chars.length < chars.length + 1 + fuel := by omega
    have hlater := ih hless (c :: done)
    rw [List.reverse_cons, List.append_assoc, List.singleton_append] at hlater
    rw [List.flatten_cons, List.append_assoc]
    exact hpiece.reads hlater

end TextOnto

theorem Spells.length_pos {w : List Char} (h : Spells c w) : 0 < w.length := by
  cases h <;> exact Nat.succ_pos _

theorem length_le_flatten {chars : List Char} {pieces : List (List Char)}
    (h : List.Forall₂ Spells chars pieces) : chars.length ≤ pieces.flatten.length := by
  induction h with
  | nil => exact Nat.zero_le _
  | cons hpiece _ ih =>
    have hone := hpiece.length_pos
    rw [List.flatten_cons, List.length_append, List.length_cons]
    omega

/-- A text is read in each of its forms, from behind its opening quote. -/
theorem TextForm.reads {s : String} {written : List Char} (h : TextForm s written) :
    ∃ behind, written = '"' :: behind ∧ ∀ rest, Reads text (behind ++ rest) s rest := by
  obtain ⟨pieces, hpieces, rfl⟩ := h
  refine ⟨pieces.flatten ++ ['"'], rfl, fun rest place => ?_⟩
  have hlength := length_le_flatten hpieces
  have hfuel : s.toList.length < (pieces.flatten ++ ['"'] ++ rest).length + 1 := by
    rw [List.length_append, List.length_append]
    omega
  have hahead : pieces.flatten ++ '"' :: rest = pieces.flatten ++ ['"'] ++ rest := by
    rw [List.append_assoc, List.singleton_append]
  have hreads := reads_textOnto hpieces hfuel [] rest
  rw [List.reverse_nil, List.nil_append, String.ofList_toList, hahead] at hreads
  exact hreads place

/-! A written text is spelled so that no control character stands in it. -/

theorem hexValue?_hexDigit : ∀ n < 16, hexValue? (hexDigit n) = some n := by decide

theorem spells_escaped (c : Char) : Spells c (escaped c) := by
  unfold escaped
  split
  · exact .letter rfl
  · exact .letter rfl
  · exact .letter rfl
  · exact .letter rfl
  · exact .letter rfl
  · exact .letter rfl
  · exact .letter rfl
  · rename_i hopen hplain _ _ _ _ _
    split
    · rename_i hcontrol
      have hzero : hexValue? '0' = some 0 := by decide
      have hspells := Spells.number (.digits hzero hzero
        (hexValue?_hexDigit (c.toNat / 16) (by omega))
        (hexValue?_hexDigit (c.toNat % 16) (by omega))) (by omega)
      have hvalue : ((0 * 16 + 0) * 16 + c.toNat / 16) * 16 + c.toNat % 16 = c.toNat := by omega
      rw [hvalue, Char.ofNat_toNat] at hspells
      exact hspells
    · rename_i hprints
      exact .plain hprints hopen hplain

theorem quote_form (s : String) : TextForm s (quote s) := by
  refine ⟨s.toList.map escaped, ?_, ?_⟩
  · rw [List.forall₂_map_right_iff, List.forall₂_same]
    exact fun c _ => spells_escaped c
  · rw [quote, List.flatMap_def]

/-! ## Numbers -/

/-- What may stand behind a number: nothing that the number would go on with. -/
def Closes (rest : List Char) : Prop :=
  ∀ c ∈ rest.head?, isDigit c = false ∧ c ≠ '.' ∧ c ≠ 'e' ∧ c ≠ 'E'

theorem closes_nil : Closes [] := by
  intro c hc
  cases hc

theorem closes_cons (h : isDigit c = false ∧ c ≠ '.' ∧ c ≠ 'e' ∧ c ≠ 'E') (rest : List Char) :
    Closes (c :: rest) := by
  intro d hd
  cases hd
  exact h

theorem isDigit_of_mem_writeNat {n : Nat} (h : c ∈ writeNat n) : isDigit c = true := by
  have hdigit := Nat.isDigit_of_mem_toDigits (by decide) (by decide) h
  simp only [Char.isDigit, Bool.and_eq_true, decide_eq_true_eq] at hdigit
  simp only [isDigit, Bool.and_eq_true, decide_eq_true_eq]
  exact hdigit

theorem head?_writeNat (n : Nat) : (writeNat n).head? = some '0' → n = 0 := by
  induction n using Nat.strongRecOn with
  | ind n ih =>
    unfold writeNat at ih ⊢
    by_cases hn : n < 10
    · rw [Nat.toDigits_of_lt_base hn, List.head?_cons, Option.some.injEq]
      exact Nat.digitChar_eq_zero.1
    · intro hzero
      rw [Nat.toDigits_of_base_le (by decide) (by omega), List.head?_append] at hzero
      have hsome : (Nat.toDigits 10 (n / 10)).head?.isSome = true :=
        List.isSome_head?.2 Nat.toDigits_ne_nil
      rw [Option.or_of_isSome hsome] at hzero
      have := ih (n / 10) (by omega) hzero
      omega

theorem accumulate_eq {n : Nat} {ds : List Char} (h : Nat.ofDigitChars 10 ds n < 2 ^ 64) :
    accumulate n ds = (Nat.ofDigitChars 10 ds n, []) := by
  induction ds generalizing n with
  | nil => rfl
  | cons d ds ih =>
    have hnext : 10 * n + (d.toNat - '0'.toNat) = n * 10 + digit d := by
      rw [Nat.mul_comm]
      rfl
    rw [Nat.ofDigitChars_cons, hnext] at h ⊢
    have hle : n * 10 + digit d ≤ Nat.ofDigitChars 10 ds (n * 10 + digit d) := by
      rw [Nat.ofDigitChars_eq_ofDigitChars_zero]
      exact Nat.le_add_right_of_le (Nat.le_mul_of_pos_left _ (Nat.pow_pos (by decide)))
    simp only [accumulate, if_pos (Nat.lt_of_le_of_lt hle h)]
    exact ih h

theorem reads_digits {ds : List Char} (hds : ∀ c ∈ ds, isDigit c = true)
    (hrest : ∀ c ∈ rest.head?, isDigit c = false) :
    Reads digits (ds ++ rest) ds rest := by
  have hstop : rest.takeWhile isDigit = [] ∧ rest.dropWhile isDigit = rest := by
    cases rest with
    | nil => exact ⟨rfl, rfl⟩
    | cons c rest =>
      have hc := hrest c rfl
      simp only [List.takeWhile_cons, List.dropWhile_cons, hc, Bool.false_eq_true, if_false,
        and_self]
  intro place
  refine ⟨ds.foldl Place.past place, ?_⟩
  simp only [digits, List.takeWhile_append_of_pos hds, List.dropWhile_append_of_pos hds, hstop.1,
    hstop.2, List.append_nil]

theorem reads_atExponent_end (hrest : Closes rest) : Reads atExponent rest false rest := by
  refine (reads_peek rest).bind ?_
  have hnone : decide (rest.head? = some 'e' ∨ rest.head? = some 'E') = false := by
    simp only [decide_eq_false_iff_not, not_or]
    constructor
    · intro hhead
      exact (hrest 'e' hhead).2.2.1 rfl
    · intro hhead
      exact (hrest 'E' hhead).2.2.2 rfl
  rw [hnone]
  exact .pure false rest

/-- Digits that nothing goes on with write a whole number. -/
theorem reads_numberAfter (n : Nat) (hrest : Closes rest) :
    Reads (numberAfter true n []) rest (.whole n) rest := by
  have hpoint : rest.head? ≠ some '.' := by
    intro hhead
    exact (hrest '.' hhead).2.1 rfl
  refine (reads_peek rest).bind ?_
  simp only [if_neg hpoint]
  refine (reads_atExponent_end hrest).bind ?_
  exact .pure (Number.whole n) rest

theorem reads_number {n : Nat} (h : n < 2 ^ 64) (hrest : Closes rest) :
    Reads number (writeNat n ++ rest) (.whole n) rest := by
  have hdigits : ∀ c ∈ writeNat n, isDigit c = true := fun c hc => isDigit_of_mem_writeNat hc
  have hzero := head?_writeNat n
  have haccumulate : accumulate 0 (writeNat n) = (n, []) := by
    have hvalue : Nat.ofDigitChars 10 (writeNat n) 0 = n :=
      Nat.ofDigitChars_toDigits (by decide) (by decide)
    rw [accumulate_eq (by rw [hvalue]; exact h), hvalue]
  have hall := reads_digits hdigits fun c hc => (hrest c hc).1
  obtain ⟨d, ds, hwritten⟩ := List.exists_cons_of_ne_nil (Nat.toDigits_ne_nil (n := n) (b := 10))
  change writeNat n = d :: ds at hwritten
  rw [hwritten] at hdigits hzero haccumulate hall ⊢
  have hd : isDigit d = true := hdigits d List.mem_cons_self
  have hsign : some d ≠ some '-' := by
    intro heq
    cases heq
    cases hd
  refine (reads_peek (d :: ds ++ rest)).bind ?_
  rw [List.cons_append, List.head?_cons, if_neg hsign]
  refine (reads_peek (d :: (ds ++ rest))).bind ?_
  rw [List.head?_cons]
  split
  · rename_i heq
    cases heq
  · -- a zero stands alone
    rename_i heq
    cases heq
    obtain rfl := hzero rfl
    have hnil : ds = [] := by
      have := congrArg List.length hwritten
      change 1 = ds.length + 1 at this
      exact List.eq_nil_of_length_eq_zero (by omega)
    subst hnil
    refine (reads_advance '0' rest).bind ((reads_peek rest).bind ?_)
    cases rest with
    | nil => exact reads_numberAfter 0 hrest
    | cons e rest =>
      simp only [List.head?_cons, (hrest e rfl).1, Bool.false_eq_true, if_false]
      exact reads_numberAfter 0 hrest
  · rename_i heq
    cases heq
    simp only [hd, if_true]
    refine Reads.bind hall ?_
    rw [haccumulate]
    exact reads_numberAfter n hrest

end Switchboard.Json
