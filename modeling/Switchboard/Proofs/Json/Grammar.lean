import Switchboard.Proofs.Json.Forms

/-!
# Values of any shape

`IsValue` is the grammar of JSON: words, numbers, texts, lists and objects, with spaces around every
part. Passing over a value takes all of its characters and no other ones (`IsValue.reads_skip`).

The reader that passes over a value keeps the brackets that are open in a list and goes on until the
last of them is closed. So what it makes of a value is said with what it makes of the text behind
(`Skips`): if the reading goes on behind the value, and all of it is read, then it is read from the
value on. A list or an object is followed part by part, whatever its bracket is (`SkipsIn`).
-/

namespace Switchboard.Json

/-! ## The grammar -/

def Digits (ds : List Char) : Prop :=
  ds ≠ [] ∧ ∀ d ∈ ds, isDigit d = true

/-- The whole part of a number: it begins with a zero only if it is one. -/
inductive IsWhole : List Char → Prop
  | zero : IsWhole ['0']
  | other {d : Char} {ds : List Char} (hd : isDigit d = true) (hzero : d ≠ '0')
    (hds : ∀ c ∈ ds, isDigit c = true) : IsWhole (d :: ds)

inductive IsFraction : List Char → Prop
  | absent : IsFraction []
  | present {ds : List Char} (h : Digits ds) : IsFraction ('.' :: ds)

inductive IsExponent : List Char → Prop
  | absent : IsExponent []
  | present {e : Char} {sign ds : List Char} (he : e = 'e' ∨ e = 'E')
    (hsign : sign ∈ [[], ['+'], ['-']]) (h : Digits ds) : IsExponent (e :: (sign ++ ds))

inductive IsNumber : List Char → Prop
  | parts {sign whole fraction exponent : List Char} (hsign : sign ∈ [[], ['-']])
    (hwhole : IsWhole whole) (hfraction : IsFraction fraction) (hexponent : IsExponent exponent) :
    IsNumber (sign ++ (whole ++ (fraction ++ exponent)))

/-- A piece of a text. An escape by number may be half of a pair of which the other half is
missing. -/
inductive IsPiece : List Char → Prop
  | plain {c : Char} (hprints : ¬ c.toNat < 0x20) (hopen : c ≠ '"') (hplain : c ≠ '\\') :
    IsPiece [c]
  | letter {d : Char} (h : (letterEscape? d).isSome) : IsPiece ['\\', d]
  | number {n : Nat} {ds : List Char} (h : HexForm n ds) : IsPiece ('\\' :: 'u' :: ds)

inductive IsText : List Char → Prop
  | pieces {pieces : List (List Char)} (h : ∀ piece ∈ pieces, IsPiece piece) :
    IsText ('"' :: (pieces.flatten ++ ['"']))

def memberText (member : Part × Part) : List Char :=
  member.1.written ++ ':' :: member.2.written

/-- An object of keys and values, with spaces before its end. -/
def objectText (members : List (Part × Part)) (space : List Char) : List Char :=
  '\x7b' :: (commaSeparated (members.map memberText) ++ (space ++ ['\x7d']))

inductive IsValue : List Char → Prop
  | word {w : List Char}
    (h : w ∈ [['n', 'u', 'l', 'l'], ['t', 'r', 'u', 'e'], ['f', 'a', 'l', 's', 'e']]) : IsValue w
  | number {w : List Char} (h : IsNumber w) : IsValue w
  | text {w : List Char} (h : IsText w) : IsValue w
  | list {parts : List Part} {space : List Char} (hspaced : ∀ part ∈ parts, part.Spaced)
    (hvalues : ∀ part ∈ parts, IsValue part.value) (hspace : Space space) :
    IsValue (listText parts space)
  | object {members : List (Part × Part)} {space : List Char}
    (hspaced : ∀ member ∈ members, member.1.Spaced ∧ member.2.Spaced)
    (hkeys : ∀ member ∈ members, IsText member.1.value)
    (hvalues : ∀ member ∈ members, IsValue member.2.value) (hspace : Space space) :
    IsValue (objectText members space)

variable {ahead rest final space : List Char} {c d : Char}

/-! ## Numbers -/

theorem reads_atExponent (he : c = 'e' ∨ c = 'E') (rest : List Char) :
    Reads atExponent (c :: rest) true (c :: rest) := by
  refine (reads_peek (c :: rest)).bind ?_
  have hsome : decide ((c :: rest).head? = some 'e' ∨ (c :: rest).head? = some 'E') = true := by
    simpa only [List.head?_cons, Option.some.injEq, decide_eq_true_eq] using he
  rw [hsome]
  exact .pure true _

theorem reads_skipExponent {e : Char} {sign ds : List Char} (hsign : sign ∈ [[], ['+'], ['-']])
    (h : Digits ds) (hrest : Closes rest) :
    Reads skipExponent (e :: (sign ++ (ds ++ rest))) () rest := by
  have hdigits := reads_digits h.2 fun c hc => (hrest c hc).1
  obtain ⟨d, ds, rfl⟩ := List.exists_cons_of_ne_nil h.1
  have hd : isDigit d = true := h.2 d List.mem_cons_self
  have hlast : Reads (digits >>= fun _ => pure ()) (d :: ds ++ rest) () rest :=
    hdigits.bind (.pure () rest)
  refine (reads_advance e _).bind ((reads_peek _).bind ?_)
  -- whether there is a sign or not, the digits are read next
  simp only [List.mem_cons, List.not_mem_nil, or_false] at hsign
  rcases hsign with rfl | rfl | rfl
  · have hplus : d ≠ '+' := by rintro rfl; cases hd
    have hminus : d ≠ '-' := by rintro rfl; cases hd
    simp only [List.nil_append, List.cons_append, List.head?_cons, Option.some.injEq, hplus, hminus,
      or_self, if_false]
    refine (reads_peek _).bind ?_
    simpa only [List.cons_append, List.head?_cons, hd, if_true] using hlast
  · refine (reads_advance '+' (d :: (ds ++ rest))).bind ((reads_peek _).bind ?_)
    simpa only [List.cons_append, List.head?_cons, hd, if_true] using hlast
  · refine (reads_advance '-' (d :: (ds ++ rest))).bind ((reads_peek _).bind ?_)
    simpa only [List.cons_append, List.head?_cons, hd, if_true] using hlast

theorem IsExponent.reads {exponent : List Char} (h : IsExponent exponent) (hrest : Closes rest) :
    Reads (atExponent >>= fun more => if more then skipExponent else pure ()) (exponent ++ rest) ()
      rest := by
  cases h with
  | absent => exact (reads_atExponent_end hrest).bind (.pure () rest)
  | @present e sign ds he hsign hds =>
    have hexponent := reads_skipExponent (e := e) hsign hds hrest
    rw [List.cons_append, List.append_assoc]
    exact (reads_atExponent he _).bind hexponent

theorem IsExponent.head {exponent : List Char} (h : IsExponent exponent) (hrest : Closes rest) :
    ∀ c ∈ (exponent ++ rest).head?, isDigit c = false ∧ c ≠ '.' := by
  cases h with
  | absent => exact fun c hc => ⟨(hrest c hc).1, (hrest c hc).2.1⟩
  | present he hsign hds =>
    rintro c hc
    cases hc
    rcases he with rfl | rfl <;> decide

theorem IsFraction.reads {fraction exponent : List Char} (h : IsFraction fraction)
    (hexponent : IsExponent exponent) (hrest : Closes rest) :
    Reads skipAfterWhole (fraction ++ (exponent ++ rest)) () rest := by
  have hhead := hexponent.head hrest
  cases h with
  | absent =>
    refine (reads_peek _).bind ?_
    have hpoint : (exponent ++ rest).head? ≠ some '.' := fun hc => (hhead '.' hc).2 rfl
    simp only [List.nil_append, if_neg hpoint]
    exact hexponent.reads hrest
  | @present ds hds =>
    have hdigits := reads_digits hds.2 fun c hc => (hhead c hc).1
    have hsome : ds.isEmpty = false := List.isEmpty_eq_false_iff.2 hds.1
    refine (reads_peek _).bind ?_
    simp only [List.cons_append, List.head?_cons, if_true]
    refine (reads_advance '.' _).bind (hdigits.bind ?_)
    simp only [hsome, Bool.false_eq_true, if_false]
    exact hexponent.reads hrest

theorem IsFraction.head {fraction exponent : List Char} (h : IsFraction fraction)
    (hexponent : IsExponent exponent) (hrest : Closes rest) :
    ∀ c ∈ (fraction ++ (exponent ++ rest)).head?, isDigit c = false := by
  cases h with
  | absent => exact fun c hc => (hexponent.head hrest c hc).1
  | present hds =>
    intro c hc
    cases hc
    decide

/-- What follows the sign of a number is passed over to the end of the number. -/
theorem IsWhole.reads {whole ahead : List Char} (h : IsWhole whole)
    (hlater : Reads skipAfterWhole ahead () rest) (hhead : ∀ c ∈ ahead.head?, isDigit c = false) :
    Reads (peek >>= fun c? =>
      match c? with
      | none => fail .badNumber
      | some '0' => do
        advance
        match ← peek with
        | some c => if isDigit c then failAhead .badNumber else skipAfterWhole
        | none => pure ()
      | some c => if isDigit c then do let _ ← digits; skipAfterWhole else failAhead .badNumber)
      (whole ++ ahead) () rest := by
  refine (reads_peek _).bind ?_
  cases h with
  | zero =>
    refine (reads_advance '0' ahead).bind ((reads_peek ahead).bind ?_)
    cases ahead with
    | nil =>
      -- a zero at the end of a text is all of the number
      obtain ⟨after, hafter⟩ := hlater {}
      cases hafter
      exact .pure () []
    | cons c ahead =>
      simp only [List.head?_cons, hhead c rfl, Bool.false_eq_true, if_false]
      exact hlater
  | @other d ds hd hzero hds =>
    have hall : ∀ c ∈ d :: ds, isDigit c = true := List.forall_mem_cons.2 ⟨hd, hds⟩
    rw [List.cons_append, List.head?_cons]
    split
    · rename_i heq
      cases heq
    · rename_i heq
      exact absurd (Option.some.inj heq) hzero
    · rename_i heq
      cases heq
      simp only [hd, if_true]
      exact (reads_digits hall hhead).bind hlater

theorem IsNumber.reads {w : List Char} (h : IsNumber w) (hrest : Closes rest) :
    Reads skipNumber (w ++ rest) () rest := by
  obtain @⟨sign, whole, fraction, exponent, hsign, hwhole, hfraction, hexponent⟩ := h
  have hbody := hwhole.reads (hfraction.reads hexponent hrest) (hfraction.head hexponent hrest)
  refine (reads_peek _).bind ?_
  simp only [List.mem_cons, List.not_mem_nil, or_false] at hsign
  rcases hsign with rfl | rfl
  · have hminus : (whole ++ (fraction ++ (exponent ++ rest))).head? ≠ some '-' := by
      cases hwhole with
      | zero =>
        intro heq
        cases heq
      | other hd =>
        intro heq
        cases heq
        cases hd
    simp only [List.nil_append, List.append_assoc]
    rw [if_neg hminus]
    exact hbody
  · simp only [List.cons_append, List.nil_append, List.head?_cons, if_true, List.append_assoc]
    exact (reads_advance '-' _).bind hbody

/-! ## Texts -/

theorem reads_skipEscape (h : (letterEscape? d).isSome) (rest : List Char) :
    Reads skipEscape (d :: rest) () rest := by
  have hletter : d ≠ 'u' := by
    rintro rfl
    cases h
  refine (reads_peekInText d rest).bind ?_
  simp only [if_neg hletter, h, if_true]
  exact reads_advance d rest

theorem reads_skipEscape_number {n : Nat} {ds : List Char} (h : HexForm n ds) (rest : List Char) :
    Reads skipEscape ('u' :: (ds ++ rest)) () rest := by
  refine (reads_peekInText 'u' _).bind ?_
  simp only [if_true]
  exact (reads_advance 'u' _).bind ((h.reads rest).bind (.pure () rest))

theorem IsPiece.reads {piece later : List Char} {fuel : Nat} (h : IsPiece piece)
    (hlater : Reads (skipTextWith fuel) later () rest) :
    Reads (skipTextWith (fuel + 1)) (piece ++ later) () rest := by
  have hprints : ¬ '\\'.toNat < 0x20 := by decide
  have hopen : '\\' ≠ '"' := by decide
  cases h with
  | @plain c hprints hopen hplain =>
    refine (reads_peekInText c later).bind ?_
    simp only [if_neg hprints]
    refine (reads_advance c later).bind ?_
    simp only [if_neg hopen, if_neg hplain]
    exact hlater
  | @letter d h =>
    refine (reads_peekInText '\\' _).bind ?_
    simp only [if_neg hprints]
    refine (reads_advance '\\' _).bind ?_
    simp only [if_neg hopen, if_true]
    exact (reads_skipEscape h later).bind hlater
  | @number n ds h =>
    refine (reads_peekInText '\\' _).bind ?_
    simp only [if_neg hprints]
    refine (reads_advance '\\' _).bind ?_
    simp only [if_neg hopen, if_true]
    exact (reads_skipEscape_number h later).bind hlater

theorem IsPiece.length_pos {piece : List Char} (h : IsPiece piece) : 0 < piece.length := by
  cases h <;> exact Nat.succ_pos _

theorem reads_skipTextWith {pieces : List (List Char)} (hpieces : ∀ piece ∈ pieces, IsPiece piece)
    {fuel : Nat} (hfuel : pieces.flatten.length ≤ fuel) (rest : List Char) :
    Reads (skipTextWith (fuel + 1)) (pieces.flatten ++ '"' :: rest) () rest := by
  induction pieces generalizing fuel with
  | nil =>
    have hprints : ¬ '"'.toNat < 0x20 := by decide
    refine (reads_peekInText '"' rest).bind ?_
    simp only [if_neg hprints]
    refine (reads_advance '"' rest).bind ?_
    simp only [if_true]
    exact .pure () rest
  | cons piece pieces ih =>
    have hpiece := hpieces piece List.mem_cons_self
    have hone := hpiece.length_pos
    rw [List.flatten_cons, List.length_append] at hfuel
    obtain ⟨fuel, rfl⟩ : ∃ n, fuel = n + 1 := ⟨fuel - 1, by omega⟩
    have hless : pieces.flatten.length ≤ fuel := by omega
    rw [List.flatten_cons, List.append_assoc]
    exact hpiece.reads
      (ih (fun other hother => hpieces other (List.mem_cons_of_mem piece hother)) hless)

theorem IsText.reads {w : List Char} (h : IsText w) :
    ∃ behind, w = '"' :: behind ∧ ∀ rest, Reads skipText (behind ++ rest) () rest := by
  obtain @⟨pieces, hpieces⟩ := h
  refine ⟨pieces.flatten ++ ['"'], rfl, fun rest place => ?_⟩
  have hlength : pieces.flatten.length ≤ (pieces.flatten ++ ['"'] ++ rest).length := by
    rw [List.append_assoc, List.length_append]
    omega
  have hahead : pieces.flatten ++ '"' :: rest = pieces.flatten ++ ['"'] ++ rest := by
    rw [List.append_assoc, List.singleton_append]
  have hreads := reads_skipTextWith hpieces hlength rest
  rw [hahead] at hreads
  exact hreads place

/-! ## Brackets -/

variable {b : Bracket} {opened : List Bracket} {fuel : Nat}

/-- What comes after a value, inside the brackets that are still open. -/
def goOn (fuel : Nat) (opened : List Bracket) : Reader Unit :=
  if opened.isEmpty then pure ()
  else do
    skipKey opened
    skipInside opened fuel

def skipAfter (opened : List Bracket) (fuel : Nat) : Reader Unit :=
  settle true opened >>= goOn fuel

theorem skipInside_succ (opened : List Bracket) (fuel : Nat) :
    skipInside opened (fuel + 1) = peekValue >>= fun c =>
      if c = '[' then advance >>= fun _ => settle false (.list :: opened) >>= goOn fuel
      else if c = '\x7b' then advance >>= fun _ => settle false (.object :: opened) >>= goOn fuel
      else skipPlain c >>= fun _ => skipAfter opened fuel :=
  rfl

theorem bind_assoc {α β γ : Type} (r : Reader α) (f : α → Reader β) (g : β → Reader γ) :
    (r >>= f) >>= g = r >>= fun a => f a >>= g := by
  funext s
  rw [bind_apply, bind_apply, bind_apply]
  cases r s <;> rfl

theorem passesSpaces_settle (commaMayCome : Bool) (b : Bracket) (outer : List Bracket) :
    PassesSpaces (settle commaMayCome (b :: outer)) :=
  passesSpaces_peekToken.bind

theorem passesSpaces_skipAfter (b : Bracket) (outer : List Bracket) (fuel : Nat) :
    PassesSpaces (skipAfter (b :: outer) fuel) :=
  (passesSpaces_settle true b outer).bind

theorem passesSpaces_skipInside (opened : List Bracket) (fuel : Nat) :
    PassesSpaces (skipInside opened (fuel + 1)) := by
  rw [skipInside_succ]
  exact passesSpaces_peekValue.bind

theorem passesSpaces_goOn (b : Bracket) (outer : List Bracket) (fuel : Nat) :
    PassesSpaces (goOn (fuel + 1) (b :: outer)) := by
  cases b with
  | list => exact passesSpaces_skipInside (.list :: outer) fuel
  | object => exact passesSpaces_peekToken.bind.bind.bind

def Bracket.opening : Bracket → Char
  | list => '['
  | object => '\x7b'

/-- Behind the character that opens a bracket its parts come, or its end. -/
theorem reads_opening (b : Bracket)
    (h : Reads (settle false (b :: opened) >>= goOn fuel) ahead () final) :
    Reads (skipInside opened (fuel + 1)) (b.opening :: ahead) () final := by
  rw [skipInside_succ]
  cases b with
  | list =>
    refine (reads_peekValue (c := '[') (by decide) ahead).bind ?_
    rw [if_pos rfl]
    exact (reads_advance '[' ahead).bind h
  | object =>
    have hlist : '\x7b' ≠ '[' := by decide
    refine (reads_peekValue (c := '\x7b') (by decide) ahead).bind ?_
    rw [if_neg hlist, if_pos rfl]
    exact (reads_advance '\x7b' ahead).bind h

theorem isSpace_close (b : Bracket) : isSpace b.close = false := by
  cases b <;> decide

theorem closes_close (b : Bracket) :
    isDigit b.close = false ∧ b.close ≠ '.' ∧ b.close ≠ 'e' ∧ b.close ≠ 'E' := by
  cases b <;> decide

/-- The bracket that is innermost closes, whether a comma may come or not. -/
theorem reads_close {k : List Bracket → Reader Unit} (commaMayCome : Bool) (b : Bracket)
    (h : Reads (settle true opened >>= k) rest () final) (hspace : Space space) :
    Reads (settle commaMayCome (b :: opened) >>= k) (space ++ b.close :: rest) () final := by
  have hcomma : b.close ≠ ',' := by cases b <;> decide
  have hclose : Reads (settle commaMayCome (b :: opened) >>= k) (b.close :: rest) () final := by
    unfold settle
    rw [bind_assoc]
    refine (reads_peekToken (isSpace_close b) rest).bind ?_
    simp only [hcomma, false_and, if_false, if_true]
    rw [bind_assoc]
    exact (reads_advance _ rest).bind h
  exact hclose.spaced (passesSpaces_settle commaMayCome b opened).bind hspace

/-- If the reading goes on behind a value, then it goes on behind it from the value on, with some
more fuel. -/
def Skips (w : List Char) : Prop :=
  (∃ c tail, w = c :: tail ∧ isSpace c = false ∧ c ≠ ']') ∧
    ∃ n < w.length, ∀ opened fuel rest final, Closes rest →
      Reads (skipAfter opened fuel) rest () final →
        Reads (skipInside opened (fuel + n + 1)) (w ++ rest) () final

/-- If the reading goes on behind a part of a list or an object, then it goes on from the part
on. -/
def SkipsIn (b : Bracket) (part : List Char) : Prop :=
  (∃ c tail, part = c :: tail ∧ isSpace c = false ∧ c ≠ b.close) ∧
    ∃ n < part.length, ∀ opened fuel later final, Closes later →
      Reads (skipAfter (b :: opened) fuel) later () final →
        Reads (goOn (fuel + n + 1) (b :: opened)) (part ++ later) () final

def IsPartOf (b : Bracket) (v : List Char) : Prop :=
  ∃ space part, Space space ∧ SkipsIn b part ∧ v = space ++ part

theorem skips_more {vs : List (List Char)} (hparts : ∀ v ∈ vs, IsPartOf b v)
    (hspace : Space space) :
    ∃ n ≤ (more vs).length, ∀ opened fuel rest final,
      Reads (skipAfter opened fuel) rest () final →
        Reads (skipAfter (b :: opened) (fuel + n)) (more vs ++ (space ++ b.close :: rest)) ()
          final := by
  induction vs with
  | nil => exact ⟨0, Nat.zero_le _, fun opened fuel rest final h => reads_close true b h hspace⟩
  | cons v vs ih =>
    obtain ⟨n, hn, hmore⟩ := ih fun w hw => hparts w (List.mem_cons_of_mem v hw)
    obtain ⟨before, part, hbefore, ⟨-, m, hm, hpart⟩, rfl⟩ := hparts v List.mem_cons_self
    refine ⟨n + (m + 1), ?_, fun opened fuel rest final h => ?_⟩
    · rw [more_cons, List.length_cons, List.length_append, List.length_append]
      omega
    · have hcloses : Closes (more vs ++ (space ++ b.close :: rest)) :=
        closes_more hspace (closes_close b) vs rest
      have hlater := hmore opened fuel rest final h
      have hnext := (hpart opened (fuel + n) _ final hcloses hlater).spaced
        (passesSpaces_goOn b opened _) hbefore
      have hsum : fuel + (n + (m + 1)) = fuel + n + m + 1 := by omega
      rw [more_cons, List.cons_append, List.append_assoc, List.append_assoc, hsum]
      unfold skipAfter settle
      rw [bind_assoc]
      refine (reads_peekToken (by decide) _).bind ?_
      simp only [and_self, if_true]
      rw [bind_assoc]
      exact (reads_advance ',' _).bind hnext

/-- The parts of a list or an object are passed over from behind its opening bracket. -/
theorem skips_parts {vs : List (List Char)} (hparts : ∀ v ∈ vs, IsPartOf b v)
    (hspace : Space space) :
    ∃ n ≤ (commaSeparated vs).length, ∀ opened fuel rest final,
      Reads (skipAfter opened fuel) rest () final →
        Reads (settle false (b :: opened) >>= goOn (fuel + n))
          (commaSeparated vs ++ (space ++ b.close :: rest)) () final := by
  cases vs with
  | nil => exact ⟨0, Nat.zero_le _, fun opened fuel rest final h => reads_close false b h hspace⟩
  | cons v vs =>
    obtain ⟨n, hn, hmore⟩ := skips_more (fun w hw => hparts w (List.mem_cons_of_mem v hw)) hspace
    obtain ⟨before, part, hbefore, ⟨hbegins, m, hm, hpart⟩, rfl⟩ := hparts v List.mem_cons_self
    refine ⟨n + (m + 1), ?_, fun opened fuel rest final h => ?_⟩
    · rw [commaSeparated_cons, List.length_append, List.length_append]
      omega
    · have hcloses : Closes (more vs ++ (space ++ b.close :: rest)) :=
        closes_more hspace (closes_close b) vs rest
      have hnext := hpart opened (fuel + n) _ final hcloses (hmore opened fuel rest final h)
      obtain ⟨c, tail, rfl, hc, hend⟩ := hbegins
      have hfirst : Reads (settle false (b :: opened) >>= goOn (fuel + n + m + 1))
          (c :: tail ++ (more vs ++ (space ++ b.close :: rest))) () final := by
        unfold settle
        rw [bind_assoc]
        refine (reads_peekToken hc _).bind ?_
        simp only [hend, Bool.false_eq_true, and_false, if_false]
        exact hnext
      have hsum : fuel + (n + (m + 1)) = fuel + n + m + 1 := by omega
      rw [commaSeparated_cons, List.append_assoc, List.append_assoc, hsum]
      exact hfirst.spaced (passesSpaces_settle false b opened).bind hbefore

/-! ## Any value -/

theorem Skips.element {part : Part} (h : Skips part.value) (hpart : part.Spaced) :
    IsPartOf .list part.written := by
  obtain ⟨⟨c, tail, hbegin, hc, hend⟩, n, hn, hreads⟩ := h
  refine ⟨part.before, part.value ++ part.after, hpart.before,
    ⟨⟨c, tail ++ part.after, ?_, hc, hend⟩, n, ?_, fun opened fuel later final hlater h => ?_⟩, rfl⟩
  · rw [hbegin, List.cons_append]
  · rw [List.length_append]
    omega
  · rw [List.append_assoc]
    exact hreads _ fuel _ final (closes_space hpart.after hlater)
      (h.spaced (passesSpaces_skipAfter _ _ _) hpart.after)

theorem reads_skipKey {name : Part} (hkey : IsText name.value) (hname : Space name.after)
    (opened : List Bracket) (rest : List Char) :
    Reads (skipKey (.object :: opened)) (name.value ++ (name.after ++ ':' :: rest)) () rest := by
  obtain ⟨behind, hquote, htext⟩ := hkey.reads
  rw [hquote, List.cons_append]
  refine (reads_punctuation (by decide) _ _ _).bind ((htext _).bind ?_)
  exact (reads_punctuation (by decide) _ _ rest).spaced passesSpaces_peekToken.bind hname

theorem Skips.member {member : Part × Part} (hkey : IsText member.1.value)
    (h : Skips member.2.value) (hname : member.1.Spaced) (hpart : member.2.Spaced) :
    IsPartOf .object (memberText member) := by
  obtain ⟨name, part⟩ := member
  obtain ⟨-, n, hn, hreads⟩ := h
  simp only at hkey hn hreads hname hpart
  refine ⟨name.before, name.value ++ (name.after ++ ':' :: part.written), hname.before,
    ⟨?_, n, ?_, fun opened fuel later final hlater h => ?_⟩, ?_⟩
  · obtain ⟨behind, hquote, -⟩ := hkey.reads
    exact ⟨'"', _, by rw [hquote, List.cons_append], by decide, by decide⟩
  · simp only [Part.written, List.length_append, List.length_cons]
    omega
  · have hvalue := hreads _ fuel _ final (closes_space hpart.after hlater)
      (h.spaced (passesSpaces_skipAfter _ _ _) hpart.after)
    have hnext := hvalue.spaced (passesSpaces_skipInside _ _) hpart.before
    have hkeyed := reads_skipKey hkey hname.after opened (part.before ++ (part.value ++
      (part.after ++ later)))
    simp only [Part.written, List.append_assoc, List.cons_append]
    exact hkeyed.bind hnext
  · simp only [memberText, Part.written, List.append_assoc]

/-- A value without parts is passed over, and the reading goes on behind it. -/
theorem skips_plain {w : List Char} {c : Char} {tail : List Char} (hw : w = c :: tail)
    (hc : isSpace c = false ∧ c ≠ ']' ∧ c ≠ '[' ∧ c ≠ '\x7b')
    (h : ∀ rest, Closes rest → Reads (skipPlain c) (w ++ rest) () rest) : Skips w := by
  subst hw
  obtain ⟨hspace, hend, hlist, hobject⟩ := hc
  refine ⟨⟨c, tail, rfl, hspace, hend⟩, 0, Nat.succ_pos _, ?_⟩
  intro opened fuel rest final hrest hlater
  rw [skipInside_succ]
  refine (reads_peekValue hspace (tail ++ rest)).bind ?_
  rw [if_neg hlist, if_neg hobject]
  exact (h rest hrest).bind hlater

theorem skips_word {w : List Char}
    (h : w ∈ [['n', 'u', 'l', 'l'], ['t', 'r', 'u', 'e'], ['f', 'a', 'l', 's', 'e']]) :
    Skips w := by
  simp only [List.mem_cons, List.not_mem_nil, or_false] at h
  rcases h with rfl | rfl | rfl
  · exact skips_plain rfl (by decide) fun rest _ => reads_null rest
  · exact skips_plain rfl (by decide) fun rest _ =>
      (reads_advance 't' _).bind (reads_word ['r', 'u', 'e'] rest)
  · exact skips_plain rfl (by decide) fun rest _ =>
      (reads_advance 'f' _).bind (reads_word ['a', 'l', 's', 'e'] rest)

theorem IsText.skips {w : List Char} (h : IsText w) : Skips w := by
  obtain ⟨behind, rfl, hreads⟩ := h.reads
  exact skips_plain rfl (by decide) fun rest _ => (reads_advance '"' _).bind (hreads rest)

theorem IsNumber.skips {w : List Char} (h : IsNumber w) : Skips w := by
  have hreads := fun rest (hrest : Closes rest) => h.reads hrest
  have hbegins : ∃ c tail, w = c :: tail ∧ (c = '-' ∨ isDigit c = true) := by
    obtain @⟨sign, whole, fraction, exponent, hsign, hwhole, -, -⟩ := h
    simp only [List.mem_cons, List.not_mem_nil, or_false] at hsign
    rcases hsign with rfl | rfl
    · cases hwhole with
      | zero => exact ⟨'0', _, rfl, .inr (by decide)⟩
      | other hd => exact ⟨_, _, rfl, .inr hd⟩
    · exact ⟨'-', _, rfl, .inl rfl⟩
  obtain ⟨c, tail, hw, hc⟩ := hbegins
  have hnot : ∀ d, d ≠ '-' → isDigit d = false → c ≠ d := by
    rintro d hminus hdigit rfl
    rcases hc with rfl | hc
    · exact hminus rfl
    · rw [hdigit] at hc
      cases hc
  have hspace : isSpace c = false := by
    cases hspace : isSpace c with
    | false => rfl
    | true =>
      rcases hc with rfl | hc
      · cases hspace
      · rw [(not_digit_of_space hspace).1] at hc
        cases hc
  refine skips_plain hw ⟨hspace, hnot ']' (by decide) (by decide), hnot '[' (by decide) (by decide),
    hnot '\x7b' (by decide) (by decide)⟩ fun rest hrest => ?_
  unfold skipPlain
  rw [if_neg (hnot 'n' (by decide) (by decide)), if_neg (hnot 't' (by decide) (by decide)),
    if_neg (hnot 'f' (by decide) (by decide)), if_neg (hnot '"' (by decide) (by decide)), if_pos hc]
  exact hreads rest hrest

theorem skips_enclosed {vs : List (List Char)} (hparts : ∀ v ∈ vs, IsPartOf b v)
    (hspace : Space space) : Skips (b.opening :: (commaSeparated vs ++ (space ++ [b.close]))) := by
  obtain ⟨n, hn, hreads⟩ := skips_parts hparts hspace
  refine ⟨⟨b.opening, _, rfl, ?_, ?_⟩, n, ?_, fun opened fuel rest final _ h => ?_⟩
  · cases b <;> decide
  · cases b <;> decide
  · rw [List.length_cons, List.length_append]
    omega
  · have hinside := reads_opening b (hreads opened fuel rest final h)
    simpa only [List.cons_append, List.append_assoc, List.nil_append] using hinside

/-- **A value is passed over whole.** By induction on the shape of the value. -/
theorem IsValue.skips {w : List Char} (h : IsValue w) : Skips w := by
  induction h with
  | word h => exact skips_word h
  | number h => exact h.skips
  | text h => exact h.skips
  | list hspaced _ hspace ih =>
    refine skips_enclosed (b := .list) (fun v hv => ?_) hspace
    obtain ⟨part, hpart, rfl⟩ := List.mem_map.1 hv
    exact (ih part hpart).element (hspaced part hpart)
  | object hspaced hkeys _ hspace ih =>
    refine skips_enclosed (b := .object) (fun v hv => ?_) hspace
    obtain ⟨member, hmember, rfl⟩ := List.mem_map.1 hv
    exact (ih member hmember).member (hkeys member hmember) (hspaced member hmember).1
      (hspaced member hmember).2

theorem IsValue.reads_skip {part : Part} (h : IsValue part.value) (hpart : Space part.before)
    (hrest : Closes rest) : Reads skip (part.before ++ (part.value ++ rest)) () rest := by
  obtain ⟨-, n, hn, hreads⟩ := h.skips
  intro place
  have hend : ∀ fuel, Reads (skipAfter [] fuel) rest () rest := fun _ => .pure () rest
  have hskip := (hreads [] ((part.before ++ (part.value ++ rest)).length - n) rest rest hrest
    (hend _)).spaced (passesSpaces_skipInside _ _) hpart
  have hfuel : (part.before ++ (part.value ++ rest)).length - n + n + 1 =
      (part.before ++ (part.value ++ rest)).length + 1 := by
    rw [List.length_append, List.length_append]
    omega
  rw [hfuel] at hskip
  exact hskip place

end Switchboard.Json
