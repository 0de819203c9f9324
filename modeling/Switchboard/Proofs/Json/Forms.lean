import Switchboard.Proofs.Json.Reading

/-!
# Values between spaces

Every reader of a value passes over the spaces ahead of it (`PassesSpaces`), so that a value is read
wherever spaces stand around it. `Takes r written a` says that a reader makes `a` of a value however
the text goes on behind it; lists, pairs and what may be absent are taken if their parts are.
-/

namespace Switchboard.Json

variable {α β : Type} {r : Reader α} {a : α} {b : β} {ahead rest : List Char} {c : Char}

/-! ## Spaces -/

def Space (s : List Char) : Prop :=
  ∀ c ∈ s, isSpace c = true

/-- Some characters with spaces before and after them. -/
structure Part where
  before : List Char
  value : List Char
  after : List Char

def Part.written (part : Part) : List Char :=
  part.before ++ (part.value ++ part.after)

structure Part.Spaced (part : Part) : Prop where
  before : Space part.before
  after : Space part.after

def Part.bare (value : List Char) : Part :=
  ⟨[], value, []⟩

theorem space_nil : Space [] :=
  fun _ hc => absurd hc List.not_mem_nil

theorem space_cons {space : List Char} (hc : isSpace c = true) (h : Space space) :
    Space (c :: space) := by
  intro d hd
  rcases List.mem_cons.1 hd with rfl | hd
  · exact hc
  · exact h d hd

theorem Part.spaced_bare (value : List Char) : (bare value).Spaced :=
  ⟨space_nil, space_nil⟩

theorem Part.bare_written (value : List Char) : (bare value).written = value :=
  List.append_nil value

def PassesSpaces (r : Reader α) : Prop :=
  ∀ s : Scanner, r s = r s.afterSpaces

theorem afterSpaces_afterSpaces (s : Scanner) : s.afterSpaces.afterSpaces = s.afterSpaces := by
  obtain ⟨rest, place⟩ := s
  unfold Scanner.afterSpaces
  induction rest generalizing place with
  | nil => rfl
  | cons c rest ih =>
    by_cases hc : isSpace c
    · simp only [Scanner.afterSpaces.go, hc, if_true]
      exact ih (place.past c)
    · simp only [Scanner.afterSpaces.go, hc, Bool.false_eq_true, if_false]

theorem exists_afterSpaces {space : List Char} (h : Space space) (ahead : List Char)
    (place : Place) :
    ∃ place', Scanner.afterSpaces ⟨space ++ ahead, place⟩ =
      Scanner.afterSpaces ⟨ahead, place'⟩ := by
  induction space generalizing place with
  | nil => exact ⟨place, rfl⟩
  | cons c space ih =>
    obtain ⟨place', hplace⟩ := ih (fun d hd => h d (List.mem_cons_of_mem c hd)) (place.past c)
    refine ⟨place', ?_⟩
    rw [← hplace]
    simp only [Scanner.afterSpaces, List.cons_append, Scanner.afterSpaces.go,
      h c List.mem_cons_self, if_true]

theorem passesSpaces_peekToken : PassesSpaces peekToken := by
  intro s
  simp only [peekToken, afterSpaces_afterSpaces]

theorem PassesSpaces.bind {f : α → Reader β} (h : PassesSpaces r) : PassesSpaces (r >>= f) := by
  intro s
  rw [bind_apply, bind_apply, h s]

theorem passesSpaces_peekValue : PassesSpaces peekValue :=
  passesSpaces_peekToken.bind

theorem Reads.spaced (h : Reads r ahead a rest) (hr : PassesSpaces r) {space : List Char}
    (hspace : Space space) : Reads r (space ++ ahead) a rest := by
  intro place
  obtain ⟨place', hplace⟩ := exists_afterSpaces hspace ahead place
  obtain ⟨after, hafter⟩ := h place'
  refine ⟨after, ?_⟩
  rw [hr, hplace, ← hr]
  exact hafter

theorem not_digit_of_space (h : isSpace c = true) :
    isDigit c = false ∧ c ≠ '.' ∧ c ≠ 'e' ∧ c ≠ 'E' := by
  simp only [isSpace, Bool.or_eq_true, decide_eq_true_eq] at h
  rcases h with ((rfl | rfl) | rfl) | rfl <;> decide

theorem closes_space {space : List Char} (h : Space space) (hrest : Closes rest) :
    Closes (space ++ rest) := by
  cases space with
  | nil => exact hrest
  | cons c space => exact closes_cons (not_digit_of_space (h c List.mem_cons_self)) _

/-! ## Values -/

/-- A reader makes `a` of a value, after spaces, however the text goes on behind it. The value
begins with a character that can be told from a space and from the end of a list. -/
structure Takes (r : Reader α) (written : List Char) (a : α) : Prop where
  begins : ∃ c later, written = c :: later ∧ isSpace c = false ∧ c ≠ ']'
  spaced : PassesSpaces r
  reads : ∀ rest, Closes rest → Reads r (written ++ rest) a rest

namespace Takes

variable {written : List Char}

theorem of_eq {a' : α} (h : Takes r written a) (heq : a = a') : Takes r written a' :=
  heq ▸ h

theorem into (h : Takes r written a) (f : α → β) :
    Takes (r >>= fun a => pure (f a)) written (f a) where
  begins := h.begins
  spaced := h.spaced.bind
  reads rest hrest := (h.reads rest hrest).bind (.pure (f a) rest)

/-- A text that holds a value between spaces and nothing else. -/
theorem parse {part : Part} (h : Takes r part.value a) (hpart : part.Spaced) :
    Json.parse r (String.ofList part.written) = .ok a := by
  have hreads := (h.reads (part.after ++ []) (closes_space hpart.after closes_nil)).spaced h.spaced
    hpart.before
  obtain ⟨after, hafter⟩ := hreads {}
  obtain ⟨place, hplace⟩ := exists_afterSpaces hpart.after [] after
  rw [List.append_nil] at hafter hplace
  unfold Json.parse
  rw [String.toList_ofList, Part.written, hafter]
  have hend : (Scanner.afterSpaces ⟨part.after, after⟩).rest.isEmpty = true := by
    rw [hplace]
    rfl
  change (if _ then _ else _) = _
  rw [if_pos hend]
  rfl

theorem parse_bare (h : Takes r written a) : Json.parse r (String.ofList written) = .ok a := by
  have hpart : Takes r (Part.bare written).value a := h
  rw [← Part.bare_written written]
  exact hpart.parse (Part.spaced_bare written)

end Takes

theorem TextForm.takes {s : String} {written : List Char} (h : TextForm s written) :
    Takes string written s := by
  obtain ⟨behind, rfl, hreads⟩ := h.reads
  refine ⟨⟨'"', behind, rfl, by decide, by decide⟩, passesSpaces_peekValue.bind, fun rest _ => ?_⟩
  refine (reads_peekValue (by decide) _).bind ?_
  simp only [if_true]
  exact (reads_advance '"' _).bind (hreads rest)

/-- A number is written by its digits, without leading zeros. -/
def NumberForm (n : Nat) (written : List Char) : Prop :=
  written = writeNat n

theorem NumberForm.takes {n limit : Nat} {written : List Char} (h : NumberForm n written)
    (wanted : String) (hn : n < limit) (hlimit : limit ≤ 2 ^ 64) :
    Takes (natural limit wanted) written n := by
  subst h
  have hnumber : ∀ rest, Closes rest → Reads number (writeNat n ++ rest) (.whole n) rest :=
    fun rest => reads_number (Nat.lt_of_lt_of_le hn hlimit)
  have hdigit := fun c => isDigit_of_mem_writeNat (n := n) (c := c)
  obtain ⟨d, ds, hwritten⟩ := List.exists_cons_of_ne_nil (Nat.toDigits_ne_nil (n := n) (b := 10))
  change writeNat n = d :: ds at hwritten
  rw [hwritten] at hnumber hdigit ⊢
  have hd : isDigit d = true := hdigit d List.mem_cons_self
  have hspace : isSpace d = false := by
    cases hd' : isSpace d with
    | false => rfl
    | true =>
      rw [(not_digit_of_space hd').1] at hd
      cases hd
  have hend : d ≠ ']' := by
    intro heq
    subst heq
    cases hd
  refine ⟨⟨d, ds, rfl, hspace, hend⟩, passesSpaces_peekValue.bind, fun rest hrest => ?_⟩
  refine (reads_peekValue hspace (ds ++ rest)).bind ?_
  simp only [hd, or_true, if_true]
  refine (hnumber rest hrest).bind ?_
  have hrange : (0 : Int) ≤ n ∧ (n : Int) < limit := by omega
  simp only [if_pos hrange, Int.toNat_natCast]
  exact .pure n rest

/-! ## What may be absent -/

theorem reads_word (cs rest : List Char) : Reads (word cs) (cs ++ rest) () rest := by
  induction cs with
  | nil => exact .pure () rest
  | cons c cs ih =>
    refine (reads_peek (c :: (cs ++ rest))).bind ?_
    simp only [List.head?_cons, if_true]
    exact (reads_advance c _).bind ih

theorem reads_null (rest : List Char) :
    Reads (skipPlain 'n') ('n' :: 'u' :: 'l' :: 'l' :: rest) () rest :=
  (reads_advance 'n' _).bind (reads_word ['u', 'l', 'l'] rest)

/-- The ways in which a value may be written that may be absent. -/
inductive OptionalForm (Form : α → List Char → Prop) : Option α → List Char → Prop
  | absent : OptionalForm Form none ['n', 'u', 'l', 'l']
  | present {a : α} {written : List Char} (h : Form a written) :
    OptionalForm Form (some a) written

theorem takes_absent : Takes (optional r) ['n', 'u', 'l', 'l'] none where
  begins := ⟨'n', _, rfl, by decide, by decide⟩
  spaced := passesSpaces_peekToken.bind
  reads rest _ := by
    refine (reads_peekToken (by decide) _).bind ?_
    simp only [if_true]
    exact (reads_null rest).bind (.pure none rest)

theorem Takes.optional {written : List Char} (h : Takes r written a)
    (hpresent : written.head? ≠ some 'n') : Takes (Json.optional r) written (some a) where
  begins := h.begins
  spaced := passesSpaces_peekToken.bind
  reads rest hrest := by
    have hreads := h.reads rest hrest
    obtain ⟨c, later, rfl, hspace, -⟩ := h.begins
    refine (reads_peekToken hspace (later ++ rest)).bind ?_
    rw [List.head?_cons] at hpresent
    rw [if_neg hpresent]
    exact hreads.map some

theorem TextForm.head? {s : String} {written : List Char} (h : TextForm s written) :
    written.head? = some '"' := by
  obtain ⟨pieces, -, rfl⟩ := h
  rfl

/-! ## Lists -/

/-- What stands behind a part when others follow. -/
def more : List (List Char) → List Char
  | [] => []
  | vs => ',' :: commaSeparated vs

theorem commaSeparated_cons (v : List Char) (vs : List (List Char)) :
    commaSeparated (v :: vs) = v ++ more vs := by
  cases vs with
  | nil => exact (List.append_nil v).symm
  | cons w vs => rfl

theorem more_cons (v : List Char) (vs : List (List Char)) :
    more (v :: vs) = ',' :: (v ++ more vs) := by
  rw [← commaSeparated_cons]
  rfl

theorem length_le_more (vs : List (List Char)) : vs.length ≤ (more vs).length := by
  induction vs with
  | nil => exact Nat.le_refl 0
  | cons v vs ih =>
    rw [more_cons, List.length_cons, List.length_cons, List.length_append]
    omega

theorem length_le_commaSeparated (vs : List (List Char)) :
    vs.length ≤ (commaSeparated vs).length + 1 := by
  cases vs with
  | nil => exact Nat.zero_le _
  | cons v vs =>
    have hmore := length_le_more vs
    rw [commaSeparated_cons, List.length_append, List.length_cons]
    omega

/-- The parts of a list or an object that are still ahead, after the first ones or not. -/
def partsAhead (isFirst : Bool) (vs : List (List Char)) : List Char :=
  if isFirst then commaSeparated vs else more vs

theorem partsAhead_nil (isFirst : Bool) : partsAhead isFirst [] = [] := by
  cases isFirst <;> rfl

theorem partsAhead_cons (isFirst : Bool) (v : List Char) (vs : List (List Char)) :
    partsAhead isFirst (v :: vs) = (if isFirst then [] else [',']) ++ (v ++ more vs) := by
  cases isFirst with
  | true => exact commaSeparated_cons v vs
  | false => exact more_cons v vs

/-- Behind a part stand spaces and a comma or the bracket that closes. -/
theorem closes_more {space : List Char} (hspace : Space space)
    (h : isDigit c = false ∧ c ≠ '.' ∧ c ≠ 'e' ∧ c ≠ 'E') (vs : List (List Char))
    (rest : List Char) : Closes (more vs ++ (space ++ c :: rest)) := by
  cases vs with
  | nil =>
    rw [more, List.nil_append]
    exact closes_space hspace (closes_cons h rest)
  | cons v vs => exact closes_cons (by decide) _

def listText (parts : List Part) (space : List Char) : List Char :=
  '[' :: (commaSeparated (parts.map Part.written) ++ (space ++ [']']))

/-- The ways in which a list of values may be written. -/
def ListForm (Form : α → List Char → Prop) (values : List α) (written : List Char) : Prop :=
  ∃ parts space,
    List.Forall₂ (fun a (part : Part) => part.Spaced ∧ Form a part.value) values parts ∧
      Space space ∧ written = listText parts space

/-- The ways in which a list of two values may be written. -/
def PairForm (First : α → List Char → Prop) (Second : β → List Char → Prop) (ab : α × β)
    (written : List Char) : Prop :=
  ∃ first second : Part, first.Spaced ∧ First ab.1 first.value ∧ second.Spaced ∧
    Second ab.2 second.value ∧ written = listText [first, second] []

theorem writeList_eq (values : List (List Char)) :
    writeList values = listText (values.map .bare) [] := by
  have hbare : Part.written ∘ Part.bare = id := funext Part.bare_written
  rw [writeList, listText, List.map_map, hbare, List.map_id, List.nil_append]

/-- A list as it is written is one of its forms, if its elements are. -/
theorem writeList_form {Form : α → List Char → Prop} {write : α → List Char} {values : List α}
    (h : ∀ a ∈ values, Form a (write a)) : ListForm Form values (writeList (values.map write)) := by
  refine ⟨_, [], ?_, space_nil, writeList_eq _⟩
  rw [List.map_map, List.forall₂_map_right_iff, List.forall₂_same]
  exact fun a ha => ⟨Part.spaced_bare _, h a ha⟩

theorem writePair_form {First : α → List Char → Prop} {Second : β → List Char → Prop} {ab : α × β}
    {first second : List Char} (hfirst : First ab.1 first) (hsecond : Second ab.2 second) :
    PairForm First Second ab (writeList [first, second]) :=
  ⟨.bare first, .bare second, Part.spaced_bare first, hfirst, Part.spaced_bare second, hsecond,
    writeList_eq [first, second]⟩

theorem passesSpaces_nextElement (isFirst : Bool) : PassesSpaces (nextElement isFirst) :=
  passesSpaces_peekToken.bind

theorem reads_nextElement (isFirst : Bool) {space : List Char} (hspace : Space space)
    (hc : isSpace c = false) (hend : c ≠ ']') (rest : List Char) :
    Reads (nextElement isFirst) ((if isFirst then [] else [',']) ++ (space ++ c :: rest)) true
      (c :: rest) := by
  cases isFirst with
  | true =>
    have hfirst : Reads (nextElement true) (c :: rest) true (c :: rest) := by
      refine (reads_peekToken hc rest).bind ?_
      simp only [if_neg hend, if_true]
      exact .pure true _
    exact hfirst.spaced (passesSpaces_nextElement true) hspace
  | false =>
    have hcomma : ',' ≠ ']' := by decide
    refine (reads_peekToken (by decide) (space ++ c :: rest)).bind ?_
    simp only [if_neg hcomma, Bool.false_eq_true, if_false, if_true]
    refine (reads_advance ',' _).bind ?_
    refine Reads.bind ((reads_peekToken hc rest).spaced passesSpaces_peekToken hspace) ?_
    split
    · rename_i heq
      exact absurd (Option.some.inj heq) hend
    · exact .pure true _
    · rename_i heq
      cases heq

theorem reads_nextElement_end (isFirst : Bool) (rest : List Char) :
    Reads (nextElement isFirst) (']' :: rest) false (']' :: rest) := by
  refine (reads_peekToken (by decide) rest).bind ?_
  simp only [if_true]
  exact .pure false _

theorem reads_closeList (rest : List Char) : Reads closeList (']' :: rest) () rest := by
  refine (reads_peekToken (by decide) rest).bind ?_
  simp only [if_true]
  exact reads_advance ']' rest

/-- The next element of a list is taken, and the list goes on behind it. -/
theorem Takes.reads_next {part : Part} (h : Takes r part.value a) (hpart : part.Spaced)
    (isFirst : Bool) {later : List Char} (hlater : Closes later) :
    ∃ ahead, Reads (nextElement isFirst)
      ((if isFirst then [] else [',']) ++ (part.written ++ later)) true ahead ∧
      Reads r ahead a (part.after ++ later) := by
  have hreads := h.reads (part.after ++ later) (closes_space hpart.after hlater)
  obtain ⟨c, behind, hbegin, hc, hend⟩ := h.begins
  refine ⟨_, ?_, hreads⟩
  have hnext := reads_nextElement isFirst hpart.before hc hend (behind ++ (part.after ++ later))
  simpa only [Part.written, hbegin, List.append_assoc, List.cons_append] using hnext

theorem passesSpaces_elementsOnto (r : Reader α) (done : List α) (fuel : Nat) :
    PassesSpaces (elementsOnto r done (fuel + 1)) :=
  (passesSpaces_nextElement _).bind

/-- The elements of a list are read one after the other, behind those already read. -/
theorem reads_elementsOnto {Form : α → List Char → Prop} {values : List α} {parts : List Part}
    (hparts : List.Forall₂ (fun a (part : Part) => part.Spaced ∧ Form a part.value) values parts)
    (hform : ∀ a ∈ values, ∀ written, Form a written → Takes r written a) (done : List α)
    {fuel : Nat} (hfuel : values.length ≤ fuel) {space : List Char} (hspace : Space space)
    (rest : List Char) :
    Reads (elementsOnto r done (fuel + 1))
      (partsAhead done.isEmpty (parts.map Part.written) ++ (space ++ ']' :: rest))
      (done.reverse ++ values) (']' :: rest) := by
  induction hparts generalizing done fuel with
  | nil =>
    rw [List.map_nil, partsAhead_nil, List.append_nil]
    have hend : Reads (elementsOnto r done (fuel + 1)) (']' :: rest) done.reverse (']' :: rest) :=
      (reads_nextElement_end done.isEmpty rest).bind (.pure _ _)
    exact hend.spaced (passesSpaces_elementsOnto r done fuel) hspace
  | @cons value part values parts hpart _ ih =>
    rw [List.length_cons] at hfuel
    obtain ⟨fuel, rfl⟩ : ∃ n, fuel = n + 1 := ⟨fuel - 1, by omega⟩
    have hvalue := hform value List.mem_cons_self part.value hpart.2
    have hless : values.length ≤ fuel := by omega
    have hlater := (ih (fun a ha => hform a (List.mem_cons_of_mem value ha)) (value :: done)
      hless).spaced (passesSpaces_elementsOnto r _ fuel) hpart.1.after
    rw [List.reverse_cons, List.append_assoc, List.singleton_append] at hlater
    have hcloses : Closes (more (parts.map Part.written) ++ (space ++ ']' :: rest)) :=
      closes_more hspace (by decide) _ rest
    obtain ⟨ahead, hnext, hreads⟩ := hvalue.reads_next hpart.1 done.isEmpty hcloses
    rw [List.map_cons, partsAhead_cons, List.append_assoc, List.append_assoc]
    refine hnext.bind ?_
    simp only [if_true]
    exact hreads.bind hlater

theorem ListForm.takes {Form : α → List Char → Prop} {values : List α} {written : List Char}
    (h : ListForm Form values written)
    (hform : ∀ a ∈ values, ∀ written, Form a written → Takes r written a) :
    Takes (list r) written values := by
  obtain ⟨parts, space, hparts, hspace, rfl⟩ := h
  refine ⟨⟨'[', _, rfl, by decide, by decide⟩, passesSpaces_peekValue.bind, fun rest _ => ?_⟩
  have hahead : listText parts space ++ rest =
      '[' :: (partsAhead true (parts.map Part.written) ++ (space ++ ']' :: rest)) := by
    simp only [listText, partsAhead, if_true, List.cons_append, List.append_assoc, List.nil_append]
  have hfuel : values.length ≤
      (partsAhead true (parts.map Part.written) ++ (space ++ ']' :: rest)).length := by
    have hlength := length_le_commaSeparated (parts.map Part.written)
    rw [List.length_map, ← hparts.length_eq] at hlength
    rw [partsAhead, if_pos rfl, List.length_append, List.length_append, List.length_cons]
    omega
  rw [hahead]
  refine (reads_peekValue (by decide) _).bind ?_
  simp only [if_true]
  refine (reads_advance '[' _).bind ?_
  refine Reads.bind (a := values) ?_ ((reads_closeList rest).bind (.pure values rest))
  intro place
  exact reads_elementsOnto hparts hform [] hfuel hspace rest place

theorem PairForm.takes {First : α → List Char → Prop} {Second : β → List Char → Prop}
    {ab : α × β} {written : List Char} (h : PairForm First Second ab written) {s : Reader β}
    (hfirst : ∀ written, First ab.1 written → Takes r written ab.1)
    (hsecond : ∀ written, Second ab.2 written → Takes s written ab.2) :
    Takes (pair r s) written ab := by
  obtain ⟨first, second, hspaced, hone, hspaced', htwo, rfl⟩ := h
  refine ⟨⟨'[', _, rfl, by decide, by decide⟩, passesSpaces_peekValue.bind, fun rest _ => ?_⟩
  have hcomma : Closes (',' :: (second.written ++ ']' :: rest)) := closes_cons (by decide) _
  have hbracket : Closes (']' :: rest) := closes_cons (by decide) rest
  obtain ⟨ahead, hnext, hreads⟩ := (hfirst _ hone).reads_next hspaced true hcomma
  obtain ⟨ahead', hnext', hreads'⟩ := (hsecond _ htwo).reads_next hspaced' false hbracket
  have hahead : listText [first, second] [] ++ rest =
      '[' :: (first.written ++ ',' :: (second.written ++ ']' :: rest)) := by
    simp only [listText, List.map_cons, List.map_nil, commaSeparated, List.cons_append,
      List.append_assoc, List.nil_append]
  rw [hahead]
  refine (reads_peekValue (by decide) _).bind ?_
  simp only [if_true]
  refine (reads_advance '[' _).bind (hnext.bind ?_)
  simp only [if_true]
  refine hreads.bind (Reads.bind (hnext'.spaced (passesSpaces_nextElement false) hspaced.after) ?_)
  simp only [if_true]
  refine hreads'.bind (Reads.bind ((reads_closeList rest).spaced ?_ hspaced'.after) ?_)
  · exact passesSpaces_peekToken.bind
  · exact .pure ab rest

end Switchboard.Json
