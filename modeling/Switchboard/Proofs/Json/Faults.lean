import Switchboard.Proofs.Json.Records

/-!
# Objects that are refused

An object whose entries are each taken or refused (`Record.Settled`) is itself taken or refused: its
entries are followed, or they are refused however they stand (`Record.follows_or_refused`). What was
followed repeats no known key, lacks none that is required and has taken each of its entries. So an
object is refused that repeats a known key or lacks a required one (`Record.Expects.fails`), or in
which something refused stands under a known key (`Record.Expects.fails_inside`).
-/

namespace Switchboard.Json

variable {α β : Type} {r : Reader α} {a : α} {written : List Char}

/-! ## Values -/

/-- A reader refuses a value, however the text goes on behind it. -/
structure Fails (r : Reader α) (written : List Char) : Prop where
  spaced : PassesSpaces r
  errs : ∀ rest, Closes rest → Errs r (written ++ rest)

theorem Takes.not_fails (h : Takes r written a) : ¬ Fails r written := by
  intro hfails
  obtain ⟨after, hafter⟩ := h.reads [] closes_nil {}
  obtain ⟨flaw, hflaw⟩ := hfails.errs [] closes_nil {}
  rw [hafter] at hflaw
  cases hflaw

theorem Fails.into (h : Fails r written) (f : α → β) :
    Fails (r >>= fun a => pure (f a)) written where
  spaced := h.spaced.bind
  errs rest hrest := (h.errs rest hrest).bind _

theorem Fails.parse {part : Part} (h : Fails r part.value) (hpart : part.Spaced) :
    ∃ flaw, Json.parse r (String.ofList part.written) = .error flaw := by
  have herrs := (h.errs (part.after ++ []) (closes_space hpart.after closes_nil)).spaced h.spaced
    hpart.before
  obtain ⟨flaw, hflaw⟩ := herrs {}
  rw [List.append_nil] at hflaw
  refine ⟨flaw, ?_⟩
  unfold Json.parse
  rw [String.toList_ofList, Part.written, hflaw]
  rfl

theorem Fails.optional_object (h : Fails r written) {entries : List (String × List Char)}
    (hobject : IsObject entries written) : Fails (Json.optional r) written where
  spaced := passesSpaces_peekToken.bind
  errs rest hrest := by
    have hrefused := h.errs rest hrest
    obtain ⟨later, rfl⟩ := hobject.begins
    have hpresent : ¬ some '\x7b' = some 'n' := by decide
    refine ((reads_peekToken (by decide) (later ++ rest)).leads _).errs ?_
    rw [if_neg hpresent]
    exact hrefused.bind _

namespace Record

variable {shape : Record α} {seen : List Nat} {b : α} {entries : List (String × List Char)}

/-! ## Entries that are refused -/

/-- However some entries stand in an object, they are refused. -/
def Refused (shape : Record α) (seen : List Nat) (a : α) (entries : List (String × List Char)) :
    Prop :=
  ∀ members, List.Forall₂ IsEntry entries members → ∀ isFirst fuel, entries.length ≤ fuel →
    ∀ space, Space space → ∀ rest,
      Errs (shape.entriesOnto isFirst seen a (fuel + 1)) (entriesAhead isFirst members space rest)

theorem refused_missing {field : Nat} (h : shape.missing? seen = some field) (a : α) :
    shape.Refused seen a [] := by
  intro members hmembers isFirst fuel _ space hspace rest
  cases hmembers
  refine (leads_end isFirst seen a fuel hspace rest).errs ?_
  simp only [h]
  exact errs_failObject _ _

section Cons

variable {entry : String × List Char} {place : Nat} {made : α}

theorem refused_repeated (hplace : shape.fields.findIdx? (· == entry.1) = some place)
    (hseen : seen.contains place = true) (a : α) (entries : List (String × List Char)) :
    shape.Refused seen a (entry :: entries) := by
  intro members hmembers isFirst fuel _ space hspace rest
  cases hmembers with
  | cons hmember _ =>
    rw [entriesAhead_cons]
    exact errs_repeated hmember isFirst hplace hseen a fuel _

theorem refused_failing (hplace : shape.fields.findIdx? (· == entry.1) = some place)
    (hnew : seen.contains place = false) (hfails : Fails (shape.store place a) entry.2)
    (entries : List (String × List Char)) : shape.Refused seen a (entry :: entries) := by
  intro members hmembers isFirst fuel _ space hspace rest
  cases hmembers with
  | @cons _ member _ members hmember _ =>
    have hcloses := closes_space hmember.part.after (closes_entriesAhead members hspace rest)
    rw [hmember.value] at hfails
    have herrs := (hfails.errs _ hcloses).spaced hfails.spaced hmember.part.before
    rw [entriesAhead_cons]
    refine (leads_field hmember isFirst hplace hnew a fuel _).errs ?_
    rw [Part.written, List.append_assoc, List.append_assoc]
    exact herrs.bind _

theorem Refused.stored (h : shape.Refused (place :: seen) made entries)
    (hplace : shape.fields.findIdx? (· == entry.1) = some place)
    (hnew : seen.contains place = false) (hvalue : Takes (shape.store place a) entry.2 made) :
    shape.Refused seen a (entry :: entries) := by
  intro members hmembers isFirst fuel hfuel space hspace rest
  cases hmembers with
  | @cons _ member _ members hmember hmembers =>
    rw [List.length_cons] at hfuel
    obtain ⟨fuel, rfl⟩ : ∃ n, fuel = n + 1 := ⟨fuel - 1, by omega⟩
    rw [entriesAhead_cons]
    exact (leads_stored hmember isFirst hplace hnew hvalue
      (closes_entriesAhead members hspace rest)).errs
        (h members hmembers false fuel (by omega) space hspace rest)

theorem Refused.unknown (h : shape.Refused seen a entries)
    (hplace : shape.fields.findIdx? (· == entry.1) = none) (hvalue : IsValue entry.2) :
    shape.Refused seen a (entry :: entries) := by
  intro members hmembers isFirst fuel hfuel space hspace rest
  cases hmembers with
  | @cons _ member _ members hmember hmembers =>
    rw [List.length_cons] at hfuel
    obtain ⟨fuel, rfl⟩ : ∃ n, fuel = n + 1 := ⟨fuel - 1, by omega⟩
    rw [entriesAhead_cons]
    exact (leads_unknown hmember isFirst hplace hvalue
      (closes_entriesAhead members hspace rest)).errs
        (h members hmembers false fuel (by omega) space hspace rest)

end Cons

/-- An entry of a known key is taken or refused, whatever was read before it, and what stands under
an unknown key is a value. -/
structure Settled (shape : Record α) (entry : String × List Char) : Prop where
  known : ∀ place, shape.fields.findIdx? (· == entry.1) = some place → ∀ a,
    (∃ made, Takes (shape.store place a) entry.2 made) ∨ Fails (shape.store place a) entry.2
  unknown : entry.1 ∉ shape.fields → IsValue entry.2

/-- Entries that are settled are followed or refused. By induction on them. -/
theorem follows_or_refused (hsettled : ∀ entry ∈ entries, shape.Settled entry) (seen : List Nat)
    (a : α) : (∃ b, shape.Follows seen a entries b) ∨ shape.Refused seen a entries := by
  induction entries generalizing seen a with
  | nil =>
    cases hmissing : shape.missing? seen with
    | none => exact .inl ⟨a, .done hmissing⟩
    | some field => exact .inr (refused_missing hmissing a)
  | cons entry entries ih =>
    have hentry := hsettled entry List.mem_cons_self
    have hlater := ih fun other hother => hsettled other (List.mem_cons_of_mem entry hother)
    cases hplace : shape.fields.findIdx? (· == entry.1) with
    | none =>
      have hvalue := hentry.unknown (place_none hplace)
      rcases hlater seen a with ⟨b, hfollows⟩ | hrefused
      · exact .inl ⟨b, .unknown hplace hvalue hfollows⟩
      · exact .inr (hrefused.unknown hplace hvalue)
    | some place =>
      cases hseen : seen.contains place with
      | true => exact .inr (refused_repeated hplace hseen a entries)
      | false =>
        rcases hentry.known place hplace a with ⟨made, htakes⟩ | hfails
        · rcases hlater (place :: seen) made with ⟨b, hfollows⟩ | hrefused
          · exact .inl ⟨b, .field hplace hseen htakes hfollows⟩
          · exact .inr (hrefused.stored hplace hseen htakes)
        · exact .inr (refused_failing hplace hseen hfails entries)

theorem fails_of_refused (hobject : IsObject entries written)
    (h : shape.Refused [] shape.blank entries) : Fails shape.read written := by
  obtain ⟨members, space, hmembers, hspace, rfl⟩ := hobject
  refine ⟨passesSpaces_peekValue.bind, fun rest _ => ?_⟩
  rw [objectText_append]
  refine (leads_read shape _).errs ?_
  exact (h members hmembers true _ (length_le_entriesAhead hmembers space rest) space hspace
    rest).bind _

/-- Entries that are followed repeat no known key and lack no required one. -/
theorem Follows.intact (hdistinct : shape.fields.Nodup) (h : shape.Follows seen a entries b) :
    Intact shape.fields shape.required seen (keys entries) := by
  induction h with
  | done hmissing => exact Intact.nil hmissing
  | field hplace hnew _ _ ih =>
    have hunseen := fun hmem => Bool.false_ne_true (hnew.symm.trans (List.contains_iff_mem.2 hmem))
    exact ih.cons_known hdistinct (place_some hplace) hunseen
  | unknown hplace _ _ ih => exact ih.cons_unknown (place_none hplace)

theorem Follows.taken (h : shape.Follows seen a entries b) {entry : String × List Char}
    (hentry : entry ∈ entries) {place : Nat}
    (hplace : shape.fields.findIdx? (· == entry.1) = some place) :
    ∃ a made, Takes (shape.store place a) entry.2 made := by
  induction h with
  | done => cases hentry
  | @field seen a made b key value place' entries hplace' _ hvalue _ ih =>
    rcases List.mem_cons.1 hentry with rfl | hmem
    · rw [hplace'] at hplace
      cases hplace
      exact ⟨a, made, hvalue⟩
    · exact ih hmem
  | unknown hplace' _ _ ih =>
    rcases List.mem_cons.1 hentry with rfl | hmem
    · rw [hplace'] at hplace
      cases hplace
    · exact ih hmem

end Record

/-! ## Objects -/

/-- An object under whose known keys stands what may stand there, however often each key comes. -/
def IsFittingObject (kinds : List (FieldForm Char)) (written : List Char) : Prop :=
  ∃ entries, IsObject entries written ∧ Fits kinds IsValue entries

/-- Such an object that repeats a known key, or lacks one that may not be left out. -/
def IsFaultyObject (kinds : List (FieldForm Char)) (written : List Char) : Prop :=
  ∃ entries, IsObject entries written ∧ Fits kinds IsValue entries ∧ Faulty kinds entries

theorem IsFittingObject.faulty_or_tells {kinds : List (FieldForm Char)}
    (h : IsFittingObject kinds written) :
    IsFaultyObject kinds written ∨ IsObjectOf kinds written := by
  obtain ⟨entries, hobject, hfits⟩ := h
  rcases hfits.faulty_or_tells with hfaulty | htells
  · exact .inl ⟨entries, hobject, hfits, hfaulty⟩
  · exact .inr ⟨entries, hobject, htells⟩

namespace Record

variable {shape : Record α} {seen : List Nat} {b : α} {entries : List (String × List Char)}

/-! ## What a record expects -/

theorem findIdx?_eq {key : String} {place : Nat} (hdistinct : shape.fields.Nodup)
    (h : shape.fields[place]? = some key) : shape.fields.findIdx? (· == key) = some place := by
  cases hplace : shape.fields.findIdx? (· == key) with
  | none => exact absurd (List.mem_of_getElem? h) (place_none hplace)
  | some other =>
    have hother := place_some hplace
    have hlength := (List.getElem?_eq_some_iff.1 hother).1
    rw [(List.getElem?_inj hlength hdistinct).1 (hother.trans h.symm)]

/-- What may stand under the keys of a record: it is taken or refused, whatever was read before it,
and no other keys are required than those that may not be left out. -/
structure Expects (shape : Record α) (kinds : List (FieldForm Char)) : Prop where
  names : shape.fields = kinds.map FieldForm.key
  distinct : shape.fields.Nodup
  bounded : shape.required ≤ shape.fields.length
  required : ∀ kind ∈ kinds, ¬ kind.Optional → kind.key ∈ shape.fields.take shape.required
  settles : ∀ place kind value, kinds[place]? = some kind → kind.Form value → ∀ a,
    (∃ made, Takes (shape.store place a) value made) ∨ Fails (shape.store place a) value

namespace Expects

variable {kinds : List (FieldForm Char)} (h : shape.Expects kinds)

include h

theorem settled (hfits : Fits kinds IsValue entries) : ∀ entry ∈ entries, shape.Settled entry := by
  rintro ⟨key, value⟩ hentry
  constructor
  · intro place hplace
    have hname := place_some hplace
    rw [h.names, List.getElem?_map, Option.map_eq_some_iff] at hname
    obtain ⟨kind, hkind, rfl⟩ := hname
    exact h.settles place kind value hkind
      (hfits.given kind (List.mem_of_getElem? hkind) value hentry)
  · intro hunknown
    rw [h.names] at hunknown
    exact hfits.unknown _ hentry hunknown

theorem takes_or_fails (hobject : IsFittingObject kinds written) :
    (∃ b, Takes shape.read written b) ∨ Fails shape.read written := by
  obtain ⟨entries, hobject, hfits⟩ := hobject
  rcases follows_or_refused (h.settled hfits) [] shape.blank with ⟨b, hfollows⟩ | hrefused
  · exact .inl ⟨b, takes_of_follows hobject hfollows⟩
  · exact .inr (fails_of_refused hobject hrefused)

/-- **An object that repeats a known key or lacks a required one is refused.** -/
theorem fails (hobject : IsObject entries written) (hfits : Fits kinds IsValue entries)
    (hfaulty : Faulty kinds entries) : Fails shape.read written := by
  rcases follows_or_refused (h.settled hfits) [] shape.blank with ⟨b, hfollows⟩ | hrefused
  · refine absurd ?_ ((hfollows.intact h.distinct).not_faulty h.bounded)
    rcases hfaulty with ⟨kind, hkind, htwice⟩ | ⟨kind, hkind, hneeded, hlacking⟩
    · rw [h.names]
      exact .inl ⟨kind.key, List.mem_map_of_mem hkind, htwice⟩
    · exact .inr ⟨kind.key, h.required kind hkind hneeded, hlacking⟩
  · exact fails_of_refused hobject hrefused

/-- An object is refused in which something refused stands under a known key. -/
theorem fails_inside (hobject : IsObject entries written) (hfits : Fits kinds IsValue entries)
    (place : Nat) {kind : FieldForm Char} (hkind : kinds[place]? = some kind) {value : List Char}
    (hvalue : (kind.key, value) ∈ entries) (hfails : ∀ a, Fails (shape.store place a) value) :
    Fails shape.read written := by
  rcases follows_or_refused (h.settled hfits) [] shape.blank with ⟨b, hfollows⟩ | hrefused
  · have hname : shape.fields[place]? = some kind.key := by
      rw [h.names, List.getElem?_map, hkind]
      rfl
    obtain ⟨a, made, htakes⟩ := hfollows.taken hvalue (findIdx?_eq h.distinct hname)
    exact absurd (hfails a) htakes.not_fails
  · exact fails_of_refused hobject hrefused

end Expects

end Record

end Switchboard.Json
