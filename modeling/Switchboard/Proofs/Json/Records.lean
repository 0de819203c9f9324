import Switchboard.Proofs.Fields
import Switchboard.Proofs.Json.Grammar

/-!
# Records in any order

An object is read entry by entry. `Record.Follows` says what comes of it when it is read: a known
key that was not seen sets its field, and an unknown one is passed over. So a record is taken from
every object that tells its fields (`Record.takes_of_tells`).
-/

namespace Switchboard.Json

variable {α β : Type} {r : Reader α} {a : α} {ahead later rest space written : List Char}

/-! ## What comes of the characters ahead -/

def Errs (r : Reader α) (ahead : List Char) : Prop :=
  ∀ place, ∃ flaw, r ⟨ahead, place⟩ = .error flaw

theorem Errs.bind (h : Errs r ahead) (f : α → Reader β) : Errs (r >>= f) ahead := by
  intro place
  obtain ⟨flaw, hflaw⟩ := h place
  exact ⟨flaw, by rw [bind_apply, hflaw]⟩

/-- A reader comes to what another one makes of the characters that are left. -/
def Leads (r : Reader β) (ahead : List Char) (r' : Reader β) (later : List Char) : Prop :=
  ∀ place, ∃ place', r ⟨ahead, place⟩ = r' ⟨later, place'⟩

theorem Reads.leads (h : Reads r ahead a later) (f : α → Reader β) :
    Leads (r >>= f) ahead (f a) later := by
  intro place
  obtain ⟨after, hafter⟩ := h place
  exact ⟨after, by rw [bind_apply, hafter]⟩

namespace Leads

variable {r' r'' : Reader α} {middle : List Char}

theorem trans (h : Leads r ahead r' middle) (h' : Leads r' middle r'' later) :
    Leads r ahead r'' later := by
  intro place
  obtain ⟨between, hbetween⟩ := h place
  obtain ⟨after, hafter⟩ := h' between
  exact ⟨after, hbetween.trans hafter⟩

theorem reads (h : Leads r ahead r' later) (hr : Reads r' later a rest) : Reads r ahead a rest := by
  intro place
  obtain ⟨between, hbetween⟩ := h place
  rw [hbetween]
  exact hr between

theorem errs (h : Leads r ahead r' later) (hr : Errs r' later) : Errs r ahead := by
  intro place
  obtain ⟨between, hbetween⟩ := h place
  rw [hbetween]
  exact hr between

end Leads

theorem PassesSpaces.leads (h : PassesSpaces r) (hspace : Space space) (ahead : List Char) :
    Leads r (space ++ ahead) r ahead := by
  intro place
  obtain ⟨place', hplace⟩ := exists_afterSpaces hspace ahead place
  exact ⟨place', by rw [h, hplace, ← h]⟩

theorem Errs.spaced (h : Errs r ahead) (hr : PassesSpaces r) (hspace : Space space) :
    Errs r (space ++ ahead) :=
  (hr.leads hspace ahead).errs h

theorem errs_failObject (what : Mismatch) (ahead : List Char) :
    Errs (failObject what : Reader α) ahead :=
  fun _ => ⟨_, rfl⟩

/-! ## Objects -/

/-- An entry as it stands in an object, its key spelled in any way. -/
structure IsEntry (entry : String × List Char) (member : Part × Part) : Prop where
  name : member.1.Spaced
  part : member.2.Spaced
  key : TextForm entry.1 member.1.value
  value : entry.2 = member.2.value

def IsObject (entries : List (String × List Char)) (written : List Char) : Prop :=
  ∃ members space, List.Forall₂ IsEntry entries members ∧ Space space ∧
    written = objectText members space

theorem isEntry_bare (entry : String × List Char) :
    IsEntry entry (.bare (quote entry.1), .bare entry.2) :=
  ⟨Part.spaced_bare _, Part.spaced_bare _, quote_form entry.1, rfl⟩

theorem isObject_writeObject (entries : List (String × List Char)) :
    IsObject entries (writeObject entries) := by
  refine ⟨entries.map fun entry => (.bare (quote entry.1), .bare entry.2), [], ?_, space_nil, ?_⟩
  · rw [List.forall₂_map_right_iff, List.forall₂_same]
    exact fun entry _ => isEntry_bare entry
  · have hmembers : ((entries.map fun entry => (Part.bare (quote entry.1), Part.bare entry.2)).map
        memberText) = entries.map fun entry => quote entry.1 ++ ':' :: entry.2 := by
      rw [List.map_map]
      refine List.map_congr_left fun entry _ => ?_
      simp only [Function.comp_apply, memberText, Part.bare_written]
    rw [objectText, hmembers]
    rfl

theorem IsObject.begins {entries : List (String × List Char)} (h : IsObject entries written) :
    ∃ later, written = '\x7b' :: later := by
  obtain ⟨members, space, -, -, rfl⟩ := h
  exact ⟨_, rfl⟩

theorem Takes.optional_object (h : Takes r written a) {entries : List (String × List Char)}
    (hobject : IsObject entries written) : Takes (Json.optional r) written (some a) := by
  obtain ⟨later, rfl⟩ := hobject.begins
  refine h.optional ?_
  rw [List.head?_cons]
  decide

def IsObjectOf (fields : List (FieldForm Char)) (written : List Char) : Prop :=
  ∃ entries, IsObject entries written ∧ Tells fields IsValue [] entries

theorem passesSpaces_nextKey (isFirst : Bool) : PassesSpaces (nextKey isFirst) :=
  passesSpaces_peekToken.bind

theorem reads_nextKey (isFirst : Bool) (hspace : Space space) (rest : List Char) :
    Reads (nextKey isFirst) ((if isFirst then [] else [',']) ++ (space ++ '"' :: rest)) true
      ('"' :: rest) := by
  cases isFirst with
  | true =>
    have hend : '"' ≠ '\x7d' := by decide
    have hfirst : Reads (nextKey true) ('"' :: rest) true ('"' :: rest) := by
      refine (reads_peekToken (by decide) rest).bind ?_
      simp only [if_neg hend, if_true]
      exact .pure true _
    exact hfirst.spaced (passesSpaces_nextKey true) hspace
  | false =>
    have hend : ',' ≠ '\x7d' := by decide
    refine (reads_peekToken (by decide) (space ++ '"' :: rest)).bind ?_
    simp only [if_neg hend, Bool.false_eq_true, if_false, if_true]
    exact (reads_advance ',' _).bind
      (((reads_peekToken (by decide) rest).spaced passesSpaces_peekToken hspace).bind
        (.pure true _))

theorem reads_nextKey_end (isFirst : Bool) (rest : List Char) :
    Reads (nextKey isFirst) ('\x7d' :: rest) false ('\x7d' :: rest) := by
  refine (reads_peekToken (by decide) rest).bind ?_
  simp only [if_true]
  exact .pure false _

theorem IsEntry.reads_key {entry : String × List Char} {member : Part × Part}
    (h : IsEntry entry member) (isFirst : Bool) (later : List Char) :
    ∃ behind, Reads (nextKey isFirst)
      ((if isFirst then [] else [',']) ++ (memberText member ++ later)) true ('"' :: behind) ∧
      Reads text behind entry.1 (member.1.after ++ ':' :: (member.2.written ++ later)) := by
  obtain ⟨behind, hquote, hreads⟩ := h.key.reads
  refine ⟨_, ?_, hreads _⟩
  have hnext := reads_nextKey isFirst h.name.before
    (behind ++ (member.1.after ++ ':' :: (member.2.written ++ later)))
  simpa only [memberText, Part.written, hquote, List.append_assoc, List.cons_append] using hnext

theorem reads_colon {part : Part} (hpart : part.Spaced) (rest : List Char) :
    Reads (punctuation ':' .noColon .endInObject) (part.after ++ ':' :: rest) () rest :=
  (reads_punctuation (by decide) _ _ rest).spaced passesSpaces_peekToken.bind hpart.after

namespace Record

variable {shape : Record α} {seen : List Nat} {a b : α} {entries : List (String × List Char)}

theorem place_some {key : String} {place : Nat}
    (h : shape.fields.findIdx? (· == key) = some place) : shape.fields[place]? = some key := by
  obtain ⟨hlength, hsame, -⟩ := List.findIdx?_eq_some_iff_getElem.1 h
  rw [List.getElem?_eq_getElem hlength]
  exact congrArg some (eq_of_beq hsame)

theorem place_none {key : String} (h : shape.fields.findIdx? (· == key) = none) :
    key ∉ shape.fields := by
  intro hmem
  have hsame := List.findIdx?_eq_none_iff.1 h key hmem
  rw [beq_self_eq_true] at hsame
  cases hsame

/-- A record in which some fields are set becomes `b` by some entries: each of a known key sets a
field that was not set before, and in the end none is missing. -/
inductive Follows (shape : Record α) : List Nat → α → List (String × List Char) → α → Prop
  | done {seen : List Nat} {a : α} (h : shape.missing? seen = none) : Follows shape seen a [] a
  | field {seen : List Nat} {a made b : α} {key : String} {value : List Char} {place : Nat}
    {entries : List (String × List Char)}
    (hplace : shape.fields.findIdx? (· == key) = some place) (hnew : seen.contains place = false)
    (hvalue : Takes (shape.store place a) value made)
    (hlater : Follows shape (place :: seen) made entries b) :
    Follows shape seen a ((key, value) :: entries) b
  | unknown {seen : List Nat} {a b : α} {key : String} {value : List Char}
    {entries : List (String × List Char)} (hplace : shape.fields.findIdx? (· == key) = none)
    (hvalue : IsValue value) (hlater : Follows shape seen a entries b) :
    Follows shape seen a ((key, value) :: entries) b

theorem passesSpaces_entriesOnto (isFirst : Bool) (seen : List Nat) (a : α) (fuel : Nat) :
    PassesSpaces (shape.entriesOnto isFirst seen a (fuel + 1)) :=
  (passesSpaces_nextKey isFirst).bind

section Entry

variable {entry : String × List Char} {member : Part × Part} {place fuel : Nat} {made : α}
  (h : IsEntry entry member) (isFirst : Bool)

include h

theorem leads_field (hplace : shape.fields.findIdx? (· == entry.1) = some place)
    (hnew : seen.contains place = false) (a : α) (fuel : Nat) (later : List Char) :
    Leads (shape.entriesOnto isFirst seen a (fuel + 1))
      ((if isFirst then [] else [',']) ++ (memberText member ++ later))
      (shape.store place a >>= fun a => shape.entriesOnto false (place :: seen) a fuel)
      (member.2.written ++ later) := by
  obtain ⟨behind, hnext, hkey⟩ := h.reads_key isFirst later
  refine (hnext.leads _).trans ?_
  simp only [if_true]
  refine ((reads_advance '"' behind).leads _).trans ((hkey.leads _).trans ?_)
  simp only [hplace, hnew, Bool.false_eq_true, if_false]
  exact (reads_colon h.name _).leads _

theorem leads_stored (hplace : shape.fields.findIdx? (· == entry.1) = some place)
    (hnew : seen.contains place = false) (hvalue : Takes (shape.store place a) entry.2 made)
    (hlater : Closes later) :
    Leads (shape.entriesOnto isFirst seen a (fuel + 2))
      ((if isFirst then [] else [',']) ++ (memberText member ++ later))
      (shape.entriesOnto false (place :: seen) made (fuel + 1)) later := by
  rw [h.value] at hvalue
  have hstored := (hvalue.reads _ (closes_space h.part.after hlater)).spaced hvalue.spaced
    h.part.before
  refine (leads_field h isFirst hplace hnew a (fuel + 1) later).trans ?_
  rw [Part.written, List.append_assoc, List.append_assoc]
  exact (hstored.leads _).trans ((passesSpaces_entriesOnto _ _ _ _).leads h.part.after later)

theorem leads_unknown (hplace : shape.fields.findIdx? (· == entry.1) = none)
    (hvalue : IsValue entry.2) (hlater : Closes later) :
    Leads (shape.entriesOnto isFirst seen a (fuel + 2))
      ((if isFirst then [] else [',']) ++ (memberText member ++ later))
      (shape.entriesOnto false seen a (fuel + 1)) later := by
  rw [h.value] at hvalue
  have hskipped := hvalue.reads_skip h.part.before (closes_space h.part.after hlater)
  obtain ⟨behind, hnext, hkey⟩ := h.reads_key isFirst later
  refine (hnext.leads _).trans ?_
  simp only [if_true]
  refine ((reads_advance '"' behind).leads _).trans ((hkey.leads _).trans ?_)
  simp only [hplace]
  refine ((reads_colon h.name _).leads _).trans ?_
  rw [Part.written, List.append_assoc, List.append_assoc]
  exact (hskipped.leads _).trans ((passesSpaces_entriesOnto _ _ _ _).leads h.part.after later)

theorem errs_repeated (hplace : shape.fields.findIdx? (· == entry.1) = some place)
    (hseen : seen.contains place = true) (a : α) (fuel : Nat) (later : List Char) :
    Errs (shape.entriesOnto isFirst seen a (fuel + 1))
      ((if isFirst then [] else [',']) ++ (memberText member ++ later)) := by
  obtain ⟨behind, hnext, hkey⟩ := h.reads_key isFirst later
  refine (hnext.leads _).errs ?_
  simp only [if_true]
  refine ((reads_advance '"' behind).leads _).errs ((hkey.leads _).errs ?_)
  simp only [hplace, hseen, if_true]
  exact errs_failObject _ _

end Entry

/-- The entries of an object that are still ahead, after the first ones or not, and its end. -/
def entriesAhead (isFirst : Bool) (members : List (Part × Part)) (space rest : List Char) :
    List Char :=
  partsAhead isFirst (members.map memberText) ++ (space ++ '\x7d' :: rest)

theorem entriesAhead_cons (isFirst : Bool) (member : Part × Part) (members : List (Part × Part))
    (space rest : List Char) :
    entriesAhead isFirst (member :: members) space rest =
      (if isFirst then [] else [',']) ++ (memberText member ++
        entriesAhead false members space rest) := by
  unfold entriesAhead
  rw [List.map_cons, partsAhead_cons, List.append_assoc, List.append_assoc]
  rfl

theorem closes_entriesAhead (members : List (Part × Part)) (hspace : Space space)
    (rest : List Char) : Closes (entriesAhead false members space rest) :=
  closes_more hspace (by decide) _ rest

/-- At the end of an object it is seen whether a field is missing. -/
theorem leads_end (isFirst : Bool) (seen : List Nat) (a : α) (fuel : Nat) (hspace : Space space)
    (rest : List Char) :
    Leads (shape.entriesOnto isFirst seen a (fuel + 1)) (entriesAhead isFirst [] space rest)
      (match shape.missing? seen with
      | some field => failObject (.missing (shape.fieldName field))
      | none => pure a) ('\x7d' :: rest) := by
  unfold entriesAhead
  rw [List.map_nil, partsAhead_nil, List.nil_append]
  exact ((passesSpaces_entriesOnto _ _ _ _).leads hspace _).trans
    ((reads_nextKey_end isFirst rest).leads _)

/-- The entries of an object are read one after the other. -/
theorem Follows.reads (h : shape.Follows seen a entries b) {members : List (Part × Part)}
    (hmembers : List.Forall₂ IsEntry entries members) (isFirst : Bool) {fuel : Nat}
    (hfuel : entries.length ≤ fuel) (hspace : Space space) (rest : List Char) :
    Reads (shape.entriesOnto isFirst seen a (fuel + 1)) (entriesAhead isFirst members space rest) b
      ('\x7d' :: rest) := by
  induction h generalizing members isFirst fuel with
  | @done seen a hmissing =>
    cases hmembers
    refine (leads_end isFirst seen a fuel hspace rest).reads ?_
    simp only [hmissing]
    exact .pure _ _
  | field hplace hnew hvalue _ ih =>
    cases hmembers with
    | @cons _ member _ members hentry hmembers =>
    rw [List.length_cons] at hfuel
    obtain ⟨fuel, rfl⟩ : ∃ n, fuel = n + 1 := ⟨fuel - 1, by omega⟩
    rw [entriesAhead_cons]
    exact (leads_stored hentry isFirst hplace hnew hvalue
      (closes_entriesAhead members hspace rest)).reads (ih hmembers false (by omega))
  | unknown hplace hvalue _ ih =>
    cases hmembers with
    | @cons _ member _ members hentry hmembers =>
    rw [List.length_cons] at hfuel
    obtain ⟨fuel, rfl⟩ : ∃ n, fuel = n + 1 := ⟨fuel - 1, by omega⟩
    rw [entriesAhead_cons]
    exact (leads_unknown hentry isFirst hplace hvalue
      (closes_entriesAhead members hspace rest)).reads (ih hmembers false (by omega))

/-! ## Whole objects -/

theorem leads_read (shape : Record α) (ahead : List Char) :
    Leads shape.read ('\x7b' :: ahead)
      (shape.entriesOnto true [] shape.blank (ahead.length + 1) >>= fun a =>
        closeObject >>= fun _ => pure a) ahead := by
  have hlist : '\x7b' ≠ '[' := by decide
  refine ((reads_peekValue (by decide) ahead).leads _).trans ?_
  simp only [if_neg hlist, if_true]
  refine ((reads_advance '\x7b' ahead).leads _).trans fun place => ⟨place, rfl⟩

theorem length_le_entriesAhead {members : List (Part × Part)}
    (hmembers : List.Forall₂ IsEntry entries members) (space rest : List Char) :
    entries.length ≤ (entriesAhead true members space rest).length := by
  have hlength := length_le_commaSeparated (members.map memberText)
  rw [List.length_map, ← hmembers.length_eq] at hlength
  rw [entriesAhead, partsAhead, if_pos rfl, List.length_append, List.length_append,
    List.length_cons]
  omega

theorem objectText_append (members : List (Part × Part)) (space rest : List Char) :
    objectText members space ++ rest = '\x7b' :: entriesAhead true members space rest := by
  simp only [objectText, entriesAhead, partsAhead, if_true, List.cons_append, List.append_assoc,
    List.nil_append]

theorem takes_of_follows (hobject : IsObject entries written)
    (h : shape.Follows [] shape.blank entries b) : Takes shape.read written b := by
  obtain ⟨members, space, hmembers, hspace, rfl⟩ := hobject
  refine ⟨⟨'\x7b', _, rfl, by decide, by decide⟩, passesSpaces_peekValue.bind, fun rest _ => ?_⟩
  rw [objectText_append]
  refine (leads_read shape _).reads ?_
  exact (h.reads hmembers true (length_le_entriesAhead hmembers space rest) hspace rest).bind
    ((reads_punctuation (by decide) _ _ rest).bind (.pure b rest))

/-- Each field is stored in the record whose fields `seen` are set, from any of its forms. -/
def Stores (shape : Record α) (fields : List (FieldForm Char)) (part : List Nat → α) : Prop :=
  ∀ seen {place field value}, fields[place]? = some field → field.Form value →
    Takes (shape.store place (part seen)) value (part (place :: seen))

/-- Entries that tell a record are followed to it. By induction on them. -/
theorem follows_of_tells {fields : List (FieldForm Char)} {part : List Nat → α}
    (h : Assembles shape.fields shape.required shape.blank fields part a)
    (hstores : shape.Stores fields part) (htells : Tells fields IsValue seen entries) :
    shape.Follows seen (part seen) entries a := by
  induction entries generalizing seen with
  | nil =>
    have hseen := fun place field hfield hplace =>
      htells.absent place field hfield hplace List.not_mem_nil
    rw [h.whole seen hseen]
    exact .done (h.none_missing hseen)
  | cons entry entries ih =>
    obtain ⟨key, value⟩ := entry
    cases hplace : shape.fields.findIdx? (· == key) with
    | none =>
      have hunknown := place_none hplace
      rw [h.names] at hunknown
      exact .unknown hplace (htells.unknown _ List.mem_cons_self hunknown)
        (ih (htells.of_unknown hunknown))
    | some place =>
      have hknown := place_some hplace
      rw [h.names, List.getElem?_map, Option.map_eq_some_iff] at hknown
      obtain ⟨field, hfield, rfl⟩ := hknown
      have hvalue := htells.given field (List.mem_of_getElem? hfield) value List.mem_cons_self
      exact .field hplace (htells.not_seen hfield) (hstores seen hfield hvalue)
        (ih (htells.of_known h.distinct hfield))

/-- **A record is taken from an object that tells its fields**, in any order. -/
theorem takes_of_tells {fields : List (FieldForm Char)} {part : List Nat → α}
    (h : Assembles shape.fields shape.required shape.blank fields part a)
    (hstores : shape.Stores fields part) (hobject : IsObjectOf fields written) :
    Takes shape.read written a := by
  obtain ⟨entries, hobject, htells⟩ := hobject
  have hfollows := follows_of_tells h hstores htells
  rw [h.blank] at hfollows
  exact takes_of_follows hobject hfollows

end Record

end Switchboard.Json
