import Switchboard.Proofs.Fields
import Switchboard.Proofs.MessagePack.Grammar

/-!
# Records that others write

A record may be a map of its fields in any order, with entries in between whose keys it does not
know, or a list of its fields in order. It is read from every map that tells its fields
(`Record.reads_of_map`) and from the list of them (`Record.reads_of_list`), if each field is stored
as `Stores` says. In the other direction, a map that is read at all repeats no known key and lacks
no required one (`Record.not_read_of_faulty`).
-/

namespace Switchboard.MessagePack

/-- Keys and values in turn, each key a text in any of its forms. -/
inductive Entries : List (String × List UInt8) → List UInt8 → Prop
  | nil : Entries [] []
  | cons {key : String} {name value later : List UInt8} {entries : List (String × List UInt8)}
    (hkey : TextForm key name) (h : Entries entries later) :
    Entries ((key, value) :: entries) (name ++ (value ++ later))

def IsMap (entries : List (String × List UInt8)) (written : List UInt8) : Prop :=
  ∃ header later,
    MapHeader entries.length header ∧ Entries entries later ∧ written = header ++ later

/-- A map that tells the fields of a record. The values under other keys lie at most so deep. -/
def IsMapOf (fields : List (FieldForm UInt8)) (depth : Nat) (written : List UInt8) : Prop :=
  ∃ entries, IsMap entries written ∧ Tells fields (IsValue depth) [] entries

def IsListOf (fields : List (FieldForm UInt8)) (written : List UInt8) : Prop :=
  ∃ header values, ListHeader fields.length header ∧ List.Forall₂ FieldForm.Form fields values ∧
    written = header ++ values.flatten

/-- A map that repeats a known key or lacks a required one, whatever its values are. -/
def IsFaultyMap (known required : List String) (written : List UInt8) : Prop :=
  ∃ entries, IsMap entries written ∧ (∀ entry ∈ entries, ∃ depth, IsValue depth entry.2) ∧
    ((∃ key ∈ known, 1 < (keys entries).count key) ∨ ∃ key ∈ required, key ∉ keys entries)

theorem IsMap.ne_nil {entries : List (String × List UInt8)} {written : List UInt8}
    (h : IsMap entries written) : written ≠ [] := by
  obtain ⟨header, later, hheader, -, rfl⟩ := h
  exact List.append_ne_nil_of_left_ne_nil hheader.ne_nil later

theorem IsMapOf.ne_nil {fields : List (FieldForm UInt8)} {depth : Nat} {written : List UInt8}
    (h : IsMapOf fields depth written) : written ≠ [] := by
  obtain ⟨entries, hmap, -⟩ := h
  exact hmap.ne_nil

theorem IsListOf.ne_nil {fields : List (FieldForm UInt8)} {written : List UInt8}
    (h : IsListOf fields written) : written ≠ [] := by
  obtain ⟨header, values, hheader, -, rfl⟩ := h
  exact List.append_ne_nil_of_left_ne_nil hheader.ne_nil _

theorem IsFaultyMap.ne_nil {known required : List String} {written : List UInt8}
    (h : IsFaultyMap known required written) : written ≠ [] := by
  obtain ⟨entries, hmap, -⟩ := h
  exact hmap.ne_nil

namespace Record

variable {α : Type} {shape : Record α}

theorem place_some {key : String} {place : Nat}
    (h : shape.fields.findIdx? (·.toUTF8 == key.toUTF8) = some place) :
    shape.fields[place]? = some key := by
  obtain ⟨hlength, hsame, -⟩ := List.findIdx?_eq_some_iff_getElem.1 h
  rw [List.getElem?_eq_getElem hlength]
  exact congrArg some (String.toByteArray_inj.1 (eq_of_beq hsame))

theorem place_none {key : String}
    (h : shape.fields.findIdx? (·.toUTF8 == key.toUTF8) = none) : key ∉ shape.fields := by
  intro hmem
  have hsame := List.findIdx?_eq_none_iff.1 h key hmem
  rw [beq_self_eq_true] at hsame
  cases hsame

theorem reads_unknown_entry {depth n : Nat} {seen : List Nat} {a b : α}
    {name value later : List UInt8} (hkey : Reads (shape.key depth) name none)
    (hvalue : IsValue depth value) (hlater : Reads (shape.entriesOnto depth seen a n) later b) :
    Reads (shape.entriesOnto depth seen a (n + 1)) (name ++ (value ++ later)) b :=
  hkey.bind (hvalue.reads_skip.bind hlater)

/-- Each field is stored in the record whose fields `seen` are set, from any of its forms. -/
def Stores (shape : Record α) (fields : List (FieldForm UInt8)) (part : List Nat → α) : Prop :=
  ∀ depth seen {place field value}, fields[place]? = some field → field.Form value →
    Reads (shape.store depth place (part seen)) value (part (place :: seen))

section Assembles

variable {fields : List (FieldForm UInt8)} {part : List Nat → α} {a : α}
  (h : Assembles shape.fields shape.required shape.blank fields part a)
  (hstores : shape.Stores fields part)

include h hstores

/-- The entries that tell a record are read in the order in which they stand. By induction on
them: each entry either sets a field that was not seen before, or is passed over. -/
theorem reads_entriesOnto {depth : Nat} {entries : List (String × List UInt8)}
    {written : List UInt8} (hentries : Entries entries written) {seen : List Nat}
    (htells : Tells fields (IsValue depth) seen entries) :
    Reads (shape.entriesOnto depth seen (part seen) entries.length) written a := by
  induction hentries generalizing seen with
  | nil =>
    have hseen := fun place field hfield hplace =>
      htells.absent place field hfield hplace List.not_mem_nil
    have hend := shape.reads_end depth (a := part seen) (h.none_missing hseen)
    rw [h.whole seen hseen] at hend ⊢
    exact hend
  | @cons key name value later entries hkey _ ih =>
    have hname := hkey.reads_key shape depth
    cases hplace : shape.fields.findIdx? (·.toUTF8 == key.toUTF8) with
    | none =>
      have hunknown := place_none hplace
      rw [h.names] at hunknown
      rw [hplace] at hname
      exact reads_unknown_entry hname (htells.unknown _ List.mem_cons_self hunknown)
        (ih (htells.of_unknown hunknown))
    | some place =>
      have hknown := place_some hplace
      rw [h.names, List.getElem?_map, Option.map_eq_some_iff] at hknown
      obtain ⟨field, hfield, rfl⟩ := hknown
      rw [hplace] at hname
      have hvalue := htells.given field (List.mem_of_getElem? hfield) value List.mem_cons_self
      exact shape.reads_entry depth hname (htells.not_seen hfield)
        (hstores depth seen hfield hvalue) (ih (htells.of_known h.distinct hfield))

/-- **A record is read from a map that tells its fields**, in any order. -/
theorem reads_of_map {depth : Nat} {written : List UInt8} (hmap : IsMapOf fields depth written) :
    Reads (shape.read (depth + 1)) written a := by
  obtain ⟨entries, ⟨header, later, hheader, hentries, rfl⟩, htells⟩ := hmap
  have hreads := reads_entriesOnto h hstores hentries htells
  rw [h.blank] at hreads
  exact hheader.reads.bind hreads

/-- The values of a list are stored from the field on that is next. By induction on the fields that
are left. -/
theorem reads_elementsOnto (depth : Nat) {left : List (FieldForm UInt8)}
    {values : List (List UInt8)} (hforms : List.Forall₂ FieldForm.Form left values) {next : Nat}
    (hleft : fields.drop next = left) {seen : List Nat} (hseen : ∀ place < next, place ∈ seen) :
    Reads (shape.elementsOnto depth left.length next (part seen) left.length) values.flatten a := by
  induction hforms generalizing next seen with
  | nil =>
    have hlength : fields.length ≤ next := List.drop_eq_nil_iff.1 hleft
    have hwhole : part seen = a := by
      refine h.whole seen fun place field hfield hplace => absurd (hseen place ?_) hplace
      have := (List.getElem?_eq_some_iff.1 hfield).1
      omega
    rw [hwhole]
    exact Reads.pure a
  | @cons field value left values hform _ ih =>
    have hfield : fields[next]? = some field := by
      rw [← Nat.add_zero next, ← List.getElem?_drop, hleft]
      rfl
    have hlater : fields.drop (next + 1) = left := by
      rw [← List.drop_drop, hleft]
      rfl
    refine (hstores depth seen hfield hform).bind (ih hlater fun place hplace => ?_)
    by_cases hlast : place = next
    · exact hlast ▸ List.mem_cons_self
    · exact List.mem_cons_of_mem next (hseen place (by omega))

/-- **A record is read from the list of its fields.** -/
theorem reads_of_list {depth : Nat} {written : List UInt8} (hlist : IsListOf fields written) :
    Reads (shape.read (depth + 1)) written a := by
  obtain ⟨header, values, hheader, hforms, rfl⟩ := hlist
  have hnone : ∀ place < 0, place ∈ ([] : List Nat) := fun place hplace =>
    absurd hplace (Nat.not_lt_zero place)
  have hreads := reads_elementsOnto h hstores depth hforms List.drop_zero hnone
  have hlength : shape.fields.length = fields.length := by rw [h.names, List.length_map]
  rw [h.blank] at hreads
  refine hheader.reads.bind ?_
  simp only [within, hlength]
  exact hreads

end Assembles

/-! ## Maps that are not read -/

/-- **Entries that are read are intact.** By induction on them; a value that is stored was taken
whole, so the reading goes on at the entry behind it. -/
theorem intact_of_entriesOnto (hdistinct : shape.fields.Nodup)
    (hpasses : ∀ depth field a, Passes (shape.store depth field a)) {depth : Nat}
    {entries : List (String × List UInt8)} {written rest : List UInt8}
    (hentries : Entries entries written)
    (hvalues : ∀ entry ∈ entries, ∃ depth, IsValue depth entry.2)
    {seen : List Nat} {a b : α} {c d : Cursor} (hc : c.view = written ++ rest)
    (h : shape.entriesOnto depth seen a entries.length c = .ok (b, d)) :
    Intact shape.fields shape.required seen (keys entries) := by
  induction hentries generalizing seen a c with
  | nil =>
    cases hmissing : shape.missing? seen with
    | some field =>
      simp only [List.length_nil, entriesOnto, hmissing] at h
      cases h
    | none => exact Intact.nil hmissing
  | @cons key name value later entries hkey _ ih =>
    obtain ⟨place?, c', hplace, h⟩ := ok_of_bind h
    obtain ⟨found, hfound, hview⟩ := hkey.reads_key shape depth c (value ++ later ++ rest)
      (by rw [hc, List.append_assoc])
    rw [hplace] at hfound
    cases hfound
    obtain ⟨levels, hvalue⟩ := hvalues _ List.mem_cons_self
    have hothers := fun entry hentry => hvalues entry (List.mem_cons_of_mem (key, value) hentry)
    rw [List.append_assoc] at hview
    cases hplace : shape.fields.findIdx? (·.toUTF8 == key.toUTF8) with
    | none =>
      rw [hplace] at h
      obtain ⟨_, e, hskip, h⟩ := ok_of_bind h
      have hrest := Passes.view_eq (r := skip depth) (fun _ _ _ h => ⟨depth, h⟩) hvalue hview hskip
      exact (ih hothers hrest h).cons_unknown (place_none hplace)
    | some place =>
      rw [hplace] at h
      by_cases hseen : seen.contains place
      · simp only [hseen, if_true] at h
        cases h
      · simp only [hseen, Bool.false_eq_true, if_false] at h
        obtain ⟨made, e, hstore, h⟩ := ok_of_bind h
        have hrest := (hpasses depth place a).view_eq hvalue hview hstore
        rw [List.contains_iff_mem] at hseen
        exact (ih hothers hrest h).cons_known hdistinct (place_some hplace) hseen

/-- **A faulty map is not read.** -/
theorem not_read_of_faulty (hdistinct : shape.fields.Nodup)
    (hrequired : shape.required ≤ shape.fields.length)
    (hpasses : ∀ depth field a, Passes (shape.store depth field a)) {written : List UInt8}
    (hmap : IsFaultyMap shape.fields (shape.fields.take shape.required) written) {depth : Nat}
    {c : Cursor} (hc : c.view = written) (found : α × Cursor) : shape.read depth c ≠ .ok found := by
  intro h
  obtain ⟨entries, ⟨header, later, hheader, hentries, rfl⟩, hvalues, hfault⟩ := hmap
  obtain ⟨value, c', hvalue, h⟩ := ok_of_bind h
  obtain ⟨e, he, hview⟩ := hheader.reads c later hc
  rw [hvalue] at he
  cases he
  cases depth with
  | zero => cases h
  | succ depth =>
    have hintact : Intact shape.fields shape.required [] (keys entries) :=
      intact_of_entriesOnto hdistinct hpasses hentries hvalues (by rw [hview, List.append_nil]) h
    exact hintact.not_faulty hrequired hfault

end Record

end Switchboard.MessagePack
