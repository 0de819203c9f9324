import Mathlib.Data.List.Forall2

/-!
# The fields of a record

A record is written as entries, each a key and what stands under it, in any order and with entries
in between whose keys are unknown. `Tells` says that some entries tell the fields of a record, and
`Assembles` how a record is put together from fields that are read one by one. `Intact` is what is
left to be said of the keys alone: none is repeated and none that is required is lacking. Entries
that only fit some fields (`Fits`) tell them or are `Faulty`.
-/

namespace Switchboard

variable {α β : Type}

/-- How a field of a record may be written: its key, the forms of its value, and whether it may be
left out. -/
structure FieldForm (β : Type) where
  key : String
  Form : List β → Prop
  Optional : Prop

abbrev keys (entries : List (String × List β)) : List String :=
  entries.map Prod.fst

/-- Entries that tell those fields that were not `seen` before: each at most once and in one of its
forms, or not at all if it may be left out. What stands under other keys is unknown. -/
structure Tells (fields : List (FieldForm β)) (Unknown : List β → Prop) (seen : List Nat)
    (entries : List (String × List β)) : Prop where
  once : ∀ field ∈ fields, (keys entries).count field.key ≤ 1
  fresh : ∀ place ∈ seen, ∀ field, fields[place]? = some field → field.key ∉ keys entries
  given : ∀ field ∈ fields, ∀ value, (field.key, value) ∈ entries → field.Form value
  absent : ∀ place field, fields[place]? = some field → place ∉ seen →
    field.key ∉ keys entries → field.Optional
  unknown : ∀ entry ∈ entries, entry.1 ∉ fields.map FieldForm.key → Unknown entry.2

theorem place_inj {fields : List (FieldForm β)} (hdistinct : (fields.map FieldForm.key).Nodup)
    {i j : Nat} {field other : FieldForm β} (hi : fields[i]? = some field)
    (hj : fields[j]? = some other) (hkey : field.key = other.key) : i = j := by
  have hi' : (fields.map FieldForm.key)[i]? = some field.key := by rw [List.getElem?_map, hi]; rfl
  have hj' : (fields.map FieldForm.key)[j]? = some other.key := by rw [List.getElem?_map, hj]; rfl
  have hlength : i < (fields.map FieldForm.key).length := (List.getElem?_eq_some_iff.1 hi').1
  exact (List.getElem?_inj hlength hdistinct).1 (by rw [hi', hj', hkey])

namespace Tells

variable {fields : List (FieldForm β)} {Unknown : List β → Prop} {place : Nat} {seen : List Nat}
  {key : String} {value : List β} {entries : List (String × List β)} {field : FieldForm β}

theorem count_le (h : Tells fields Unknown seen ((key, value) :: entries))
    (hfield : field ∈ fields) : (keys entries).count field.key ≤ 1 :=
  Nat.le_trans ((List.sublist_cons_self key (keys entries)).count_le field.key)
    (h.once field hfield)

/-- What comes after the entry of an unknown key tells the same fields. -/
theorem of_unknown (h : Tells fields Unknown seen ((key, value) :: entries))
    (hkey : key ∉ fields.map FieldForm.key) : Tells fields Unknown seen entries where
  once _ hfield := h.count_le hfield
  fresh place hplace field hfield hmem :=
    h.fresh place hplace field hfield (List.mem_cons_of_mem key hmem)
  given field hfield value hvalue := h.given field hfield value (List.mem_cons_of_mem _ hvalue)
  absent place field hfield hplace hmem := by
    refine h.absent place field hfield hplace fun hcons => ?_
    rcases List.mem_cons.1 hcons with rfl | hcons
    · exact hkey (List.mem_map_of_mem (List.mem_of_getElem? hfield))
    · exact hmem hcons
  unknown entry hentry := h.unknown entry (List.mem_cons_of_mem _ hentry)

/-- What comes after the entry of a field tells the other ones. -/
theorem of_known (h : Tells fields Unknown seen ((field.key, value) :: entries))
    (hdistinct : (fields.map FieldForm.key).Nodup) (hfield : fields[place]? = some field) :
    Tells fields Unknown (place :: seen) entries where
  once _ hother := h.count_le hother
  fresh other hother field' hfield' hmem := by
    rcases List.mem_cons.1 hother with rfl | hseen
    · rw [hfield] at hfield'
      cases hfield'
      have honce := h.once field (List.mem_of_getElem? hfield)
      have hcount := List.count_pos_iff.2 hmem
      simp only [keys, List.map_cons, List.count_cons_self] at honce hcount
      omega
    · exact h.fresh other hseen field' hfield' (List.mem_cons_of_mem _ hmem)
  given field hfield value hvalue := h.given field hfield value (List.mem_cons_of_mem _ hvalue)
  absent other field' hfield' hother hmem := by
    refine h.absent other field' hfield' (fun hseen => hother (List.mem_cons_of_mem place hseen)) ?_
    intro hcons
    rcases List.mem_cons.1 hcons with hsame | hcons
    · rw [place_inj hdistinct hfield' hfield hsame] at hother
      exact hother List.mem_cons_self
    · exact hmem hcons
  unknown entry hentry := h.unknown entry (List.mem_cons_of_mem _ hentry)

theorem not_seen (h : Tells fields Unknown seen ((field.key, value) :: entries))
    (hfield : fields[place]? = some field) : seen.contains place = false := by
  rw [List.contains_eq_mem, decide_eq_false_iff_not]
  exact fun hseen => h.fresh place hseen field hfield List.mem_cons_self

theorem of_perm {other : List (String × List β)} (h : Tells fields Unknown seen entries)
    (hperm : entries.Perm other) : Tells fields Unknown seen other where
  once field hfield := by
    rw [← (hperm.map Prod.fst).count_eq]
    exact h.once field hfield
  fresh place hplace field hfield hmem :=
    h.fresh place hplace field hfield ((hperm.map Prod.fst).mem_iff.2 hmem)
  given field hfield value hvalue := h.given field hfield value (hperm.mem_iff.2 hvalue)
  absent place field hfield hplace hmem :=
    h.absent place field hfield hplace fun hkey => hmem ((hperm.map Prod.fst).mem_iff.1 hkey)
  unknown entry hentry := h.unknown entry (hperm.mem_iff.2 hentry)

theorem cons_unknown (h : Tells fields Unknown seen entries)
    (hkey : key ∉ fields.map FieldForm.key) (hvalue : Unknown value) :
    Tells fields Unknown seen ((key, value) :: entries) := by
  have hother {field : FieldForm β} (hfield : field ∈ fields) : key ≠ field.key := by
    intro hsame
    exact hkey (hsame ▸ List.mem_map_of_mem hfield)
  constructor
  · intro field hfield
    rw [keys, List.map_cons, List.count_cons_of_ne (hother hfield)]
    exact h.once field hfield
  · intro place hplace field hfield hmem
    rcases List.mem_cons.1 hmem with hsame | hmem
    · exact hother (List.mem_of_getElem? hfield) hsame.symm
    · exact h.fresh place hplace field hfield hmem
  · intro field hfield other hmem
    rcases List.mem_cons.1 hmem with hsame | hmem
    · exact absurd (Prod.mk.inj hsame).1.symm (hother hfield)
    · exact h.given field hfield other hmem
  · exact fun place field hfield hplace hmem =>
      h.absent place field hfield hplace fun hlater => hmem (List.mem_cons_of_mem key hlater)
  · intro entry hentry hunknown
    rcases List.mem_cons.1 hentry with rfl | hentry
    · exact hvalue
    · exact h.unknown entry hentry hunknown

end Tells

/-- Entries that tell the fields in their order, without some that may be left out. -/
inductive Lists : List (FieldForm β) → List (String × List β) → Prop
  | nil : Lists [] []
  | given {field : FieldForm β} {fields : List (FieldForm β)} {value : List β}
    {entries : List (String × List β)} (h : field.Form value) (hlater : Lists fields entries) :
    Lists (field :: fields) ((field.key, value) :: entries)
  | omitted {field : FieldForm β} {fields : List (FieldForm β)} {entries : List (String × List β)}
    (h : field.Optional) (hlater : Lists fields entries) : Lists (field :: fields) entries

namespace Lists

variable {fields : List (FieldForm β)} {entries : List (String × List β)}

theorem sublist (h : Lists fields entries) : (keys entries).Sublist (fields.map FieldForm.key) := by
  induction h with
  | nil => exact .slnil
  | @given field _ _ _ _ _ ih => exact ih.cons_cons field.key
  | @omitted field _ _ _ _ ih => exact ih.cons field.key

/-- By induction on the fields: the key of one is not among those of the later ones. -/
theorem of_mem (h : Lists fields entries) (hdistinct : (fields.map FieldForm.key).Nodup)
    {field : FieldForm β} (hfield : field ∈ fields) :
    (∀ value, (field.key, value) ∈ entries → field.Form value) ∧
      (field.key ∉ keys entries → field.Optional) := by
  induction h with
  | nil => cases hfield
  | @given first fields value entries hform hlater ih =>
    rw [List.map_cons, List.nodup_cons] at hdistinct
    rcases List.mem_cons.1 hfield with rfl | hmem
    · refine ⟨fun other hother => ?_, fun hnone => absurd List.mem_cons_self hnone⟩
      rcases List.mem_cons.1 hother with hsame | hother
      · cases hsame
        exact hform
      · exact absurd (hlater.sublist.subset (List.mem_map_of_mem hother)) hdistinct.1
    · obtain ⟨hgiven, habsent⟩ := ih hdistinct.2 hmem
      refine ⟨fun other hother => ?_, fun hnone => ?_⟩
      · rcases List.mem_cons.1 hother with hsame | hother
        · rw [← (Prod.mk.inj hsame).1] at hdistinct
          exact absurd (List.mem_map_of_mem hmem) hdistinct.1
        · exact hgiven other hother
      · exact habsent fun hkey => hnone (List.mem_cons_of_mem _ hkey)
  | @omitted first fields entries hoptional hlater ih =>
    rw [List.map_cons, List.nodup_cons] at hdistinct
    rcases List.mem_cons.1 hfield with rfl | hmem
    · exact ⟨fun other hother =>
        absurd (hlater.sublist.subset (List.mem_map_of_mem hother)) hdistinct.1, fun _ => hoptional⟩
    · exact ih hdistinct.2 hmem

theorem tells (h : Lists fields entries) (hdistinct : (fields.map FieldForm.key).Nodup)
    (Unknown : List β → Prop) : Tells fields Unknown [] entries where
  once field _ := Nat.le_trans (h.sublist.count_le field.key)
    (List.nodup_iff_count.1 hdistinct field.key)
  fresh _ hplace := absurd hplace List.not_mem_nil
  given _ hfield := (h.of_mem hdistinct hfield).1
  absent _ _ hfield _ := (h.of_mem hdistinct (List.mem_of_getElem? hfield)).2
  unknown _ hentry hunknown := absurd (h.sublist.subset (List.mem_map_of_mem hentry)) hunknown

end Lists

/-- How a record is put together whose fields have the keys `names`, of which the first ones are
`required`: `part seen` is the record in which the fields `seen` are set as they are in `a`, and the
others have their defaults. -/
structure Assembles (names : List String) (required : Nat) (blank : α) (fields : List (FieldForm β))
    (part : List Nat → α) (a : α) : Prop where
  names : names = fields.map FieldForm.key
  distinct : (fields.map FieldForm.key).Nodup
  blank : part [] = blank
  required : ∀ place < required, ∃ field, fields[place]? = some field ∧ ¬ field.Optional
  whole : ∀ seen, (∀ place field, fields[place]? = some field → place ∉ seen → field.Optional) →
    part seen = a

theorem Assembles.none_missing {names : List String} {required : Nat} {blank a : α}
    {fields : List (FieldForm β)} {part : List Nat → α}
    (h : Assembles names required blank fields part a) {seen : List Nat}
    (hseen : ∀ place field, fields[place]? = some field → place ∉ seen → field.Optional) :
    ((List.range required).find? fun field => !seen.contains field) = none := by
  rw [List.find?_eq_none]
  intro place hplace hmissing
  obtain ⟨field, hfield, hrequired⟩ := h.required place (List.mem_range.1 hplace)
  refine hrequired (hseen place field hfield fun hmem => ?_)
  rw [List.contains_iff_mem.2 hmem] at hmissing
  cases hmissing

/-! ## Keys -/

/-- Among some keys no known one comes twice and none that was `seen` comes again, and every
required one comes that was not. -/
structure Intact (names : List String) (required : Nat) (seen : List Nat) (keys : List String) :
    Prop where
  once : ∀ key ∈ names, keys.count key ≤ 1
  fresh : ∀ place ∈ seen, ∀ key, names[place]? = some key → key ∉ keys
  there : ∀ place < required, ∀ key, names[place]? = some key → place ∈ seen ∨ key ∈ keys

namespace Intact

variable {names : List String} {required place : Nat} {seen : List Nat} {key : String}
  {later : List String}

theorem nil (h : ((List.range required).find? fun field => !seen.contains field) = none) :
    Intact names required seen [] where
  once _ _ := Nat.zero_le 1
  fresh _ _ _ _ := List.not_mem_nil
  there place hplace key _ := by
    have hseen := List.find?_eq_none.1 h place (List.mem_range.2 hplace)
    simpa using hseen

theorem cons_unknown (h : Intact names required seen later) (hkey : key ∉ names) :
    Intact names required seen (key :: later) where
  once other hother := by
    have hne : key ≠ other := by
      intro hsame
      exact hkey (hsame ▸ hother)
    rw [List.count_cons_of_ne hne]
    exact h.once other hother
  fresh place hplace other hother hmem := by
    rcases List.mem_cons.1 hmem with rfl | hmem
    · exact hkey (List.mem_of_getElem? hother)
    · exact h.fresh place hplace other hother hmem
  there place hplace other hother :=
    (h.there place hplace other hother).imp_right (List.mem_cons_of_mem key)

theorem cons_known (h : Intact names required (place :: seen) later) (hdistinct : names.Nodup)
    (hkey : names[place]? = some key) (hnew : place ∉ seen) :
    Intact names required seen (key :: later) where
  once other hother := by
    by_cases hsame : key = other
    · subst hsame
      have hnone := List.count_eq_zero.2 (h.fresh place List.mem_cons_self key hkey)
      have hone : (key :: later).count key = later.count key + 1 := List.count_cons_self
      omega
    · rw [List.count_cons_of_ne hsame]
      exact h.once other hother
  fresh other hother key' hkey' hmem := by
    rcases List.mem_cons.1 hmem with rfl | hmem
    · have hlength := (List.getElem?_eq_some_iff.1 hkey).1
      have hsame := (List.getElem?_inj hlength hdistinct).1 (hkey.trans hkey'.symm)
      exact hnew (hsame ▸ hother)
    · exact h.fresh other (List.mem_cons_of_mem place hother) key' hkey' hmem
  there other hother key' hkey' := by
    rcases h.there other hother key' hkey' with hmem | hmem
    · rcases List.mem_cons.1 hmem with rfl | hmem
      · rw [hkey] at hkey'
        cases hkey'
        exact .inr List.mem_cons_self
      · exact .inl hmem
    · exact .inr (List.mem_cons_of_mem key hmem)

/-- Keys that repeat a known one or lack a required one are not intact. -/
theorem not_faulty (h : Intact names required [] later) (hrequired : required ≤ names.length) :
    ¬ ((∃ key ∈ names, 1 < later.count key) ∨ ∃ key ∈ names.take required, key ∉ later) := by
  rintro (⟨key, hkey, htwice⟩ | ⟨key, hkey, hmissing⟩)
  · have honce := h.once key hkey
    omega
  · obtain ⟨place, hplace, hkey⟩ := List.mem_take_iff_getElem.1 hkey
    have hname : names[place]? = some key := by
      rw [List.getElem?_eq_getElem (by omega), hkey]
    rcases h.there place (by omega) key hname with hmem | hmem
    · cases hmem
    · exact hmissing hmem

end Intact

/-! ## Entries that may be faulty -/

/-- Entries under whose known keys stands what may stand there, however often each key comes. -/
structure Fits (fields : List (FieldForm β)) (Unknown : List β → Prop)
    (entries : List (String × List β)) : Prop where
  given : ∀ field ∈ fields, ∀ value, (field.key, value) ∈ entries → field.Form value
  unknown : ∀ entry ∈ entries, entry.1 ∉ fields.map FieldForm.key → Unknown entry.2

/-- Entries that repeat a known key, or lack one that may not be left out. -/
def Faulty (fields : List (FieldForm β)) (entries : List (String × List β)) : Prop :=
  (∃ field ∈ fields, 1 < (keys entries).count field.key) ∨
    ∃ field ∈ fields, ¬ field.Optional ∧ field.key ∉ keys entries

def AnyForm {γ : Type} (Form : γ → List β → Prop) (written : List β) : Prop :=
  ∃ c, Form c written

section Faults

variable {fields kinds : List (FieldForm β)} {Unknown : List β → Prop}
  {entries : List (String × List β)} {key : String}

theorem Fits.faulty_or_tells (h : Fits fields Unknown entries) :
    Faulty fields entries ∨ Tells fields Unknown [] entries := by
  by_cases hfaulty : Faulty fields entries
  · exact .inl hfaulty
  · refine .inr ⟨fun field hfield => ?_, fun place hplace => absurd hplace List.not_mem_nil,
      h.given, fun place field hfield _ hkey => ?_, h.unknown⟩
    · exact Nat.le_of_not_lt fun htwice => hfaulty (.inl ⟨field, hfield, htwice⟩)
    · exact Classical.not_not.1 fun hneeded =>
        hfaulty (.inr ⟨field, List.mem_of_getElem? hfield, hneeded, hkey⟩)

/-- Under a key that comes at most once stands one thing at most. -/
theorem value_unique {value other : List β} (honce : (keys entries).count key ≤ 1)
    (hvalue : (key, value) ∈ entries) (hother : (key, other) ∈ entries) : value = other := by
  induction entries with
  | nil => cases hvalue
  | cons entry entries ih =>
    have hlast : ∀ v w, (key, v) = entry → (key, w) ∉ entries := by
      intro v w hfirst hw
      subst hfirst
      have hagain : 0 < (keys entries).count key :=
        List.count_pos_iff.2 (List.mem_map_of_mem hw)
      simp only [keys, List.map_cons, List.count_cons_self] at honce hagain
      omega
    have hlater : (keys entries).count key ≤ 1 :=
      Nat.le_trans ((List.sublist_cons_self entry.1 (keys entries)).count_le key) honce
    rcases List.mem_cons.1 hvalue with hfirst | hvalue
    · rcases List.mem_cons.1 hother with hsame | hother
      · exact (Prod.mk.inj (hfirst.trans hsame.symm)).2
      · exact absurd hother (hlast value other hfirst)
    · rcases List.mem_cons.1 hother with hsame | hother
      · exact absurd hvalue (hlast other value hsame)
      · exact ih hlater hvalue hother

/-- What stands under a key that comes at most once tells something; if the key is absent, it tells
what is assumed then. -/
theorem exists_told {γ : Type} {Form : γ → List β → Prop} (honce : (keys entries).count key ≤ 1)
    (hform : ∀ value, (key, value) ∈ entries → AnyForm Form value) (assumed : γ) :
    ∃ c, (∀ value, (key, value) ∈ entries → Form c value) ∧
      (key ∉ keys entries → c = assumed) := by
  by_cases hkey : key ∈ keys entries
  · obtain ⟨⟨_, value⟩, hvalue, rfl⟩ := List.mem_map.1 hkey
    obtain ⟨c, hc⟩ := hform value hvalue
    refine ⟨c, fun other hother => ?_, fun hnone => absurd hkey hnone⟩
    rw [← value_unique honce hvalue hother]
    exact hc
  · exact ⟨assumed, fun value hvalue => absurd (List.mem_map_of_mem hvalue) hkey, fun _ => rfl⟩

namespace Tells

theorem exists_told (h : Tells kinds Unknown [] entries) {γ : Type} {Form : γ → List β → Prop}
    {Optional : Prop} (place : Nat) (hkind : kinds[place]? = some ⟨key, AnyForm Form, Optional⟩)
    (assumed : γ) :
    ∃ c, (∀ value, (key, value) ∈ entries → Form c value) ∧
      (key ∉ keys entries → c = assumed) :=
  have hmem := List.mem_of_getElem? hkind
  Switchboard.exists_told (h.once _ hmem) (h.given _ hmem) assumed

/-- The same entries tell other fields that have the same keys. -/
theorem retold (h : Tells kinds Unknown [] entries)
    (hkeys : fields.map FieldForm.key = kinds.map FieldForm.key)
    (htold : ∀ field ∈ fields, (∀ value, (field.key, value) ∈ entries → field.Form value) ∧
      (field.key ∉ keys entries → field.Optional)) : Tells fields Unknown [] entries where
  once field hfield := by
    have hmem : field.key ∈ kinds.map FieldForm.key := hkeys ▸ List.mem_map_of_mem hfield
    obtain ⟨kind, hkind, hkey⟩ := List.mem_map.1 hmem
    rw [← hkey]
    exact h.once kind hkind
  fresh _ hplace := absurd hplace List.not_mem_nil
  given field hfield := (htold field hfield).1
  absent _ field hfield _ := (htold field (List.mem_of_getElem? hfield)).2
  unknown entry hentry hkey := h.unknown entry hentry (hkeys ▸ hkey)

end Tells

end Faults

end Switchboard
