import NoteSearch.Proofs.SettingsKeys
import NoteSearch.Settings.Reading

/-!
# Putting entries on trees of settings

An entry writes one slot of a tree. A value under a name replaces a scalar there, an empty table
leaves what is there, and everything else makes a list or a table of it. So where a name holds a
scalar after some entries, it is the last one given under it, or the one that was there. The same is
true of entries that are put together before they go on top of a tree.
-/

namespace NoteSearch
namespace SettingsTree

/-- Neither a list nor a table. -/
def isScalar : SettingsTree → Bool
  | list _ => false
  | table _ => false
  | _ => true

/-- A list, or a table with something in it. -/
inductive Deep : SettingsTree → Prop
  | list (items : List SettingsTree) : Deep (.list items)
  | table (field : String × SettingsTree) (fields : List (String × SettingsTree)) :
      Deep (.table (field :: fields))

theorem Deep.isScalar {v : SettingsTree} (h : Deep v) : v.isScalar = false := by
  cases h <;> rfl

theorem Deep.ne_empty {v : SettingsTree} (h : Deep v) : v ≠ .table [] := by
  cases h <;> simp

theorem isScalar_or_empty_or_deep (v : SettingsTree) :
    v.isScalar = true ∨ v = .table [] ∨ Deep v := by
  match v with
  | .null | .boolean _ | .integer _ | .real _ | .text _ => exact .inl rfl
  | .list items => exact .inr (.inr (.list items))
  | .table [] => exact .inr (.inl rfl)
  | .table (field :: fields) => exact .inr (.inr (.table field fields))

@[simp] theorem entries_table (fields : List (String × SettingsTree)) :
    (table fields).entries = fields := rfl

theorem lookup_cons_eq (key name : String) (v : SettingsTree)
    (fields : List (String × SettingsTree)) :
    ((key, v) :: fields).lookup name = if name = key then some v else fields.lookup name := by
  by_cases h : name = key
  · simp [h]
  · simp [List.lookup_cons, beq_false_of_ne h, h]

theorem lookup_put (key name : String) (v : SettingsTree) (fields : List (String × SettingsTree)) :
    (put key v fields).lookup name = if name = key then some v else fields.lookup name := by
  induction fields with
  | nil => exact lookup_cons_eq key name v []
  | cons field fields ih =>
    obtain ⟨k, old⟩ := field
    rw [put]
    by_cases hk : k = key
    · subst hk
      simp only [if_true, lookup_cons_eq]
      split <;> rfl
    · rw [if_neg hk, lookup_cons_eq, lookup_cons_eq, ih]
      by_cases h : name = k
      · simp [h, hk]
      · simp [h]

theorem mem_put {key : String} {v : SettingsTree} {fields : List (String × SettingsTree)}
    {field : String × SettingsTree} (h : field ∈ put key v fields) :
    field = (key, v) ∨ field ∈ fields := by
  induction fields with
  | nil => simpa [put] using h
  | cons head fields ih =>
    rw [put] at h
    split at h
    · rcases List.mem_cons.mp h with rfl | h
      · simp_all
      · exact .inr (List.mem_cons_of_mem _ h)
    · rcases List.mem_cons.mp h with rfl | h
      · exact .inr List.mem_cons_self
      · exact (ih h).imp_right (List.mem_cons_of_mem _)

theorem nodup_keys_put {fields : List (String × SettingsTree)} (h : (fields.map (·.1)).Nodup)
    (key : String) (v : SettingsTree) : ((put key v fields).map (·.1)).Nodup := by
  induction fields with
  | nil => simp [put]
  | cons head fields ih =>
    rw [List.map_cons, List.nodup_cons] at h
    rw [put]
    split
    · simpa using h
    · rename_i hne
      rw [List.map_cons, List.nodup_cons]
      refine ⟨fun hmem => ?_, ih h.2⟩
      obtain ⟨field, hfield, hkey⟩ := List.mem_map.mp hmem
      rcases mem_put hfield with rfl | hfield
      · exact hne hkey.symm
      · exact h.1 (List.mem_map.mpr ⟨field, hfield, hkey⟩)

theorem deep_put (key : String) (v : SettingsTree) (fields : List (String × SettingsTree)) :
    Deep (.table (put key v fields)) := by
  cases fields with
  | nil => exact .table _ _
  | cons field fields =>
    rw [put]
    split <;> exact .table _ _

theorem lookup_of_mem {fields : List (String × SettingsTree)} (h : (fields.map (·.1)).Nodup)
    {name : String} {v : SettingsTree} (hmem : (name, v) ∈ fields) :
    fields.lookup name = some v := by
  induction fields with
  | nil => simp at hmem
  | cons head fields ih =>
    rw [List.map_cons, List.nodup_cons] at h
    rcases List.mem_cons.mp hmem with rfl | hmem
    · simp
    · have hne : name ≠ head.1 := by
        rintro rfl
        exact h.1 (List.mem_map.mpr ⟨_, hmem, rfl⟩)
      rw [lookup_cons_eq, if_neg hne]
      exact ih h.2 hmem

theorem mem_of_lookup {fields : List (String × SettingsTree)} {name : String} {v : SettingsTree}
    (h : fields.lookup name = some v) : (name, v) ∈ fields := by
  obtain ⟨front, back, rfl, -⟩ := List.lookup_eq_some_iff.mp h
  simp

/-- What a slot holds once a value is put on top of it. -/
def merged (old : Option SettingsTree) : SettingsTree → SettingsTree
  | table fields => setAll (old.getD (table [])) fields
  | v => v

theorem set_eq (key : String) (root v : SettingsTree) :
    root.set key v =
      table (put (lowered key) (merged (root.entries.lookup (lowered key)) v) root.entries) := by
  cases v <;> rfl

theorem deep_set (key : String) (root v : SettingsTree) : Deep (root.set key v) := by
  rw [set_eq]
  exact deep_put _ _ _

theorem deep_setAll {root : SettingsTree} (h : Deep root) (fields : List (String × SettingsTree)) :
    Deep (setAll root fields) := by
  induction fields generalizing root with
  | nil => exact h
  | cons field fields ih => exact ih (deep_set field.1 root field.2)

theorem merged_of_isScalar {v : SettingsTree} (h : v.isScalar = true) (old : Option SettingsTree) :
    merged old v = v := by
  cases v <;> first | rfl | simp [isScalar] at h

theorem deep_merged {v : SettingsTree} (h : Deep v) (old : Option SettingsTree) :
    Deep (merged old v) := by
  cases h with
  | list items => exact .list items
  | table field fields => exact deep_setAll (deep_set _ _ _) fields

theorem deep_of_setAt? {v root below : SettingsTree} {step : PathStep} {path : List PathStep}
    (h : setAt? v (step :: path) root = some below) : Deep below := by
  rcases step with name | index
  · cases path with
    | nil =>
      obtain rfl : root.set name v = below := Option.some.inj h
      exact deep_set name root v
    | cons step path =>
      obtain ⟨inner, -, h⟩ := Option.bind_eq_some_iff.mp h
      rw [← Option.some.inj h]
      exact deep_put _ _ _
  · obtain ⟨n, -, h⟩ := Option.bind_eq_some_iff.mp h
    obtain ⟨inner, -, h⟩ := Option.bind_eq_some_iff.mp h
    rw [← Option.some.inj h]
    exact .list _

/-- A way to put entries on a tree. Each writes one slot; the key of an entry may be the name of its
slot, or lead further down. -/
structure Placing where
  slot : String → String
  isWhole : String → Bool
  update? : Option SettingsTree → String × SettingsTree → Option SettingsTree
  slot_of_isWhole : ∀ {key : String}, isWhole key = true → slot key = lowered key
  update?_of_isWhole : ∀ {entry : String × SettingsTree} (old : Option SettingsTree),
    isWhole entry.1 = true → update? old entry = some (merged old entry.2)
  deep_of_update? : ∀ {entry : String × SettingsTree} {old : Option SettingsTree}
    {v : SettingsTree}, isWhole entry.1 = false → update? old entry = some v → Deep v

namespace Placing

def byName : Placing where
  slot := lowered
  isWhole _ := true
  update? old entry := some (merged old entry.2)
  slot_of_isWhole _ := rfl
  update?_of_isWhole _ _ := rfl
  deep_of_update? h _ := nomatch h

def byPath : Placing where
  slot := keySlot
  isWhole := isName
  update? old entry :=
    match PathStep.path? entry.1 with
    | some (_ :: step :: path) => setAt? entry.2 (step :: path) (old.getD null)
    | _ => some (merged old entry.2)
  slot_of_isWhole := keySlot_of_isName
  update?_of_isWhole old h := by
    split
    · simp [isName, *] at h
    · rfl
  deep_of_update? h hv := by
    obtain ⟨name, step, rest, hpath, -⟩ := exists_path?_of_isName h
    rw [hpath] at hv
    exact deep_of_setAt? hv

variable (P : Placing)

def place? (root : SettingsTree) (entry : String × SettingsTree) : Option SettingsTree :=
  (P.update? (root.entries.lookup (P.slot entry.1)) entry).map fun v =>
    table (put (P.slot entry.1) v root.entries)

def placeAll? (root : SettingsTree) (entries : List (String × SettingsTree)) :
    Option SettingsTree :=
  entries.foldlM P.place? root

def given? (name : String) (entry : String × SettingsTree) : Option SettingsTree :=
  if P.isWhole entry.1 && lowered entry.1 == name && entry.2.isScalar then some entry.2 else none

/-- The last scalar that some entries give under a name. -/
def last? (name : String) (entries : List (String × SettingsTree)) : Option SettingsTree :=
  entries.reverse.findSome? (P.given? name)

theorem byName_placeAll? (root : SettingsTree) (fields : List (String × SettingsTree)) :
    byName.placeAll? root fields = some (setAll root fields) := by
  induction fields generalizing root with
  | nil => rfl
  | cons field fields ih =>
    have hset : byName.place? root field = some (root.set field.1 field.2) := by
      rw [set_eq]
      rfl
    rw [placeAll?, List.foldlM_cons, hset]
    exact ih _

theorem byPath_place? (root : SettingsTree) (entry : String × SettingsTree) :
    byPath.place? root entry = setEntry? root entry := by
  obtain ⟨key, v⟩ := entry
  simp only [place?, byPath, keySlot, setEntry?]
  cases hpath : PathStep.path? key with
  | none => simp [set_eq]
  | some path =>
    obtain ⟨name, tail, rest, rfl, -⟩ := PathStep.path?_shape hpath
    cases rest with
    | nil =>
      obtain rfl : name = key := by simpa using PathStep.path?_single hpath
      simp [setAt?, set_eq]
    | cons step path =>
      cases hset : setAt? v (step :: path) ((root.entries.lookup name).getD null) <;>
        simp [setAt?, hset]

@[simp] theorem byPath_slot (key : String) : byPath.slot key = keySlot key := rfl

@[simp] theorem byPath_isWhole (key : String) : byPath.isWhole key = isName key := rfl

theorem byPath_update?_of_path? {key first last : String}
    (h : PathStep.path? key = some [.key first, .key last]) (old : Option SettingsTree)
    (v : SettingsTree) : byPath.update? old (key, v) = some ((old.getD null).set last v) := by
  simp [byPath, h, setAt?]

theorem byPath_placeAll? (root : SettingsTree) (entries : List (String × SettingsTree)) :
    byPath.placeAll? root entries = layer? root entries := by
  rw [placeAll?, layer?]
  congr
  funext root entry
  exact byPath_place? root entry

variable {P} {root r : SettingsTree} {entry : String × SettingsTree}
  {entries : List (String × SettingsTree)} {name : String}

theorem given?_eq_some_iff {v : SettingsTree} :
    P.given? name entry = some v ↔
      P.isWhole entry.1 = true ∧ lowered entry.1 = name ∧ v.isScalar = true ∧ entry.2 = v := by
  rw [given?]
  split
  · rename_i h
    simp only [Bool.and_eq_true, beq_iff_eq] at h
    constructor
    · rintro ⟨⟩
      exact ⟨h.1.1, h.1.2, h.2, rfl⟩
    · rintro ⟨-, -, -, rfl⟩
      rfl
  · rename_i h
    constructor
    · simp
    · rintro ⟨hwhole, hkey, hscalar, rfl⟩
      simp [hwhole, hkey, hscalar] at h

theorem lookup_place? (h : P.place? root entry = some r) :
    ∃ v, P.update? (root.entries.lookup (P.slot entry.1)) entry = some v ∧
      ∀ name, r.entries.lookup name =
        if name = P.slot entry.1 then some v else root.entries.lookup name := by
  obtain ⟨v, hv, rfl⟩ := Option.map_eq_some_iff.mp h
  exact ⟨v, hv, fun name => lookup_put _ _ _ _⟩

theorem given?_eq_none (h : (P.isWhole entry.1 && entry.2.isScalar) = false) (name : String) :
    P.given? name entry = none := by
  refine Option.eq_none_iff_forall_ne_some.mpr fun v hgiven => ?_
  obtain ⟨hwhole, -, hscalar, rfl⟩ := given?_eq_some_iff.mp hgiven
  simp [hwhole, hscalar] at h

/-- What an entry makes of its slot: a scalar of its own, what was there, if only an empty table, or
a list or table of something. -/
theorem update?_cases {old : Option SettingsTree} {v : SettingsTree}
    (hv : P.update? old entry = some v) :
    (P.isWhole entry.1 = true ∧ v.isScalar = true ∧ entry.2 = v) ∨
      (P.isWhole entry.1 && entry.2.isScalar) = false ∧ (v = old.getD (table []) ∨ Deep v) := by
  cases hwhole : P.isWhole entry.1 with
  | false => exact .inr ⟨rfl, .inr (P.deep_of_update? hwhole hv)⟩
  | true =>
    rw [P.update?_of_isWhole _ hwhole, Option.some.injEq] at hv
    subst hv
    rcases isScalar_or_empty_or_deep entry.2 with hscalar | hempty | hdeep
    · rw [merged_of_isScalar hscalar]
      exact .inl ⟨rfl, hscalar, rfl⟩
    · rw [hempty]
      exact .inr ⟨rfl, .inl rfl⟩
    · exact .inr ⟨hdeep.isScalar, .inr (deep_merged hdeep _)⟩

/-- What a name holds after an entry: what the entry gives, what was there, an empty table where
there was nothing, or a list or table of something. -/
theorem place?_cases (h : P.place? root entry = some r) (name : String) :
    (∃ v, P.given? name entry = some v ∧ r.entries.lookup name = some v) ∨
      P.given? name entry = none ∧
        (r.entries.lookup name = root.entries.lookup name ∨
          (r.entries.lookup name = some (.table []) ∧ root.entries.lookup name = none) ∨
          ∃ v, Deep v ∧ r.entries.lookup name = some v) := by
  obtain ⟨v, hv, hlookup⟩ := lookup_place? h
  specialize hlookup name
  by_cases hslot : name = P.slot entry.1
  · rw [if_pos hslot] at hlookup
    rw [← hslot] at hv
    rcases update?_cases hv with ⟨hwhole, hscalar, hentry⟩ | ⟨hnone, hkept | hdeep⟩
    · have hkey : lowered entry.1 = name := by rw [hslot, P.slot_of_isWhole hwhole]
      exact .inl ⟨v, given?_eq_some_iff.mpr ⟨hwhole, hkey, hscalar, hentry⟩, hlookup⟩
    · refine .inr ⟨given?_eq_none hnone name, ?_⟩
      cases hold : root.entries.lookup name with
      | none =>
        rw [hold] at hkept
        exact .inr (.inl ⟨by rw [hlookup, hkept]; rfl, rfl⟩)
      | some old =>
        rw [hold] at hkept
        exact .inl (by rw [hlookup, hkept]; rfl)
    · exact .inr ⟨given?_eq_none hnone name, .inr (.inr ⟨v, hdeep, hlookup⟩)⟩
  · rw [if_neg hslot] at hlookup
    refine .inr ⟨Option.eq_none_iff_forall_ne_some.mpr fun v hgiven => ?_, .inl hlookup⟩
    obtain ⟨hwhole, hkey, -⟩ := given?_eq_some_iff.mp hgiven
    exact hslot (by rw [P.slot_of_isWhole hwhole, hkey])

theorem last?_cons (name : String) (entry : String × SettingsTree)
    (entries : List (String × SettingsTree)) :
    P.last? name (entry :: entries) = (P.last? name entries).or (P.given? name entry) := by
  simp [last?, List.findSome?_append]

theorem exists_of_last? {v : SettingsTree} (h : P.last? name entries = some v) :
    ∃ entry ∈ entries, P.given? name entry = some v := by
  obtain ⟨entry, hmem, hgiven⟩ := List.exists_of_findSome?_eq_some h
  exact ⟨entry, List.mem_reverse.mp hmem, hgiven⟩

theorem given?_of_last?_none (h : P.last? name entries = none) (hmem : entry ∈ entries) :
    P.given? name entry = none :=
  List.findSome?_eq_none_iff.mp h entry (List.mem_reverse.mpr hmem)

theorem placeAll?_cons (h : P.placeAll? root (entry :: entries) = some r) :
    ∃ next, P.place? root entry = some next ∧ P.placeAll? next entries = some r :=
  Option.bind_eq_some_iff.mp h

/-- A scalar under a name is the last one given under it, or the one that was there. -/
theorem eq_last?_of_isScalar (h : P.placeAll? root entries = some r) {v : SettingsTree}
    (hv : r.entries.lookup name = some v) (hscalar : v.isScalar = true) :
    some v = (P.last? name entries).or (root.entries.lookup name) := by
  induction entries generalizing root with
  | nil =>
    obtain rfl : root = r := Option.some.inj h
    exact hv.symm
  | cons entry entries ih =>
    obtain ⟨next, hnext, h⟩ := placeAll?_cons h
    rw [ih h, last?_cons]
    cases hlast : P.last? name entries with
    | some u => rfl
    | none =>
      have hkept : next.entries.lookup name = some v := by simpa [hlast] using (ih h).symm
      rcases place?_cases hnext name with
        ⟨u, hgiven, hu⟩ | ⟨hgiven, hold | ⟨hempty, -⟩ | ⟨u, hu, hdeep⟩⟩
      · simp [hgiven, hu]
      · simp [hgiven, hold]
      · obtain rfl : v = .table [] := Option.some.inj (hkept.symm.trans hempty)
        simp [isScalar] at hscalar
      · obtain rfl : v = u := Option.some.inj (hkept.symm.trans hdeep)
        simp [hu.isScalar] at hscalar

/-- Nothing, or an empty table. -/
def IsBare (v : Option SettingsTree) : Prop := v = none ∨ v = some (.table [])

theorem not_isBare_some {v : SettingsTree} (h : v ≠ .table []) : ¬IsBare (some v) := by
  simpa [IsBare] using h

/-- A name holds nothing or an empty table only if it did before and nothing was given under it. -/
theorem isBare_before (h : P.placeAll? root entries = some r)
    (hbare : IsBare (r.entries.lookup name)) :
    IsBare (root.entries.lookup name) ∧ P.last? name entries = none := by
  induction entries generalizing root with
  | nil =>
    obtain rfl : root = r := Option.some.inj h
    exact ⟨hbare, rfl⟩
  | cons entry entries ih =>
    obtain ⟨next, hnext, h⟩ := placeAll?_cons h
    obtain ⟨hbare', hlast⟩ := ih h
    rw [last?_cons, hlast]
    rcases place?_cases hnext name with
      ⟨u, hgiven, hu⟩ | ⟨hgiven, hold | ⟨-, hnone⟩ | ⟨u, hdeep, hu⟩⟩
    · obtain ⟨-, -, hscalar, -⟩ := given?_eq_some_iff.mp hgiven
      have hne : u ≠ .table [] := by
        rintro rfl
        simp [isScalar] at hscalar
      exact absurd (hu ▸ hbare') (not_isBare_some hne)
    · exact ⟨hold ▸ hbare', by simp [hgiven]⟩
    · exact ⟨.inl hnone, by simp [hgiven]⟩
    · exact absurd (hu ▸ hbare') (not_isBare_some hdeep.ne_empty)

/-- Something in a list or table stays until a scalar is given. -/
theorem deep_after (h : P.placeAll? root entries = some r) {u : SettingsTree} (hdeep : Deep u)
    (hu : root.entries.lookup name = some u) (hlast : P.last? name entries = none) :
    ∃ v, Deep v ∧ r.entries.lookup name = some v := by
  have hnotbare : ¬IsBare (r.entries.lookup name) := fun hbare =>
    not_isBare_some hdeep.ne_empty (hu ▸ (isBare_before h hbare).1)
  cases hv : r.entries.lookup name with
  | none => exact absurd (.inl hv) hnotbare
  | some v =>
    rcases isScalar_or_empty_or_deep v with hscalar | rfl | hv'
    · have heq := eq_last?_of_isScalar h hv hscalar
      rw [hlast, hu] at heq
      obtain rfl : v = u := Option.some.inj heq
      simp [hdeep.isScalar] at hscalar
    · exact absurd (.inr hv) hnotbare
    · exact ⟨v, hv', rfl⟩

/-- So does something in a list or table that is put under a name itself. -/
theorem deep_after_of_mem (h : P.placeAll? root entries = some r) {u : SettingsTree} {key : String}
    (hmem : (key, u) ∈ entries) (hwhole : P.isWhole key = true) (hkey : lowered key = name)
    (hdeep : Deep u) (hlast : P.last? name entries = none) :
    ∃ v, Deep v ∧ r.entries.lookup name = some v := by
  induction entries generalizing root with
  | nil => simp at hmem
  | cons entry entries ih =>
    obtain ⟨next, hnext, hrest⟩ := placeAll?_cons h
    rw [last?_cons, Option.or_eq_none_iff] at hlast
    rcases List.mem_cons.mp hmem with rfl | hmem
    · obtain ⟨v, hv, hlookup⟩ := lookup_place? hnext
      rw [P.update?_of_isWhole _ hwhole, Option.some.injEq] at hv
      have hv' : next.entries.lookup name = some v := by
        rw [hlookup, if_pos (by rw [P.slot_of_isWhole hwhole, hkey])]
      exact deep_after hrest (hv ▸ deep_merged hdeep _) hv' hlast.1
    · exact ih hrest hmem hlast.1

/-- Each key stands once in a tree, and those of scalars are in lower case. -/
structure Tidy (root : SettingsTree) : Prop where
  nodup : (root.entries.map (·.1)).Nodup
  lower : ∀ field ∈ root.entries, field.2.isScalar = true → ∃ key, field.1 = lowered key

theorem Tidy.place? (hroot : Tidy root) (h : P.place? root entry = some r) : Tidy r := by
  obtain ⟨v, hv, rfl⟩ := Option.map_eq_some_iff.mp h
  refine ⟨nodup_keys_put hroot.nodup _ _, fun field hfield hscalar => ?_⟩
  rcases mem_put hfield with rfl | hfield
  · cases hwhole : P.isWhole entry.1 with
    | true => exact ⟨entry.1, P.slot_of_isWhole hwhole⟩
    | false => simp [(P.deep_of_update? hwhole hv).isScalar] at hscalar
  · exact hroot.lower field hfield hscalar

theorem Tidy.placeAll? (hroot : Tidy root) (h : P.placeAll? root entries = some r) : Tidy r := by
  induction entries generalizing root with
  | nil => exact Option.some.inj h ▸ hroot
  | cons entry entries ih =>
    obtain ⟨next, hnext, h⟩ := placeAll?_cons h
    exact ih (hroot.place? hnext) h

/-- Putting entries together keeps the last scalar that is given under a name in small letters, if
the name holds a scalar in the end. -/
theorem last?_entries {base given : SettingsTree} (hname : isSmallName name = true)
    (hwhole : P.isWhole name = true) (hgiven : P.placeAll? (.table []) entries = some given)
    (h : P.placeAll? base given.entries = some r)
    (hscalar : ∀ v, r.entries.lookup name = some v → v.isScalar = true) :
    P.last? name given.entries = P.last? name entries := by
  have htidy : Tidy given := Tidy.placeAll? ⟨by simp, by simp⟩ hgiven
  cases hlast : P.last? name given.entries with
  | some v =>
    obtain ⟨field, hmem, hfield⟩ := exists_of_last? hlast
    obtain ⟨-, hkey, hv, rfl⟩ := given?_eq_some_iff.mp hfield
    obtain ⟨key, hkey'⟩ := htidy.lower field hmem hv
    have hself : field.1 = name := by
      rw [hkey'] at hkey ⊢
      exact eq_of_lowered_eq hname (fun c hc => isCapital_of_mem_lowered hc) hkey
    have hlookup : given.entries.lookup name = some field.2 :=
      lookup_of_mem htidy.nodup (hself ▸ hmem)
    simpa using eq_last?_of_isScalar hgiven hlookup hv
  | none =>
    have hbare : IsBare (given.entries.lookup name) := by
      cases hu : given.entries.lookup name with
      | none => exact .inl rfl
      | some u =>
        have hmem := mem_of_lookup hu
        rcases isScalar_or_empty_or_deep u with hu' | rfl | hdeep
        · have hgive : P.given? name (name, u) = some u :=
            given?_eq_some_iff.mpr ⟨hwhole, lowered_of_isSmallName hname, hu', rfl⟩
          simp [given?_of_last?_none hlast hmem] at hgive
        · exact .inr rfl
        · obtain ⟨v, hv, hr⟩ :=
            deep_after_of_mem h hmem hwhole (lowered_of_isSmallName hname) hdeep hlast
          have hv' := hscalar v hr
          simp [hv.isScalar] at hv'
    exact (isBare_before hgiven hbare).2.symm

/-- What a reader of scalars makes of a name, once entries were put together and went on top of
a tree with a standard value for it. -/
theorem read_last? {α : Type} {read : SettingsTree → Option α} {standard a : α}
    (hread : ∀ v a, read v = some a → v.isScalar = true)
    {base given : SettingsTree} (hname : isSmallName name = true) (hwhole : P.isWhole name = true)
    (hbase : orStandard standard read (base.entries.lookup name) = some standard)
    (hgiven : P.placeAll? (.table []) entries = some given)
    (h : P.placeAll? base given.entries = some r)
    (ha : orStandard standard read (r.entries.lookup name) = some a) :
    orStandard standard read (P.last? name entries) = some a := by
  have hscalar : ∀ v, r.entries.lookup name = some v → v.isScalar = true := by
    intro v hv
    rw [hv] at ha
    exact hread v a ha
  rw [← last?_entries hname hwhole hgiven h hscalar]
  cases hr : r.entries.lookup name with
  | none =>
    rw [(isBare_before h (.inl hr)).2]
    rwa [hr] at ha
  | some v =>
    rw [hr] at ha
    have heq := eq_last?_of_isScalar h hr (hscalar v hr)
    cases hlast : P.last? name given.entries with
    | some u =>
      rw [hlast] at heq
      obtain rfl : v = u := Option.some.inj heq
      exact ha
    | none =>
      rw [hlast, Option.none_or] at heq
      rw [← heq] at hbase
      exact hbase.symm.trans ha

end Placing
end SettingsTree
end NoteSearch
