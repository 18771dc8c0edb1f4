import NoteSearch.Proofs.SettingsTrees

/-!
# Tables within settings

A table within the settings is written as a table under its name, or key by key. Where every entry
that touches it is of one of these forms, putting the entries on a tree is putting their fields on
the table, one after the other.
-/

namespace NoteSearch
namespace SettingsTree

open PathStep Text

variable {name : String} {entry : String × SettingsTree}

/-- Entries with a table under a name, or with a value under one key of its table. -/
inductive InTable (name : String) : String × SettingsTree → Prop
  | whole {key : String} {fields : List (String × SettingsTree)} (hone : isName key = true)
      (hkey : lowered key = name) : InTable name (key, .table fields)
  | field {key last : String} {v : SettingsTree}
      (hpath : path? key = some [.key name, .key last]) : InTable name (key, v)

/-- Whether an entry, if it begins with a name, holds a table under it or a value under one of its
keys. -/
def isTabular (name : String) (entry : String × SettingsTree) : Bool :=
  topName entry.1 != name ||
    match keyNames? entry.1, entry.2 with
    | some [first], .table _ => first == name
    | some [first, _], _ => first == name
    | _, _ => false

theorem inTable_of_isTabular (h : isTabular name entry = true) (htop : topName entry.1 = name) :
    InTable name entry := by
  obtain ⟨key, v⟩ := entry
  simp only [isTabular, htop, bne_self_eq_false, Bool.false_or] at h
  split at h
  · rename_i first fields hnames
    obtain rfl : first = name := by simpa using h
    obtain ⟨hone, hkey⟩ := keyNames?_eq_singleton_iff.mp hnames
    exact .whole hone hkey
  · rename_i first last hnames
    obtain rfl : first = name := by simpa using h
    obtain ⟨last, hpath, -⟩ := keyNames?_eq_pair_iff.mp hnames
    exact .field hpath
  · cases h

theorem InTable.keySlot_eq (h : InTable name entry) : keySlot entry.1 = name := by
  cases h with
  | whole hone hkey => rw [keySlot_of_isName hone, hkey]
  | field hpath => simp [keySlot, hpath]

/-- The fields that an entry has for the table of a name. -/
def fieldsOf (name : String) (entry : String × SettingsTree) : List (String × SettingsTree) :=
  match path? entry.1 with
  | some [.key first, .key last] => if first = name then [(last, entry.2)] else []
  | _ => if isName entry.1 && lowered entry.1 == name then entry.2.entries else []

theorem fieldsOf_of_isName (hone : isName entry.1 = true) (hkey : lowered entry.1 = name) :
    fieldsOf name entry = entry.2.entries := by
  unfold fieldsOf
  split
  · simp [isName, *] at hone
  · simp [hone, hkey]

theorem fieldsOf_of_path? {last : String} (h : path? entry.1 = some [.key name, .key last]) :
    fieldsOf name entry = [(last, entry.2)] := by
  simp [fieldsOf, h]

theorem fieldsOf_of_ne (h : keySlot entry.1 ≠ name) : fieldsOf name entry = [] := by
  unfold fieldsOf
  split
  · rename_i first last hpath
    have hslot : keySlot entry.1 = first := by simp [keySlot, hpath]
    rw [if_neg (hslot ▸ h)]
  · split
    · rename_i hone
      simp only [Bool.and_eq_true, beq_iff_eq] at hone
      exact absurd (keySlot_of_isName hone.1 ▸ hone.2) h
    · rfl

def tableAt (name : String) (root : SettingsTree) : SettingsTree :=
  table ((root.entries.lookup name).getD (table [])).entries

theorem set_congr {root root' : SettingsTree} (h : root.entries = root'.entries) (key : String)
    (v : SettingsTree) : root.set key v = root'.set key v := by
  rw [set_eq, set_eq, h]

theorem table_entries_set (key : String) (root v : SettingsTree) :
    table (root.set key v).entries = root.set key v := by
  rw [set_eq, entries_table]

theorem table_entries_setAll (root : SettingsTree) (fields : List (String × SettingsTree)) :
    table (setAll root fields).entries = setAll (table root.entries) fields := by
  induction fields generalizing root with
  | nil => rfl
  | cons field fields ih =>
    calc table (setAll (root.set field.1 field.2) fields).entries
        = setAll (table (root.set field.1 field.2).entries) fields := ih _
      _ = setAll ((table root.entries).set field.1 field.2) fields := by
          rw [table_entries_set, set_congr (entries_table root.entries).symm]

theorem setAll_append (root : SettingsTree) (fields fields' : List (String × SettingsTree)) :
    setAll root (fields ++ fields') = setAll (setAll root fields) fields' := by
  induction fields generalizing root with
  | nil => rfl
  | cons field fields ih => exact ih _

/-- An entry that is read into the slot of a name belongs to the table there. -/
def Fits (name : String) (entry : String × SettingsTree) : Prop :=
  keySlot entry.1 = name → InTable name entry

theorem fits_of_isTabular (hname : isSmallName name = true) (h : isTabular name entry = true) :
    Fits name entry := by
  intro hslot
  apply inTable_of_isTabular h
  apply topName_of_keySlot hname
  rw [hslot, keySlot_of_isName (isName_of_isSmallName hname), lowered_of_isSmallName hname]

/-- Nothing, or a table. -/
def IsTable (v : Option SettingsTree) : Prop := ∀ u, v = some u → table u.entries = u

theorem InTable.update? {old : Option SettingsTree} {v : SettingsTree} (h : InTable name entry)
    (hv : Placing.byPath.update? old entry = some v) :
    table v.entries = setAll (table (old.getD (table [])).entries) (fieldsOf name entry) ∧
      (IsTable old → table v.entries = v) := by
  cases h with
  | @whole key fields hone hkey =>
    have hwhole : Placing.byPath.isWhole (key, table fields).1 = true := hone
    rw [Placing.byPath.update?_of_isWhole _ hwhole, Option.some.injEq] at hv
    subst hv
    have hentries : table (setAll (old.getD (table [])) fields).entries =
        setAll (table (old.getD (table [])).entries) fields := table_entries_setAll _ fields
    have hfields : fieldsOf name (key, table fields) = fields := fieldsOf_of_isName hone hkey
    refine ⟨by rw [hfields]; exact hentries, fun htable => ?_⟩
    have hold : table (old.getD (table [])).entries = old.getD (table []) := by
      cases old with
      | none => rfl
      | some u => exact htable u rfl
    rw [hold] at hentries
    exact hentries
  | @field key last v hpath =>
    rw [Placing.byPath_update?_of_path? hpath, Option.some.injEq] at hv
    subst hv
    refine ⟨?_, fun _ => table_entries_set _ _ _⟩
    have hold : (old.getD null).entries = (table (old.getD (table [])).entries).entries := by
      cases old <;> rfl
    have hfields : fieldsOf name (key, v) = [(last, v)] := fieldsOf_of_path? hpath
    rw [hfields, table_entries_set, set_congr hold]
    rfl

variable {root r : SettingsTree} {entries : List (String × SettingsTree)}

theorem tableAt_place? (hfits : Fits name entry) (h : Placing.byPath.place? root entry = some r) :
    tableAt name r = setAll (tableAt name root) (fieldsOf name entry) ∧
      (IsTable (root.entries.lookup name) → IsTable (r.entries.lookup name)) := by
  obtain ⟨v, hv, hlookup⟩ := Placing.lookup_place? h
  specialize hlookup name
  by_cases hslot : keySlot entry.1 = name
  · rw [Placing.byPath_slot, hslot] at hv hlookup
    obtain ⟨htable, hkept⟩ := (hfits hslot).update? hv
    rw [if_pos rfl] at hlookup
    refine ⟨by rw [tableAt, hlookup]; exact htable, fun hroot u hu => ?_⟩
    obtain rfl : v = u := Option.some.inj (hlookup.symm.trans hu)
    exact hkept hroot
  · rw [Placing.byPath_slot, if_neg (Ne.symm hslot)] at hlookup
    rw [fieldsOf_of_ne hslot, tableAt, tableAt, hlookup]
    exact ⟨rfl, id⟩

theorem tableAt_placeAll? (hfits : ∀ entry ∈ entries, Fits name entry)
    (h : Placing.byPath.placeAll? root entries = some r) :
    tableAt name r = setAll (tableAt name root) (entries.flatMap (fieldsOf name)) ∧
      (IsTable (root.entries.lookup name) → IsTable (r.entries.lookup name)) := by
  induction entries generalizing root with
  | nil =>
    obtain rfl : root = r := Option.some.inj h
    exact ⟨rfl, id⟩
  | cons entry entries ih =>
    obtain ⟨next, hnext, hrest⟩ := Placing.placeAll?_cons h
    rw [List.forall_mem_cons] at hfits
    obtain ⟨hstep, hkept⟩ := tableAt_place? hfits.1 hnext
    obtain ⟨hrun, hkept'⟩ := ih hfits.2 hrest
    refine ⟨?_, hkept' ∘ hkept⟩
    rw [hrun, hstep, List.flatMap_cons, setAll_append]

theorem slot_of_mem_placeAll? (h : Placing.byPath.placeAll? root entries = some r)
    {field : String × SettingsTree} (hfield : field ∈ r.entries) :
    (∃ old ∈ root.entries, old.1 = field.1) ∨ ∃ entry ∈ entries, keySlot entry.1 = field.1 := by
  induction entries generalizing root with
  | nil =>
    obtain rfl : root = r := Option.some.inj h
    exact .inl ⟨field, hfield, rfl⟩
  | cons entry entries ih =>
    obtain ⟨next, hnext, hrest⟩ := Placing.placeAll?_cons h
    rcases ih hrest with ⟨old, hold, hkey⟩ | ⟨entry', hmem, hkey⟩
    · obtain ⟨v, -, rfl⟩ := Option.map_eq_some_iff.mp hnext
      rcases mem_put hold with rfl | hold
      · exact .inr ⟨entry, List.mem_cons_self, hkey⟩
      · exact .inl ⟨old, hold, hkey⟩
    · exact .inr ⟨entry', List.mem_cons_of_mem _ hmem, hkey⟩

theorem flatMap_fieldsOf {fields : List (String × SettingsTree)}
    (hnodup : (fields.map (·.1)).Nodup)
    (hname : ∀ field ∈ fields, field.1 = name → fieldsOf name field = field.2.entries)
    (hne : ∀ field ∈ fields, field.1 ≠ name → fieldsOf name field = []) :
    fields.flatMap (fieldsOf name) = ((fields.lookup name).getD (table [])).entries := by
  induction fields with
  | nil => rfl
  | cons field fields ih =>
    obtain ⟨key, v⟩ := field
    rw [List.map_cons, List.nodup_cons] at hnodup
    rw [List.forall_mem_cons] at hname hne
    rw [List.flatMap_cons, lookup_cons_eq]
    by_cases hkey : key = name
    · have hrest : fields.flatMap (fieldsOf name) = [] := by
        refine List.flatMap_eq_nil_iff.mpr fun field hfield => hne.2 field hfield ?_
        rintro rfl
        exact hnodup.1 (List.mem_map.mpr ⟨field, hfield, hkey.symm⟩)
      rw [hname.1 hkey, hrest, List.append_nil, if_pos hkey.symm]
      rfl
    · rw [hne.1 hkey, List.nil_append, if_neg (Ne.symm hkey), ih hnodup.2 hname.2 hne.2]

/-- The fields of a table are put together first too, and then they go on top of the table below. -/
theorem tableAt_twice {base given : SettingsTree} (hname : isSmallName name = true)
    (htabular : entries.all (isTabular name) = true)
    (hgiven : Placing.byPath.placeAll? (table []) entries = some given)
    (h : Placing.byPath.placeAll? base given.entries = some r)
    (hbase : IsTable (base.entries.lookup name)) :
    tableAt name given = setAll (table []) (entries.flatMap (fieldsOf name)) ∧
      tableAt name r = setAll (tableAt name base) (tableAt name given).entries ∧
      IsTable (r.entries.lookup name) := by
  have htidy : Placing.Tidy given := Placing.Tidy.placeAll? ⟨by simp, by simp⟩ hgiven
  rw [List.all_eq_true] at htabular
  obtain ⟨hfields, hkept⟩ :=
    tableAt_placeAll? (fun entry hentry => fits_of_isTabular hname (htabular entry hentry)) hgiven
  have htable : IsTable (given.entries.lookup name) := hkept (by simp [IsTable])
  -- A key that is read as the name came from an entry of the name, so it is the name.
  have hself : ∀ field ∈ given.entries, keySlot field.1 = name → field.1 = name := by
    intro field hfield hslot
    rcases slot_of_mem_placeAll? hgiven hfield with ⟨old, hold, -⟩ | ⟨entry, hentry, hkey⟩
    · simp at hold
    · rw [← hkey] at hslot
      rw [← hkey]
      have htop := topName_of_keySlot hname hslot
      exact (inTable_of_isTabular (htabular entry hentry) htop).keySlot_eq
  have hone : isName name = true := isName_of_isSmallName hname
  have hlower : lowered name = name := lowered_of_isSmallName hname
  have hfits : ∀ field ∈ given.entries, Fits name field := by
    rintro ⟨key, v⟩ hfield hslot
    obtain rfl : key = name := hself _ hfield hslot
    rw [← htable v (lookup_of_mem htidy.nodup hfield)]
    exact .whole hone hlower
  obtain ⟨hfields', hkept'⟩ := tableAt_placeAll? hfits h
  have hflat : given.entries.flatMap (fieldsOf name) = (tableAt name given).entries := by
    refine flatMap_fieldsOf htidy.nodup (fun field _ hkey => ?_) fun field hfield hkey => ?_
    · exact fieldsOf_of_isName (hkey ▸ hone) (hkey ▸ hlower)
    · exact fieldsOf_of_ne fun hslot => hkey (hself field hfield hslot)
  refine ⟨hfields, ?_, hkept' hbase⟩
  rw [hfields', hflat]

end SettingsTree
end NoteSearch
