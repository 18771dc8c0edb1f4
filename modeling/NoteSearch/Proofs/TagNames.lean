import NoteSearch.Proofs.Lockstep

/-!
# Names of tags

A search for a tag names the tag twice: to the backend in its query, and to the source of schemas
when its filters are enhanced. Both leave out the blanks around the name, but of the hash signs in
front the query leaves out only one, and the source is asked without any of them. The cache keeps a
schema under the name that the source is asked for, in lower case.
-/

namespace NoteSearch

def SchemaSource.recorded {ω : Type} (source : SchemaSource ω) :
    SchemaSource (ω × List String) :=
  { tagId := fun name s =>
      let (answer, w) := source.tagId name s.1
      (answer, w, s.2 ++ [name])
    block := fun id => Separate.onFirst (source.block id)
    now := fun s => source.now s.1 }

theorem TagSchema.fetch_recorded {ω : Type} (source : SchemaSource ω) (tag : String) (w : ω)
    (names : List String) :
    TagSchema.fetch source.recorded tag (w, names) =
      ((TagSchema.fetch source tag w).1, (TagSchema.fetch source tag w).2,
        names ++ [schemaTagName tag]) := by
  have hid : source.recorded.tagId (schemaTagName tag) (w, names) =
      ((source.tagId (schemaTagName tag) w).1, (source.tagId (schemaTagName tag) w).2,
        names ++ [schemaTagName tag]) := rfl
  unfold TagSchema.fetch
  rw [bind_apply, bind_apply, hid]
  rcases source.tagId (schemaTagName tag) w with ⟨e | _ | id, u⟩
  · rfl
  · rfl
  · dsimp only
    rw [bind_apply, bind_apply]
    have hblock : source.recorded.block id (u, names ++ [schemaTagName tag]) =
        ((source.block id u).1, (source.block id u).2, names ++ [schemaTagName tag]) := rfl
    rw [hblock]
    rcases source.block id u with ⟨e | _ | b, v⟩
    · rfl
    · rfl
    · rfl

theorem eq_dropWhile_hash_iff (cs : List Char) :
    cs = cs.dropWhile (· == '#') ↔ ¬['#'] <+: cs := by
  rcases cs with _ | ⟨c, cs⟩
  · simp
  by_cases hc : c = '#'
  · subst hc
    have hshorter : (cs.dropWhile (· == '#')).length < ('#' :: cs).length :=
      Nat.lt_succ_of_le (List.dropWhile_sublist _).length_le
    have hne : '#' :: cs ≠ cs.dropWhile (· == '#') := by
      intro heq
      rw [← heq] at hshorter
      exact Nat.lt_irrefl _ hshorter
    simp [hne]
  · simp [hc, Ne.symm hc]

/-- Both names are the same unless two hash signs are in front. -/
theorem wireTagName_eq_schemaTagName_iff (name : String) :
    wireTagName name = schemaTagName name ↔ ¬['#', '#'] <+: Text.trim name.toList := by
  unfold wireTagName schemaTagName
  generalize Text.trim name.toList = cs
  split
  · rename_i cs
    rw [List.dropWhile_cons_of_pos rfl, String.ofList_inj, eq_dropWhile_hash_iff,
      List.cons_prefix_cons, and_iff_right rfl]
  · rename_i hhash
    have hfirst (rest : List Char) : ¬('#' :: rest <+: cs) := by
      rintro ⟨tail, rfl⟩
      exact hhash _ rfl
    rw [String.ofList_inj, eq_dropWhile_hash_iff]
    exact iff_of_true (hfirst []) (hfirst ['#'])

/-- A search asks the backend for one tag and the source of schemas for one name. The key of the
cache is the lower case of that name, and the tag is the one named if and only if there are no two
hash signs in front. -/
theorem searched_eq_asked_iff {ω : Type} (source : SchemaSource ω) (w : ω) (name : String)
    (filters : List PropertyFilter) (options : QueryOptions) :
    ∃ searched asked,
      (Condition.tag name filters).compile.singleTag?.map TagItem.name = some searched ∧
      (QueryDescription.ofTag name filters options).item.singleTag?.map TagItem.name =
        some searched ∧
      (TagSchema.fetch source.recorded name (w, [])).2.2 = [asked] ∧
      lowered asked = SchemaCache.key name ∧
      (searched = asked ↔ ¬['#', '#'] <+: Text.trim name.toList) :=
  ⟨wireTagName name, schemaTagName name, rfl, rfl, by rw [TagSchema.fetch_recorded]; rfl, rfl,
    wireTagName_eq_schemaTagName_iff name⟩

/-- With two hash signs, filters are enhanced by the schema of another tag than the one searched
for. -/
theorem searched_ne_asked_of_two_hashes :
    wireTagName "##task" = "#task" ∧ schemaTagName "##task" = "task" ∧
      SchemaCache.key "##task" = "task" := by
  decide

end NoteSearch
