import NoteSearch.Proofs.Search

/-!
# A cache in front of a source that does not change

Such a cache keeps nothing but what the source would answer again, for every spelling of a tag that
leads to the same key. Whether a lookup hits or misses, it then answers what the source does, up to
the case of the name of the tag.
-/

namespace NoteSearch

namespace SchemaCache

theorem lookup_without (k k' : String) (entries : List (String × CacheEntry)) :
    (without k entries).lookup k' = if k' = k then none else entries.lookup k' := by
  unfold without
  induction entries with
  | nil => exact (ite_self none).symm
  | cons entry entries ih =>
    obtain ⟨k₀, e⟩ := entry
    by_cases hk : k₀ = k
    · rw [List.filter_cons_of_neg (by simp [hk]), ih]
      by_cases hk' : k' = k
      · rw [if_pos hk', if_pos hk']
      · have hne : (k' == k₀) = false := beq_false_of_ne (hk ▸ hk')
        rw [if_neg hk', if_neg hk', List.lookup_cons, hne]
    · rw [List.filter_cons_of_pos (by simp [hk]), List.lookup_cons, List.lookup_cons, ih]
      by_cases hk' : k' = k
      · have hne : (k' == k₀) = false := beq_false_of_ne (hk' ▸ Ne.symm hk)
        simp only [hne, if_pos hk']
      · rw [if_neg hk', if_neg hk']

theorem lookup_insert (c : SchemaCache) (now : Nat) (tag k : String) (schema : TagSchema) :
    (c.insert now tag schema).entries.lookup k =
      if k = key tag then some ⟨schema, expiry c.lifetime now⟩ else c.entries.lookup k := by
  unfold insert
  by_cases h : k = key tag
  · rw [if_pos h, h, List.lookup_cons_self]
  · have hne : (k == key tag) = false := beq_false_of_ne h
    simp only [if_neg h, List.lookup_cons, hne, lookup_without]

theorem entry?_insert (c : SchemaCache) (now : Nat) (tag tag' : String) (schema : TagSchema) :
    entry? (c.insert now tag schema) tag' =
      if key tag' = key tag then some ⟨schema, expiry c.lifetime now⟩ else c.entry? tag' :=
  c.lookup_insert now tag (key tag') schema

theorem lookup_invalidate (c : SchemaCache) (tag k : String) :
    (c.invalidate tag).2.entries.lookup k = if k = key tag then none else c.entries.lookup k :=
  lookup_without (key tag) k c.entries

theorem entry?_invalidate (c : SchemaCache) (tag tag' : String) :
    entry? (c.invalidate tag).2 tag' = if key tag' = key tag then none else c.entry? tag' :=
  c.lookup_invalidate tag (key tag')

def keys (c : SchemaCache) : List String := c.entries.map Prod.fst

theorem lookup_isSome_iff (c : SchemaCache) (k : String) :
    (c.entries.lookup k).isSome ↔ k ∈ c.keys := by
  simp [keys, List.lookup_isSome_iff]

theorem keys_without_sublist (c : SchemaCache) (k : String) :
    ((without k c.entries).map Prod.fst).Sublist c.keys :=
  List.filter_sublist.map Prod.fst

theorem notMem_keys_without (k : String) (entries : List (String × CacheEntry)) :
    k ∉ (without k entries).map Prod.fst := by
  simp [without]

theorem nodup_keys_insert {c : SchemaCache} (h : c.keys.Nodup) (now : Nat) (tag : String)
    (schema : TagSchema) : (keys (c.insert now tag schema)).Nodup :=
  List.nodup_cons.mpr ⟨notMem_keys_without _ _, h.sublist (c.keys_without_sublist _)⟩

theorem nodup_keys_invalidate {c : SchemaCache} (h : c.keys.Nodup) (tag : String) :
    (c.invalidate tag).2.keys.Nodup :=
  h.sublist (c.keys_without_sublist _)

end SchemaCache

namespace Resolving

variable {ω : Type} {source : SchemaSource ω} {tag : String} {s : Resolving ω}

theorem schema_of_hit {found : TagSchema} (h : s.check source tag = some found) :
    schema source tag s = (.ok found, s) := by
  simp only [schema, h]

theorem schema_of_error {e : SearchError} (h : s.check source tag = none)
    (he : (fetch source tag s).1 = .error e) :
    schema source tag s = (.error e, (fetch source tag s).2) := by
  simp only [schema, h]
  rcases hfetch : fetch source tag s with ⟨answer, t⟩
  rw [hfetch] at he
  dsimp only at he
  rw [he]

theorem schema_of_ok {found : TagSchema} (h : s.check source tag = none)
    (hfound : (fetch source tag s).1 = .ok found) :
    schema source tag s = (.ok found, (fetch source tag s).2.store source tag found) := by
  simp only [schema, h]
  rcases hfetch : fetch source tag s with ⟨answer, t⟩
  rw [hfetch] at hfound
  dsimp only at hfound
  rw [hfound]

end Resolving

namespace TagSchema

/-- The same schema, under a name that differs in case only. -/
structure Alike (a b : TagSchema) : Prop where
  properties : a.properties = b.properties
  tagName : lowered a.tagName = lowered b.tagName

theorem Alike.symm {a b : TagSchema} (h : a.Alike b) : b.Alike a :=
  ⟨h.properties.symm, h.tagName.symm⟩

theorem Alike.trans {a b c : TagSchema} (h : a.Alike b) (h' : b.Alike c) : a.Alike c :=
  ⟨h.properties.trans h'.properties, h.tagName.trans h'.tagName⟩

theorem Alike.enhance {a b : TagSchema} (h : a.Alike b) :
    PropertyFilter.enhance a = PropertyFilter.enhance b := by
  funext f
  simp only [PropertyFilter.enhance, property?, h.properties]

end TagSchema

namespace MemorySource

/-- What a source answers for a tag, now and later: only the key of the tag leads to its block. -/
def schemaOf (m : MemorySource) (tag : String) : Except SearchError TagSchema :=
  if m.failing then .error unavailableError
  else
    match (m.tags.lookup (SchemaCache.key tag)).bind fun id => m.blocks.lookup id with
    | some b => .ok (TagSchema.ofBlock (schemaTagName tag) b)
    | none => .error (.tagNotFound (schemaTagName tag))

/-- Spellings with the same key have the same schema, up to the case of its name. -/
theorem schemaOf_of_key {m : MemorySource} {tag tag' : String} {schema : TagSchema}
    (hkey : SchemaCache.key tag = SchemaCache.key tag') (h : m.schemaOf tag = .ok schema) :
    ∃ schema', m.schemaOf tag' = .ok schema' ∧ schema.Alike schema' := by
  unfold schemaOf at h ⊢
  rw [← hkey]
  cases hm : m.failing with
  | true =>
    rw [hm, if_pos rfl] at h
    cases h
  | false =>
    rw [hm] at h
    rcases hb : (m.tags.lookup (SchemaCache.key tag)).bind fun id => m.blocks.lookup id with _ | b
    · rw [hb] at h
      cases h
    · rw [hb] at h
      cases h
      exact ⟨_, rfl, rfl, hkey⟩

/-- A source in memory beside another state; `now` tells the time. -/
def timed {β : Type} (now : β × MemorySource → Nat) : SchemaSource (β × MemorySource) :=
  { Separate.source source with now }

variable {β : Type} (now : β × MemorySource → Nat) (b : β) (m : MemorySource)

theorem timed_tagId (name : String) :
    (timed now).tagId name (b, m) =
      (if m.failing then .error unavailableError else .ok (m.tags.lookup (lowered name)),
        b, { m with fetches := m.fetches + 1 }) := rfl

theorem timed_block (id : Int) :
    (timed now).block id (b, m) =
      (if m.failing then .error unavailableError else .ok (m.blocks.lookup id), b, m) := rfl

theorem fetch_timed (tag : String) :
    TagSchema.fetch (timed now) tag (b, m) =
      (m.schemaOf tag, b, { m with fetches := m.fetches + 1 }) := by
  have hkey : SchemaCache.key tag = lowered (schemaTagName tag) := rfl
  unfold schemaOf TagSchema.fetch
  rw [bind_apply, timed_tagId, hkey]
  rcases m.failing with _ | _
  · rcases m.tags.lookup (lowered (schemaTagName tag)) with _ | id
    · rfl
    · simp only [Bool.false_eq_true, if_false, Option.bind_some]
      rw [bind_apply, timed_block]
      rcases m.blocks.lookup id with _ | block <;> rfl
  · rfl

end MemorySource

namespace SchemaCache

/-- Every entry is what a source answers, for all spellings of its tag. -/
def Faithful (c : SchemaCache) (m : MemorySource) : Prop :=
  ∀ tag e, c.entry? tag = some e → ∃ schema, m.schemaOf tag = .ok schema ∧ e.schema.Alike schema

variable {c : SchemaCache} {m : MemorySource}

theorem faithful_nil (lifetime : Nat) (m : MemorySource) : Faithful ⟨lifetime, []⟩ m := by
  intro tag e h
  cases h

theorem Faithful.insert (h : c.Faithful m) {tag : String} {schema : TagSchema}
    (hschema : m.schemaOf tag = .ok schema) (now : Nat) : (c.insert now tag schema).Faithful m := by
  intro tag' e he
  rw [entry?_insert] at he
  by_cases hkey : key tag' = key tag
  · rw [if_pos hkey, Option.some.injEq] at he
    rw [← he]
    exact MemorySource.schemaOf_of_key hkey.symm hschema
  · rw [if_neg hkey] at he
    exact h tag' e he

theorem Faithful.invalidate (h : c.Faithful m) (tag : String) :
    (c.invalidate tag).2.Faithful m := by
  intro tag' e he
  rw [entry?_invalidate] at he
  by_cases hkey : key tag' = key tag
  · rw [if_pos hkey] at he
    cases he
  · rw [if_neg hkey] at he
    exact h tag' e he

theorem entry?_of_get? {now : Nat} {tag : String} {schema : TagSchema}
    (h : c.get? now tag = some schema) : ∃ e, c.entry? tag = some e ∧ e.schema = schema := by
  unfold get? at h
  rcases he : c.entry? tag with _ | e
  · rw [he] at h
    cases h
  · rw [he] at h
    exact ⟨e, rfl, (Option.ite_none_right_eq_some.mp h).2 |> Option.some.inj⟩

end SchemaCache

namespace Resolving

variable {β : Type}

/-- Beside a source as `m` stands a cache that is faithful to it. -/
structure Sound (m : MemorySource) (s : Resolving (β × MemorySource)) : Prop where
  source : ∃ fetches, s.world.2 = { m with fetches }
  cache : s.cache.Faithful m

theorem fetch_timed {m : MemorySource} {s : Resolving (β × MemorySource)} {fetches : Nat}
    (h : s.world.2 = { m with fetches }) (now : β × MemorySource → Nat) (tag : String) :
    fetch (MemorySource.timed now) tag s =
      (m.schemaOf tag, ⟨s.cache, s.world.1, { m with fetches := fetches + 1 }⟩) := by
  unfold fetch
  rw [show s.world = (s.world.1, { m with fetches }) from Prod.ext rfl h,
    MemorySource.fetch_timed]
  rfl

/-- Hits and misses answer alike, and leave the state as sound as it was. -/
theorem schema_sound {m : MemorySource} {s : Resolving (β × MemorySource)} (h : Sound m s)
    (now : β × MemorySource → Nat) (tag : String) :
    Agree TagSchema.Alike (schema (MemorySource.timed now) tag s).1 (m.schemaOf tag) ∧
      Sound m (schema (MemorySource.timed now) tag s).2 ∧
      (schema (MemorySource.timed now) tag s).2.world.1 = s.world.1 := by
  unfold schema
  rcases hcheck : s.check (MemorySource.timed now) tag with _ | found
  · obtain ⟨fetches, hm⟩ := h.source
    rw [fetch_timed hm]
    rcases hschema : m.schemaOf tag with e | schema
    · exact ⟨.error e, ⟨⟨_, rfl⟩, h.cache⟩, rfl⟩
    · exact ⟨.ok ⟨rfl, rfl⟩, ⟨⟨_, rfl⟩, h.cache.insert hschema _⟩, rfl⟩
  · obtain ⟨e, he, rfl⟩ := SchemaCache.entry?_of_get? hcheck
    obtain ⟨schema, hschema, halike⟩ := h.cache tag e he
    rw [hschema]
    exact ⟨.ok halike, h, rfl⟩

end Resolving
end NoteSearch
