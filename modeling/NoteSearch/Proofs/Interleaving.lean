import NoteSearch.Proofs.Caching

/-!
# Lookups in flight

Many lookups may be under way on one resolver. Each takes its three steps, checking the cache,
fetching from the source and storing what was fetched, and between them come the steps of the others,
administrative calls and changes of the world, in any order.

Over a source in memory this is safe: whatever a lookup answers and whatever the cache holds is what
the source answers itself, up to the case of the name of the tag.
-/

namespace NoteSearch

/-- How far a lookup has come. It ends when the cache has answered, when what was fetched is stored,
or when the source fails. -/
inductive Phase where
  | checking
  | fetching
  | storing (schema : TagSchema)
  | hit (schema : TagSchema)
  | stored (schema : TagSchema)
  | failed (e : SearchError)
deriving DecidableEq

namespace Phase

def answer? : Phase → Option (Except SearchError TagSchema)
  | checking => none
  | fetching => none
  | storing schema => some (.ok schema)
  | hit schema => some (.ok schema)
  | stored schema => some (.ok schema)
  | failed e => some (.error e)

def fetched? : Phase → Option TagSchema
  | storing schema => some schema
  | stored schema => some schema
  | _ => none

def hasEnded : Phase → Bool
  | hit _ => true
  | stored _ => true
  | failed _ => true
  | _ => false

def hasAsked : Phase → Bool
  | storing _ => true
  | stored _ => true
  | failed _ => true
  | _ => false

variable {ω : Type} (source : SchemaSource ω) (tag : String)

def advance (p : Phase) (s : Resolving ω) : Phase × Resolving ω :=
  match p with
  | checking =>
    match s.check source tag with
    | some schema => (hit schema, s)
    | none => (fetching, s)
  | fetching =>
    match Resolving.fetch source tag s with
    | (.ok schema, s) => (storing schema, s)
    | (.error e, s) => (failed e, s)
  | storing schema => (stored schema, s.store source tag schema)
  | p => (p, s)

/-- Three steps that nothing interrupts are the lookup of a schema. -/
theorem advance_checking (s : Resolving ω) :
    ∃ p, p.answer? = some (Resolving.schema source tag s).1 ∧
      let (first, s₁) := advance source tag checking s
      let (second, s₂) := advance source tag first s₁
      advance source tag second s₂ = (p, (Resolving.schema source tag s).2) := by
  rcases hcheck : s.check source tag with _ | found
  · rcases hfetch : Resolving.fetch source tag s with ⟨e | found, t⟩
    · rw [Resolving.schema_of_error hcheck (congrArg Prod.fst hfetch)]
      exact ⟨failed e, rfl, by simp [advance, hcheck, hfetch]⟩
    · rw [Resolving.schema_of_ok hcheck (congrArg Prod.fst hfetch)]
      exact ⟨stored found, rfl, by simp [advance, hcheck, hfetch]⟩
  · rw [Resolving.schema_of_hit hcheck]
    exact ⟨hit found, rfl, by simp [advance, hcheck]⟩

/-- All that a step can do. -/
inductive Advances : Phase → Resolving ω → Phase → Resolving ω → Prop
  | hit {s schema} (h : s.check source tag = some schema) : Advances checking s (hit schema) s
  | miss {s} (h : s.check source tag = none) : Advances checking s fetching s
  | fetched {s schema} (h : (Resolving.fetch source tag s).1 = .ok schema) :
    Advances fetching s (storing schema) (Resolving.fetch source tag s).2
  | failed {s e} (h : (Resolving.fetch source tag s).1 = .error e) :
    Advances fetching s (failed e) (Resolving.fetch source tag s).2
  | stored (s schema) :
    Advances (storing schema) s (stored schema) (s.store source tag schema)
  | ended {p s} (h : p.hasEnded) : Advances p s p s

variable {source tag} {p p' : Phase} {s s' : Resolving ω}

theorem advances (p : Phase) (s : Resolving ω) :
    Advances source tag p s (advance source tag p s).1 (advance source tag p s).2 := by
  cases p with
  | checking =>
    rcases hcheck : s.check source tag with _ | schema
    · simpa [advance, hcheck] using Advances.miss hcheck
    · simpa [advance, hcheck] using Advances.hit hcheck
  | fetching =>
    rcases hfetch : Resolving.fetch source tag s with ⟨e | schema, t⟩
    · have h := Advances.failed (congrArg Prod.fst hfetch)
      simpa [advance, hfetch] using h
    · have h := Advances.fetched (congrArg Prod.fst hfetch)
      simpa [advance, hfetch] using h
  | storing schema => exact .stored s schema
  | hit schema => exact .ended rfl
  | stored schema => exact .ended rfl
  | failed e => exact .ended rfl

/-- Only the last step of a lookup that has fetched changes the cache. -/
theorem Advances.cache_eq (h : Advances source tag p s p' s') (hp : ∀ schema, p ≠ storing schema) :
    s'.cache = s.cache := by
  cases h with
  | stored s schema => exact absurd rfl (hp schema)
  | _ => rfl

end Phase

structure Lookup where
  tag : String
  phase : Phase
deriving DecidableEq

/-- Lookups, in the order in which they started, and the resolver that they share. -/
structure Traffic (ω : Type) where
  lookups : List Lookup
  state : Resolving ω

namespace Traffic

/-- Something that happens: a lookup starts or goes on, an administrative call is carried out, or
the world changes. -/
inductive Event (ω : Type) where
  | start (tag : String)
  | advance (index : Nat)
  | invalidate (tag : String)
  | clear
  | change (f : ω → ω)

def Event.onFirst {α β : Type} : Event α → Event (α × β)
  | start tag => start tag
  | advance index => advance index
  | invalidate tag => invalidate tag
  | clear => clear
  | change f => change (Prod.map f id)

variable {ω : Type} (source : SchemaSource ω)

def after (t : Traffic ω) : Event ω → Traffic ω
  | .start tag => { t with lookups := t.lookups ++ [⟨tag, .checking⟩] }
  | .advance index =>
    match t.lookups[index]? with
    | some l =>
      let (phase, state) := l.phase.advance source l.tag t.state
      ⟨t.lookups.set index { l with phase }, state⟩
    | none => t
  | .invalidate tag => { t with state := (Resolving.invalidate tag t.state).2 }
  | .clear => { t with state := (Resolving.clear t.state).2 }
  | .change f => { t with state := { t.state with world := f t.state.world } }

theorem after_advance_of_none {source : SchemaSource ω} {t : Traffic ω} {i : Nat}
    (h : t.lookups[i]? = none) : t.after source (.advance i) = t := by
  simp only [after, h]

theorem after_advance_of_some {source : SchemaSource ω} {t : Traffic ω} {i : Nat} {l : Lookup}
    (h : t.lookups[i]? = some l) :
    t.after source (.advance i) =
      ⟨t.lookups.set i { l with phase := (l.phase.advance source l.tag t.state).1 },
        (l.phase.advance source l.tag t.state).2⟩ := by
  simp only [after, h]

def run (t : Traffic ω) (events : List (Event ω)) : Traffic ω := events.foldl (after source) t

def quiet (lifetime : Nat) (w : ω) : Traffic ω := ⟨[], ⟨lifetime, []⟩, w⟩

end Traffic

namespace Phase

/-- The source would answer the same again. -/
structure Faithful (m : MemorySource) (tag : String) (p : Phase) : Prop where
  fetched : ∀ schema, p.fetched? = some schema → m.schemaOf tag = .ok schema
  answer : ∀ answer, p.answer? = some answer → Agree TagSchema.Alike answer (m.schemaOf tag)

theorem Faithful.of_unanswered {m : MemorySource} {tag : String} {p : Phase}
    (h : p.answer? = none) : p.Faithful m tag := by
  refine ⟨fun schema hfetched => ?_, fun answer hanswer => ?_⟩
  · cases p <;> cases hfetched <;> cases h
  · rw [h] at hanswer
    cases hanswer

variable {β : Type} {now : β × MemorySource → Nat} {m : MemorySource} {tag : String} {p p' : Phase}
variable {s s' : Resolving (β × MemorySource)} {fetches : Nat}

/-- A step stays faithful, and asks the source only if the lookup had not asked before. -/
theorem Advances.faithful (hstep : Advances (MemorySource.timed now) tag p s p' s')
    (hp : p.Faithful m tag) (hcache : s.cache.Faithful m) (hkeys : s.cache.keys.Nodup)
    (hsource : s.world.2 = { m with fetches }) :
    p'.Faithful m tag ∧ s'.cache.Faithful m ∧ s'.cache.keys.Nodup ∧
      ∃ fetches', s'.world.2 = { m with fetches := fetches' } ∧
        fetches' + p.hasAsked.toNat = fetches + p'.hasAsked.toNat := by
  have hfetch := Resolving.fetch_timed hsource now tag
  cases hstep with
  | hit h =>
    obtain ⟨e, he, rfl⟩ := SchemaCache.entry?_of_get? h
    obtain ⟨schema, hschema, halike⟩ := hcache tag e he
    refine ⟨⟨nofun, ?_⟩, hcache, hkeys, fetches, hsource, rfl⟩
    rintro _ ⟨⟩
    rw [hschema]
    exact .ok halike
  | miss h => exact ⟨.of_unanswered rfl, hcache, hkeys, fetches, hsource, rfl⟩
  | fetched h =>
    rw [hfetch] at h ⊢
    have hschema : m.schemaOf tag = .ok _ := h
    refine ⟨⟨?_, ?_⟩, hcache, hkeys, fetches + 1, rfl, rfl⟩
    · rintro _ ⟨⟩
      exact hschema
    · rintro _ ⟨⟩
      rw [hschema]
      exact .ok ⟨rfl, rfl⟩
  | failed h =>
    rw [hfetch] at h ⊢
    have hschema : m.schemaOf tag = .error _ := h
    refine ⟨⟨nofun, ?_⟩, hcache, hkeys, fetches + 1, rfl, rfl⟩
    rintro _ ⟨⟩
    rw [hschema]
    exact .error _
  | stored s schema =>
    have hschema := hp.fetched schema rfl
    exact ⟨⟨hp.fetched, hp.answer⟩, hcache.insert hschema _,
      SchemaCache.nodup_keys_insert hkeys _ tag schema, fetches, hsource, rfl⟩
  | ended h => exact ⟨hp, hcache, hkeys, fetches, hsource, rfl⟩

end Phase

namespace Traffic

variable {β : Type} (now : β × MemorySource → Nat)

/-- Cache and lookups are faithful to the source, no key has two entries, and each lookup that has
asked the source has asked it once. -/
structure Safe (m : MemorySource) (t : Traffic (β × MemorySource)) : Prop where
  cache : t.state.cache.Faithful m
  keys : t.state.cache.keys.Nodup
  source : t.state.world.2 =
    { m with fetches := m.fetches + t.lookups.countP fun l => l.phase.hasAsked }
  lookups : ∀ l ∈ t.lookups, l.phase.Faithful m l.tag

theorem countP_set_eq {α : Type} {p : α → Bool} {l : List α} {i : Nat} {a b : α}
    (h : l[i]? = some a) :
    (l.set i b).countP p + (p a).toNat = l.countP p + (p b).toNat := by
  obtain ⟨hi, rfl⟩ := List.getElem?_eq_some_iff.mp h
  rw [List.countP_set hi]
  cases hp : p l[i] with
  | false => cases hb : p b <;> simp
  | true =>
    have hpos : 0 < l.countP p := List.countP_pos_iff.mpr ⟨l[i], List.getElem_mem hi, hp⟩
    cases hb : p b <;> simp <;> omega

namespace Safe

variable {now} {m : MemorySource} {t : Traffic (β × MemorySource)}

theorem quiet (lifetime : Nat) (b : β) (m : MemorySource) : Safe m (quiet lifetime (b, m)) where
  cache := SchemaCache.faithful_nil lifetime m
  keys := .nil
  source := rfl
  lookups := nofun

theorem advance (h : Safe m t) (i : Nat) :
    Safe m (t.after (MemorySource.timed now) (.advance i)) := by
  rcases hl : t.lookups[i]? with _ | l
  · rw [after_advance_of_none hl]
    exact h
  rw [after_advance_of_some hl]
  have hmem : l ∈ t.lookups := List.mem_of_getElem? hl
  obtain ⟨hphase, hcache, hkeys, fetches, hsource, hcount⟩ :=
    (Phase.advances l.phase t.state).faithful (h.lookups l hmem) h.cache h.keys h.source
  refine ⟨hcache, hkeys, ?_, ?_⟩
  · have hset := countP_set_eq (p := fun l : Lookup => l.phase.hasAsked) hl
      (b := { l with phase := (l.phase.advance (MemorySource.timed now) l.tag t.state).1 })
    refine hsource.trans ?_
    congr 1
    dsimp only at hset ⊢
    omega
  · intro l' hl'
    rcases List.mem_or_eq_of_mem_set hl' with hold | rfl
    · exact h.lookups l' hold
    · exact hphase

theorem after (h : Safe m t) (e : Event β) :
    Safe m (t.after (MemorySource.timed now) e.onFirst) := by
  cases e with
  | start tag =>
    refine ⟨h.cache, h.keys, ?_, ?_⟩
    · refine h.source.trans ?_
      simp [Traffic.after, Event.onFirst, Phase.hasAsked]
    · intro l hl
      rcases List.mem_append.mp hl with hold | hnew
      · exact h.lookups l hold
      · rw [List.mem_singleton.mp hnew]
        exact .of_unanswered rfl
  | advance i => exact h.advance i
  | invalidate tag =>
    exact ⟨h.cache.invalidate tag, SchemaCache.nodup_keys_invalidate h.keys tag, h.source, h.lookups⟩
  | clear => exact ⟨SchemaCache.faithful_nil _ m, .nil, h.source, h.lookups⟩
  | change f => exact ⟨h.cache, h.keys, h.source, h.lookups⟩

theorem run (h : Safe m t) (events : List (Event β)) :
    Safe m (t.run (MemorySource.timed now) (events.map Event.onFirst)) := by
  unfold Traffic.run
  induction events generalizing t with
  | nil => exact h
  | cons e events ih => exact ih (h.after e)

end Safe

/-- However lookups over a source that does not change run into each other, into administrative calls
and into the passing of time: a lookup that succeeds has the properties that its tag has at the
source, one whose tag is missing or whose fetch fails stores nothing, each entry is right for every
spelling of its tag, no key has two, and the source is asked at most once for each lookup. -/
theorem lookups_safe (lifetime : Nat) (b : β) (m : MemorySource) (events : List (Event β)) :
    let source := MemorySource.timed now
    let t := (quiet lifetime (b, m)).run source (events.map Event.onFirst)
    (∀ l ∈ t.lookups, ∀ schema, l.phase.answer? = some (.ok schema) →
      ∃ direct, (Resolving.fetch source l.tag t.state).1 = .ok direct ∧
        schema.properties = direct.properties) ∧
    (∀ i l e, t.lookups[i]? = some l → (Resolving.fetch source l.tag t.state).1 = .error e →
      (t.after source (.advance i)).state.cache = t.state.cache) ∧
    (∀ tag e, t.state.cache.entry? tag = some e →
      ∃ direct, (Resolving.fetch source tag t.state).1 = .ok direct ∧
        e.schema.properties = direct.properties) ∧
    t.state.cache.keys.Nodup ∧
    t.state.world.2.fetches ≤ m.fetches + t.lookups.length := by
  intro source t
  have h : Safe m t := (Safe.quiet lifetime b m).run events
  have hfetch (tag : String) : (Resolving.fetch source tag t.state).1 = m.schemaOf tag := by
    rw [Resolving.fetch_timed h.source]
  simp only [hfetch]
  refine ⟨?_, ?_, ?_, h.keys, ?_⟩
  · intro l hl schema hanswer
    have hagree := (h.lookups l hl).answer _ hanswer
    generalize m.schemaOf l.tag = direct at hagree ⊢
    obtain _ | halike := hagree
    exact ⟨_, rfl, halike.properties⟩
  · intro i l e hl he
    rw [after_advance_of_some hl]
    apply (Phase.advances l.phase t.state).cache_eq
    intro schema hphase
    have hfetched := (h.lookups l (List.mem_of_getElem? hl)).fetched schema
    rw [hphase, he] at hfetched
    cases hfetched rfl
  · intro tag e he
    obtain ⟨direct, hdirect, halike⟩ := h.cache tag e he
    exact ⟨direct, hdirect, halike.properties⟩
  · rw [h.source]
    exact Nat.add_le_add_left List.countP_le_length m.fetches

end Traffic
end NoteSearch
