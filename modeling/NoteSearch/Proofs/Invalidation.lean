import NoteSearch.Proofs.Interleaving

/-!
# What comes after an invalidation

Dropping a key does not reach the lookups that are under way. One that has its schema from the source
already stores it afterwards, and brings back what was there before. This is the only way: a lookup
that starts after its key was dropped answers a schema that the source has answered since, or one
that such a lookup in flight has stored since.
-/

namespace NoteSearch

namespace Phase

/-- What may become of a lookup: anything until its schema is fetched, then only that it stores it. -/
def Leads (p p' : Phase) : Prop :=
  p.fetched? = none ∨ p' = p ∨ ∃ schema, p = storing schema ∧ p' = stored schema

variable {ω : Type} {source : SchemaSource ω} {tag : String} {p p' p'' : Phase}
variable {s s' : Resolving ω}

theorem Leads.trans (h : Leads p p') (h' : Leads p' p'') : Leads p p'' := by
  rcases h with hnone | rfl | ⟨schema, rfl, rfl⟩
  · exact .inl hnone
  · exact h'
  · rcases h' with hnone | rfl | ⟨schema', hstoring, -⟩
    · cases hnone
    · exact .inr (.inr ⟨schema, rfl, rfl⟩)
    · cases hstoring

theorem Leads.fetched?_eq {schema : TagSchema} (h : Leads p p') (hp : p.fetched? = some schema) :
    p'.fetched? = some schema := by
  rcases h with hnone | rfl | ⟨schema', rfl, rfl⟩
  · rw [hnone] at hp
    cases hp
  · exact hp
  · exact hp

theorem Leads.eq_stored {schema : TagSchema} (h : Leads (stored schema) p') :
    p' = stored schema := by
  rcases h with hnone | heq | ⟨schema', hstoring, -⟩
  · cases hnone
  · exact heq
  · cases hstoring

theorem Advances.leads (h : Advances source tag p s p' s') : Leads p p' := by
  cases h with
  | stored s schema => exact .inr (.inr ⟨schema, rfl, rfl⟩)
  | ended h => exact .inr (.inl rfl)
  | _ => exact .inl rfl

theorem Advances.entry (h : Advances source tag p s p' s') {k : String} {e : CacheEntry}
    (he : s'.cache.entries.lookup k = some e) :
    s.cache.entries.lookup k = some e ∨
      SchemaCache.key tag = k ∧ p = .storing e.schema ∧ p' = .stored e.schema := by
  cases h with
  | stored s schema =>
    unfold Resolving.store at he
    rw [SchemaCache.lookup_insert] at he
    by_cases hk : k = SchemaCache.key tag
    · rw [if_pos hk, Option.some.injEq] at he
      subst he
      exact .inr ⟨hk.symm, rfl, rfl⟩
    · rw [if_neg hk] at he
      exact .inl he
  | _ => exact .inl he

theorem Advances.answer (h : Advances source tag p s p' s') {schema : TagSchema}
    (hp' : p'.answer? = some (.ok schema)) :
    p.answer? = some (.ok schema) ∨ p'.fetched? = some schema ∨
      ∃ e, s.cache.entries.lookup (SchemaCache.key tag) = some e ∧ e.schema = schema := by
  cases h with
  | hit h =>
    cases hp'
    exact .inr (.inr (SchemaCache.entry?_of_get? h))
  | fetched h =>
    cases hp'
    exact .inr (.inl rfl)
  | stored s schema' =>
    cases hp'
    exact .inr (.inl rfl)
  | failed h => cases hp'
  | miss h => cases hp'
  | ended h => exact .inl hp'

end Phase

namespace Traffic

variable {ω : Type}

def Event.drops (k : String) : Event ω → Bool
  | .invalidate tag => SchemaCache.key tag == k
  | .clear => true
  | _ => false

/-- Lookups as they may be found later, others having started in between. -/
def Grows (past present : List Lookup) : Prop :=
  ∀ (i : Nat) (l : Lookup), past[i]? = some l →
    ∃ p, present[i]? = some { l with phase := p } ∧ l.phase.Leads p

/-- The source has answered the schema to a lookup for the key, and had not done so in the past. -/
def FetchedSince (past present : List Lookup) (k : String) (schema : TagSchema) : Prop :=
  ∃ (i : Nat) (l : Lookup), present[i]? = some l ∧ SchemaCache.key l.tag = k ∧
    l.phase.fetched? = some schema ∧ ∀ l₀, past[i]? = some l₀ → l₀.phase.fetched? = none

def StoredSince (past present : List Lookup) (k : String) (schema : TagSchema) : Prop :=
  ∃ (i : Nat) (l l₀ : Lookup), present[i]? = some l ∧ SchemaCache.key l.tag = k ∧
    l.phase = .stored schema ∧ past[i]? = some l₀ ∧ l₀.phase = .storing schema

variable {past present later : List Lookup} {k : String} {schema : TagSchema}

theorem Grows.refl (lookups : List Lookup) : Grows lookups lookups :=
  fun _ l hl => ⟨l.phase, hl, .inr (.inl rfl)⟩

theorem Grows.trans (h : Grows past present) (h' : Grows present later) : Grows past later := by
  intro i l hl
  obtain ⟨p, hp, hlead⟩ := h i l hl
  obtain ⟨p', hp', hlead'⟩ := h' i _ hp
  exact ⟨p', hp', hlead.trans hlead'⟩

theorem FetchedSince.grows (h : FetchedSince past present k schema) (hgrows : Grows present later) :
    FetchedSince past later k schema := by
  obtain ⟨i, l, hl, hkey, hfetched, hpast⟩ := h
  obtain ⟨p, hp, hlead⟩ := hgrows i l hl
  exact ⟨i, _, hp, hkey, hlead.fetched?_eq hfetched, hpast⟩

theorem StoredSince.grows (h : StoredSince past present k schema) (hgrows : Grows present later) :
    StoredSince past later k schema := by
  obtain ⟨i, l, l₀, hl, hkey, hstored, hpast, hstoring⟩ := h
  obtain ⟨p, hp, hlead⟩ := hgrows i l hl
  rw [hstored] at hlead
  exact ⟨i, _, l₀, hp, hkey, hlead.eq_stored, hpast, hstoring⟩

variable {source : SchemaSource ω} {t : Traffic ω}

theorem since_grows
    (h : FetchedSince past present k schema ∨ StoredSince past present k schema)
    (hgrows : Grows present later) :
    FetchedSince past later k schema ∨ StoredSince past later k schema :=
  h.imp (·.grows hgrows) (·.grows hgrows)

theorem getElem?_set_of_some {lookups : List Lookup} {i : Nat} {l : Lookup}
    (hl : lookups[i]? = some l) (l' : Lookup) : (lookups.set i l')[i]? = some l' :=
  List.getElem?_set_self (List.getElem?_eq_some_iff.mp hl).1

theorem grows_set {i : Nat} {l : Lookup} (hl : t.lookups[i]? = some l) {p : Phase}
    (hlead : l.phase.Leads p) : Grows t.lookups (t.lookups.set i { l with phase := p }) := by
  intro j l' hl'
  by_cases hij : i = j
  · subst hij
    cases hl.symm.trans hl'
    exact ⟨p, getElem?_set_of_some hl _, hlead⟩
  · exact ⟨l'.phase, by rw [List.getElem?_set_ne hij, hl'], .inr (.inl rfl)⟩

theorem grows_append (lookups : List Lookup) (l : Lookup) : Grows lookups (lookups ++ [l]) := by
  intro i l' hl'
  have hi := (List.getElem?_eq_some_iff.mp hl').1
  exact ⟨l'.phase, by rw [List.getElem?_append_left hi, hl'], .inr (.inl rfl)⟩

theorem fetchedSince_of_length_le {i : Nat} {l : Lookup} (hi : past.length ≤ i)
    (hl : present[i]? = some l) (hkey : SchemaCache.key l.tag = k)
    (hfetched : l.phase.fetched? = some schema) : FetchedSince past present k schema := by
  refine ⟨i, l, hl, hkey, hfetched, fun l₀ hl₀ => ?_⟩
  rw [List.getElem?_eq_none hi] at hl₀
  cases hl₀

theorem since_of_stored (hgrows : Grows past t.lookups) {i : Nat} {l : Lookup}
    (hl : t.lookups[i]? = some l) (hkey : SchemaCache.key l.tag = k)
    (hphase : l.phase = .storing schema) :
    let present := t.lookups.set i { l with phase := .stored schema }
    FetchedSince past present k schema ∨ StoredSince past present k schema := by
  have hset := getElem?_set_of_some hl { l with phase := .stored schema }
  rcases hl₀ : past[i]? with _ | l₀
  · exact .inl (fetchedSince_of_length_le (List.getElem?_eq_none_iff.mp hl₀) hset hkey rfl)
  · obtain ⟨p, hp, hlead⟩ := hgrows i l₀ hl₀
    cases hl.symm.trans hp
    dsimp only at hphase
    rcases hlead with hnone | rfl | ⟨schema', -, hstored⟩
    · refine .inl ⟨i, _, hset, hkey, rfl, fun l₁ hl₁ => ?_⟩
      cases hl₀.symm.trans hl₁
      exact hnone
    · exact .inr ⟨i, _, l₀, hset, hkey, rfl, hl₀, hphase⟩
    · rw [hphase] at hstored
      cases hstored

/-- Since the past, when nothing was kept under the key, all that is kept under it and all that the
lookups started since have answered for it was fetched or stored. -/
structure Renewed (past : List Lookup) (k : String) (t : Traffic ω) : Prop where
  grows : Grows past t.lookups
  entry : ∀ e, t.state.cache.entries.lookup k = some e →
    FetchedSince past t.lookups k e.schema ∨ StoredSince past t.lookups k e.schema
  answer : ∀ (i : Nat) (l : Lookup) (schema : TagSchema), past.length ≤ i →
    t.lookups[i]? = some l → SchemaCache.key l.tag = k → l.phase.answer? = some (.ok schema) →
      FetchedSince past t.lookups k schema ∨ StoredSince past t.lookups k schema

namespace Renewed

/-- The lookups go on, and neither a new entry nor a new answer comes up. -/
theorem mono (h : Renewed past k t) {t' : Traffic ω} (hgrows : Grows t.lookups t'.lookups)
    (hentry : ∀ e, t'.state.cache.entries.lookup k = some e →
      t.state.cache.entries.lookup k = some e)
    (hanswer : ∀ (i : Nat) (l : Lookup) (schema : TagSchema), t'.lookups[i]? = some l →
      l.phase.answer? = some (.ok schema) → t.lookups[i]? = some l) : Renewed past k t' where
  grows := h.grows.trans hgrows
  entry e he := since_grows (h.entry e (hentry e he)) hgrows
  answer i l schema hi hl hkey hschema :=
    since_grows (h.answer i l schema hi (hanswer i l schema hl hschema) hkey hschema) hgrows

theorem set (h : Renewed past k t) {j : Nat} {l : Lookup} (hl : t.lookups[j]? = some l) {p : Phase}
    {s : Resolving ω} (hstep : Phase.Advances source l.tag l.phase t.state p s) :
    Renewed past k ⟨t.lookups.set j { l with phase := p }, s⟩ := by
  have hgrows := grows_set hl hstep.leads
  have hset := getElem?_set_of_some hl { l with phase := p }
  refine ⟨h.grows.trans hgrows, fun e he => ?_, fun i l' schema hi hl' hkey hschema => ?_⟩
  · -- what is kept is old, or has been stored in this step
    rcases hstep.entry he with hold | ⟨hkey, hstoring, rfl⟩
    · exact since_grows (h.entry e hold) hgrows
    · exact since_of_stored h.grows hl hkey hstoring
  · by_cases hij : j = i
    · -- the lookup that has taken the step: its answer is old, fetched, or from the cache
      subst hij
      cases hset.symm.trans hl'
      rcases hstep.answer hschema with hold | hfetched | ⟨e, he, rfl⟩
      · exact since_grows (h.answer j l schema hi hl hkey hold) hgrows
      · exact .inl (fetchedSince_of_length_le hi hset hkey hfetched)
      · subst hkey
        exact since_grows (h.entry e he) hgrows
    · dsimp only at hl'
      rw [List.getElem?_set_ne hij] at hl'
      exact since_grows (h.answer i l' schema hi hl' hkey hschema) hgrows

theorem after (h : Renewed past k t) (e : Event ω) : Renewed past k (t.after source e) := by
  cases e with
  | start tag =>
    refine h.mono (grows_append _ _) (fun e he => he) fun i l schema hl hschema => ?_
    -- the lookup that has just started has no answer
    rcases Nat.lt_or_ge i t.lookups.length with hi | hi
    · rwa [← List.getElem?_append_left hi]
    · have hmem := List.mem_of_getElem? (List.getElem?_append_right hi ▸ hl)
      rw [List.mem_singleton.mp hmem] at hschema
      cases hschema
  | advance j =>
    rcases hl : t.lookups[j]? with _ | l
    · rw [after_advance_of_none hl]
      exact h
    · rw [after_advance_of_some hl]
      exact h.set hl (Phase.advances l.phase t.state)
  | invalidate tag =>
    refine h.mono (.refl _) (fun e he => ?_) fun i l schema hl _ => hl
    have hlookup := t.state.cache.lookup_invalidate tag k
    exact (Option.ite_none_left_eq_some.mp (hlookup ▸ he)).2
  | clear => exact h.mono (.refl _) nofun fun i l schema hl _ => hl
  | change f => exact h.mono (.refl _) (fun e he => he) fun i l schema hl _ => hl

theorem run (h : Renewed past k t) (events : List (Event ω)) :
    Renewed past k (t.run source events) := by
  unfold Traffic.run
  induction events generalizing t with
  | nil => exact h
  | cons e events ih => exact ih (h.after e)

theorem of_drops (source : SchemaSource ω) (t : Traffic ω) {drop : Event ω} (h : drop.drops k) :
    Renewed (t.after source drop).lookups k (t.after source drop) := by
  refine ⟨.refl _, fun e he => ?_, fun i l schema hi hl => ?_⟩
  · cases drop with
    | invalidate tag =>
      have hlookup := t.state.cache.lookup_invalidate tag k
      rw [if_pos (beq_iff_eq.mp h).symm] at hlookup
      cases hlookup.symm.trans he
    | clear => cases he
    | start tag => cases h
    | advance i => cases h
    | change f => cases h
  · rw [List.getElem?_eq_none hi] at hl
    cases hl

end Renewed

/-- The lookups are those that have started after the key was dropped. Their answers may come from
the source, by whichever lookup, or be left over from a lookup that was about to store when the key
was dropped. A lifetime that passes adds nothing to this. -/
theorem answer_since_drop (source : SchemaSource ω) (t : Traffic ω) (drop : Event ω) (k : String)
    (hdrop : drop.drops k) (events : List (Event ω)) :
    let past := t.after source drop
    let present := past.run source events
    ∀ (i : Nat) (l : Lookup) (schema : TagSchema), past.lookups.length ≤ i →
      present.lookups[i]? = some l → SchemaCache.key l.tag = k →
      l.phase.answer? = some (.ok schema) →
        FetchedSince past.lookups present.lookups k schema ∨
          StoredSince past.lookups present.lookups k schema :=
  ((Renewed.of_drops source t hdrop).run events).answer

/-- A lookup misses and fetches, whereupon the tag gets a property. -/
def outrun : List (Event MemorySource) :=
  [.start "task", .advance 0, .advance 0,
    .change fun m => m.withTag "task" 1 [⟨"Priority", some 1, none, none⟩]]

/-- That lookup stores what it has fetched, and the next one finds it. -/
def leftOver : List (Event MemorySource) := [.advance 0, .start "#Task", .advance 1]

/-- The source in which the tag has no property yet, with the lookup that has fetched this. -/
def beforeDrop : Traffic MemorySource :=
  (quiet 1 (MemorySource.empty.withTag "task" 1 [])).run MemorySource.source outrun

theorem answer_since_drop_leftOver :
    let past := beforeDrop.after MemorySource.source (.invalidate "TASK")
    let present := past.run MemorySource.source leftOver
    present.lookups = [⟨"task", .stored ⟨"task", []⟩⟩, ⟨"#Task", .hit ⟨"task", []⟩⟩] ∧
      (FetchedSince past.lookups present.lookups "task" ⟨"task", []⟩ ∨
        StoredSince past.lookups present.lookups "task" ⟨"task", []⟩) := by
  intro past present
  have hpresent : present.lookups =
      [⟨"task", .stored ⟨"task", []⟩⟩, ⟨"#Task", .hit ⟨"task", []⟩⟩] := by decide +kernel
  refine ⟨hpresent, ?_⟩
  exact answer_since_drop MemorySource.source beforeDrop (.invalidate "TASK") "task"
    (by decide +kernel) leftOver 1 ⟨"#Task", .hit ⟨"task", []⟩⟩ ⟨"task", []⟩ (by decide +kernel)
    (congrArg (·[1]?) hpresent) (by decide +kernel) rfl

/-- After a key was dropped, and while no lifetime passes, nothing is answered under it that was
fetched before. -/
def InvalidationFinal (source : SchemaSource ω) : Prop :=
  ∀ (lifetime : Nat) (w : ω) (earlier : List (Event ω)) (drop : Event ω) (k : String)
    (events : List (Event ω)), (∀ w', source.now w' < lifetime) → drop.drops k →
    let past := ((quiet lifetime w).run source earlier).after source drop
    let present := past.run source events
    ∀ (i : Nat) (l : Lookup) (schema : TagSchema), past.lookups.length ≤ i →
      present.lookups[i]? = some l → SchemaCache.key l.tag = k →
      l.phase.answer? = some (.ok schema) → FetchedSince past.lookups present.lookups k schema

/-- The lookup that has been outrun fetched before the key was dropped, and no other one fetches. -/
theorem not_invalidationFinal : ¬InvalidationFinal MemorySource.source := by
  intro hfinal
  let past := beforeDrop.after MemorySource.source (.invalidate "TASK")
  have hpast : past.lookups = [⟨"task", .storing ⟨"task", []⟩⟩] := by decide +kernel
  have hpresent : (past.run MemorySource.source leftOver).lookups =
      [⟨"task", .stored ⟨"task", []⟩⟩, ⟨"#Task", .hit ⟨"task", []⟩⟩] := by decide +kernel
  obtain ⟨i, l, hl, -, hfetched, hbefore⟩ :=
    hfinal 1 (MemorySource.empty.withTag "task" 1 []) outrun (.invalidate "TASK") "task" leftOver
      (fun _ => Nat.one_pos) (by decide +kernel) 1 ⟨"#Task", .hit ⟨"task", []⟩⟩ ⟨"task", []⟩
      (by decide +kernel) (congrArg (·[1]?) hpresent) (by decide +kernel) rfl
  change (past.run MemorySource.source leftOver).lookups[i]? = some l at hl
  change ∀ l₀, past.lookups[i]? = some l₀ → l₀.phase.fetched? = none at hbefore
  rw [hpresent] at hl
  rw [hpast] at hbefore
  match i with
  | 0 => cases hbefore _ rfl
  | 1 =>
    cases hl
    cases hfetched
  | i + 2 => cases hl

end Traffic
end NoteSearch
