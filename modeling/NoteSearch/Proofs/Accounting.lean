import Mathlib.Data.Set.Card
import NoteSearch.Proofs.Caching
import NoteSearch.Proofs.TagNames

/-!
# Accounts of the schema cache

A run of calls on a resolver tells what its cache holds. A key is live when a lookup has fetched a
schema under it and the key has not been dropped since; the entries of the cache are the live keys
with the schemas that were fetched last. This is so for every lifetime. As long as no entry expires,
a lookup asks the source exactly if its key is not live; with a lifetime of zero it always does.
-/

namespace NoteSearch
namespace Resolving

variable {ω : Type} (source : SchemaSource ω)

theorem state_enhanceFilters_cons (tag : String) (f : PropertyFilter) (filters : List PropertyFilter)
    (s : Resolving ω) :
    (enhanceFilters source tag (f :: filters) s).2 = (schema source tag s).2 := by
  unfold enhanceFilters
  rcases schema source tag s with ⟨e | found, t⟩
  · rfl
  · rfl

theorem cache_of_error {source : SchemaSource ω} {tag : String} {s : Resolving ω} {e : SearchError}
    (h : (schema source tag s).1 = .error e) :
    (schema source tag s).2.cache = s.cache := by
  rcases hcheck : s.check source tag with _ | found
  · rcases hfetch : (fetch source tag s).1 with e' | found
    · rw [schema_of_error hcheck hfetch]
      rfl
    · rw [schema_of_ok hcheck hfetch] at h
      cases h
  · rw [schema_of_hit hcheck]

/-- A record of the names that the source is asked for changes nothing else; a hit asks for none. -/
theorem schema_recorded (tag : String) (s : Resolving ω) (names : List String) :
    schema source.recorded tag ⟨s.cache, s.world, names⟩ =
      ((schema source tag s).1, ⟨(schema source tag s).2.cache, (schema source tag s).2.world,
        names ++ if (s.check source tag).isSome then [] else [schemaTagName tag]⟩) := by
  have hcheck : check source.recorded tag ⟨s.cache, s.world, names⟩ = s.check source tag := rfl
  unfold schema
  rw [hcheck]
  rcases s.check source tag with _ | found
  · unfold fetch
    rw [TagSchema.fetch_recorded]
    rcases TagSchema.fetch source tag s.world with ⟨e | fetched, w⟩
    · rfl
    · rfl
  · simp

inductive Call where
  | schema (tag : String)
  | fetch (tag : String)
  | enhanceFilters (tag : String) (filters : List PropertyFilter)
  | enhanceCondition (c : Condition)
  | invalidate (tag : String)
  | clear

namespace Call

def after : Call → Resolving ω → Resolving ω
  | schema tag, s => (Resolving.schema source tag s).2
  | fetch tag, s => (Resolving.fetch source tag s).2
  | enhanceFilters tag filters, s => (Resolving.enhanceFilters source tag filters s).2
  | enhanceCondition c, s => (Resolving.enhanceCondition source c s).2
  | invalidate tag, s => (Resolving.invalidate tag s).2
  | clear, s => (Resolving.clear s).2

def lookup? : Call → Option String
  | schema tag => some tag
  | enhanceFilters tag (_ :: _) => some tag
  | enhanceCondition (.tag tag (_ :: _)) => some tag
  | _ => none

/-- Enhancement without any filter to enhance. -/
def isIdle : Call → Bool
  | enhanceFilters _ filters => filters.isEmpty
  | enhanceCondition (.tag _ filters) => filters.isEmpty
  | enhanceCondition _ => true
  | _ => false

/-- A call that drops what is kept under a key. -/
def drops (k : String) : Call → Bool
  | invalidate tag => SchemaCache.key tag == k
  | clear => true
  | _ => false

def asked (call : Call) (s : Resolving ω) : List String :=
  (call.after source.recorded ⟨s.cache, s.world, []⟩).world.2

section Lookup

variable {source} {call : Call} {tag : String} (h : call.lookup? = some tag)
include h

theorem after_of_lookup? (s : Resolving ω) :
    call.after source s = (Resolving.schema source tag s).2 := by
  unfold lookup? at h
  split at h
  · cases h
    rfl
  · cases h
    exact state_enhanceFilters_cons source _ _ _ s
  · cases h
    exact state_enhanceFilters_cons source _ _ _ s
  · cases h

theorem asked_of_lookup? (s : Resolving ω) :
    call.asked source s = if (s.check source tag).isSome then [] else [schemaTagName tag] := by
  unfold asked
  rw [after_of_lookup? h, schema_recorded, List.nil_append]

theorem drops_of_lookup? (k : String) : call.drops k = false := by
  cases call with
  | invalidate tag => cases h
  | clear => cases h
  | _ => rfl

end Lookup

theorem asked_fetch (tag : String) (s : Resolving ω) :
    (fetch tag).asked source s = [schemaTagName tag] := by
  have hfetch : ((fetch tag).after source.recorded ⟨s.cache, s.world, []⟩).world =
      (TagSchema.fetch source.recorded tag (s.world, [])).2 := rfl
  unfold asked
  rw [hfetch, TagSchema.fetch_recorded, List.nil_append]

theorem after_of_isIdle {call : Call} (h : call.isIdle) (s : Resolving ω) :
    call.after source s = s := by
  unfold isIdle at h
  split at h
  · rw [List.isEmpty_iff.mp h]
    rfl
  · rw [List.isEmpty_iff.mp h]
    rfl
  · rename_i c hc
    cases c with
    | tag name filters => exact absurd rfl (hc name filters)
    | _ => rfl
  · cases h

theorem asked_of_isIdle {call : Call} (h : call.isIdle) (s : Resolving ω) :
    call.asked source s = [] := by
  unfold asked
  rw [after_of_isIdle source.recorded h]

end Call

/-- What a call showed: the answer of its lookup, if it made one, the names that the source was
asked for, and the time at its end. -/
structure Observation where
  call : Call
  answer : Option (Except SearchError TagSchema)
  asked : List String
  finish : Nat

namespace Observation

/-- The schema that a lookup fetched under a key, and when. -/
def fetched? (k : String) (o : Observation) : Option (TagSchema × Nat) :=
  match o.call.lookup?, o.answer with
  | some tag, some (.ok schema) =>
    if SchemaCache.key tag = k ∧ o.asked ≠ [] then some (schema, o.finish) else none
  | _, _ => none

end Observation

def Call.observe (call : Call) (s : Resolving ω) : Observation :=
  { call
    answer := call.lookup?.map fun tag => (Resolving.schema source tag s).1
    asked := call.asked source s
    finish := source.now (call.after source s).world }

theorem fetched?_observe {source : SchemaSource ω} {call : Call} {tag : String}
    (h : call.lookup? = some tag) (s : Resolving ω) (k : String) :
    (call.observe source s).fetched? k =
      if s.check source tag = none ∧ SchemaCache.key tag = k then
        (schema source tag s).1.toOption.map fun found =>
          (found, source.now (schema source tag s).2.world)
      else none := by
  unfold Observation.fetched? Call.observe
  simp only [h, Option.map_some, Call.asked_of_lookup? h, Call.after_of_lookup? h]
  rcases s.check source tag with _ | found
  · rcases (schema source tag s).1 with e | found
    · simp [Except.toOption]
    · simp [Except.toOption]
  · rcases (schema source tag s).1 with e | found
    · simp
    · simp

/-- The schema fetched last under a key since the key was dropped, and when. Of the past, the latest
call comes first. -/
def lastFetched? (past : List Observation) (k : String) : Option (TagSchema × Nat) :=
  (past.takeWhile fun o => !o.call.drops k).findSome? (Observation.fetched? k)

/-- A lookup has fetched a schema under the key since it was dropped last. -/
def Live (past : List Observation) (k : String) : Prop := (lastFetched? past k).isSome

instance (past : List Observation) (k : String) : Decidable (Live past k) :=
  inferInstanceAs (Decidable (_ = true))

section LastFetched

variable {o : Observation} {past : List Observation} {k : String}

theorem lastFetched?_of_drops (h : o.call.drops k = true) : lastFetched? (o :: past) k = none := by
  unfold lastFetched?
  rw [List.takeWhile_cons_of_neg (by simp [h]), List.findSome?_nil]

theorem lastFetched?_of_fetched {last : TagSchema × Nat} (hdrops : o.call.drops k = false)
    (h : o.fetched? k = some last) : lastFetched? (o :: past) k = some last := by
  unfold lastFetched?
  rw [List.takeWhile_cons_of_pos (by simp [hdrops]), List.findSome?_cons_of_isSome (by simp [h]), h]

theorem lastFetched?_of_silent (hdrops : o.call.drops k = false) (h : o.fetched? k = none) :
    lastFetched? (o :: past) k = lastFetched? past k := by
  unfold lastFetched?
  rw [List.takeWhile_cons_of_pos (by simp [hdrops]), List.findSome?_cons_of_isNone (by simp [h])]

theorem exists_mem_of_lastFetched? {last : TagSchema × Nat} (h : lastFetched? past k = some last) :
    ∃ o ∈ past, o.finish = last.2 := by
  obtain ⟨o, ho, hfetched⟩ := List.exists_of_findSome?_eq_some h
  refine ⟨o, (List.takeWhile_sublist _).mem ho, ?_⟩
  unfold Observation.fetched? at hfetched
  split at hfetched
  · have hlast := Option.some.inj (Option.ite_none_right_eq_some.mp hfetched).2
    exact congrArg Prod.snd hlast
  · cases hfetched

end LastFetched

/-- The past and the present of a run. -/
structure Run (ω : Type) where
  past : List Observation
  state : Resolving ω

namespace Run

abbrev Step (ω : Type) := (ω → ω) × Call

def after (r : Run ω) (step : Step ω) : Run ω :=
  let s := { r.state with world := step.1 r.state.world }
  ⟨step.2.observe source s :: r.past, step.2.after source s⟩

/-- The run of some steps on a resolver that has kept nothing yet. -/
def ofSteps (lifetime : Nat) (w : ω) (steps : List (Step ω)) : Run ω :=
  steps.foldl (after source) ⟨[], ⟨lifetime, []⟩, w⟩

end Run

theorem isLive_of_lt {lifetime now finish : Nat} {found : TagSchema}
    (h : now < finish + lifetime) :
    CacheEntry.isLive now ⟨found, SchemaCache.expiry lifetime finish⟩ := by
  unfold SchemaCache.expiry
  dsimp only
  split
  · exact decide_eq_true h
  · rfl

theorem not_isLive_of_le {now finish : Nat} {found : TagSchema} (h : finish ≤ now)
    (hclock : finish / SchemaCache.nanosPerSecond ≤ SchemaCache.lastSecond) :
    ¬CacheEntry.isLive now ⟨found, SchemaCache.expiry 0 finish⟩ := by
  unfold SchemaCache.expiry
  rw [Nat.add_zero, if_pos hclock]
  simpa [CacheEntry.isLive] using h

/-- The entries of a cache are what has been fetched last under the live keys. -/
structure Booked (lifetime : Nat) (past : List Observation) (c : SchemaCache) : Prop where
  span : c.lifetime = lifetime
  entries : ∀ k, c.entries.lookup k =
    (lastFetched? past k).map fun last => ⟨last.1, SchemaCache.expiry lifetime last.2⟩
  keys : c.keys.Nodup

namespace Booked

variable {lifetime : Nat} {past : List Observation} {c : SchemaCache} {s : Resolving ω}

theorem nil (lifetime : Nat) : Booked lifetime [] ⟨lifetime, []⟩ :=
  ⟨rfl, fun _ => rfl, .nil⟩

theorem silent (h : Booked lifetime past c) {o : Observation}
    (hdrops : ∀ k, o.call.drops k = false) (hfetched : ∀ k, o.fetched? k = none) :
    Booked lifetime (o :: past) c := by
  refine ⟨h.span, fun k => ?_, h.keys⟩
  rw [lastFetched?_of_silent (hdrops k) (hfetched k)]
  exact h.entries k

theorem insert (h : Booked lifetime past c) {o : Observation} {tag : String} {found : TagSchema}
    {now : Nat} (hdrops : ∀ k, o.call.drops k = false)
    (hfetched : ∀ k, o.fetched? k = if SchemaCache.key tag = k then some (found, now) else none) :
    Booked lifetime (o :: past) (c.insert now tag found) := by
  refine ⟨h.span, fun k => ?_, SchemaCache.nodup_keys_insert h.keys now tag found⟩
  have ho := hfetched k
  rw [SchemaCache.lookup_insert]
  by_cases hk : k = SchemaCache.key tag
  · rw [if_pos hk.symm] at ho
    rw [if_pos hk, lastFetched?_of_fetched (hdrops k) ho, h.span]
    rfl
  · rw [if_neg (Ne.symm hk)] at ho
    rw [if_neg hk, lastFetched?_of_silent (hdrops k) ho, h.entries]

theorem invalidate (h : Booked lifetime past c) {o : Observation} {tag : String}
    (ho : o.call = .invalidate tag) : Booked lifetime (o :: past) (c.invalidate tag).2 := by
  refine ⟨h.span, fun k => ?_, SchemaCache.nodup_keys_invalidate h.keys tag⟩
  have hdrops : o.call.drops k = (SchemaCache.key tag == k) := by rw [ho, Call.drops]
  rw [SchemaCache.lookup_invalidate]
  by_cases hk : k = SchemaCache.key tag
  · rw [if_pos hk, lastFetched?_of_drops (hdrops.trans (beq_iff_eq.mpr hk.symm))]
    rfl
  · have hfetched : o.fetched? k = none := by
      simp [Observation.fetched?, ho, Call.lookup?]
    rw [if_neg hk, h.entries,
      lastFetched?_of_silent (hdrops.trans (beq_false_of_ne (Ne.symm hk))) hfetched]

theorem clear (h : Booked lifetime past c) {o : Observation} (ho : o.call = .clear) :
    Booked lifetime (o :: past) c.clear := by
  refine ⟨h.span, fun k => ?_, .nil⟩
  have hdrops : o.call.drops k = true := by rw [ho, Call.drops]
  rw [lastFetched?_of_drops hdrops]
  rfl

theorem lookup (h : Booked lifetime past s.cache) {call : Call} {tag : String}
    (hlookup : call.lookup? = some tag) :
    Booked lifetime (call.observe source s :: past) (call.after source s).cache := by
  have hdrops : ∀ k, (call.observe source s).call.drops k = false := Call.drops_of_lookup? hlookup
  have hfetched (k : String) : (call.observe source s).fetched? k = _ :=
    fetched?_observe hlookup s k
  rw [Call.after_of_lookup? hlookup]
  rcases hcheck : s.check source tag with _ | found
  · simp only [hcheck, true_and] at hfetched
    rcases hfetch : (fetch source tag s).1 with e | found
    · rw [schema_of_error hcheck hfetch] at hfetched ⊢
      exact h.silent hdrops fun k => (hfetched k).trans (ite_self none)
    · rw [schema_of_ok hcheck hfetch] at hfetched ⊢
      exact h.insert hdrops hfetched
  · rw [schema_of_hit hcheck]
    refine h.silent hdrops fun k => (hfetched k).trans (if_neg ?_)
    rintro ⟨hnone, -⟩
    rw [hcheck] at hnone
    cases hnone

/-- Every call keeps the books, whatever the source answers. -/
theorem after (h : Booked lifetime past s.cache) (call : Call) :
    Booked lifetime (call.observe source s :: past) (call.after source s).cache := by
  rcases hlookup : call.lookup? with _ | tag
  · have hfetched (k : String) : (call.observe source s).fetched? k = none := by
      simp [Observation.fetched?, Call.observe, hlookup]
    cases call with
    | schema tag => cases hlookup
    | fetch tag => exact h.silent (fun _ => rfl) hfetched
    | enhanceFilters tag filters =>
      cases filters with
      | nil => exact h.silent (fun _ => rfl) hfetched
      | cons f filters => cases hlookup
    | enhanceCondition c =>
      rcases c with ⟨tag, _ | ⟨f, filters⟩⟩ | _ | _ | _ | _ | _ | _
      case tag.cons => cases hlookup
      all_goals exact h.silent (fun _ => rfl) hfetched
    | invalidate tag => exact h.invalidate rfl
    | clear => exact h.clear rfl
  · exact h.lookup source hlookup

theorem size (h : Booked lifetime past c) : c.size = {k | Live past k}.ncard := by
  have hlive : {k | Live past k} = (c.keys.toFinset : Set String) := by
    ext k
    have hentry := congrArg Option.isSome (h.entries k)
    rw [Option.isSome_map] at hentry
    rw [Set.mem_ofPred_eq, Live, ← hentry, SchemaCache.lookup_isSome_iff, List.coe_toFinset,
      Set.mem_ofPred_eq]
  rw [hlive, Set.ncard_coe_finset, List.toFinset_card_of_nodup h.keys]
  exact (List.length_map Prod.fst).symm

theorem isSome_entry? (h : Booked lifetime past c) (tag : String) :
    (c.entry? tag).isSome ↔ Live past (SchemaCache.key tag) := by
  unfold SchemaCache.entry?
  rw [h.entries, Option.isSome_map]
  rfl

theorem check (h : Booked lifetime past s.cache) (tag : String) :
    s.check source tag = (lastFetched? past (SchemaCache.key tag)).bind fun last =>
      if CacheEntry.isLive (source.now s.world) ⟨last.1, SchemaCache.expiry lifetime last.2⟩ then
        some last.1
      else none := by
  unfold Resolving.check SchemaCache.get? SchemaCache.entry?
  rw [h.entries]
  rcases lastFetched? past (SchemaCache.key tag) with _ | last
  · rfl
  · rfl

theorem check_of_lt (h : Booked lifetime past s.cache)
    (hclock : ∀ o ∈ past, source.now s.world < o.finish + lifetime) (tag : String) :
    s.check source tag = (lastFetched? past (SchemaCache.key tag)).map Prod.fst := by
  rw [h.check]
  rcases hlast : lastFetched? past (SchemaCache.key tag) with _ | last
  · rfl
  · obtain ⟨o, ho, hfinish⟩ := exists_mem_of_lastFetched? hlast
    rw [Option.bind_some, if_pos (isLive_of_lt (hfinish ▸ hclock o ho)), Option.map_some]

theorem check_of_le (h : Booked 0 past s.cache)
    (hclock : ∀ o ∈ past, o.finish ≤ source.now s.world ∧
      o.finish / SchemaCache.nanosPerSecond ≤ SchemaCache.lastSecond) (tag : String) :
    s.check source tag = none := by
  rw [h.check]
  rcases hlast : lastFetched? past (SchemaCache.key tag) with _ | last
  · rfl
  · obtain ⟨o, ho, hfinish⟩ := exists_mem_of_lastFetched? hlast
    obtain ⟨hle, hreadable⟩ := hclock o ho
    rw [Option.bind_some, if_neg (not_isLive_of_le (hfinish ▸ hle) (hfinish ▸ hreadable))]

end Booked

/-- What the next call does after a run. The lookups of a call, be it one for a schema or for the
enhancement of filters, are all alike. -/
structure Accounts (lifetime : Nat) (past : List Observation) (s : Resolving ω) : Prop where
  /-- There are as many entries as live keys. -/
  size : s.cache.size = {k | Live past k}.ncard
  /-- An entry is found to be dropped if its key is live. -/
  found : ∀ tag, (invalidate tag s).1 = true ↔ Live past (SchemaCache.key tag)
  /-- Without the cache the source is always asked, and the cache stays as it is. -/
  direct : ∀ tag, (Call.fetch tag).asked source s = [schemaTagName tag] ∧
    (fetch source tag s).2.cache = s.cache
  /-- Where there is nothing to enhance nothing is done. -/
  idle : ∀ call : Call, call.isIdle → call.asked source s = [] ∧ call.after source s = s
  /-- A lookup that fails changes nothing in the cache. -/
  failed : ∀ (call : Call) tag e, call.lookup? = some tag →
    (schema source tag s).1 = .error e → (call.after source s).cache = s.cache
  /-- While no lifetime has passed, the source is asked exactly if the key is not live. -/
  asked : (∀ o ∈ past, source.now s.world < o.finish + lifetime) →
    ∀ (call : Call) tag, call.lookup? = some tag →
      call.asked source s =
        if Live past (SchemaCache.key tag) then [] else [schemaTagName tag]
  /-- While no lifetime has passed, a live key gives the schema that was fetched last. -/
  answered : (∀ o ∈ past, source.now s.world < o.finish + lifetime) →
    ∀ tag last, lastFetched? past (SchemaCache.key tag) = some last →
      schema source tag s = (.ok last.1, s)
  /-- With a lifetime of zero the source is asked in every lookup, by a clock that can be read and
  never goes back. -/
  expired : lifetime = 0 →
    (∀ o ∈ past, o.finish ≤ source.now s.world ∧
      o.finish / SchemaCache.nanosPerSecond ≤ SchemaCache.lastSecond) →
    ∀ (call : Call) tag, call.lookup? = some tag → call.asked source s = [schemaTagName tag]

theorem Run.booked_ofSteps (lifetime : Nat) (w : ω) (steps : List (Run.Step ω)) :
    Booked lifetime (Run.ofSteps source lifetime w steps).past
      (Run.ofSteps source lifetime w steps).state.cache := by
  unfold Run.ofSteps
  induction steps using List.reverseRecOn with
  | nil => exact .nil lifetime
  | append_singleton steps step ih =>
    rw [List.foldl_append]
    let before := steps.foldl (Run.after source) ⟨[], ⟨lifetime, []⟩, w⟩
    exact Booked.after source (s := { before.state with world := step.1 before.state.world }) ih step.2

/-- However a run has gone, its past accounts for what the next call does, whatever the world has
become by then. -/
theorem accounts_of_steps (lifetime : Nat) (w w' : ω) (steps : List (Run.Step ω)) :
    Accounts source lifetime (Run.ofSteps source lifetime w steps).past
      ⟨(Run.ofSteps source lifetime w steps).state.cache, w'⟩ := by
  have h := Run.booked_ofSteps source lifetime w steps
  generalize Run.ofSteps source lifetime w steps = r at h ⊢
  let s : Resolving ω := ⟨r.state.cache, w'⟩
  refine ⟨h.size, h.isSome_entry?, fun tag => ⟨Call.asked_fetch source tag s, rfl⟩, ?idle, ?failed,
    ?asked, ?answered, ?expired⟩
  case idle =>
    intro call hidle
    exact ⟨Call.asked_of_isIdle source hidle s, Call.after_of_isIdle source hidle s⟩
  case failed =>
    intro call tag e hlookup he
    rw [Call.after_of_lookup? hlookup]
    exact cache_of_error he
  case asked =>
    intro hclock call tag hlookup
    rw [Call.asked_of_lookup? hlookup, Booked.check_of_lt (s := s) source h hclock,
      Option.isSome_map]
    rfl
  case answered =>
    intro hclock tag last hlast
    apply schema_of_hit
    rw [Booked.check_of_lt (s := s) source h hclock, hlast, Option.map_some]
  case expired =>
    rintro rfl hclock call tag hlookup
    rw [Call.asked_of_lookup? hlookup, Booked.check_of_le (s := s) source h hclock]
    rfl

/-- After one lookup another spelling of the tag is answered by the cache, or asked for again if
nothing is kept for any time. -/
theorem accounts_of_second_spelling :
    let source := MemorySource.timed fun w : Nat × MemorySource => w.1
    let m := MemorySource.empty.withTag "task" 1 []
    let next (lifetime : Nat) : Resolving (Nat × MemorySource) :=
      ⟨(Run.ofSteps source lifetime (5, m) [(id, .schema " Task")]).state.cache, 14, m⟩
    (Call.schema "#task").asked source (next 10) = [] ∧
      (Call.schema "#task").asked source (next 0) = ["task"] := by
  intro source m next
  constructor
  · have haccounts := accounts_of_steps source 10 (5, m) (14, m) [(id, .schema " Task")]
    exact (haccounts.asked (by decide +kernel) _ _ rfl).trans (if_pos (by decide +kernel))
  · have haccounts := accounts_of_steps source 0 (5, m) (14, m) [(id, .schema " Task")]
    exact (haccounts.expired rfl (by decide +kernel) (.schema "#task") _ rfl).trans (by decide)

end Resolving
end NoteSearch
