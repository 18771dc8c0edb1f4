import NoteSearch.Proofs.Caching

/-!
# Searches do not depend on what came before

Two services over the same backend and the same source may have different pasts. As long as each has
a cache that is faithful to the source they answer alike, and the same queries are submitted for
both; no call makes a cache less faithful. A search after any session thus does what it does on a
fresh service.
-/

namespace NoteSearch

namespace Lockstep

variable {ω ω' : Type} {S : Resolving ω → Resolving ω' → Prop} {source : SchemaSource ω}
variable {source' : SchemaSource ω'}
variable (h : ∀ tag, Lockstep S (Agree TagSchema.Alike) (Resolving.schema source tag)
  (Resolving.schema source' tag))
include h

theorem enhanceFilters (tag : String) (filters : List PropertyFilter) :
    Lockstep S Eq (Resolving.enhanceFilters source tag filters)
      (Resolving.enhanceFilters source' tag filters) := by
  intro s s' hs
  cases filters with
  | nil => exact ⟨rfl, hs⟩
  | cons f fs =>
    obtain ⟨hanswer, hnext⟩ := h tag s s' hs
    simp only [Resolving.enhanceFilters]
    generalize Resolving.schema source tag s = r at hanswer hnext ⊢
    generalize Resolving.schema source' tag s' = r' at hanswer hnext ⊢
    obtain ⟨answer, t⟩ := r
    obtain ⟨answer', t'⟩ := r'
    cases hanswer with
    | error e => exact ⟨rfl, hnext⟩
    | ok halike => exact ⟨congrArg (List.map · (f :: fs)) halike.enhance, hnext⟩

theorem enhanceConditions (conditions : List Condition) :
    Lockstep S Eq (Resolving.enhanceConditions source conditions)
      (Resolving.enhanceConditions source' conditions) := by
  induction conditions with
  | nil => exact .pure rfl
  | cons c cs ih =>
    apply Lockstep.bind (A := Eq)
    · intro s s' hs
      cases c with
      | tag name properties =>
        obtain ⟨hfilters, hnext⟩ := enhanceFilters h name properties s s' hs
        exact ⟨congrArg (Condition.tag name) hfilters, hnext⟩
      | _ => exact ⟨rfl, hs⟩
    · rintro enhanced _ rfl
      apply ih.bind
      rintro others _ rfl
      exact .pure rfl

theorem plan (x : Search) : Lockstep S Eq (x.plan source) (x.plan source') := by
  cases x with
  | byTag tag filters options =>
    apply (enhanceFilters h tag filters).bind
    rintro enhanced _ rfl
    exact .pure rfl
  | advanced conditions mode options =>
    apply (enhanceConditions h conditions).bind
    rintro enhanced _ rfl
    exact .pure rfl
  | _ => exact .pure rfl

end Lockstep

/-- A backend and a source in memory. -/
abbrev MemoryWorld := MemoryBackend × MemorySource

namespace MemoryWorld

def service (chain : List WireShape) (options : ResultOptions) (now : MemoryWorld → Nat) :
    SearchService MemoryWorld :=
  { backend := Separate.backend MemoryBackend.backend
    source := MemorySource.timed now
    chain
    options }

/-- The same backend and the same source, whatever was asked of them. -/
structure Configured (w v : MemoryWorld) : Prop where
  backend : ∃ submitted treeFetches, v.1 = { w.1 with submitted, treeFetches }
  source : ∃ fetches, v.2 = { w.2 with fetches }

/-- Two worlds configured as `w`, in which the same queries have been submitted since the records of
them were `past` and `past'`. -/
structure Twins (w : MemoryWorld) (past past' : List QueryDescription) (v v' : MemoryWorld) :
    Prop where
  left : Configured w v
  right : Configured w v'
  submitted : ∃ queries, v.1.submitted = past ++ queries ∧ v'.1.submitted = past' ++ queries

variable {w v : MemoryWorld}

theorem Configured.query (h : Configured w v) (q : QueryDescription) :
    (v.1.query q).1 = w.1.answer q.shape ∧ Configured w ((v.1.query q).2, v.2) := by
  obtain ⟨⟨submitted, treeFetches, hv⟩, hs⟩ := h
  rw [hv]
  exact ⟨rfl, ⟨submitted ++ [q], treeFetches, rfl⟩, hs⟩

theorem Configured.searchText (h : Configured w v) (text : String) :
    (v.1.searchText text).1 = (w.1.searchText text).1 := by
  obtain ⟨⟨submitted, treeFetches, hv⟩, -⟩ := h
  rw [hv]
  rfl

theorem Configured.tree (h : Configured w v) (id : Int) :
    (v.1.tree id).1 = (w.1.tree id).1 ∧ Configured w ((v.1.tree id).2, v.2) := by
  obtain ⟨⟨submitted, treeFetches, hv⟩, hs⟩ := h
  rw [hv]
  exact ⟨rfl, ⟨submitted, treeFetches + 1, rfl⟩, hs⟩

section Backend

variable (chain : List WireShape) (options : ResultOptions) (now : MemoryWorld → Nat)
variable (past past' : List QueryDescription)

theorem twins_query (q : QueryDescription) :
    Lockstep (Twins w past past') Eq ((service chain options now).backend.query q)
      ((service chain options now).backend.query q) := by
  rintro v v' ⟨hl, hr, queries, hpast, hpast'⟩
  obtain ⟨hanswer, hnext⟩ := hl.query q
  obtain ⟨hanswer', hnext'⟩ := hr.query q
  refine ⟨hanswer.trans hanswer'.symm, hnext, hnext', queries ++ [q], ?_, ?_⟩
  · exact (congrArg (· ++ [q]) hpast).trans (List.append_assoc ..)
  · exact (congrArg (· ++ [q]) hpast').trans (List.append_assoc ..)

theorem twins_searchText (text : String) :
    Lockstep (Twins w past past') Eq ((service chain options now).backend.searchText text)
      ((service chain options now).backend.searchText text) := by
  intro v v' h
  exact ⟨(h.left.searchText text).trans (h.right.searchText text).symm, h⟩

theorem twins_tree (id : Int) :
    Lockstep (Twins w past past') Eq ((service chain options now).backend.tree id)
      ((service chain options now).backend.tree id) := by
  intro v v' h
  obtain ⟨hanswer, hnext⟩ := h.left.tree id
  obtain ⟨hanswer', hnext'⟩ := h.right.tree id
  exact ⟨hanswer.trans hanswer'.symm, hnext, hnext', h.submitted⟩

theorem twins_carryOut (plan : Plan) :
    Lockstep (Twins w past past') Eq ((service chain options now).carryOut plan)
      ((service chain options now).carryOut plan) := by
  have hplan : plan.Related (Twins w past past') (service chain options now).backend
      (service chain options now).chain plan := by
    cases plan with
    | refuse e => exact .refuse e
    | submit q =>
      refine .submit fun shape _ => ?_
      rcases q.reshape? shape with _ | x
      · exact .none
      · exact .some (twins_query chain options now past past' x)
    | find text => exact .find (twins_searchText chain options now past past' text)
  have hblock := Lockstep.presentOne (A := Eq) options
    (twins_tree (w := w) chain options now past past') (fun _ => rfl)
    (fun block tree tree' h => by rw [h])
  exact (Lockstep.carryOut hplan hblock).mono fun _ _ => SearchResponse.eq_of_agree

end Backend

/-- States of two services over worlds configured as `w`, whatever has been cached in each. -/
def Alongside (w : MemoryWorld) (past past' : List QueryDescription) :
    Resolving MemoryWorld → Resolving MemoryWorld → Prop :=
  Resolving.Related (Twins w past past') fun c c' => c.Faithful w.2 ∧ c'.Faithful w.2

section Lockstep

variable (chain : List WireShape) (options : ResultOptions) (now now' : MemoryWorld → Nat)
variable (past past' : List QueryDescription)

theorem alongside_schema (tag : String) :
    Lockstep (Alongside w past past') (Agree TagSchema.Alike)
      (Resolving.schema (MemorySource.timed now) tag)
      (Resolving.schema (MemorySource.timed now') tag) := by
  rintro s s' ⟨⟨hl, hr, hsubmitted⟩, hc, hc'⟩
  obtain ⟨hanswer, ht, hbackend⟩ := Resolving.schema_sound ⟨hl.source, hc⟩ now tag
  obtain ⟨hanswer', ht', hbackend'⟩ := Resolving.schema_sound ⟨hr.source, hc'⟩ now' tag
  refine ⟨hanswer.meet (fun a b c ha hb => ha.trans hb.symm) hanswer', ⟨⟨?_, ht.source⟩,
    ⟨?_, ht'.source⟩, ?_⟩, ht.cache, ht'.cache⟩
  · rw [hbackend]
    exact hl.backend
  · rw [hbackend']
    exact hr.backend
  · rw [hbackend, hbackend']
    exact hsubmitted

theorem alongside_search (x : Search) :
    Lockstep (Alongside w past past') Eq (x.on (service chain options now))
      (x.on (service chain options now')) := by
  rw [Search.on_eq, Search.on_eq]
  apply Lockstep.bind (Lockstep.plan (alongside_schema now now' past past') x)
  rintro plan _ rfl
  -- the clock is not asked for once the schemas are known
  have hclock : (service chain options now').carryOut plan =
      (service chain options now).carryOut plan := rfl
  rw [hclock]
  exact (twins_carryOut chain options now past past' plan).outside _

end Lockstep

end MemoryWorld

inductive Call where
  | search (x : Search)
  | tagSchema (tag : String)
  | invalidate (tag : String)
  | clear

def Call.after {ω : Type} (service : SearchService ω) : Call → Resolving ω → Resolving ω
  | search x, s => (x.on service s).2
  | tagSchema tag, s => (service.tagSchema tag s).2
  | invalidate tag, s => (Resolving.invalidate tag s).2
  | clear, s => (Resolving.clear s).2

namespace MemoryWorld

variable (chain : List WireShape) (options : ResultOptions)

/-- The state that a session leaves, each call of which sees times of its own. -/
def afterSession : List ((MemoryWorld → Nat) × Call) → Resolving MemoryWorld →
    Resolving MemoryWorld
  | [], s => s
  | (now, call) :: calls, s => afterSession calls (call.after (service chain options now) s)

/-- What no call changes: the configuration, and that the cache is faithful to the source. -/
structure Reached (w : MemoryWorld) (s : Resolving MemoryWorld) : Prop where
  configured : Configured w s.world
  cache : s.cache.Faithful w.2

variable {w : MemoryWorld} {s s' : Resolving MemoryWorld}

theorem Reached.alongside (h : Reached w s) (h' : Reached w s') :
    Alongside w s.world.1.submitted s'.world.1.submitted s s' :=
  ⟨⟨h.configured, h'.configured, [], by simp, by simp⟩, h.cache, h'.cache⟩

theorem reached_of_alongside {past past' : List QueryDescription}
    (h : Alongside w past past' s s') : Reached w s :=
  ⟨h.world.left, h.cache.1⟩

theorem Reached.after (h : Reached w s) (now : MemoryWorld → Nat) (call : Call) :
    Reached w (call.after (service chain options now) s) := by
  -- a service is alongside itself, so that lockstep says what a single run keeps
  cases call with
  | search x =>
    exact reached_of_alongside (alongside_search chain options now now _ _ x s s (h.alongside h)).2
  | tagSchema tag =>
    exact reached_of_alongside (alongside_schema now now _ _ tag s s (h.alongside h)).2
  | invalidate tag => exact ⟨h.configured, h.cache.invalidate tag⟩
  | clear => exact ⟨h.configured, SchemaCache.faithful_nil _ _⟩

theorem Reached.afterSession (session : List ((MemoryWorld → Nat) × Call)) :
    ∀ {s : Resolving MemoryWorld}, Reached w s →
      Reached w (afterSession chain options session s) := by
  induction session with
  | nil => exact fun h => h
  | cons step steps ih => exact fun h => ih (h.after chain options step.1 step.2)

/-- After every session, a search answers as it does on a fresh service with the same backend and
the same source, and the same queries are submitted for it. A tag has the same schema as there, up
to the case of its name, or the same error. -/
theorem answers_as_fresh (lifetime : Nat) (w : MemoryWorld)
    (session : List ((MemoryWorld → Nat) × Call)) (now now' : MemoryWorld → Nat) :
    let fresh : Resolving MemoryWorld := ⟨⟨lifetime, []⟩, w⟩
    let later := afterSession chain options session fresh
    (∀ x : Search,
      (x.on (service chain options now) later).1 = (x.on (service chain options now') fresh).1 ∧
      ∃ queries,
        (x.on (service chain options now) later).2.world.1.submitted =
          later.world.1.submitted ++ queries ∧
        (x.on (service chain options now') fresh).2.world.1.submitted =
          fresh.world.1.submitted ++ queries) ∧
    ∀ tag, Agree TagSchema.Alike ((service chain options now).tagSchema tag later).1
      ((service chain options now').tagSchema tag fresh).1 := by
  intro fresh later
  have hfresh : Reached w fresh := ⟨⟨⟨_, _, rfl⟩, _, rfl⟩, SchemaCache.faithful_nil lifetime w.2⟩
  have hlater : Reached w later := hfresh.afterSession chain options session
  have halong := hlater.alongside hfresh
  constructor
  · intro x
    obtain ⟨hanswer, hnext⟩ := alongside_search chain options now now' _ _ x later fresh halong
    exact ⟨hanswer, hnext.world.submitted⟩
  · intro tag
    exact (alongside_schema now now' _ _ tag later fresh halong).1

end MemoryWorld
end NoteSearch
