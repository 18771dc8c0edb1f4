import NoteSearch.Proofs.Dedicated
import NoteSearch.Proofs.History
import NoteSearch.Proofs.Planning

/-!
# What stands for a filter in a query

A query is read as the JSON that is written for it: its tags, and the clauses of each. In every wire
shape that is submitted for a search, these are the tags that the search asks for, and the clauses of
a tag stand for its filters one by one, under the schema that was found for it. A clause has a value
exactly if its filter has one and is no null check.
-/

namespace NoteSearch

namespace Json

/-- The name of a tag and the clauses that narrow it. -/
structure WrittenTag where
  name : Option Json
  clauses : List Json

def itemsAt (key : String) (fields : List (String × Json)) : List Json :=
  match lookup? key fields with
  | some (.array items) => items
  | _ => []

mutual

def tagsIn : Json → List WrittenTag
  | array items => tagsAmong items
  | object fields =>
    if lookup? "kind" fields = some (.integer 4) then
      [⟨lookup? "name" fields, itemsAt "properties" fields⟩]
    else tagsUnder fields
  | _ => []

/-- The tags of a group are those of its conditions. -/
def tagsUnder : List (String × Json) → List WrittenTag
  | [] => []
  | (key, j) :: rest => if key = "conditions" then tagsIn j else tagsUnder rest

def tagsAmong : List Json → List WrittenTag
  | [] => []
  | j :: js => tagsIn j ++ tagsAmong js

end

theorem tagsUnder_eq (fields : List (String × Json)) :
    tagsUnder fields = ((lookup? "conditions" fields).map tagsIn).getD [] := by
  induction fields with
  | nil => rfl
  | cons f fields ih =>
    rw [tagsUnder, lookup?, ih]
    split_ifs <;> rfl

theorem tagsAmong_eq_flatMap (items : List Json) : tagsAmong items = items.flatMap tagsIn := by
  induction items with
  | nil => rfl
  | cons j js ih => rw [tagsAmong, ih, List.flatMap_cons]

variable (key : String)

@[simp] theorem lookup?_append (fields gields : List (String × Json)) :
    lookup? key (fields ++ gields) = (lookup? key fields).or (lookup? key gields) := by
  induction fields with
  | nil => rfl
  | cons f fields ih =>
    rw [List.cons_append, lookup?, lookup?, ih]
    split_ifs <;> rfl

@[simp] theorem lookup?_whenSome (k : String) (v : Option Json) :
    lookup? key (whenSome k v) = if k = key then v else none := by
  cases v with
  | none => exact (ite_self none).symm
  | some v => rfl

end Json

namespace WireItem

theorem tagsIn_group (kind : GroupKind) (conditions : List WireItem) :
    (group kind conditions).toJson.tagsIn = conditions.flatMap fun c => c.toJson.tagsIn := by
  have hkind : (kind.code : Int) ≠ 4 := by cases kind <;> decide
  simp [toJson, withKind, Json.tagsIn, Json.tagsUnder_eq, Json.lookup?, Json.tagsAmong_eq_flatMap,
    List.flatMap_map, hkind]

theorem tagsIn_tag (t : TagItem) :
    (tag t).toJson.tagsIn = [⟨some (.text t.name), t.properties.map PropertyClause.toJson⟩] := by
  obtain ⟨name, properties⟩ := t
  cases properties <;> rfl

/-- A tag that stands alone is written the same with and without a group around it. -/
theorem tagsIn_of_singleTag? {item : WireItem} {t : TagItem} (h : item.singleTag? = some t) :
    item.toJson.tagsIn = (tag t).toJson.tagsIn := by
  unfold singleTag? at h
  split at h
  · cases h
    rfl
  · cases h
    rw [tagsIn_group, List.flatMap_singleton]
  · cases h

end WireItem

/-- No envelope adds a tag or leaves one out. -/
theorem QueryDescription.tagsIn_of_reshape? {q x : QueryDescription} {shape : WireShape}
    (h : q.reshape? shape = some x) : x.item.toJson.tagsIn = q.item.toJson.tagsIn := by
  obtain ⟨item, hitem, rfl⟩ := Option.map_eq_some_iff.mp h
  cases shape with
  | current =>
    cases hitem
    rfl
  | legacySingle =>
    obtain ⟨t, ht, rfl⟩ := Option.map_eq_some_iff.mp hitem
    rw [WireItem.tagsIn_of_singleTag? ht, WireItem.tagsIn_group, List.flatMap_singleton]
  | directTag =>
    obtain ⟨t, ht, rfl⟩ := Option.map_eq_some_iff.mp hitem
    rw [WireItem.tagsIn_of_singleTag? ht]

namespace Condition

theorem tagsIn_compile_tag (name : String) (filters : List PropertyFilter) :
    (tag name filters).compile.toJson.tagsIn =
      [⟨some (.text (wireTagName name)), filters.map fun f => f.compile.toJson⟩] := by
  rw [compile, WireItem.tagsIn_tag, List.map_map]
  rfl

theorem tagsIn_compile_of_ne_tag {c : Condition} (h : ∀ name filters, c ≠ tag name filters) :
    c.compile.toJson.tagsIn = [] := by
  cases c with
  | tag name filters => exact absurd rfl (h name filters)
  | _ =>
    simp [compile, WireItem.toJson, WireItem.withKind, Json.tagsIn, Json.tagsUnder_eq,
      Json.lookup?, Topology.fields]

end Condition

namespace PropertyFilter

/-- The property that a filter is on, where a schema was found that has it. -/
def propertyIn? (schema? : Option TagSchema) (f : PropertyFilter) : Option PropertySchema :=
  schema?.bind fun schema => schema.property? f.name

/-- The operator that stands for a filter's own: choices are sets, and equality with one of them
is membership. -/
def opIn (schema? : Option TagSchema) (f : PropertyFilter) : Operator :=
  if f.op = .equal ∧ (f.propertyIn? schema?).map PropertySchema.type = some .textChoices then
    .includes
  else f.op

/-- A clause stands for a filter. It names the property as the schema does, and only a null check
leaves the filter's value out. -/
structure WrittenAs (schema? : Option TagSchema) (f : PropertyFilter) (clause : Json) : Prop where
  name : clause.get? "name" =
    some (.text (((f.propertyIn? schema?).map PropertySchema.name).getD f.name))
  op : clause.get? "op" = some (.integer (f.opIn schema?).code)
  value : (clause.get? "value").isSome ↔ f.value.isSome ∧ f.op.isNullCheck = false
  typeArgs : clause.get? "typeArgs" = f.typeArgs

/-- The filter as it is compiled. -/
def enhanceFound (schema? : Option TagSchema) (f : PropertyFilter) : PropertyFilter :=
  match schema? with
  | some schema => f.enhance schema
  | none => f

theorem enhanceFound_eq (schema? : Option TagSchema) (f : PropertyFilter) :
    f.enhanceFound schema? =
      match f.propertyIn? schema? with
      | some p => f.enhanceBy p
      | none => f := by
  cases schema? <;> rfl

theorem name_enhanceFound (schema? : Option TagSchema) (f : PropertyFilter) :
    (f.enhanceFound schema?).name =
      ((f.propertyIn? schema?).map PropertySchema.name).getD f.name := by
  rw [enhanceFound_eq]
  rcases f.propertyIn? schema? with _ | p
  · rfl
  · by_cases htype : p.type = .textChoices <;> simp [enhanceBy, htype]

theorem op_enhanceFound (schema? : Option TagSchema) (f : PropertyFilter) :
    (f.enhanceFound schema?).op = f.opIn schema? := by
  rw [enhanceFound_eq, opIn]
  rcases f.propertyIn? schema? with _ | p
  · simp
  · by_cases htype : p.type = .textChoices <;> simp [enhanceBy, htype]

theorem isSome_value_enhanceFound (schema? : Option TagSchema) (f : PropertyFilter) :
    (f.enhanceFound schema?).value.isSome = f.value.isSome := by
  rw [enhanceFound_eq]
  rcases f.propertyIn? schema? with _ | p
  · rfl
  · by_cases htype : p.type = .textChoices <;> simp [enhanceBy, htype]

theorem typeArgs_enhanceFound (schema? : Option TagSchema) (f : PropertyFilter) :
    (f.enhanceFound schema?).typeArgs = f.typeArgs := by
  rw [enhanceFound_eq]
  rcases f.propertyIn? schema? with _ | p
  · rfl
  · by_cases htype : p.type = .textChoices <;> simp [enhanceBy, htype]

theorem isNullCheck_opIn (schema? : Option TagSchema) (f : PropertyFilter) :
    (f.opIn schema?).isNullCheck = f.op.isNullCheck := by
  unfold opIn
  split_ifs with h
  · rw [h.1]
    rfl
  · rfl

theorem convertedValue_isSome (f : PropertyFilter) :
    f.convertedValue.isSome ↔ f.value.isSome ∧ f.op.isNullCheck = false := by
  cases h : f.op.isNullCheck <;> simp [convertedValue, h]

end PropertyFilter

namespace PropertyClause

variable (c : PropertyClause)

@[simp] theorem get?_name_toJson : c.toJson.get? "name" = some (.text c.name) := by
  simp [toJson, Json.get?, Json.lookup?]

@[simp] theorem get?_typeArgs_toJson : c.toJson.get? "typeArgs" = c.typeArgs := by
  simp [toJson, Json.get?, Json.lookup?]

@[simp] theorem get?_op_toJson : c.toJson.get? "op" = some (.integer c.op) := by
  simp [toJson, Json.get?, Json.lookup?]

@[simp] theorem get?_value_toJson : c.toJson.get? "value" = c.value := by
  simp [toJson, Json.get?, Json.lookup?]

end PropertyClause

theorem PropertyFilter.writtenAs_compile (schema? : Option TagSchema) (f : PropertyFilter) :
    f.WrittenAs schema? (f.enhanceFound schema?).compile.toJson := by
  refine ⟨?_, ?_, ?_, ?_⟩
  · rw [PropertyClause.get?_name_toJson, ← f.name_enhanceFound]
    rfl
  · rw [PropertyClause.get?_op_toJson, ← f.op_enhanceFound]
    rfl
  · rw [PropertyClause.get?_value_toJson, ← f.isNullCheck_opIn schema?, ← f.op_enhanceFound,
      ← f.isSome_value_enhanceFound schema?]
    exact convertedValue_isSome _
  · rw [PropertyClause.get?_typeArgs_toJson]
    exact f.typeArgs_enhanceFound schema?

structure AskedTag where
  name : String
  filters : List PropertyFilter
  schema? : Option TagSchema

/-- What is written for a tag names it, and has one clause for each of its filters. -/
structure AskedTag.WrittenAs (t : AskedTag) (written : Json.WrittenTag) : Prop where
  name : written.name = some (.text (wireTagName t.name))
  clauses : List.Forall₂ (PropertyFilter.WrittenAs t.schema?) t.filters written.clauses

namespace Resolving

variable {ω : Type} (source : SchemaSource ω)

/-- The tags among some conditions. The schema of each is looked up in the state that the lookups
before it leave; none is looked up for a tag without filters. -/
def askedTags : List Condition → Resolving ω → List AskedTag
  | [], _ => []
  | .tag name [] :: conditions, s => ⟨name, [], none⟩ :: askedTags conditions s
  | .tag name filters :: conditions, s =>
    let (found, t) := schema source name s
    ⟨name, filters, found.toOption⟩ :: askedTags conditions t
  | _ :: conditions, s => askedTags conditions s

theorem enhanceCondition_tag (name : String) (filters : List PropertyFilter) (s : Resolving ω) :
    enhanceCondition source (.tag name filters) s =
      (.tag name (enhanceFilters source name filters s).1,
        (enhanceFilters source name filters s).2) := rfl

theorem enhanceFilters_cons (tag : String) (f : PropertyFilter) (fs : List PropertyFilter)
    (s : Resolving ω) :
    enhanceFilters source tag (f :: fs) s =
      ((f :: fs).map (PropertyFilter.enhanceFound (schema source tag s).1.toOption),
        (schema source tag s).2) := by
  simp only [enhanceFilters]
  rcases schema source tag s with ⟨e | found, t⟩
  · exact congrArg (·, t) (List.map_id _).symm
  · rfl

theorem writtenAs_enhanceConditions (conditions : List Condition) :
    ∀ s : Resolving ω, List.Forall₂ AskedTag.WrittenAs (askedTags source conditions s)
      ((enhanceConditions source conditions s).1.flatMap fun c => c.compile.toJson.tagsIn) := by
  induction conditions with
  | nil => exact fun s => .nil
  | cons c cs ih =>
    intro s
    rw [enhanceConditions_cons, List.flatMap_cons]
    cases c with
    | tag name filters =>
      cases filters with
      | nil => exact .cons ⟨rfl, .nil⟩ (ih s)
      | cons f fs =>
        rw [enhanceCondition_tag, enhanceFilters_cons, Condition.tagsIn_compile_tag, List.map_map]
        refine .cons ⟨rfl, ?_⟩ (ih _)
        rw [List.forall₂_map_right_iff, List.forall₂_same]
        exact fun g _ => g.writtenAs_compile _
    | _ =>
      rw [Condition.tagsIn_compile_of_ne_tag (by nofun), List.nil_append]
      exact ih s

end Resolving

namespace Search

variable {ω : Type}

def askedTags (source : SchemaSource ω) : Search → Resolving ω → List AskedTag
  | byTag tag filters _, s => Resolving.askedTags source [.tag tag filters] s
  | advanced conditions _ _, s => Resolving.askedTags source conditions s
  | _, _ => []

theorem writtenAs_plan_advanced {source : SchemaSource ω} {conditions : List Condition}
    {mode : CombineMode} {options : QueryOptions} {s : Resolving ω} {q : QueryDescription}
    (h : ((advanced conditions mode options).plan source s).1 = .submit q) :
    List.Forall₂ AskedTag.WrittenAs (Resolving.askedTags source conditions s)
      q.item.toJson.tagsIn := by
  have hwritten := Resolving.writtenAs_enhanceConditions source conditions s
  rw [plan_advanced] at h
  rcases henhanced : Resolving.enhanceConditions source conditions s with ⟨_ | ⟨c, cs⟩, t⟩ <;>
    rw [henhanced] at h hwritten
  · cases h
  · cases h
    have hitem := WireItem.tagsIn_group (.ofMode mode) ((c :: cs).map Condition.compile)
    rw [List.flatMap_map] at hitem
    exact hitem ▸ hwritten

/-- A query is written with the tags that it is for. -/
theorem writtenAs_plan {source : SchemaSource ω} {x : Search} {s : Resolving ω}
    {q : QueryDescription} (h : (x.plan source s).1 = .submit q) :
    List.Forall₂ AskedTag.WrittenAs (x.askedTags source s) q.item.toJson.tagsIn := by
  cases x with
  | byTag tag filters options =>
    rw [plan_byTag] at h
    exact writtenAs_plan_advanced h
  | advanced conditions mode options => exact writtenAs_plan_advanced h
  | tasks task options =>
    cases h
    obtain ⟨_ | completed, _ | range⟩ := task <;> exact .nil
  | journal range options =>
    cases h
    exact .nil
  | references blockId options =>
    cases h
    exact .nil
  | text content =>
    rw [plan_text] at h
    dsimp only at h
    split at h <;> cases h

end Search

namespace Separate

variable {α β γ δ : Type}

theorem onFirst_bind (m : StateM α γ) (k : γ → StateM α δ) :
    (onFirst (m >>= k) : StateM (α × β) δ) = onFirst m >>= fun a => onFirst (k a) := rfl

end Separate

def SchemaSource.beside {ω : Type} (source : SchemaSource ω) (β : Type) : SchemaSource (ω × β) :=
  { tagId := fun name => Separate.onFirst (source.tagId name)
    block := fun id => Separate.onFirst (source.block id)
    now := fun s => source.now s.1 }

theorem TagSchema.fetch_beside {ω : Type} (source : SchemaSource ω) (β : Type) (tag : String) :
    fetch (source.beside β) tag = Separate.onFirst (fetch source tag) := by
  unfold fetch
  rw [Separate.onFirst_bind]
  apply bind_congr
  rintro (e | _ | id)
  · rfl
  · rfl
  · rw [Separate.onFirst_bind]
    apply bind_congr
    rintro (e | _ | block) <;> rfl

namespace Resolving

variable {ω β : Type}

def beside (b : β) (s : Resolving ω) : Resolving (ω × β) := ⟨s.cache, (s.world, b)⟩

theorem schema_beside (source : SchemaSource ω) (b : β) (tag : String) :
    Lockstep (fun t s => t = s.beside b) Eq (schema (source.beside β) tag) (schema source tag) := by
  rintro _ s rfl
  have hcheck : (s.beside b).check (source.beside β) tag = s.check source tag := rfl
  have hfetch : fetch (source.beside β) tag (s.beside b) =
      ((fetch source tag s).1, (fetch source tag s).2.beside b) := by
    simp only [fetch, TagSchema.fetch_beside]
    rfl
  simp only [schema, hcheck, hfetch]
  rcases s.check source tag with _ | found
  · rcases fetch source tag s with ⟨e | found, t⟩
    · exact ⟨rfl, rfl⟩
    · exact ⟨rfl, rfl⟩
  · exact ⟨rfl, rfl⟩

end Resolving

def SearchService.recorded {ω : Type} (service : SearchService ω) :
    SearchService (ω × List Exchange) :=
  { backend := service.backend.recorded
    source := service.source.beside (List Exchange)
    chain := service.chain
    options := service.options }

namespace Search

variable {ω : Type}

/-- Planning submits nothing, and does not depend on the record. -/
theorem plan_beside {β : Type} (x : Search) (source : SchemaSource ω) (s : Resolving ω) (b : β) :
    x.plan (source.beside β) (s.beside b) =
      ((x.plan source s).1, (x.plan source s).2.beside b) := by
  have hschema (tag : String) : Lockstep (fun (t : Resolving (ω × β)) s => t = s.beside b)
      (Agree TagSchema.Alike) (Resolving.schema (source.beside β) tag)
      (Resolving.schema source tag) := by
    refine (Resolving.schema_beside source b tag).mono ?_
    rintro answer _ rfl
    cases answer with
    | error e => exact .error e
    | ok schema => exact .ok ⟨rfl, rfl⟩
  obtain ⟨hplan, hnext⟩ := Lockstep.plan hschema x (s.beside b) s rfl
  exact Prod.ext hplan hnext

theorem on_recorded (service : SearchService ω) (x : Search) (s : Resolving ω) :
    x.on service.recorded (s.beside []) =
      Resolving.outside (service.recorded.carryOut (x.plan service.source s).1)
        ((x.plan service.source s).2.beside []) := by
  have hplan := x.plan_beside service.source s ([] : List Exchange)
  rw [on_eq, bind_apply]
  exact congrArg (fun r => Resolving.outside (service.recorded.carryOut r.1) r.2) hplan

end Search

namespace Plan

/-- A query is that of a plan, in one of the wire shapes. -/
def Submits (plan : Plan) (x : QueryDescription) : Prop :=
  ∃ q shape, plan = .submit q ∧ q.reshape? shape = some x

/-- All that is on record was submitted for a plan. There is one state only: a run in lockstep with
itself keeps what holds of its record. -/
structure OnRecord {ω : Type} (plan : Plan) (s s' : ω × List Exchange) : Prop where
  same : s = s'
  submitted : ∀ e ∈ s.2, plan.Submits e.query

variable {ω : Type} (b : Backend ω) (plan : Plan)

theorem onRecord_query {x : QueryDescription} (hx : plan.Submits x) :
    Lockstep plan.OnRecord Eq (b.recorded.query x) (b.recorded.query x) := by
  rintro s _ ⟨rfl, hs⟩
  refine ⟨rfl, rfl, ?_⟩
  intro e he
  rcases List.mem_append.mp he with he | he
  · exact hs e he
  · rw [List.mem_singleton.mp he]
    exact hx

theorem onRecord_searchText (text : String) :
    Lockstep plan.OnRecord Eq (b.recorded.searchText text) (b.recorded.searchText text) := by
  rintro s _ ⟨rfl, hs⟩
  exact ⟨rfl, rfl, hs⟩

theorem onRecord_tree (id : Int) :
    Lockstep plan.OnRecord Eq (b.recorded.tree id) (b.recorded.tree id) := by
  rintro s _ ⟨rfl, hs⟩
  exact ⟨rfl, rfl, hs⟩

theorem onRecord_self (chain : List WireShape) :
    plan.Related plan.OnRecord b.recorded chain plan := by
  cases plan with
  | refuse e => exact .refuse e
  | submit q =>
    refine .submit fun shape _ => ?_
    rcases hx : q.reshape? shape with _ | x
    · exact .none
    · exact .some (onRecord_query b _ ⟨q, shape, rfl, hx⟩)
  | find text => exact .find (onRecord_searchText b _ text)

end Plan

theorem SearchService.submits_of_carryOut {ω : Type} (service : SearchService ω) (plan : Plan)
    (w : ω) : ∀ e ∈ (service.recorded.carryOut plan (w, [])).2.2, plan.Submits e.query := by
  have hplan : plan.Related plan.OnRecord service.recorded.backend service.recorded.chain plan :=
    plan.onRecord_self service.backend service.chain
  have hblock := Lockstep.presentOne (A := Eq) service.recorded.options
    (plan.onRecord_tree service.backend) (fun _ => rfl) (fun block tree tree' h => by rw [h])
  exact (Lockstep.carryOut hplan hblock (w, []) (w, []) ⟨rfl, nofun⟩).2.submitted

/-- In all that is submitted for a search, in whatever wire shape, the tags are those that the search
asks for, and the clauses of each stand for its filters one by one. -/
theorem Search.submitted_clauses_stand_for_filters {ω : Type} (service : SearchService ω)
    (x : Search) (s : Resolving ω) :
    ∀ e ∈ (x.on service.recorded (s.beside [])).2.world.2, ∃ root,
      e.query.toJson.get? "q" = some root ∧
        List.Forall₂ AskedTag.WrittenAs (x.askedTags service.source s) root.tagsIn := by
  intro e he
  rw [Search.on_recorded] at he
  obtain ⟨q, shape, hq, hshape⟩ := service.submits_of_carryOut _ _ e he
  refine ⟨e.query.item.toJson, rfl, ?_⟩
  rw [QueryDescription.tagsIn_of_reshape? hshape]
  exact Search.writtenAs_plan hq

/-- In the last shape that is tried, too, a null is a value and a null check has none. -/
theorem Search.submitted_clauses_stand_for_filters_directTag :
    let world : MemoryBackend × MemorySource :=
      ({ MemoryBackend.empty with rejected := [.current, .legacySingle] },
        MemorySource.empty.withTag "task" 7
          [⟨"Status", some PropertyType.textChoices.code, none, none⟩])
    let s : Resolving (MemoryBackend × MemorySource) := ⟨.empty SchemaCache.standardLifetime, world⟩
    let x : Search := .byTag "#Task"
      [⟨"status", .equal, some .null, none, some .null⟩,
        ⟨"status", .isNull, some (.text "done"), none, none⟩] .standard
    let written : Json := .object
      [("q", .object [("kind", .integer 4), ("name", .text "Task"), ("properties", .array
        [.object [("name", .text "Status"), ("type", .integer 6), ("typeArgs", .null),
          ("op", .integer 3), ("value", .null)],
          .object [("name", .text "Status"), ("type", .integer 6), ("op", .integer 11)]])])]
    ∃ e ∈ (x.on SearchService.inMemory.recorded (s.beside [])).2.world.2,
      e.query.toJson = written ∧ ∃ root, e.query.toJson.get? "q" = some root ∧
        List.Forall₂ AskedTag.WrittenAs (x.askedTags SearchService.inMemory.source s)
          root.tagsIn := by
  intro world s x written
  have hlast : written ∈ (x.on SearchService.inMemory.recorded (s.beside [])).2.world.2.map
      fun e => e.query.toJson := by
    decide +kernel
  obtain ⟨e, he, hwritten⟩ := List.mem_map.mp hlast
  exact ⟨e, he, hwritten, Search.submitted_clauses_stand_for_filters _ x s e he⟩

end NoteSearch
