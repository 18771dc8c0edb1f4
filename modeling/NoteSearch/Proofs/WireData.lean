import NoteSearch.Proofs.JsonData
import NoteSearch.Wire.Description

/-!
# Queries as data

What is written for a query determines the query: no two keys of a record collide, absent parts are
told apart from present ones, and the kind of an item tells its form. Only the order and the
repetitions of fields inside the values of filters and inside the arguments of types are lost.
-/

namespace NoteSearch
namespace Json

variable {α : Type}

/-- Parts that are written in different ways when they differ are told apart, also when absent. -/
theorem map_canonical_iff (write : α → Json)
    (hwrite : ∀ a b, (write a).canonical = (write b).canonical → a = b) (x y : Option α) :
    (x.map write).map canonical = (y.map write).map canonical ↔ x = y := by
  constructor
  · intro h
    cases x with
    | none => cases y with
      | none => rfl
      | some b => cases h
    | some a => cases y with
      | none => cases h
      | some b => exact congrArg some (hwrite a b (Option.some.inj h))
  · intro h
    rw [h]

theorem map_canonical_bool (x y : Option Bool) :
    (x.map bool).map canonical = (y.map bool).map canonical ↔ x = y :=
  map_canonical_iff bool (fun _ _ => bool.inj) x y

theorem map_canonical_text (x y : Option String) :
    (x.map text).map canonical = (y.map text).map canonical ↔ x = y :=
  map_canonical_iff text (fun _ _ => text.inj) x y

theorem map_canonical_integer (x y : Option Int) :
    (x.map integer).map canonical = (y.map integer).map canonical ↔ x = y :=
  map_canonical_iff integer (fun _ _ => integer.inj) x y

theorem map_canonical_natural (x y : Option Nat) :
    (x.map fun n => integer n).map canonical = (y.map fun n => integer n).map canonical ↔
      x = y := by
  constructor
  · intro h
    cases x with
    | none => cases y with
      | none => rfl
      | some n => cases h
    | some m => cases y with
      | none => cases h
      | some n => exact congrArg some (Int.ofNat.inj (integer.inj (Option.some.inj h)))
  · intro h
    rw [h]

def arrayOf? : List Json → Option Json
  | [] => none
  | items => some (array items)

theorem map_map_canonical_iff {β : Type} (write : α → Json) (norm : α → β) (as bs : List α)
    (h : ∀ a ∈ as, ∀ b, (write a).Same (write b) ↔ norm a = norm b) :
    (as.map write).map canonical = (bs.map write).map canonical ↔ as.map norm = bs.map norm := by
  induction as generalizing bs with
  | nil => cases bs <;> simp
  | cons a as ih =>
    cases bs with
    | nil => simp
    | cons b bs =>
      have hhead : (write a).canonical = (write b).canonical ↔ norm a = norm b :=
        h a List.mem_cons_self b
      have htail := ih bs fun x hx => h x (List.mem_cons_of_mem a hx)
      simp only [List.map_cons, List.cons.injEq, hhead, htail]

theorem map_canonical_arrayOf? (items jtems : List Json) :
    (arrayOf? items).map canonical = (arrayOf? jtems).map canonical ↔
      items.map canonical = jtems.map canonical := by
  cases items <;> cases jtems <;> simp [arrayOf?, canonical]

end Json

open Json

namespace PropertyClause

def canonical (c : PropertyClause) : PropertyClause :=
  { c with typeArgs := c.typeArgs.map Json.canonical, value := c.value.map Json.canonical }

theorem same_toJson_iff (c d : PropertyClause) :
    c.toJson.Same d.toJson ↔ c.canonical = d.canonical := by
  unfold toJson
  rw [same_object_iff]
  constructor
  · intro h
    have hname : c.name = d.name := by simpa [Json.canonical] using h "name"
    have htype : c.type = d.type := (map_canonical_natural _ _).mp (by simpa using h "type")
    have htypeArgs : c.typeArgs.map Json.canonical = d.typeArgs.map Json.canonical := by
      simpa using h "typeArgs"
    have hop : c.op = d.op := by simpa [Json.canonical, Int.natCast_inj] using h "op"
    have hvalue : c.value.map Json.canonical = d.value.map Json.canonical := by
      simpa using h "value"
    simp only [canonical, hname, htype, htypeArgs, hop, hvalue]
  · intro h key
    simp only [canonical, PropertyClause.mk.injEq] at h
    obtain ⟨hname, htype, htypeArgs, hop, hvalue⟩ := h
    simp [hname, htype, htypeArgs, hop, hvalue]

end PropertyClause

namespace TagItem

def canonical (t : TagItem) : TagItem :=
  { t with properties := t.properties.map PropertyClause.canonical }

theorem fields_eq (t : TagItem) :
    t.fields = ("name", .text t.name) ::
      whenSome "properties" (arrayOf? (t.properties.map PropertyClause.toJson)) := by
  unfold fields
  cases t.properties <;> rfl

theorem under_fields_iff (t u : TagItem) :
    (∀ key, under key t.fields = under key u.fields) ↔ t.canonical = u.canonical := by
  have hclauses := map_map_canonical_iff PropertyClause.toJson PropertyClause.canonical
    t.properties u.properties fun c _ => PropertyClause.same_toJson_iff c
  rw [← map_canonical_arrayOf?] at hclauses
  rw [fields_eq, fields_eq]
  constructor
  · intro h
    have hname : t.name = u.name := by simpa [Json.canonical] using h "name"
    have hproperties := hclauses.mp (by simpa using h "properties")
    simp only [canonical, hname, hproperties]
  · intro h key
    simp only [canonical, TagItem.mk.injEq, ← hclauses] at h
    simp [h.1, h.2]

end TagItem

theorem TimeUnit.toText_injective (u v : TimeUnit) (h : u.toText = v.toText) : u = v := by
  have hread := congrArg TimeUnit.ofText? h
  simpa using hread

namespace WireDate

theorem same_toJson_iff (d e : WireDate) : d.toJson.Same e.toJson ↔ d = e := by
  unfold toJson
  rw [same_object_iff]
  constructor
  · intro h
    have hform : d.form = e.form := by simpa [Json.canonical, Int.natCast_inj] using h "t"
    have hvalue : d.value = e.value := by simpa [Json.canonical] using h "v"
    have hunit : d.unit = e.unit := (map_canonical_text _ _).mp (by simpa using h "u")
    obtain ⟨form, value, unit⟩ := d
    simp_all
  · rintro rfl key
    rfl

theorem ofDateSpec_injective (d e : DateSpec) (h : ofDateSpec d = ofDateSpec e) : d = e := by
  cases d <;> cases e <;> simp_all [ofDateSpec]
  exact TimeUnit.toText_injective _ _ h.2

end WireDate

theorem Topology.under_fields_iff (t u : Topology) :
    (∀ key, under key t.fields = under key u.fields) ↔ t = u := by
  constructor
  · intro h
    have hasTags : t.hasTags = u.hasTags :=
      (map_canonical_bool _ _).mp (by simpa [fields] using h "hasTags")
    have hasParent : t.hasParent = u.hasParent :=
      (map_canonical_bool _ _).mp (by simpa [fields] using h "hasParent")
    have hasChild : t.hasChild = u.hasChild :=
      (map_canonical_bool _ _).mp (by simpa [fields] using h "hasChild")
    have hasAliases : t.hasAliases = u.hasAliases :=
      (map_canonical_bool _ _).mp (by simpa [fields] using h "hasAliases")
    cases t
    simp_all
  · rintro rfl key
    rfl

theorem SortKey.same_toJson_iff (k l : SortKey) : k.toJson.Same l.toJson ↔ k = l := by
  constructor
  · intro h
    have hparts : k.field = l.field ∧ k.direction.code = l.direction.code := by
      simpa [Same, toJson, Json.canonical] using h
    have hdirection : k.direction = l.direction := by
      simpa using congrArg SortDirection.ofWord? hparts.2
    cases k
    cases l
    simp_all
  · rintro rfl
    rfl

namespace WireItem

mutual

def canonical : WireItem → WireItem
  | group kind conditions => group kind (canonicalList conditions)
  | tag item => tag item.canonical
  | item => item

def canonicalList : List WireItem → List WireItem
  | [] => []
  | item :: items => canonical item :: canonicalList items

end

@[simp] theorem canonicalList_eq_map (items : List WireItem) :
    canonicalList items = items.map canonical := by
  induction items with
  | nil => rfl
  | cons item items ih => simp [canonicalList, ih]

theorem kindCode_canonical (a : WireItem) : a.canonical.kindCode = a.kindCode := by
  cases a <;> rfl

/-- What is written beside the kind. -/
def fields : WireItem → List (String × Json)
  | group _ conditions => [("conditions", .array (conditions.map toJson))]
  | journal start finish => [("start", start.toJson), ("end", finish.toJson)]
  | tag item => item.fields
  | reference id => [("blockId", .integer id)]
  | text content raw => ("text", .text content) :: whenSome "raw" (raw.map .bool)
  | structural topology => topology.fields
  | task completed => whenSome "completed" (completed.map .bool)
  | blockMatch id => [("blockId", .integer id)]

theorem toJson_eq (a : WireItem) : a.toJson = withKind a.kindCode a.fields := by
  cases a <;> simp [toJson, kindCode, fields]

/-- Nothing else is written under the key of the kind. -/
theorem under_kind_fields (a : WireItem) : under "kind" a.fields = none := by
  cases a <;> simp [fields, TagItem.fields_eq, Topology.fields]

theorem same_iff_kind_and_fields (a b : WireItem) :
    a.toJson.Same b.toJson ↔
      a.kindCode = b.kindCode ∧ ∀ key, under key a.fields = under key b.fields := by
  rw [toJson_eq, toJson_eq, withKind, withKind, same_object_iff]
  constructor
  · intro h
    have hkind : a.kindCode = b.kindCode := by
      simpa [under_kind_fields, Json.canonical, Int.natCast_inj] using h "kind"
    refine ⟨hkind, fun key => ?_⟩
    by_cases hkey : "kind" = key
    · rw [← hkey, under_kind_fields, under_kind_fields]
    · simpa [hkey] using h key
  · rintro ⟨hkind, h⟩ key
    rw [under_cons, under_cons, hkind, h key]

/-- Items of one form; groups have one kind, too. -/
inductive SameForm : WireItem → WireItem → Prop
  | group (kind : GroupKind) (cs ds : List WireItem) : SameForm (group kind cs) (group kind ds)
  | tag (t u : TagItem) : SameForm (tag t) (tag u)
  | text (s s' : String) (raw raw' : Option Bool) : SameForm (text s raw) (text s' raw')
  | task (completed completed' : Option Bool) : SameForm (task completed) (task completed')
  | journal (start start' finish finish' : WireDate) :
      SameForm (journal start finish) (journal start' finish')
  | reference (id id' : Int) : SameForm (reference id) (reference id')
  | structural (t u : Topology) : SameForm (structural t) (structural u)
  | blockMatch (id id' : Int) : SameForm (blockMatch id) (blockMatch id')

theorem sameForm_of_kindCode (a b : WireItem) (h : a.kindCode = b.kindCode) : SameForm a b := by
  cases a with
  | group kind cs =>
    cases b with
    | group kind' ds =>
      obtain rfl := GroupKind.code_injective kind kind' h
      exact .group kind cs ds
    | _ => cases kind <;> cases h
  | tag t =>
    cases b with
    | tag u => exact .tag t u
    | group kind ds => cases kind <;> cases h
    | _ => cases h
  | text s raw =>
    cases b with
    | text s' raw' => exact .text s s' raw raw'
    | group kind ds => cases kind <;> cases h
    | _ => cases h
  | task completed =>
    cases b with
    | task completed' => exact .task completed completed'
    | group kind ds => cases kind <;> cases h
    | _ => cases h
  | journal start finish =>
    cases b with
    | journal start' finish' => exact .journal start start' finish finish'
    | group kind ds => cases kind <;> cases h
    | _ => cases h
  | reference id =>
    cases b with
    | reference id' => exact .reference id id'
    | group kind ds => cases kind <;> cases h
    | _ => cases h
  | structural t =>
    cases b with
    | structural u => exact .structural t u
    | group kind ds => cases kind <;> cases h
    | _ => cases h
  | blockMatch id =>
    cases b with
    | blockMatch id' => exact .blockMatch id id'
    | group kind ds => cases kind <;> cases h
    | _ => cases h

/-- Within one form, what is written under the keys of its parts tells the parts. -/
theorem fields_iff {a b : WireItem} (hform : SameForm a b)
    (hnested : ∀ kind cs, a = group kind cs → ∀ c ∈ cs, ∀ d : WireItem,
      c.toJson.Same d.toJson ↔ c.canonical = d.canonical) :
    (∀ key, under key a.fields = under key b.fields) ↔ a.canonical = b.canonical := by
  cases hform with
  | group kind cs ds =>
    have hconditions := map_map_canonical_iff toJson canonical cs ds (hnested kind cs rfl)
    simp only [canonical, canonicalList_eq_map, group.injEq, true_and, ← hconditions]
    constructor
    · intro h
      simpa [fields, Json.canonical] using h "conditions"
    · intro h key
      simp only [fields, under_cons, Json.canonical, canonicalItems_eq_map, h]
  | tag t u =>
    simp only [canonical, tag.injEq]
    exact TagItem.under_fields_iff t u
  | text s s' raw raw' =>
    constructor
    · intro h
      have htext : s = s' := by simpa [fields, Json.canonical] using h "text"
      have hraw : raw = raw' := (map_canonical_bool _ _).mp (by simpa [fields] using h "raw")
      rw [htext, hraw]
    · rintro ⟨⟩ key
      rfl
  | task completed completed' =>
    constructor
    · intro h
      have hcompleted : completed = completed' :=
        (map_canonical_bool _ _).mp (by simpa [fields] using h "completed")
      rw [hcompleted]
    · rintro ⟨⟩ key
      rfl
  | journal start start' finish finish' =>
    constructor
    · intro h
      have hstart : start = start' :=
        (WireDate.same_toJson_iff _ _).mp (by simpa [fields, Same] using h "start")
      have hfinish : finish = finish' :=
        (WireDate.same_toJson_iff _ _).mp (by simpa [fields, Same] using h "end")
      rw [hstart, hfinish]
    · rintro ⟨⟩ key
      rfl
  | reference id id' =>
    constructor
    · intro h
      have hid : id = id' := by simpa [fields, Json.canonical] using h "blockId"
      rw [hid]
    · rintro ⟨⟩ key
      rfl
  | structural t u =>
    constructor
    · intro h
      rw [(Topology.under_fields_iff t u).mp h]
    · rintro ⟨⟩ key
      rfl
  | blockMatch id id' =>
    constructor
    · intro h
      have hid : id = id' := by simpa [fields, Json.canonical] using h "blockId"
      rw [hid]
    · rintro ⟨⟩ key
      rfl

theorem same_toJson_iff (a b : WireItem) :
    a.toJson.Same b.toJson ↔ a.canonical = b.canonical := by
  have hnested : ∀ kind cs, a = group kind cs → ∀ c ∈ cs, ∀ d : WireItem,
      c.toJson.Same d.toJson ↔ c.canonical = d.canonical := by
    rintro kind cs rfl c hc d
    exact same_toJson_iff c d
  rw [same_iff_kind_and_fields]
  constructor
  · rintro ⟨hkind, h⟩
    exact (fields_iff (sameForm_of_kindCode a b hkind) hnested).mp h
  · intro h
    have hkind : a.kindCode = b.kindCode := by
      rw [← kindCode_canonical a, h, kindCode_canonical]
    exact ⟨hkind, (fields_iff (sameForm_of_kindCode a b hkind) hnested).mpr h⟩
termination_by a

end WireItem

namespace QueryDescription

def canonical (q : QueryDescription) : QueryDescription := { q with item := q.item.canonical }

theorem sortFields_eq (keys : List SortKey) :
    sortFields keys = whenSome "sort" (arrayOf? (keys.map SortKey.toJson)) := by
  cases keys <;> rfl

/-- What is written for two queries is the same data exactly if the queries are the same. -/
theorem same_toJson_iff (q r : QueryDescription) :
    q.toJson.Same r.toJson ↔ q.canonical = r.canonical := by
  have hitems : q.item.toJson.canonical = r.item.toJson.canonical ↔
      q.item.canonical = r.item.canonical := WireItem.same_toJson_iff q.item r.item
  have hkeys := map_map_canonical_iff SortKey.toJson id q.sort r.sort
    fun k _ => SortKey.same_toJson_iff k
  rw [← map_canonical_arrayOf?, List.map_id, List.map_id] at hkeys
  unfold toJson
  rw [same_object_iff, sortFields_eq, sortFields_eq]
  constructor
  · intro h
    have hitem : q.item.canonical = r.item.canonical := hitems.mp (by simpa using h "q")
    have hsort : q.sort = r.sort := hkeys.mp (by simpa using h "sort")
    have hpage : q.page = r.page := (map_canonical_natural _ _).mp (by simpa using h "page")
    have hpageSize : q.pageSize = r.pageSize :=
      (map_canonical_natural _ _).mp (by simpa using h "pageSize")
    have hexcluded : q.excludeId = r.excludeId :=
      (map_canonical_integer _ _).mp (by simpa using h "excludeId")
    simp only [canonical, hitem, hsort, hpage, hpageSize, hexcluded]
  · intro h key
    simp only [canonical, QueryDescription.mk.injEq, ← hitems] at h
    obtain ⟨hitem, hsort, hpage, hpageSize, hexcluded⟩ := h
    simp only [under_append, under_cons, under_whenSome, hitem, hsort, hpage, hpageSize,
      hexcluded]

end QueryDescription
end NoteSearch
