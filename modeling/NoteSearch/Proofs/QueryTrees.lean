import NoteSearch.Proofs.Compilation

/-!
# Query trees told apart

A query is written with numeric kinds and with parts that are left out where there are none. Still,
two queries are written alike exactly if they are the same tree: the same groups around the same
items in the same order, with the same clauses, dates, flags and options. Values inside clauses are
compared as data.
-/

namespace NoteSearch

/-- The same clause. A missing value is not the same as a null one. -/
structure PropertyClause.Same (c d : PropertyClause) : Prop where
  name : c.name = d.name
  type : c.type = d.type
  typeArgs : Option.Rel Json.Same c.typeArgs d.typeArgs
  op : c.op = d.op
  value : Option.Rel Json.Same c.value d.value

namespace WireItem

/-- The same tree: groups of one kind over the same trees one by one, and the same items. -/
inductive Same : WireItem → WireItem → Prop
  | group (kind : GroupKind) {cs ds : List WireItem} (h : List.Forall₂ Same cs ds) :
      Same (group kind cs) (group kind ds)
  | tag (name : String) {ps qs : List PropertyClause}
      (h : List.Forall₂ PropertyClause.Same ps qs) : Same (tag ⟨name, ps⟩) (tag ⟨name, qs⟩)
  | text (content : String) (raw : Option Bool) : Same (text content raw) (text content raw)
  | task (completed : Option Bool) : Same (task completed) (task completed)
  | journal (start finish : WireDate) : Same (journal start finish) (journal start finish)
  | reference (id : Int) : Same (reference id) (reference id)
  | structural (topology : Topology) : Same (structural topology) (structural topology)
  | blockMatch (id : Int) : Same (blockMatch id) (blockMatch id)

def isGroup : WireItem → Bool
  | group _ _ => true
  | _ => false

def flags : WireItem → List (Option Bool)
  | text _ raw => [raw]
  | task completed => [completed]
  | structural t => [t.hasTags, t.hasParent, t.hasChild, t.hasAliases]
  | _ => []

end WireItem

/-- The same tree with the same options. -/
structure QueryDescription.Same (q r : QueryDescription) : Prop where
  item : q.item.Same r.item
  sort : q.sort = r.sort
  page : q.page = r.page
  pageSize : q.pageSize = r.pageSize
  excludeId : q.excludeId = r.excludeId

theorem Json.map_canonical_eq_iff (x y : Option Json) :
    x.map canonical = y.map canonical ↔ Option.Rel Same x y := by
  cases x with
  | none => cases y with
    | none => exact ⟨fun _ => .none, fun _ => rfl⟩
    | some b => exact ⟨nofun, nofun⟩
  | some a => cases y with
    | none => exact ⟨nofun, nofun⟩
    | some b =>
      constructor
      · exact fun h => .some (Option.some.inj h)
      · rintro (h | _)
        exact congrArg some h

theorem PropertyClause.canonical_eq_iff (c d : PropertyClause) :
    c.canonical = d.canonical ↔ c.Same d := by
  simp only [canonical, PropertyClause.mk.injEq, Json.map_canonical_eq_iff]
  constructor
  · rintro ⟨hname, htype, htypeArgs, hop, hvalue⟩
    exact ⟨hname, htype, htypeArgs, hop, hvalue⟩
  · rintro ⟨hname, htype, htypeArgs, hop, hvalue⟩
    exact ⟨hname, htype, htypeArgs, hop, hvalue⟩

theorem TagItem.canonical_eq_iff (t u : TagItem) :
    t.canonical = u.canonical ↔
      t.name = u.name ∧ List.Forall₂ PropertyClause.Same t.properties u.properties := by
  simp only [canonical, TagItem.mk.injEq, map_eq_map_iff_forall₂,
    PropertyClause.canonical_eq_iff]

namespace WireItem

mutual

theorem canonical_eq_iff (a b : WireItem) : a.canonical = b.canonical ↔ a.Same b := by
  cases a with
  | group kind cs =>
    cases b with
    | group kind' ds =>
      have hconditions := canonicalList_eq_iff cs ds
      constructor
      · intro h
        obtain ⟨rfl, hlists⟩ := group.inj h
        exact .group kind (hconditions.mp hlists)
      · rintro (⟨_, h⟩)
        exact congrArg (group kind) (hconditions.mpr h)
    | _ => exact ⟨nofun, nofun⟩
  | tag t =>
    cases b with
    | tag u =>
      obtain ⟨name, ps⟩ := t
      obtain ⟨name', qs⟩ := u
      constructor
      · intro h
        obtain ⟨rfl, hclauses⟩ := (TagItem.canonical_eq_iff _ _).mp (tag.inj h)
        exact .tag name hclauses
      · rintro (_ | ⟨_, h⟩)
        exact congrArg tag ((TagItem.canonical_eq_iff _ _).mpr ⟨rfl, h⟩)
    | _ => exact ⟨nofun, nofun⟩
  | text content raw =>
    cases b with
    | text content' raw' =>
      constructor
      · rintro ⟨⟩
        exact .text content raw
      · rintro ⟨⟩
        rfl
    | _ => exact ⟨nofun, nofun⟩
  | task completed =>
    cases b with
    | task completed' =>
      constructor
      · rintro ⟨⟩
        exact .task completed
      · rintro ⟨⟩
        rfl
    | _ => exact ⟨nofun, nofun⟩
  | journal start finish =>
    cases b with
    | journal start' finish' =>
      constructor
      · rintro ⟨⟩
        exact .journal start finish
      · rintro ⟨⟩
        rfl
    | _ => exact ⟨nofun, nofun⟩
  | reference id =>
    cases b with
    | reference id' =>
      constructor
      · rintro ⟨⟩
        exact .reference id
      · rintro ⟨⟩
        rfl
    | _ => exact ⟨nofun, nofun⟩
  | structural topology =>
    cases b with
    | structural topology' =>
      constructor
      · rintro ⟨⟩
        exact .structural topology
      · rintro ⟨⟩
        rfl
    | _ => exact ⟨nofun, nofun⟩
  | blockMatch id =>
    cases b with
    | blockMatch id' =>
      constructor
      · rintro ⟨⟩
        exact .blockMatch id
      · rintro ⟨⟩
        rfl
    | _ => exact ⟨nofun, nofun⟩

theorem canonicalList_eq_iff (cs ds : List WireItem) :
    canonicalList cs = canonicalList ds ↔ List.Forall₂ Same cs ds := by
  match cs, ds with
  | [], [] => exact ⟨fun _ => .nil, fun _ => rfl⟩
  | [], _ :: _ => exact ⟨nofun, nofun⟩
  | _ :: _, [] => exact ⟨nofun, nofun⟩
  | c :: cs, d :: ds =>
    rw [canonicalList, canonicalList, List.cons.injEq, List.forall₂_cons, canonical_eq_iff c d,
      canonicalList_eq_iff cs ds]

end

theorem Same.isGroup_eq {a b : WireItem} (h : a.Same b) : a.isGroup = b.isGroup := by
  cases h <;> rfl

theorem Same.flags_eq {a b : WireItem} (h : a.Same b) : a.flags = b.flags := by
  cases h <;> rfl

end WireItem

theorem Json.Same.eq_null_iff {a b : Json} (h : a.Same b) : a = .null ↔ b = .null := by
  constructor
  · rintro rfl
    exact eq_null_of_canonical h.symm
  · rintro rfl
    exact eq_null_of_canonical h

/-- Missing and null values are told apart. -/
theorem PropertyClause.Same.value_iff {c d : PropertyClause} (h : c.Same d) :
    (c.value = none ↔ d.value = none) ∧ (c.value = some .null ↔ d.value = some .null) := by
  have hvalue := h.value
  cases hc : c.value with
  | none =>
    rw [hc] at hvalue
    cases hd : d.value with
    | none => exact ⟨Iff.rfl, Iff.rfl⟩
    | some v => rw [hd] at hvalue; cases hvalue
  | some u =>
    rw [hc] at hvalue
    cases hd : d.value with
    | none => rw [hd] at hvalue; cases hvalue
    | some v =>
      rw [hd] at hvalue
      obtain ⟨huv⟩ | _ := hvalue
      simpa using huv.eq_null_iff

namespace QueryDescription

theorem canonical_eq_iff (q r : QueryDescription) : q.canonical = r.canonical ↔ q.Same r := by
  simp only [canonical, QueryDescription.mk.injEq, WireItem.canonical_eq_iff]
  constructor
  · rintro ⟨hitem, hsort, hpage, hpageSize, hexcluded⟩
    exact ⟨hitem, hsort, hpage, hpageSize, hexcluded⟩
  · rintro ⟨hitem, hsort, hpage, hpageSize, hexcluded⟩
    exact ⟨hitem, hsort, hpage, hpageSize, hexcluded⟩

/-- What is written for two queries is the same data exactly if they are the same tree with the same
options. So no group is written like an item, no missing value like a null one, and no flag, page or
exclusion that is not set like one that is. -/
theorem tree_determined :
    (∀ q r : QueryDescription, q.toJson.Same r.toJson ↔ q.Same r) ∧
      (∀ a b : WireItem, a.toJson.Same b.toJson → a.isGroup = b.isGroup ∧ a.flags = b.flags) ∧
      (∀ c d : PropertyClause, c.toJson.Same d.toJson →
        (c.value = none ↔ d.value = none) ∧ (c.value = some .null ↔ d.value = some .null)) ∧
      ∀ q r : QueryDescription, q.toJson.Same r.toJson →
        q.page = r.page ∧ q.pageSize = r.pageSize ∧ q.excludeId = r.excludeId := by
  have hqueries : ∀ q r : QueryDescription, q.toJson.Same r.toJson ↔ q.Same r := by
    intro q r
    rw [same_toJson_iff, canonical_eq_iff]
  refine ⟨hqueries, ?_, ?_, ?_⟩
  · intro a b h
    have hab : a.Same b := (WireItem.canonical_eq_iff a b).mp ((WireItem.same_toJson_iff a b).mp h)
    exact ⟨hab.isGroup_eq, hab.flags_eq⟩
  · intro c d h
    have hcd : c.Same d :=
      (PropertyClause.canonical_eq_iff c d).mp ((PropertyClause.same_toJson_iff c d).mp h)
    exact hcd.value_iff
  · intro q r h
    have hqr := (hqueries q r).mp h
    exact ⟨hqr.page, hqr.pageSize, hqr.excludeId⟩

/-- Fields of a value in another order, one of them written twice, inside nested groups. -/
theorem tree_determined_reordered :
    let value : Json := .object [("from", .null), ("to", .integer 2)]
    let other : Json := .object [("to", .integer 2), ("from", .integer 1), ("from", .null)]
    let query := fun v : Json => QueryDescription.mk
      (.group .or [.group .legacyAnd [.tag ⟨"task", [⟨"due", none, none, 1, some v⟩]⟩], .task none])
      [] (some 1) none none
    (query value).toJson.Same (query other).toJson ∧ (query value).Same (query other) ∧
      (query value).page = (query other).page := by
  intro value other query
  have h : (query value).toJson.canonical = (query other).toJson.canonical := by decide +kernel
  obtain ⟨hqueries, -, -, hoptions⟩ := tree_determined
  exact ⟨h, (hqueries _ _).mp h, (hoptions _ _ h).1⟩

end QueryDescription
end NoteSearch
