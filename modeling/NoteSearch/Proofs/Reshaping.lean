import NoteSearch.Wire.Compile

/-!
# Queries in other shapes

Older backends take a query for one tag and nothing else, either bare or in a group of a kind of its
own. Any group around a single tag will do to make one of these: the tag, its clauses in their order
and the options stay, and what the tag was wrapped in before is forgotten. So it does not matter by
which shapes a query went. What the searches are compiled to is in none of the older shapes.
-/

namespace NoteSearch

namespace WireItem

/-- Items that ask for one tag and nothing else: the tag itself, or a group without other members. -/
inductive AsksOnly : WireItem → TagItem → Prop
  | bare (tag : TagItem) : AsksOnly (.tag tag) tag
  | grouped (kind : GroupKind) (tag : TagItem) : AsksOnly (.group kind [.tag tag]) tag

theorem AsksOnly.singleTag? {item : WireItem} {tag : TagItem} (h : item.AsksOnly tag) :
    item.singleTag? = some tag := by
  cases h with
  | bare => rfl
  | grouped => rfl

theorem singleTag?_eq_some_iff {item : WireItem} {tag : TagItem} :
    item.singleTag? = some tag ↔ item.AsksOnly tag := by
  constructor
  · intro h
    unfold WireItem.singleTag? at h
    split at h
    · cases h
      exact .bare tag
    · cases h
      exact .grouped _ tag
    · cases h
  · exact AsksOnly.singleTag?

end WireItem

/-- How the shapes for a single tag write it. -/
inductive WireShape.Wraps : WireShape → TagItem → WireItem → Prop
  | legacySingle (tag : TagItem) : Wraps .legacySingle tag (.group .legacyAnd [.tag tag])
  | directTag (tag : TagItem) : Wraps .directTag tag (.tag tag)

namespace WireShape.Wraps

variable {shape : WireShape} {tag : TagItem} {root : WireItem}

theorem exists_root (h : shape ≠ .current) (tag : TagItem) : ∃ root, shape.Wraps tag root := by
  cases shape with
  | current => exact absurd rfl h
  | legacySingle => exact ⟨_, .legacySingle tag⟩
  | directTag => exact ⟨_, .directTag tag⟩

theorem asksOnly (h : shape.Wraps tag root) : root.AsksOnly tag := by
  cases h with
  | legacySingle => exact .grouped .legacyAnd tag
  | directTag => exact .bare tag

/-- A wrapped tag shows its shape, whatever the options are. -/
theorem shape_eq (h : shape.Wraps tag root) (q : QueryDescription) :
    ({ q with item := root } : QueryDescription).shape = shape := by
  cases h with
  | legacySingle => rfl
  | directTag => rfl

end WireShape.Wraps

namespace QueryDescription

variable {q e : QueryDescription} {s t : WireShape} {item root : WireItem}

theorem rootIn?_eq_some_iff (hs : s ≠ .current) :
    rootIn? item s = some root ↔ ∃ tag, item.AsksOnly tag ∧ s.Wraps tag root := by
  constructor
  · intro h
    cases s with
    | current => exact absurd rfl hs
    | legacySingle =>
      obtain ⟨tag, htag, rfl⟩ := Option.map_eq_some_iff.mp h
      exact ⟨tag, WireItem.singleTag?_eq_some_iff.mp htag, .legacySingle tag⟩
    | directTag =>
      obtain ⟨tag, htag, rfl⟩ := Option.map_eq_some_iff.mp h
      exact ⟨tag, WireItem.singleTag?_eq_some_iff.mp htag, .directTag tag⟩
  · rintro ⟨tag, htag, hwraps⟩
    cases hwraps with
    | legacySingle => rw [rootIn?, htag.singleTag?, Option.map_some]
    | directTag => rw [rootIn?, htag.singleTag?, Option.map_some]

theorem rootIn?_congr {tag : TagItem} (ht : t ≠ .current) (hitem : item.AsksOnly tag)
    (hroot : root.AsksOnly tag) : rootIn? root t = rootIn? item t := by
  obtain ⟨wrapped, hwraps⟩ := WireShape.Wraps.exists_root ht tag
  rw [(rootIn?_eq_some_iff ht).mpr ⟨tag, hroot, hwraps⟩,
    (rootIn?_eq_some_iff ht).mpr ⟨tag, hitem, hwraps⟩]

theorem isSome_reshape?_iff (hs : s ≠ .current) :
    (q.reshape? s).isSome = true ↔ ∃ tag, q.item.AsksOnly tag := by
  rw [reshape?, Option.isSome_map, Option.isSome_iff_exists]
  constructor
  · rintro ⟨root, hroot⟩
    obtain ⟨tag, htag, -⟩ := (rootIn?_eq_some_iff hs).mp hroot
    exact ⟨tag, htag⟩
  · rintro ⟨tag, htag⟩
    obtain ⟨root, hwraps⟩ := WireShape.Wraps.exists_root hs tag
    exact ⟨root, (rootIn?_eq_some_iff hs).mpr ⟨tag, htag, hwraps⟩⟩

theorem exists_wraps_of_reshape? (hs : s ≠ .current) (h : q.reshape? s = some e) :
    ∃ tag root, q.item.AsksOnly tag ∧ s.Wraps tag root ∧ e = { q with item := root } := by
  obtain ⟨root, hroot, rfl⟩ := Option.map_eq_some_iff.mp h
  obtain ⟨tag, htag, hwraps⟩ := (rootIn?_eq_some_iff hs).mp hroot
  exact ⟨tag, root, htag, hwraps, rfl⟩

theorem reshape?_reshape? (ht : t ≠ .current) (h : q.reshape? s = some e) :
    e.reshape? t = q.reshape? t := by
  by_cases hs : s = .current
  · subst hs
    rw [reshape?_current, Option.some.injEq] at h
    rw [h]
  · obtain ⟨tag, root, htag, hwraps, rfl⟩ := exists_wraps_of_reshape? hs h
    rw [reshape?, reshape?, rootIn?_congr ht htag hwraps.asksOnly]

/-- The queries that the four kinds of searches are compiled to. -/
inductive Compiled : QueryDescription → Prop
  | ofTag (name : String) (filters : List PropertyFilter) (options : QueryOptions) :
      Compiled (ofTag name filters options)
  | ofConditions {conditions : List Condition} {mode : CombineMode} {options : QueryOptions}
      {q : QueryDescription} (h : ofConditions conditions mode options = .ok q) : Compiled q
  | ofTask (task : TaskQuery) (options : QueryOptions) : Compiled (ofTask task options)
  | ofJournal (range : DateRange) (options : QueryOptions) : Compiled (ofJournal range options)

theorem shape_group_ofMode (mode : CombineMode) (items : List WireItem) (options : QueryOptions) :
    (describe (.group (.ofMode mode) items) options).shape = .current := by
  cases mode with
  | and => rfl
  | or => rfl
  | chainAnd => rfl

theorem Compiled.shape_eq (h : q.Compiled) : q.shape = .current := by
  cases h with
  | ofTag name filters options => exact shape_group_ofMode .and _ options
  | ofConditions h =>
    rename_i conditions mode options
    cases conditions with
    | nil => cases h
    | cons c cs =>
      cases h
      exact shape_group_ofMode mode _ options
  | ofTask task options => exact shape_group_ofMode .and _ options
  | ofJournal range options => exact shape_group_ofMode .and _ options

/-- Putting a query in another shape changes nothing but the root. The shape that searches are
compiled to leaves every query as it is. The other shapes take exactly the queries for one tag, keep
the tag with its clauses and the options, are told by the root, and can be reached from each other. -/
theorem reshape?_lawful :
    (∀ q : QueryDescription, q.reshape? .current = some q) ∧
    (∀ (q : QueryDescription) (s : WireShape), s ≠ .current →
      ((q.reshape? s).isSome = true ↔ ∃ tag, q.item.AsksOnly tag)) ∧
    (∀ (q e : QueryDescription) (s : WireShape), s ≠ .current → q.reshape? s = some e →
      (∃ tag root, q.item.AsksOnly tag ∧ root.AsksOnly tag ∧ e = { q with item := root }) ∧
        e.shape = s) ∧
    (∀ (q e : QueryDescription) (s t : WireShape), t ≠ .current → q.reshape? s = some e →
      e.reshape? t = q.reshape? t) ∧
    ∀ q : QueryDescription, q.Compiled → q.shape = .current := by
  refine ⟨reshape?_current, fun q s => isSome_reshape?_iff, ?_, fun q e s t => reshape?_reshape?,
    fun q => Compiled.shape_eq⟩
  intro q e s hs he
  obtain ⟨tag, root, htag, hwraps, rfl⟩ := exists_wraps_of_reshape? hs he
  exact ⟨⟨tag, root, htag, hwraps.asksOnly, rfl⟩, hwraps.shape_eq q⟩

/-- A search for any of one tag, put in the older group and then taken out of it. -/
theorem reshape?_lawful_anyTag :
    ∃ q legacy : QueryDescription,
      ofConditions [.tag "#task" [⟨"points", .atLeast, some (.text "8"), none, none⟩]] .or
          ⟨[.field "modified"], some 2, some 20, none⟩ = .ok q ∧
        q.Compiled ∧ q.shape = .current ∧
        WireShape.legacySingle ≠ .current ∧ WireShape.directTag ≠ .current ∧
        q.reshape? .legacySingle = some legacy ∧ (∃ tag, q.item.AsksOnly tag) ∧
        (∃ tag root, q.item.AsksOnly tag ∧ root.AsksOnly tag ∧ legacy = { q with item := root }) ∧
        legacy.shape = .legacySingle ∧ legacy.reshape? .directTag = q.reshape? .directTag := by
  obtain ⟨-, hpossible, hkept, hagain, hcompiled⟩ := reshape?_lawful
  obtain ⟨q, hq⟩ : ∃ q, ofConditions
      [.tag "#task" [⟨"points", .atLeast, some (.text "8"), none, none⟩]] .or
        ⟨[.field "modified"], some 2, some 20, none⟩ = .ok q := ⟨_, rfl⟩
  have hlegacy : WireShape.legacySingle ≠ .current := by decide
  have hdirect : WireShape.directTag ≠ .current := by decide
  have hsome : (q.reshape? .legacySingle).isSome = true := by
    cases hq
    rfl
  obtain ⟨legacy, hreshaped⟩ := Option.isSome_iff_exists.mp hsome
  obtain ⟨hasked, hshape⟩ := hkept q legacy .legacySingle hlegacy hreshaped
  exact ⟨q, legacy, hq, .ofConditions hq, hcompiled q (.ofConditions hq), hlegacy, hdirect,
    hreshaped, (hpossible q .legacySingle hlegacy).mp hsome, hasked, hshape,
    hagain q legacy .legacySingle .directTag hdirect hreshaped⟩

end QueryDescription
end NoteSearch
