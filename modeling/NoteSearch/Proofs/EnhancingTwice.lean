import NoteSearch.Proofs.Blanks
import NoteSearch.Proofs.Choices

/-!
# Enhancing a filter again

A filter that has been enhanced names its property as the schema does, has its type and compares
choices as sets, and another time changes none of this. Its value is read anew, though. A label that
spells the position of another option, or that differs from an earlier one in nothing but case and
the blanks around it, stands for that other option the second time. Apart from such labels, enhancing
again changes nothing.
-/

namespace NoteSearch

namespace TagSchema

variable {schema : TagSchema} {name : String} {p : PropertySchema}

theorem property?_name (h : schema.property? name = some p) : schema.property? p.name = some p := by
  have hsame : Text.lowerAsciiAll p.name.toList = Text.lowerAsciiAll (Text.trim name.toList) := by
    have hfound := List.find?_some h
    simpa [sameIgnoringCase, trimmed] using hfound
  have htrimmed : Text.lowerAsciiAll (trimmed p.name).toList =
      Text.lowerAsciiAll (trimmed name).toList := by
    rw [trimmed, trimmed, String.toList_ofList, String.toList_ofList, ← Text.trim_lowerAsciiAll,
      hsame, Text.trim_lowerAsciiAll, Text.trim_trim]
  rw [← h]
  simp only [property?, sameIgnoringCase, htrimmed]

end TagSchema

mutual

def Json.texts : Json → List String
  | .text s => [s]
  | .array items => textsAmong items
  | _ => []

def Json.textsAmong : List Json → List String
  | [] => []
  | j :: js => texts j ++ textsAmong js

end

namespace PropertySchema

variable {p : PropertySchema}

/-- Every option is found at its position. -/
def Placed (p : PropertySchema) : Prop := ∀ o ∈ p.options.getD [], p.optionAt? o.value = some o

/-- What a text becomes is the text itself. If it spells the position of an option it has to be the
label of that option; and otherwise the first label that it equals, up to ASCII case and the blanks
around it. -/
structure StandsForItself (p : PropertySchema) (text : String) : Prop where
  position : ∀ o ∈ p.options.getD [],
    Numeral.readWord64? (Text.trim text.toList) = some o.value → o.label = text
  label : (∀ o ∈ p.options.getD [],
      Numeral.readWord64? (Text.trim text.toList) ≠ some o.value) →
    ∀ o ∈ (p.options.getD []).find? fun o => sameIgnoringCase o.label (trimmed text),
      o.label = text

instance (p : PropertySchema) (text : String) : Decidable (p.StandsForItself text) :=
  decidable_of_iff (_ ∧ _) ⟨fun h => ⟨h.1, h.2⟩, fun h => ⟨h.position, h.label⟩⟩

theorem placed_of_ofDefinition? {d : BlockProperty} (h : ofDefinition? d = some p) : p.Placed := by
  obtain ⟨type, -, rfl⟩ := Option.map_eq_some_iff.mp h
  intro o ho
  unfold optionAt?
  by_cases htype : type = .textChoices
  · simp only [if_pos htype, Option.getD_some, ChoiceOption.ofTypeArgs_eq] at ho ⊢
    rw [ChoiceOption.find?_ofChoices]
    exact ChoiceOption.mem_ofChoices_iff.mp ho
  · simp only [if_neg htype, Option.getD_none] at ho
    cases ho

section Labels

variable (hp : p.Placed)
include hp

theorem bind_optionAt?_eq_some_iff (i? : Option Nat) (o : ChoiceOption) :
    i?.bind p.optionAt? = some o ↔ o ∈ p.options.getD [] ∧ i? = some o.value := by
  constructor
  · intro h
    obtain ⟨i, rfl, hi⟩ := Option.bind_eq_some_iff.mp h
    have hvalue : o.value = i := by simpa using List.find?_some hi
    exact ⟨List.mem_of_find?_eq_some hi, congrArg some hvalue.symm⟩
  · rintro ⟨ho, rfl⟩
    exact hp o ho

theorem bind_optionAt?_eq_none_iff (i? : Option Nat) :
    i?.bind p.optionAt? = none ↔ ∀ o ∈ p.options.getD [], i? ≠ some o.value := by
  rw [Option.eq_none_iff_forall_ne_some]
  exact forall_congr' fun o => (not_congr (bind_optionAt?_eq_some_iff hp i? o)).trans not_and

theorem optionFor?_text_eq_some_iff (text : String) (o : ChoiceOption) :
    p.optionFor? (.text text) = some o ↔
      (o ∈ p.options.getD [] ∧
        Numeral.readWord64? (Text.trim text.toList) = some o.value) ∨
      (∀ o' ∈ p.options.getD [],
        Numeral.readWord64? (Text.trim text.toList) ≠ some o'.value) ∧
          p.optionLabelled? (trimmed text) = some o := by
  rw [optionFor?_text, Option.or_eq_some_iff, bind_optionAt?_eq_some_iff hp,
    bind_optionAt?_eq_none_iff hp]

theorem resolveChoice_text_iff (text : String) :
    p.resolveChoice (.text text) = .text text ↔ p.StandsForItself text := by
  have hstays : p.resolveChoice (.text text) = .text text ↔
      ∀ o, p.optionFor? (.text text) = some o → o.label = text := by
    rw [resolveChoice_of_isArray rfl]
    cases p.optionFor? (.text text) with
    | none => simp
    | some o => simp
  have hnamed := optionFor?_text_eq_some_iff hp text
  rw [hstays]
  constructor
  · intro h
    constructor
    · exact fun o ho hread => h o ((hnamed o).mpr (.inl ⟨ho, hread⟩))
    · exact fun hnone o ho => h o ((hnamed o).mpr (.inr ⟨hnone, ho⟩))
  · intro h o ho
    obtain ⟨hmem, hread⟩ | ⟨hnone, hlabelled⟩ := (hnamed o).mp ho
    · exact h.position o hmem hread
    · exact h.label hnone o hlabelled

theorem resolveChoice_twice_of_isArray {j : Json} (hj : j.isArray = false) :
    p.resolveChoice (p.resolveChoice j) = p.resolveChoice j ↔
      ∀ text ∈ (p.resolveChoice j).texts, p.StandsForItself text := by
  have hresolved := p.resolveChoice_of_isArray hj
  cases h : p.optionFor? j with
  | some o =>
    rw [h] at hresolved
    have hlabel : p.resolveChoice j = .text o.label := hresolved
    rw [hlabel, resolveChoice_text_iff hp]
    simp [Json.texts]
  | none =>
    rw [h] at hresolved
    have hsame : p.resolveChoice j = j := hresolved
    rw [hsame]
    refine iff_of_true hsame ?_
    cases j with
    | text s =>
      intro text htext
      rw [List.mem_singleton.mp htext]
      exact (resolveChoice_text_iff hp s).mp hsame
    | array items => cases hj
    | _ => nofun

end Labels

mutual

/-- A value that has been resolved stays as it is exactly if its texts stand for themselves. -/
theorem resolveChoice_resolveChoice_iff (hp : p.Placed) (j : Json) :
    p.resolveChoice (p.resolveChoice j) = p.resolveChoice j ↔
      ∀ text ∈ (p.resolveChoice j).texts, p.StandsForItself text := by
  match j with
  | .array items =>
    have hitems := resolveChoices_resolveChoices_iff hp items
    simpa only [resolveChoice, Json.array.injEq, Json.texts] using hitems
  | .null => exact resolveChoice_twice_of_isArray hp rfl
  | .bool b => exact resolveChoice_twice_of_isArray hp rfl
  | .integer n => exact resolveChoice_twice_of_isArray hp rfl
  | .double x => exact resolveChoice_twice_of_isArray hp rfl
  | .text s => exact resolveChoice_twice_of_isArray hp rfl
  | .object fields => exact resolveChoice_twice_of_isArray hp rfl

theorem resolveChoices_resolveChoices_iff (hp : p.Placed) (js : List Json) :
    p.resolveChoices (p.resolveChoices js) = p.resolveChoices js ↔
      ∀ text ∈ Json.textsAmong (p.resolveChoices js), p.StandsForItself text := by
  match js with
  | [] => exact iff_of_true rfl nofun
  | j :: js =>
    have hfirst := resolveChoice_resolveChoice_iff hp j
    have hothers := resolveChoices_resolveChoices_iff hp js
    simp only [resolveChoices, List.cons.injEq, Json.textsAmong, List.forall_mem_append, hfirst,
      hothers]

end

end PropertySchema

theorem TagSchema.placed_of_fetch {ω : Type} {source : SchemaSource ω} {tag : String} {w : ω}
    {schema : TagSchema} (hs : (fetch source tag w).1 = .ok schema) {name : String}
    {p : PropertySchema} (hp : schema.property? name = some p) : p.Placed := by
  obtain ⟨id, b, -, -, rfl⟩ := fetch_eq_ok_iff.mp hs
  obtain ⟨d, -, hd⟩ := List.mem_filterMap.mp (List.mem_of_find?_eq_some hp)
  exact PropertySchema.placed_of_ofDefinition? hd

namespace PropertyFilter

variable {schema : TagSchema} {p : PropertySchema} {f : PropertyFilter}

theorem enhance_of_property? (hp : schema.property? f.name = some p) :
    f.enhance schema = f.enhanceBy p := by
  rw [enhance, hp]

theorem enhance_of_property?_eq_none (hp : schema.property? f.name = none) :
    f.enhance schema = f := by
  rw [enhance, hp]

@[simp] theorem enhanceBy_name (f : PropertyFilter) (p : PropertySchema) :
    (f.enhanceBy p).name = p.name := by
  unfold enhanceBy
  split_ifs <;> rfl

theorem enhanceBy_value (hp : p.type = .textChoices) (f : PropertyFilter) :
    (f.enhanceBy p).value = f.value.map p.resolveChoice := by
  rw [enhanceBy, if_pos hp]

/-- Of a filter that has been enhanced only a value among choices is read once more. -/
theorem enhanceBy_enhanceBy (f : PropertyFilter) (p : PropertySchema) :
    (f.enhanceBy p).enhanceBy p = { f.enhanceBy p with
      value := if p.type = .textChoices then (f.enhanceBy p).value.map p.resolveChoice
        else (f.enhanceBy p).value } := by
  by_cases hp : p.type = .textChoices
  · have hop : (f.enhanceBy p).op ≠ .equal := by
      rw [enhanceBy, if_pos hp]
      dsimp only
      split_ifs with hequal
      · nofun
      · exact hequal
    conv_lhs => rw [enhanceBy, if_pos hp, if_neg hop]
    rw [if_pos hp, enhanceBy, if_pos hp]
  · simp only [enhanceBy, if_neg hp]

theorem enhance_enhance (hp : schema.property? f.name = some p) :
    (f.enhance schema).enhance schema = (f.enhanceBy p).enhanceBy p := by
  have honce : schema.property? (f.enhanceBy p).name = some p := by
    rw [enhanceBy_name]
    exact TagSchema.property?_name hp
  rw [enhance_of_property? hp, enhance_of_property? honce]

theorem eq_with_value_iff (f : PropertyFilter) (value : Option Json) :
    { f with value := value } = f ↔ value = f.value := by
  constructor
  · exact fun h => congrArg PropertyFilter.value h
  · rintro rfl
    rfl

theorem map_resolveChoice_twice_iff (hp : p.Placed) (value : Option Json) :
    (value.map p.resolveChoice).map p.resolveChoice = value.map p.resolveChoice ↔
      ∀ j ∈ value.map p.resolveChoice, ∀ text ∈ j.texts, p.StandsForItself text := by
  cases value with
  | none => exact iff_of_true rfl nofun
  | some j =>
    simp only [Option.map_some, Option.some.injEq, Option.mem_some_iff, forall_eq',
      PropertySchema.resolveChoice_resolveChoice_iff hp j]

/-- With a schema that was fetched, enhancing a filter again changes at most its value, and changes
nothing exactly if the texts of a value among choices stand for themselves. In particular the label
of an option goes on to select that option exactly if it stands for itself. -/
theorem enhance_enhance_iff {ω : Type} {source : SchemaSource ω} {tag : String} {w : ω}
    (hs : (TagSchema.fetch source tag w).1 = .ok schema) (f : PropertyFilter) :
    let once := f.enhance schema
    let twice := once.enhance schema
    twice = { once with value := twice.value } ∧
    (twice = once ↔ ∀ p ∈ schema.property? f.name, p.type = .textChoices →
      ∀ j ∈ once.value, ∀ text ∈ j.texts, p.StandsForItself text) ∧
    ∀ p ∈ schema.property? f.name, p.type = .textChoices → ∀ o ∈ p.options.getD [],
      f.value = some (.text o.label) → (once.value = f.value ↔ p.StandsForItself o.label) := by
  intro once twice
  cases hp : schema.property? f.name with
  | none =>
    have honce : once = f := enhance_of_property?_eq_none hp
    have htwice : twice = once := congrArg (enhance schema) honce
    exact ⟨htwice ▸ rfl, iff_of_true htwice nofun, nofun⟩
  | some p =>
    have hplaced := TagSchema.placed_of_fetch hs hp
    have honce : once = f.enhanceBy p := enhance_of_property? hp
    have htwice : twice = { once with
        value := if p.type = .textChoices then once.value.map p.resolveChoice else once.value } := by
      rw [honce, ← enhanceBy_enhanceBy]
      exact enhance_enhance hp
    simp only [Option.mem_some_iff, forall_eq']
    refine ⟨htwice ▸ rfl, ?_, fun hchoices o ho hvalue => ?_⟩
    · rw [htwice, eq_with_value_iff]
      by_cases hchoices : p.type = .textChoices
      · rw [if_pos hchoices, forall_prop_of_true hchoices, honce, enhanceBy_value hchoices]
        exact map_resolveChoice_twice_iff hplaced f.value
      · rw [if_neg hchoices]
        exact iff_of_true rfl fun h => absurd h hchoices
    · rw [honce, enhanceBy_value hchoices, hvalue, Option.map_some, Option.some.injEq]
      exact PropertySchema.resolveChoice_text_iff hplaced o.label

/-- The label of a choice may spell a position where no choice can be read. -/
theorem enhance_enhance_iff_unreadable :
    let choices : List Json := [.text "todo", .bool true, .object [("label", .text "1")]]
    let source := MemorySource.empty.withTag "task" 7
      [⟨"Status", some 6, none, some (.object [("choices", .array choices)])⟩]
    let f : PropertyFilter :=
      .untyped " STATUS " .equal (some (.array [.integer 2, .array [.text " Todo", .text "x"]]))
    let once : PropertyFilter := ⟨"Status", .includes,
      some (.array [.text "1", .array [.text "todo", .text "x"]]), some .textChoices, none⟩
    ∃ schema, (TagSchema.fetch MemorySource.source "task" source).1 = .ok schema ∧
      f.enhance schema = once ∧ once.enhance schema = once := by
  intro choices source f once
  obtain ⟨schema, hs⟩ : ∃ schema,
      (TagSchema.fetch MemorySource.source "task" source).1 = .ok schema := ⟨_, rfl⟩
  have hcomputed : ∀ schema ∈ (TagSchema.fetch MemorySource.source "task" source).1.toOption,
      f.enhance schema = once ∧ ∀ p ∈ schema.property? f.name, p.type = .textChoices →
        ∀ j ∈ once.value, ∀ text ∈ j.texts, p.StandsForItself text := by
    decide +kernel
  obtain ⟨honce, htexts⟩ := hcomputed schema (by rw [hs]; rfl)
  have htwice := (enhance_enhance_iff hs f).2.1
  rw [honce] at htwice
  exact ⟨schema, hs, honce, htwice.mpr htexts⟩

/-- Three labels that do not go on to select their options: one spells a position, one differs from
an earlier label in case only, and one is written with blanks around a later one. -/
theorem enhance_enhance_ne :
    let fetched (choices : List Json) := (TagSchema.fetch MemorySource.source "task"
      (MemorySource.empty.withTag "task" 7
        [⟨"Status", some 6, none, some (.object [("choices", .array choices)])⟩])).1
    let status (value : Json) : PropertyFilter :=
      ⟨"Status", .includes, some value, some .textChoices, none⟩
    (∃ schema, fetched [.text "1", .text "b"] = .ok schema ∧
      (status (.integer 0)).enhance schema = status (.text "1") ∧
      (status (.text "1")).enhance schema = status (.text "b")) ∧
    (∃ schema, fetched [.text "Todo", .text "todo"] = .ok schema ∧
      (status (.integer 1)).enhance schema = status (.text "todo") ∧
      (status (.text "todo")).enhance schema = status (.text "Todo")) ∧
    ∃ schema, fetched [.text " todo ", .text "todo"] = .ok schema ∧
      (status (.integer 0)).enhance schema = status (.text " todo ") ∧
      (status (.text " todo ")).enhance schema = status (.text "todo") := by
  refine ⟨⟨_, rfl, ?_, ?_⟩, ⟨_, rfl, ?_, ?_⟩, _, rfl, ?_, ?_⟩ <;> decide +kernel

end PropertyFilter
end NoteSearch
