import NoteSearch.Proofs.Records
import NoteSearch.Query.Condition
import NoteSearch.Query.Options
import NoteSearch.Query.TaskQuery
import NoteSearch.Schema.Basic

/-!
# Requests and schemas that are read again

Requests are read in many spellings and written in one. What is written is read, as the same request:
the words and codes of operators and types, records given as arrays, and fields that are null or
missing all come to the same. Data inside of a request is kept as it was read.
-/

namespace NoteSearch

theorem Operator.rereads : Rereads ofJson toJson := fun _ op _ => ofJson_toJson op

theorem PropertyType.rereads : Rereads ofJson toJson := fun _ t _ => ofJson_toJson t

theorem TimeUnit.rereads : Rereads ofJson toJson := fun _ u _ => ofJson_toJson u

theorem PropertyFilter.rereads : Rereads ofJson toJson := by
  intro j f h
  obtain ⟨r, -, h⟩ := Decoded.bind_eq_ok.mp h
  simp only [ofRecord, Decoded.bind_eq_ok, Decoded.ofOption_eq_ok, Decoded.pure_eq_ok] at h
  obtain ⟨_, hname, _, hop, type, htype, typeArgs, htypeArgs, value, hvalue, name, rfl, op, rfl, -, -,
    rfl⟩ := h
  have hname := Json.rereads_asText.field hname
  have hop := Operator.rereads.field hop
  have htype := PropertyType.rereads.optional htype nofun
  have htypeArgs := Json.rereads_asData.optional htypeArgs Json.eq_null_of_asData
  have hvalue := Json.rereads_asData.optional hvalue Json.eq_null_of_asData
  simp [ofJson, toJson, Record.ofJson, ofRecord, hname, hop, htype, htypeArgs, hvalue]

namespace DateSpec

/-- The written kind is read as such, inside of a condition as well. -/
theorem ofJson_toJson_of_ofRecord {kind : Kind} {r : Record} {d : DateSpec}
    (h : ofRecord kind r = .ok d) : ofJson d.toJson = .ok d ∧ ofNestedJson d.toJson = .ok d := by
  cases kind with
  | relative =>
    simp only [ofRecord, Decoded.bind_eq_ok, Decoded.ofOption_eq_ok, Decoded.pure_eq_ok] at h
    obtain ⟨_, hvalue, _, hunit, value, rfl, unit, rfl, -, -, rfl⟩ := h
    have hvalue := Json.rereads_asInt64.field hvalue
    have hunit := TimeUnit.rereads.field hunit
    have hrecord : ofRecord .relative (.named [("value", .integer value), ("unit", unit.toJson)]) =
        .ok (relative value unit) := by
      simp [ofRecord, hvalue, hunit]
    exact ⟨hrecord, hrecord⟩
  | absolute =>
    simp only [ofRecord, Decoded.bind_eq_ok, Decoded.ofOption_eq_ok, Decoded.pure_eq_ok] at h
    obtain ⟨_, hvalue, value, rfl, -, -, rfl⟩ := h
    have hvalue := Json.rereads_asInt64.field hvalue
    have hrecord : ofRecord .absolute (.named [("value", .integer value)]) =
        .ok (absolute value) := by
      simp [ofRecord, hvalue]
    exact ⟨hrecord, hrecord⟩

theorem rereads : Rereads ofJson toJson := by
  intro j d h
  obtain ⟨_, -, h⟩ := Decoded.bind_eq_ok.mp h
  obtain ⟨kind, -, h⟩ := Decoded.bind_eq_ok.mp h
  exact (ofJson_toJson_of_ofRecord h).1

theorem rereads_nested : Rereads ofNestedJson toJson := by
  intro j d h
  obtain ⟨⟨tag, rest⟩, -, h⟩ := Decoded.bind_eq_ok.mp h
  have hkind : ∃ kind, ofRecord kind rest = .ok d := by
    cases tag with
    | text name =>
      obtain ⟨kind, -, h⟩ := Decoded.bind_eq_ok.mp h
      exact ⟨kind, h⟩
    | integer index =>
      obtain ⟨kind, -, h⟩ := Decoded.bind_eq_ok.mp h
      exact ⟨kind, h⟩
    | _ => cases h
  exact (ofJson_toJson_of_ofRecord hkind.choose_spec).2

end DateSpec

namespace DateRange

theorem ofRecordWith_fields {date : Json → Decoded DateSpec} (hdate : Rereads date DateSpec.toJson)
    {r : Record} {range : DateRange} (h : ofRecordWith date r = .ok range) :
    ofRecordWith date (.named range.fields) = .ok range := by
  simp only [ofRecordWith, Decoded.bind_eq_ok, Decoded.ofOption_eq_ok, Decoded.pure_eq_ok] at h
  obtain ⟨_, hstart, _, hfinish, start, rfl, finish, rfl, -, -, rfl⟩ := h
  have hstart := hdate.field hstart
  have hfinish := hdate.field hfinish
  simp [ofRecordWith, fields, hstart, hfinish]

theorem rereads : Rereads ofJson toJson := by
  intro j range h
  obtain ⟨r, -, h⟩ := Decoded.bind_eq_ok.mp h
  exact ofRecordWith_fields DateSpec.rereads h

end DateRange

theorem TaskQuery.rereads : Rereads ofJson toJson := by
  intro j t h
  obtain ⟨r, -, h⟩ := Decoded.bind_eq_ok.mp h
  simp only [ofRecord, Decoded.bind_eq_ok, Decoded.pure_eq_ok] at h
  obtain ⟨completed, hcompleted, range, hrange, -, -, rfl⟩ := h
  have hcompleted := Json.rereads_asBool.optional hcompleted nofun
  have hrange := DateRange.rereads.optional hrange nofun
  simp [ofJson, toJson, Record.ofJson, ofRecord, hcompleted, hrange]

theorem Topology.ofRecord_fields {r : Record} {t : Topology} (h : ofRecord r = .ok t) :
    ofRecord (.named t.fields) = .ok t := by
  simp only [ofRecord, Decoded.bind_eq_ok, Decoded.pure_eq_ok] at h
  obtain ⟨hasTags, htags, hasParent, hparent, hasChild, hchild, hasAliases, haliases, -, -, rfl⟩ := h
  have htags := Json.rereads_asBool.optional htags nofun
  have hparent := Json.rereads_asBool.optional hparent nofun
  have hchild := Json.rereads_asBool.optional hchild nofun
  have haliases := Json.rereads_asBool.optional haliases nofun
  simp [ofRecord, fields, htags, hparent, hchild, haliases]

namespace Condition

theorem blockIdOf_fields {r : Record} {id : Int} (h : blockIdOf r = .ok id) :
    blockIdOf (.named [("blockId", .integer id)]) = .ok id := by
  simp only [blockIdOf, Decoded.bind_eq_ok, Decoded.ofOption_eq_ok, Decoded.pure_eq_ok] at h
  obtain ⟨_, hid, id, rfl, -, -, rfl⟩ := h
  have hid := Json.rereads_asInt64.field hid
  simp [blockIdOf, hid]

/-- An empty list of filters is written as no list. -/
theorem ofRecord_fields_tag {r : Record} {c : Condition} (h : ofRecord .tag r = .ok c) :
    ofRecord c.kind (.named c.fields) = .ok c := by
  simp only [ofRecord, Decoded.bind_eq_ok, Decoded.ofOption_eq_ok, Decoded.pure_eq_ok] at h
  obtain ⟨_, hname, properties, hproperties, name, rfl, -, -, rfl⟩ := h
  have hname := Json.rereads_asText.field hname
  rcases properties with _ | _ | ⟨f, filters⟩
  · simp [ofRecord, kind, fields, hname, Record.field_named_of_nil]
  · simp [ofRecord, kind, fields, hname, Record.field_named_of_nil]
  · have hproperties := PropertyFilter.rereads.asList.field hproperties
    simp [ofRecord, kind, fields, hname, hproperties]

theorem ofRecord_fields {label : Kind} {r : Record} {c : Condition} (h : ofRecord label r = .ok c) :
    ofRecord c.kind (.named c.fields) = .ok c := by
  cases label with
  | tag => exact ofRecord_fields_tag h
  | text =>
    simp only [ofRecord, Decoded.bind_eq_ok, Decoded.ofOption_eq_ok, Decoded.pure_eq_ok] at h
    obtain ⟨_, hcontent, raw, hraw, content, rfl, -, -, rfl⟩ := h
    have hcontent := Json.rereads_asText.field hcontent
    have hraw := Json.rereads_asBool.optional hraw nofun
    simp [ofRecord, kind, fields, hcontent, hraw]
  | task =>
    simp only [ofRecord, Decoded.bind_eq_ok, Decoded.pure_eq_ok] at h
    obtain ⟨completed, hcompleted, -, -, rfl⟩ := h
    have hcompleted := Json.rereads_asBool.optional hcompleted nofun
    simp [ofRecord, kind, fields, hcompleted]
  | journal =>
    obtain ⟨range, hrange, rfl⟩ := Decoded.map_eq_ok.mp h
    exact congrArg (Except.map journal)
      (DateRange.ofRecordWith_fields DateSpec.rereads_nested hrange)
  | reference =>
    obtain ⟨id, hid, rfl⟩ := Decoded.map_eq_ok.mp h
    exact congrArg (Except.map reference) (blockIdOf_fields hid)
  | structural =>
    obtain ⟨topology, htopology, rfl⟩ := Decoded.map_eq_ok.mp h
    exact congrArg (Except.map structural) (Topology.ofRecord_fields htopology)
  | blockMatch =>
    obtain ⟨id, hid, rfl⟩ := Decoded.map_eq_ok.mp h
    exact congrArg (Except.map blockMatch) (blockIdOf_fields hid)

theorem valuesOf_type_fields (c : Condition) : Record.valuesOf "type" c.fields = [] := by
  cases c with
  | tag name properties => cases properties <;> simp [fields]
  | _ => simp [fields, DateRange.fields, Topology.fields]

theorem rereads : Rereads ofJson toJson := by
  intro j c h
  obtain ⟨_, -, h⟩ := Decoded.bind_eq_ok.mp h
  obtain ⟨kind, -, h⟩ := Decoded.bind_eq_ok.mp h
  have hsplit := Record.splitTag_object c.valuesOf_type_fields (.text c.kind.name)
  simp [ofJson, toJson, hsplit, Json.text?, ofRecord_fields h]

end Condition
theorem ChoiceOption.rereads : Rereads ofJson toJson := by
  intro j o h
  obtain ⟨r, -, h⟩ := Decoded.bind_eq_ok.mp h
  simp only [ofRecord, Decoded.bind_eq_ok, Decoded.ofOption_eq_ok, Decoded.pure_eq_ok] at h
  obtain ⟨_, hlabel, _, hvalue, color, hcolor, label, rfl, value, rfl, -, -, rfl⟩ := h
  have hlabel := Json.rereads_asText.field hlabel
  have hvalue := Json.rereads_asWord64.field hvalue
  have hcolor := Json.rereads_asText.optional hcolor nofun
  simp [ofJson, toJson, Record.ofJson, ofRecord, hlabel, hvalue, hcolor]

namespace PropertySchema

/-- Whichever field is read first, all that a schema consists of is read. -/
theorem fields_of_ofRecord {r : Record} {p : PropertySchema} (h : ofRecord r = .ok p) :
    r.field 0 "name" Json.asText = .ok (some p.name) ∧
      r.field 1 "type" PropertyType.ofJson = .ok (some p.type) ∧
      r.field 2 "typeName" Json.asText = .ok (some p.typeName) ∧
      r.optional 3 "options" (Json.asList ChoiceOption.ofJson) = .ok p.options := by
  unfold ofRecord at h
  cases hnamed : r.isNamed with
  | true =>
    simp only [hnamed, if_true, Decoded.bind_eq_ok, Decoded.seqRight_eq_ok, Decoded.ofOption_eq_ok,
      Decoded.pure_eq_ok] at h
    obtain ⟨_, hname, _, ⟨-, htype⟩, _, htypeName, options, hoptions, name, rfl, type, rfl, typeName,
      rfl, -, -, rfl⟩ := h
    exact ⟨hname, htype, htypeName, hoptions⟩
  | false =>
    simp only [hnamed, Bool.false_eq_true, if_false, Decoded.bind_eq_ok, Decoded.ofOption_eq_ok,
      Decoded.pure_eq_ok] at h
    obtain ⟨_, hname, _, htype, _, htypeName, options, hoptions, name, rfl, type, rfl, typeName, rfl,
      -, -, rfl⟩ := h
    exact ⟨hname, htype, htypeName, hoptions⟩

theorem rereads : Rereads ofJson toJson := by
  intro j p h
  obtain ⟨r, -, h⟩ := Decoded.bind_eq_ok.mp h
  obtain ⟨hname, htype, htypeName, hoptions⟩ := fields_of_ofRecord h
  have hname := Json.rereads_asText.field hname
  have htype := PropertyType.rereads.field htype
  have htypeName := Json.rereads_asText.field htypeName
  have hoptions := ChoiceOption.rereads.asList.optional hoptions nofun
  simp [ofJson, toJson, Record.ofJson, ofRecord, Record.isNamed, hname, htype, htypeName, hoptions]

end PropertySchema

namespace TagSchema

theorem fields_of_ofRecord {r : Record} {s : TagSchema} (h : ofRecord r = .ok s) :
    r.field 0 "tagName" Json.asText = .ok (some s.tagName) ∧
      r.field 1 "properties" (Json.asList PropertySchema.ofJson) = .ok (some s.properties) := by
  unfold ofRecord at h
  cases hnamed : r.isNamed with
  | true =>
    simp only [hnamed, if_true, Decoded.bind_eq_ok, Decoded.seqRight_eq_ok, Decoded.ofOption_eq_ok,
      Decoded.pure_eq_ok] at h
    obtain ⟨_, ⟨-, htagName⟩, _, hproperties, tagName, rfl, properties, rfl, -, -, rfl⟩ := h
    exact ⟨htagName, hproperties⟩
  | false =>
    simp only [hnamed, Bool.false_eq_true, if_false, Decoded.bind_eq_ok, Decoded.ofOption_eq_ok,
      Decoded.pure_eq_ok] at h
    obtain ⟨_, htagName, _, hproperties, tagName, rfl, properties, rfl, -, -, rfl⟩ := h
    exact ⟨htagName, hproperties⟩

theorem rereads : Rereads ofJson toJson := by
  intro j s h
  obtain ⟨r, -, h⟩ := Decoded.bind_eq_ok.mp h
  obtain ⟨htagName, hproperties⟩ := fields_of_ofRecord h
  have htagName := Json.rereads_asText.field htagName
  have hproperties := PropertySchema.rereads.asList.field hproperties
  simp [ofJson, toJson, Record.ofJson, ofRecord, Record.isNamed, htagName, hproperties]

end TagSchema

namespace SortSpec

theorem ofJson_toJson_record (s : String) (direction : Option String) :
    ofJson (record s direction).toJson = record s direction := by
  cases direction with
  | none => rfl
  | some direction => rfl

theorem eq_record_of_ofFields? {fields : List (String × Json)} {spec : SortSpec}
    (h : ofFields? fields = some spec) : ∃ s direction, spec = record s direction := by
  simp only [ofFields?, Decoded.toOption_eq_some, Decoded.bind_eq_ok, Decoded.pure_eq_ok] at h
  obtain ⟨-, -, direction, -, s, -, rfl⟩ := h
  exact ⟨s, direction, rfl⟩

/-- All but other data is written in a form of its own. -/
theorem ofJson_toJson_or (j : Json) :
    ofJson (ofJson j).toJson = ofJson j ∨ ofJson j = other j.canonical := by
  generalize hspec : ofJson j = spec
  unfold ofJson at hspec
  split at hspec
  · cases hspec
    exact .inl rfl
  · cases hspec
    exact .inl rfl
  · rename_i fields
    cases hfields : ofFields? fields with
    | none =>
      rw [hfields] at hspec
      exact .inr hspec.symm
    | some found =>
      obtain ⟨s, direction, rfl⟩ := eq_record_of_ofFields? hfields
      rw [hfields] at hspec
      cases hspec
      exact .inl (ofJson_toJson_record s direction)
  · exact .inr hspec.symm

theorem ofJson_toJson {j : Json} (hj : j.canonical = j) : ofJson (ofJson j).toJson = ofJson j := by
  rcases ofJson_toJson_or j with h | h
  · exact h
  · have hother : ofJson j = other j := h.trans (congrArg other hj)
    rw [hother]
    exact hother

/-- A record that repeats a field is no sort key, but it is one as data, with each field once. -/
example :
    ofJson (.object [("field", .text "a"), ("field", .text "b")]) =
        other (.object [("field", .text "b")]) ∧
      ofJson (.object [("field", .text "b")]) = record "b" none := by
  decide +kernel

end SortSpec

namespace QueryOptions

theorem toJson_eq (o : QueryOptions) :
    o.toJson = .object
      [ ("sort", .array (o.sort.map SortSpec.toJson))
      , ("page", Json.orNull (o.page.map fun n : Nat => .integer n))
      , ("pageSize", Json.orNull (o.pageSize.map fun n : Nat => .integer n))
      , ("excludeId", Json.orNull (o.excludeId.map .integer)) ] := by
  rcases o with ⟨sort, _ | page, _ | pageSize, excludeId⟩ <;> rfl

theorem ofJson_toJson_of_sort {j : Json} {o : QueryOptions} (h : ofJson j = .ok o)
    (hsort : ∀ spec ∈ o.sort, SortSpec.ofJson spec.toJson = spec) : ofJson o.toJson = .ok o := by
  obtain ⟨r, -, h⟩ := Decoded.bind_eq_ok.mp h
  simp only [ofRecord, Decoded.bind_eq_ok, Decoded.pure_eq_ok] at h
  obtain ⟨sort, -, page, hpage, pageSize, hpageSize, excludeId, hexclude, -, -, rfl⟩ := h
  have hread : (sort.getD []).map (SortSpec.ofJson ∘ SortSpec.toJson) = sort.getD [] :=
    (List.map_congr_left hsort).trans (List.map_id _)
  have hpage := Json.rereads_asWord32.optional hpage nofun
  have hpageSize := Json.rereads_asWord32.optional hpageSize nofun
  have hexclude := Json.rereads_asInt64.optional hexclude nofun
  rw [toJson_eq]
  simp [ofJson, Record.ofJson, ofRecord, Record.field_named, Json.asList_ok, hread, hpage, hpageSize,
    hexclude, Except.map]

theorem ofJson_toJson_sort {j : Json} {o : QueryOptions} (h : ofJson j.canonical = .ok o) :
    ∀ spec ∈ o.sort, SortSpec.ofJson spec.toJson = spec := by
  obtain ⟨r, hr, h⟩ := Decoded.bind_eq_ok.mp h
  simp only [ofRecord, Decoded.bind_eq_ok, Decoded.pure_eq_ok] at h
  obtain ⟨sort, hsort, page, -, pageSize, -, excludeId, -, -, -, rfl⟩ := h
  intro spec hspec
  cases sort with
  | none => cases hspec
  | some specs =>
    obtain ⟨v, hv, hspecs⟩ := Record.field_eq_some hsort
    have hcanonical := Record.canonical_of_value? hr hv
    cases v with
    | array items =>
      rw [Json.asList_ok] at hspecs
      cases hspecs
      obtain ⟨item, hitem, rfl⟩ := List.mem_map.mp hspec
      apply SortSpec.ofJson_toJson
      have hitems := Json.array.inj hcanonical
      rw [Json.canonicalItems_eq_map] at hitems
      exact List.map_inj_left.mp (hitems.trans (List.map_id items).symm) item hitem
    | _ => cases hspecs

end QueryOptions

/-- Whatever the spelling, what is written for a request or a schema is read as the same. Options are
read as data, in which no record repeats a field; the others may even be read from text. -/
theorem requests_reread :
    Rereads Condition.ofJson Condition.toJson ∧
    Rereads PropertyFilter.ofJson PropertyFilter.toJson ∧
    Rereads DateSpec.ofJson DateSpec.toJson ∧
    Rereads TaskQuery.ofJson TaskQuery.toJson ∧
    Rereads TagSchema.ofJson TagSchema.toJson ∧
    ∀ (j : Json) (o : QueryOptions),
      QueryOptions.ofJson j.canonical = .ok o → QueryOptions.ofJson o.toJson = .ok o :=
  ⟨Condition.rereads, PropertyFilter.rereads, DateSpec.rereads, TaskQuery.rereads,
    TagSchema.rereads, fun _ _ h =>
      QueryOptions.ofJson_toJson_of_sort h (QueryOptions.ofJson_toJson_sort h)⟩

/-- A condition in other words, and options with sort keys of every kind. -/
theorem requests_reread_spelled :
    let filter := .array [.text "due", .text " Not  NULL", .null, .text "date"]
    let j := .object [("properties", .array [filter]), ("type", .text "tag"), ("name", .text "task")]
    let c := Condition.tag "task" [⟨"due", .notNull, none, some .dateTime, none⟩]
    let data := Json.object [("a", .null), ("b", .array [])]
    let keys := .array
      [.text "a", .array [.text "a", .text "up"], .object [("field", .text "a")], data]
    let k := Json.object [("pageSize", .integer 9), ("sort", keys)]
    let o : QueryOptions :=
      ⟨[.field "a", .pair "a" "up", .record "a" none, .other data], none, some 9, none⟩
    Condition.ofJson j = .ok c ∧ Condition.ofJson c.toJson = .ok c ∧
      QueryOptions.ofJson k.canonical = .ok o ∧ QueryOptions.ofJson o.toJson = .ok o := by
  intro filter j c data keys k o
  have hc : Condition.ofJson j = .ok c := Decoded.toOption_eq_some.mp (by decide +kernel)
  have ho : QueryOptions.ofJson k.canonical = .ok o :=
    Decoded.toOption_eq_some.mp (by decide +kernel)
  obtain ⟨hcondition, -, -, -, -, hoptions⟩ := requests_reread
  exact ⟨hc, hcondition j c hc, ho, hoptions k o ho⟩

end NoteSearch
