import NoteSearch.Proofs.Records
import NoteSearch.Proofs.Times

/-!
# Blocks that are read again

What is written for a block is read as the same block, with the properties of the block and of its
links, and with lists that are empty where they were null or missing. The times come back as well if
four digits hold their years in UTC; a time of another year comes back as none.
-/

namespace NoteSearch

namespace Rereads

variable {α : Type} {item : Json → Decoded α} {encode : α → Json}

theorem asListOrNull (h : Rereads item encode) :
    Rereads (Json.asListOrNull item) fun as => .array (as.map encode) := by
  intro j as has
  cases j with
  | null =>
    cases has
    rfl
  | array items => exact h.mapM has
  | _ => cases has

/-- A list that is missing is written as an empty one. -/
theorem fieldOrEmpty (h : Rereads item encode) {r : Record} {name : String} {index : Nat}
    {o : Option (List α)} (hr : r.field index name (Json.asListOrNull item) = .ok o)
    (fields : List (String × Json)) (index' : Nat)
    (hfields : Record.valuesOf name fields = [.array ((o.getD []).map encode)]) :
    (Record.named fields).field index' name (Json.asListOrNull item) = .ok (some (o.getD [])) := by
  cases o with
  | none =>
    rw [Record.field_named hfields]
    rfl
  | some as => exact h.asListOrNull.field hr fields index' hfields

end Rereads

theorem Json.rereads_asWord8 : Rereads Json.asWord8 fun n => .integer n := rereads_asNatUpTo _

namespace BlockProperty

theorem toJson_eq (p : BlockProperty) :
    p.toJson = .object
      [ ("name", .text p.name)
      , ("type", Json.orNull (p.typeCode.map fun n : Nat => .integer n))
      , ("value", Json.orNull p.value)
      , ("typeArgs", Json.orNull p.typeArgs) ] := by
  rcases p with ⟨name, _ | typeCode, value, typeArgs⟩ <;> rfl

theorem rereads : Rereads ofJson toJson := by
  intro j p h
  obtain ⟨r, -, h⟩ := Decoded.bind_eq_ok.mp h
  simp only [ofRecord, Decoded.bind_eq_ok, Decoded.ofOption_eq_ok, Decoded.pure_eq_ok] at h
  obtain ⟨_, hname, typeCode, htypeCode, value, hvalue, typeArgs, htypeArgs, name, rfl, -, -,
    rfl⟩ := h
  have hname := Json.rereads_asText.field hname
  have htypeCode := Json.rereads_asWord8.optional htypeCode nofun
  have hvalue := Json.rereads_asData.optional hvalue Json.eq_null_of_asData
  have htypeArgs := Json.rereads_asData.optional htypeArgs Json.eq_null_of_asData
  rw [toJson_eq]
  simp [ofJson, Record.ofJson, ofRecord, hname, htypeCode, hvalue, htypeArgs]

end BlockProperty

/-- The kind of a link is written also where it was missing. -/
theorem BlockRef.rereads : Rereads ofJson toJson := by
  intro j x h
  obtain ⟨r, -, h⟩ := Decoded.bind_eq_ok.mp h
  simp only [ofRecord, Decoded.bind_eq_ok, Decoded.pure_eq_ok] at h
  obtain ⟨id, hid, source, hsource, target, htarget, kind, hkind, name, hname, data, hdata, -, -,
    rfl⟩ := h
  have hid := Json.rereads_asInt64.optional hid nofun
  have hsource := Json.rereads_asInt64.optional hsource nofun
  have htarget := Json.rereads_asInt64.optional htarget nofun
  have hname := Json.rereads_asText.optional hname nofun
  have hdata := BlockProperty.rereads.fieldOrEmpty hdata
  have hkind : Json.asWord8 (.integer (kind.getD 0)) = .ok (kind.getD 0) := by
    cases kind with
    | none => rfl
    | some n =>
      obtain ⟨j, -, hj⟩ := Record.field_eq_some hkind
      exact Json.rereads_asWord8 j n hj
  simp [ofJson, toJson, Record.ofJson, ofRecord, Record.field_named, hid, hsource, htarget, hname,
    hdata, hkind, Except.map]

namespace Block

theorem regular_of_field {r : Record} {index : Nat} {name : String} {o : Option (Option Instant)}
    (h : r.field index name asTime = .ok o) : ∀ i ∈ o.join, i.Regular := by
  intro i hi
  obtain rfl : o = some (some i) := Option.join_eq_some_iff.mp hi
  obtain ⟨j, -, hj⟩ := Record.field_eq_some h
  exact regular_of_time? (Except.ok.inj hj)

/-- Reading what is written for a block gives the block, but for the times whose years in UTC four
digits do not hold: these are read as none. -/
theorem ofJson_toJson_of_ofJson {j : Json} {b : Block} (h : ofJson j = .ok b) :
    ofJson b.toJson = .ok
      { b with
        created := b.created.filter Instant.hasFourDigitYear
        modified := b.modified.filter Instant.hasFourDigitYear } := by
  obtain ⟨r, -, h⟩ := Decoded.bind_eq_ok.mp h
  simp only [ofRecord, Decoded.bind_eq_ok, Decoded.ofOption_eq_ok, Decoded.pure_eq_ok] at h
  obtain ⟨_, hid, text, htext, aliases, haliases, properties, hproperties, refs, hrefs, backRefs,
    hbackRefs, children, hchildren, parent, hparent, created, hcreated, modified, hmodified, id, rfl,
    -, -, rfl⟩ := h
  have hid := Json.rereads_asInt64.field hid
  have htext := Json.rereads_asText.optional htext nofun
  have haliases := Json.rereads_asText.fieldOrEmpty haliases
  have hproperties := BlockProperty.rereads.fieldOrEmpty hproperties
  have hrefs := BlockRef.rereads.fieldOrEmpty hrefs
  have hbackRefs := BlockRef.rereads.fieldOrEmpty hbackRefs
  have hchildren := Json.rereads_asInt64.fieldOrEmpty hchildren
  have hparent := Json.rereads_asInt64.optional hparent nofun
  have hcreated := time?_timeToJson (regular_of_field hcreated)
  have hmodified := time?_timeToJson (regular_of_field hmodified)
  simp [ofJson, toJson, Record.ofJson, ofRecord, Record.field_named, asTime, hid, htext, haliases,
    hproperties, hrefs, hbackRefs, hchildren, hparent, hcreated, hmodified, Except.map]

/-- A leap second that an offset puts into the next year, and a time before the year 0 in UTC. -/
theorem ofJson_toJson_of_ofJson_leapSecond :
    let link := .object [("alias", .text "task"), ("data", .array [.array [.text "due"]])]
    let j := .object
      [ ("created", .text "2017-01-01t00:59:60.000000001+01:00")
      , ("modified", .text "0000-01-01T00:30:00+01:00")
      , ("refs", .array [link]), ("aliases", .null), ("id", .integer 7) ]
    let b := { bare 7 with
      refs := [⟨none, none, none, 0, some "task", [⟨"due", none, none, none⟩]⟩]
      created := some ⟨1483228799, 1000000001⟩
      modified := some ⟨-62167221000, 0⟩ }
    ofJson j = .ok b ∧ ofJson b.toJson = .ok { b with modified := none } := by
  intro link j b
  have hb : ofJson j = .ok b := Decoded.toOption_eq_some.mp (by decide +kernel)
  have hcreated : b.created.filter Instant.hasFourDigitYear = b.created := by decide +kernel
  have hmodified : b.modified.filter Instant.hasFourDigitYear = none := by decide +kernel
  have hread := ofJson_toJson_of_ofJson hb
  rw [hcreated, hmodified] at hread
  exact ⟨hb, hread⟩

end Block
end NoteSearch
