import NoteSearch.Json.Record
import NoteSearch.Proofs.JsonData

/-!
# Records that are read again

Whatever the record was that a value was read from, what is written for the value names its fields
and repeats none. A field is read again if what stands in it is.
-/

namespace NoteSearch

/-- What was read is read again, unchanged, from what is written for it. -/
def Rereads {α : Type} (decode : Json → Decoded α) (encode : α → Json) : Prop :=
  ∀ j x, decode j = .ok x → decode (encode x) = .ok x

namespace Decoded

variable {α β : Type} {x : Decoded α} {a : α} {b : β}

@[simp] theorem ok_bind (a : α) (f : α → Decoded β) : Except.ok a >>= f = f a := rfl

@[simp] theorem map_ok (f : α → β) (a : α) : f <$> (.ok a : Decoded α) = .ok (f a) := rfl

@[simp] theorem ok_seqRight (a : α) (y : Decoded β) : (.ok a : Decoded α) *> y = y := by
  rw [seqRight_eq_bind, ok_bind]

theorem bind_eq_ok {f : α → Decoded β} : x >>= f = .ok b ↔ ∃ a, x = .ok a ∧ f a = .ok b := by
  cases x with
  | error e => exact ⟨nofun, fun ⟨a, hx, hb⟩ => nomatch hx⟩
  | ok a => exact ⟨fun h => ⟨a, rfl, h⟩, fun ⟨a', ha, h⟩ => by cases ha; exact h⟩

theorem map_eq_ok {f : α → β} : x.map f = .ok b ↔ ∃ a, x = .ok a ∧ f a = b := by
  cases x with
  | error e => exact ⟨nofun, fun ⟨a, hx, hb⟩ => nomatch hx⟩
  | ok a => exact ⟨fun h => ⟨a, rfl, Except.ok.inj h⟩, fun ⟨a', ha, h⟩ => by cases ha; cases h; rfl⟩

theorem seqRight_eq_ok {y : Decoded β} : x *> y = .ok b ↔ (∃ a, x = .ok a) ∧ y = .ok b := by
  rw [seqRight_eq_bind, bind_eq_ok]
  exact exists_and_right

theorem pure_eq_ok {a : β} : (pure a : Decoded β) = .ok b ↔ a = b :=
  Iff.of_eq (Except.ok.injEq a b)

theorem ofOption_eq_ok {o : Option β} : ofOption o = .ok b ↔ o = some b := by
  cases o with
  | none => exact ⟨nofun, nofun⟩
  | some a => exact ⟨fun h => congrArg some (Except.ok.inj h), fun h => by cases h; rfl⟩

theorem toOption_eq_some : x.toOption = some a ↔ x = .ok a := by
  cases x with
  | error e => exact ⟨nofun, nofun⟩
  | ok a' => exact ⟨fun h => congrArg Except.ok (Option.some.inj h), fun h => by cases h; rfl⟩

end Decoded

namespace Record

variable {α : Type} {decode : Json → Decoded α} {encode : α → Json} {r : Record} {name : String}
variable {fields : List (String × Json)} {index : Nat}

@[simp] theorem valuesOf_nil (name : String) : valuesOf name [] = [] := rfl

@[simp] theorem valuesOf_cons (name k : String) (v : Json) (fields : List (String × Json)) :
    valuesOf name ((k, v) :: fields) =
      if k = name then v :: valuesOf name fields else valuesOf name fields := by
  unfold valuesOf
  by_cases hk : k = name
  · rw [List.filter_cons_of_pos (by simp [hk]), if_pos hk, List.map_cons]
  · rw [List.filter_cons_of_neg (by simp [hk]), if_neg hk]

@[simp] theorem valuesOf_append (name : String) (fields gields : List (String × Json)) :
    valuesOf name (fields ++ gields) = valuesOf name fields ++ valuesOf name gields := by
  simp [valuesOf]

@[simp] theorem valuesOf_whenSome (name k : String) (v : Option Json) :
    valuesOf name (Json.whenSome k v) = if k = name then v.toList else [] := by
  cases v with
  | none => exact (ite_self []).symm
  | some v => simp [Json.whenSome]

@[simp] theorem close_named (fields : List (String × Json)) (size : Nat) :
    (named fields).close size = .ok () := rfl

theorem field_eq_some {a : α} (h : r.field index name decode = .ok (some a)) :
    ∃ j, r.value? index name = .ok (some j) ∧ decode j = .ok a := by
  unfold field at h
  split at h
  · obtain ⟨a', ha, heq⟩ := Decoded.map_eq_ok.mp h
    cases heq
    exact ⟨_, ‹_›, ha⟩
  · cases h
  · cases h

theorem field_named {j : Json} (h : valuesOf name fields = [j]) (index : Nat) :
    (named fields).field index name decode = (decode j).map some := by
  simp only [field, value?, h]

theorem field_named_of_nil (h : valuesOf name fields = []) (index : Nat) :
    (named fields).field index name decode = .ok none := by
  simp only [field, value?, h]

theorem orAbsent_of_ne_null {j : Json} (h : j ≠ .null) :
    Json.orAbsent decode j = (decode j).map some := by
  cases j with
  | null => exact absurd rfl h
  | _ => rfl

theorem optional_eq_some {a : α} (h : r.optional index name decode = .ok (some a)) :
    ∃ j ≠ Json.null, decode j = .ok a := by
  obtain ⟨o, hfield, ho⟩ := Decoded.map_eq_ok.mp h
  cases o with
  | none => cases ho
  | some o =>
    cases ho
    obtain ⟨j, -, hj⟩ := field_eq_some hfield
    have hne : j ≠ .null := by
      rintro rfl
      cases hj
    rw [orAbsent_of_ne_null hne] at hj
    obtain ⟨a', ha, heq⟩ := Decoded.map_eq_ok.mp hj
    cases heq
    exact ⟨j, hne, ha⟩

theorem optional_named_none
    (h : valuesOf name fields = [] ∨ valuesOf name fields = [.null]) (index : Nat) :
    (named fields).optional index name decode = .ok none := by
  unfold optional
  rcases h with h | h
  · rw [field_named_of_nil h]
    rfl
  · rw [field_named h]
    rfl

theorem optional_named {j : Json} (h : valuesOf name fields = [j]) (hj : j ≠ .null) (index : Nat) :
    (named fields).optional index name decode = (decode j).map some := by
  unfold optional
  rw [field_named h, orAbsent_of_ne_null hj]
  cases decode j with
  | error e => rfl
  | ok a => rfl

/-- The kind that is written in front of the other fields is told apart from them. -/
theorem splitTag_object (h : valuesOf name fields = []) (tag : Json) :
    splitTag name (.object ((name, tag) :: fields)) = .ok (tag, .named fields) := by
  have hfields : ∀ f ∈ fields, (f.1 != name) = true := by
    simpa [valuesOf] using h
  have hothers : ((name, tag) :: fields).filter (fun f => f.1 != name) = fields := by
    rw [List.filter_cons_of_neg (by simp), List.filter_eq_self.mpr hfields]
  simp [splitTag, hothers, h]

theorem mem_of_mem_valuesOf {j : Json} (h : j ∈ valuesOf name fields) : (name, j) ∈ fields := by
  obtain ⟨f, hf, rfl⟩ := List.mem_map.mp h
  obtain ⟨hmem, hname⟩ := List.mem_filter.mp hf
  rwa [← beq_iff_eq.mp hname]

/-- The values in canonical data are canonical. -/
theorem canonical_of_value? {j v : Json} (hr : ofJson j.canonical = .ok r)
    (hv : r.value? index name = .ok (some v)) : v.canonical = v := by
  cases j with
  | object fields =>
    cases hr
    have hmem : v ∈ valuesOf name (Json.canonicalFields fields) := by
      unfold value? at hv
      dsimp only at hv
      split at hv
      · cases hv
      · rename_i hvalues
        cases hv
        exact hvalues ▸ List.mem_singleton_self v
      · cases hv
    exact Json.canonical_of_mem_canonicalFields fields _ (mem_of_mem_valuesOf hmem)
  | array items =>
    cases hr
    have hmem := List.mem_of_getElem? (Except.ok.inj hv)
    rw [Json.canonicalItems_eq_map] at hmem
    obtain ⟨item, -, rfl⟩ := List.mem_map.mp hmem
    exact item.canonical_canonical
  | _ => cases hr

end Record

namespace Rereads

variable {α : Type} {decode : Json → Decoded α} {encode : α → Json} {r : Record} {name : String}
variable {index : Nat}

theorem field (h : Rereads decode encode) {a : α} (hr : r.field index name decode = .ok (some a))
    (fields : List (String × Json)) (index' : Nat)
    (hfields : Record.valuesOf name fields = [encode a]) :
    (Record.named fields).field index' name decode = .ok (some a) := by
  obtain ⟨j, -, hj⟩ := Record.field_eq_some hr
  rw [Record.field_named hfields, h j a hj]
  rfl

/-- Where there is no value, null is written or nothing. -/
theorem optional (h : Rereads decode encode) {o : Option α}
    (hr : r.optional index name decode = .ok o)
    (hnull : ∀ j a, decode j = .ok a → encode a = .null → j = .null)
    (fields : List (String × Json)) (index' : Nat)
    (hfields : Record.valuesOf name fields = (o.map encode).toList ∨
      Record.valuesOf name fields = [Json.orNull (o.map encode)]) :
    (Record.named fields).optional index' name decode = .ok o := by
  cases o with
  | none => exact Record.optional_named_none hfields index'
  | some a =>
    obtain ⟨j, hj, ha⟩ := Record.optional_eq_some hr
    have hvalues : Record.valuesOf name fields = [encode a] := hfields.elim id id
    rw [Record.optional_named hvalues (mt (hnull j a ha) hj), h j a ha]
    rfl

end Rereads

theorem Rereads.mapM {α : Type} {item : Json → Decoded α} {encode : α → Json}
    (h : Rereads item encode) {items : List Json} {as : List α} (has : items.mapM item = .ok as) :
    (as.map encode).mapM item = .ok as := by
  induction items generalizing as with
  | nil =>
    cases has
    rfl
  | cons j items ih =>
    rw [List.mapM_cons] at has
    obtain ⟨a, ha, has⟩ := Decoded.bind_eq_ok.mp has
    obtain ⟨as', has', heq⟩ := Decoded.bind_eq_ok.mp has
    cases heq
    rw [List.map_cons, List.mapM_cons, h j a ha, ih has']
    rfl

theorem Rereads.asList {α : Type} {item : Json → Decoded α} {encode : α → Json}
    (h : Rereads item encode) :
    Rereads (Json.asList item) fun as => .array (as.map encode) := by
  intro j as has
  cases j with
  | array items => exact h.mapM has
  | _ => cases has

/-- Reading items never fails if reading one never does. -/
theorem Json.asList_ok {α : Type} (f : Json → α) (items : List Json) :
    Json.asList (fun j => .ok (f j)) (.array items) = .ok (items.map f) :=
  List.mapM_pure

namespace Json

theorem rereads_asText : Rereads asText .text := by
  intro j s h
  cases j with
  | text s => cases h; rfl
  | _ => cases h

theorem rereads_asBool : Rereads asBool .bool := by
  intro j b h
  cases j with
  | bool b => cases h; rfl
  | _ => cases h

theorem rereads_asData : Rereads asData id := by
  intro j a h
  cases h
  exact congrArg Except.ok j.canonical_canonical

theorem eq_null_of_asData (j a : Json) (h : asData j = .ok a) (ha : id a = .null) : j = .null := by
  cases h
  exact eq_null_of_canonical ha

theorem asIntWithin_eq_ok {low high n : Int} {j : Json} (h : asIntWithin low high j = .ok n) :
    low ≤ n ∧ n ≤ high := by
  cases j with
  | integer m =>
    change (if low ≤ m ∧ m ≤ high then (.ok m : Decoded Int) else .error .unfit) = .ok n at h
    by_cases hm : low ≤ m ∧ m ≤ high
    · rw [if_pos hm] at h
      cases h
      exact hm
    · rw [if_neg hm] at h
      cases h
  | _ => cases h

theorem rereads_asIntWithin (low high : Int) : Rereads (asIntWithin low high) .integer := by
  intro j n h
  exact if_pos (asIntWithin_eq_ok h)

theorem rereads_asInt64 : Rereads asInt64 .integer := rereads_asIntWithin _ _

theorem rereads_asNatUpTo (high : Nat) : Rereads (asNatUpTo high) fun n => .integer n := by
  intro j n h
  obtain ⟨m, hm, rfl⟩ := Decoded.map_eq_ok.mp h
  have hnonneg := (asIntWithin_eq_ok hm).1
  change (asIntWithin 0 high (.integer m.toNat)).map Int.toNat = _
  rw [Int.toNat_of_nonneg hnonneg, rereads_asIntWithin 0 high j m hm]
  rfl

theorem rereads_asWord32 : Rereads asWord32 fun n => .integer n := rereads_asNatUpTo _

theorem rereads_asWord64 : Rereads asWord64 fun n => .integer n := rereads_asNatUpTo _

end Json
end NoteSearch
