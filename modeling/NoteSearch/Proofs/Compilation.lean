import Mathlib.Data.List.Forall2
import Mathlib.Tactic.Tauto
import NoteSearch.Proofs.WireData
import NoteSearch.Wire.Compile

/-!
# What compiling a search forgets

Compiling forgets how the names of tags are spelled, how values were written before they took the
form that their type or operator asks for, and the values of null checks. It forgets nothing else:
two searches by conditions are written alike exactly if they ask for the same.
-/

namespace NoteSearch

/-- Filters that ask for the same. What a null check is given as a value does not count. -/
structure PropertyFilter.Agrees (f g : PropertyFilter) : Prop where
  name : f.name = g.name
  type : f.type = g.type
  typeArgs : f.typeArgs.map Json.canonical = g.typeArgs.map Json.canonical
  op : f.op = g.op
  value : f.op.isNullCheck = false →
    f.convertedValue.map Json.canonical = g.convertedValue.map Json.canonical

/-- Conditions that ask for the same: tags up to the spelling of the name, others as they are. -/
inductive Condition.Agrees : Condition → Condition → Prop
  | tag {name name' : String} {filters filters' : List PropertyFilter}
      (hname : wireTagName name = wireTagName name')
      (hfilters : List.Forall₂ PropertyFilter.Agrees filters filters') :
      Agrees (.tag name filters) (.tag name' filters')
  | refl (c : Condition) : Agrees c c

namespace PropertyFilter

theorem map_code_iff (x y : Option PropertyType) :
    x.map PropertyType.code = y.map PropertyType.code ↔ x = y := by
  constructor
  · intro h
    have hread := congrArg (fun code => code.bind PropertyType.ofCode?) h
    simpa [Option.bind_map, Function.comp_def] using hread
  · intro h
    rw [h]

theorem convertedValue_of_isNullCheck {f : PropertyFilter} (h : f.op.isNullCheck = true) :
    f.convertedValue = none := by
  rw [convertedValue, if_pos h]

theorem canonical_compile_iff (f g : PropertyFilter) :
    f.compile.canonical = g.compile.canonical ↔ f.Agrees g := by
  simp only [PropertyClause.canonical, compile, PropertyClause.mk.injEq, map_code_iff]
  constructor
  · rintro ⟨hname, htype, htypeArgs, hcode, hvalue⟩
    exact ⟨hname, htype, htypeArgs, Operator.code_injective _ _ hcode, fun _ => hvalue⟩
  · intro h
    refine ⟨h.name, h.type, h.typeArgs, congrArg Operator.code h.op, ?_⟩
    cases hnull : f.op.isNullCheck with
    | false => exact h.value hnull
    | true =>
      rw [convertedValue_of_isNullCheck hnull, convertedValue_of_isNullCheck (h.op ▸ hnull)]

end PropertyFilter

theorem map_eq_map_iff_forall₂ {α β : Type} (f : α → β) (as bs : List α) :
    as.map f = bs.map f ↔ List.Forall₂ (fun a b => f a = f b) as bs := by
  rw [← List.forall₂_eq_eq_eq, List.forall₂_map_left_iff, List.forall₂_map_right_iff]

namespace Condition

theorem canonical_compile_tag_iff (name name' : String) (filters filters' : List PropertyFilter) :
    (tag name filters).compile.canonical = (tag name' filters').compile.canonical ↔
      wireTagName name = wireTagName name' ∧
        List.Forall₂ PropertyFilter.Agrees filters filters' := by
  simp only [compile, WireItem.canonical, TagItem.canonical, WireItem.tag.injEq, TagItem.mk.injEq,
    List.map_map, map_eq_map_iff_forall₂, Function.comp_apply,
    PropertyFilter.canonical_compile_iff]

theorem agrees_of_canonical_compile {c d : Condition}
    (h : c.compile.canonical = d.compile.canonical) : c.Agrees d := by
  cases c with
  | tag name filters =>
    cases d with
    | tag name' filters' =>
      obtain ⟨hname, hfilters⟩ := (canonical_compile_tag_iff name name' filters filters').mp h
      exact .tag hname hfilters
    | _ => cases h
  | text content raw =>
    cases d with
    | text content' raw' =>
      cases h
      exact .refl _
    | _ => cases h
  | task completed =>
    cases d with
    | task completed' =>
      cases h
      exact .refl _
    | _ => cases h
  | journal range =>
    cases d with
    | journal range' =>
      obtain ⟨hstart, hfinish⟩ := WireItem.journal.inj h
      cases range
      cases range'
      obtain rfl := WireDate.ofDateSpec_injective _ _ hstart
      obtain rfl := WireDate.ofDateSpec_injective _ _ hfinish
      exact .refl _
    | _ => cases h
  | reference id =>
    cases d with
    | reference id' =>
      cases h
      exact .refl _
    | _ => cases h
  | structural topology =>
    cases d with
    | structural topology' =>
      cases h
      exact .refl _
    | _ => cases h
  | blockMatch id =>
    cases d with
    | blockMatch id' =>
      cases h
      exact .refl _
    | _ => cases h

theorem canonical_compile_iff (c d : Condition) :
    c.compile.canonical = d.compile.canonical ↔ c.Agrees d := by
  constructor
  · exact agrees_of_canonical_compile
  · intro h
    cases h with
    | tag hname hfilters =>
      exact (canonical_compile_tag_iff _ _ _ _).mpr ⟨hname, hfilters⟩
    | refl => rfl

end Condition

namespace QueryDescription

variable (cs ds : List Condition) (m n : CombineMode) (o p : QueryOptions)

theorem canonical_group_iff :
    (WireItem.group (.ofMode m) (cs.map Condition.compile)).canonical =
        (WireItem.group (.ofMode n) (ds.map Condition.compile)).canonical ↔
      m = n ∧ List.Forall₂ Condition.Agrees cs ds := by
  have hmode : GroupKind.ofMode m = GroupKind.ofMode n ↔ m = n :=
    ⟨GroupKind.ofMode_injective m n, congrArg GroupKind.ofMode⟩
  simp only [WireItem.canonical, WireItem.canonicalList_eq_map, WireItem.group.injEq, hmode,
    List.map_map, map_eq_map_iff_forall₂, Function.comp_apply, Condition.canonical_compile_iff]

/-- Two searches by conditions are compiled, and what is written for them is the same data exactly if
they join conditions that ask for the same, one by one, in the same mode, and have the same sort
keys, pages and exclusion. -/
theorem same_ofConditions_iff (hcs : cs ≠ []) (hds : ds ≠ []) :
    ∃ q r, ofConditions cs m o = .ok q ∧ ofConditions ds n p = .ok r ∧
      (q.toJson.Same r.toJson ↔
        m = n ∧ SortSpec.normalizeAll o.sort = SortSpec.normalizeAll p.sort ∧ o.page = p.page ∧
          o.pageSize = p.pageSize ∧ o.excludeId = p.excludeId ∧
            List.Forall₂ Condition.Agrees cs ds) := by
  obtain ⟨c, cs, rfl⟩ := List.exists_cons_of_ne_nil hcs
  obtain ⟨d, ds, rfl⟩ := List.exists_cons_of_ne_nil hds
  refine ⟨_, _, rfl, rfl, ?_⟩
  rw [same_toJson_iff]
  simp only [canonical, describe, QueryDescription.mk.injEq, canonical_group_iff]
  tauto

/-- A tag with a hash sign, and a number that is given as a text, ask for what the bare tag and the
number itself ask for. -/
theorem same_ofConditions_spelled :
    let spelled : List Condition :=
      [.tag " #task" [⟨"points", .atLeast, some (.text " 8 "), none, none⟩], .task (some false)]
    let plain : List Condition :=
      [.tag "task" [⟨"points", .atLeast, some (.integer 8), none, none⟩], .task (some false)]
    spelled ≠ [] ∧ plain ≠ [] ∧ ∃ q r,
      ofConditions spelled .chainAnd .standard = .ok q ∧
      ofConditions plain .chainAnd .standard = .ok r ∧ q.toJson.Same r.toJson := by
  intro spelled plain
  obtain ⟨q, r, hq, hr, hsame⟩ := same_ofConditions_iff spelled plain .chainAnd .chainAnd
    .standard .standard (by decide) (by decide)
  refine ⟨by decide, by decide, q, r, hq, hr, hsame.mpr ⟨rfl, rfl, rfl, rfl, rfl, ?_⟩⟩
  refine .cons (.tag (by decide) (.cons ⟨rfl, rfl, rfl, rfl, fun _ => by decide⟩ .nil)) ?_
  exact .cons (.refl _) .nil

end QueryDescription
end NoteSearch
