import NoteSearch.Proofs.JsonText
import NoteSearch.Proofs.SpacedFilters
import NoteSearch.Wire.Compile

/-!
# Filters in text and in records

A filter written as text and the record of its name, operator and value compile to the same clause.
The text is cut into words and its value joined again with single spaces, so the values are those
whose compact text this leaves as it is. A null that is written in text is a value to compare with;
in a record it stands for no value.
-/

namespace NoteSearch

namespace FilterText

/-- The text of a filter: name, operator and value with spaces between them. -/
def write (name : String) (op : Operator) (value : Json) : String :=
  name ++ " " ++ op.token ++ " " ++ value.toText

theorem spaced?_write {name : String} (hname : Text.IsWord name.toList) (op : Operator)
    (value : Json) :
    spaced? (write name op value).toList =
      some ⟨name.toList, op, unwords (Text.words value.toText.toList)⟩ := by
  have hsplit : (write name op value).toList =
      name.toList ++ ' ' :: (op.token.toList ++ ' ' :: value.toText.toList) := by
    simp [write]
  have hspace : Text.isBlank ' ' = true := by decide
  have hspread : Text.Spread
      ([name.toList] ++ Text.words op.token.toList ++ Text.words value.toText.toList)
      (write name op value).toList := by
    rw [← Text.words_eq_iff, hsplit, Text.words_blank hspace, Text.words_blank hspace,
      Text.words_of_isWord hname, List.append_assoc]
  exact spaced?_eq (List.cons_ne_nil _ _) op.spells_words_token hspread fun i hpos hlt =>
    absurd hlt (Nat.not_lt.mpr hpos)

theorem valueOf_toText {value : Json} (h : value.Legible JsonText.maxDepth) :
    valueOf value.toText.toList = value.canonical := by
  rw [valueOf, String.ofList_toList]
  simp [Json.read?, Json.parse?_toText h]

theorem toText_ne_nil {value : Json} (h : value.Legible JsonText.maxDepth) :
    value.toText.toList ≠ [] := by
  intro hnil
  have hread := Json.parse?_toText h
  rw [Json.parse?, hnil] at hread
  cases hread

end FilterText

namespace PropertyFilter

theorem parse_write_of_isNullCheck {name : String} {op : Operator}
    (hname : Text.IsWord name.toList) (hnull : op.isNullCheck = true) (value : Json) :
    parse (FilterText.write name op value) = .ok (untyped name op none) := by
  simp [parse, FilterText.spaced?_write hname, FilterText.complete, hname.1, hnull]

theorem parse_write {name : String} {op : Operator} {value : Json}
    (hname : Text.IsWord name.toList) (hnull : op.isNullCheck = false)
    (hlegible : value.Legible JsonText.maxDepth)
    (hspaced : FilterText.unwords (Text.words value.toText.toList) = value.toText.toList) :
    parse (FilterText.write name op value) = .ok (untyped name op (some value.canonical)) := by
  have hvalue := FilterText.toText_ne_nil hlegible
  simp [parse, FilterText.spaced?_write hname, FilterText.complete, hname.1, hnull, hspaced,
    hvalue, FilterText.valueOf_toText hlegible]

theorem parse_write_of_unread {name : String} {op : Operator} {value : Json}
    (hname : Text.IsWord name.toList) (hnull : op.isNullCheck = false)
    (hword : Text.IsWord value.toText.toList) (hread : Json.parse? value.toText = none) :
    parse (FilterText.write name op value) = .ok (untyped name op (some (.text value.toText))) := by
  have hcut : FilterText.unwords (Text.words value.toText.toList) = value.toText.toList := by
    simp [Text.words_of_isWord hword, FilterText.unwords, Text.joinWith]
  have hvalue : FilterText.valueOf value.toText.toList = .text value.toText := by
    simp [FilterText.valueOf, Json.read?, hread]
  simp [parse, FilterText.spaced?_write hname, FilterText.complete, hname.1, hnull, hcut,
    hword.1, hvalue]

def writtenFields (name : String) (op : Operator) (value : Json) : List (String × Json) :=
  [("name", .text name), ("op", op.toJson), ("value", value)]

theorem orAbsent_asData (value : Json) :
    Json.orAbsent Json.asData value =
      .ok (if value = .null then none else some value.canonical) := by
  cases value <;> rfl

theorem ofJson_writtenFields (name : String) (op : Operator) (value : Json) :
    ofJson (.object (writtenFields name op value)) =
      .ok (untyped name op (if value = .null then none else some value.canonical)) := by
  let r : Record := .named (writtenFields name op value)
  have hname : r.field 0 "name" Json.asText = .ok (some name) := rfl
  have hop : r.field 1 "op" Operator.ofJson = .ok (some op) := by
    change (Operator.ofJson op.toJson).map some = _
    rw [Operator.ofJson_toJson]
    rfl
  have hvalue : r.optional 2 "value" Json.asData =
      .ok (if value = .null then none else some value.canonical) := by
    change ((Json.orAbsent Json.asData value).map some).map Option.join = _
    rw [orAbsent_asData]
    rfl
  have htype : r.optional 3 "type" PropertyType.ofJson = .ok none := rfl
  have htypeArgs : r.optional 4 "typeArgs" Json.asData = .ok none := rfl
  change ofRecord r = _
  simp only [ofRecord, hname, hop, hvalue, htype, htypeArgs]
  rfl

/-- Written as text and as a record, a filter is read, and it compiles to the same clause. -/
def CompilesAlike (name : String) (op : Operator) (value : Json) : Prop :=
  ∃ f g, parse (FilterText.write name op value) = .ok f ∧
    ofJson (.object (writtenFields name op value)) = .ok g ∧ f.compile = g.compile

theorem not_compilesAlike {name : String} {op : Operator} {value : Json} {f g : PropertyFilter}
    (hf : parse (FilterText.write name op value) = .ok f)
    (hg : ofJson (.object (writtenFields name op value)) = .ok g)
    (hne : f.compile ≠ g.compile) : ¬CompilesAlike name op value := by
  rintro ⟨f', g', hf', hg', h⟩
  cases hf.symm.trans hf'
  cases hg.symm.trans hg'
  exact hne h

theorem compile_untyped_null {name : String} {op : Operator} (h : op.isNullCheck = false) :
    (untyped name op (some .null)).compile =
      { (untyped name op none).compile with value := some .null } := by
  have hconvert : Coercion.convertFor op .null = .null := by
    simp [Coercion.convertFor, Coercion.toNumber?]
  simp [compile, convertedValue, untyped, h, hconvert]

/-- Text and record agree, except that a null written in text is a value of the clause and in a
record is not. -/
theorem compile_written {name : String} (hname : Text.IsWord name.toList) (op : Operator)
    (value : Json)
    (hvalue : op.isNullCheck = false → value.Legible JsonText.maxDepth ∧
      FilterText.unwords (Text.words value.toText.toList) = value.toText.toList) :
    (op.isNullCheck = true ∨ value ≠ .null → CompilesAlike name op value) ∧
      (op.isNullCheck = false → value = .null →
        ∃ f g, parse (FilterText.write name op value) = .ok f ∧
          ofJson (.object (writtenFields name op value)) = .ok g ∧ g.compile.value = none ∧
            f.compile = { g.compile with value := some .null }) := by
  cases hnull : op.isNullCheck with
  | true =>
    refine ⟨fun _ => ?_, fun h => absurd h (by decide)⟩
    refine ⟨_, _, parse_write_of_isNullCheck hname hnull value, ofJson_writtenFields name op value,
      ?_⟩
    simp [compile, convertedValue, untyped, hnull]
  | false =>
    obtain ⟨hlegible, hspaced⟩ := hvalue hnull
    have hparse := parse_write hname hnull hlegible hspaced
    have hrecord := ofJson_writtenFields name op value
    constructor
    · rintro (h | hne)
      · cases h
      · rw [if_neg hne] at hrecord
        exact ⟨_, _, hparse, hrecord, rfl⟩
    · rintro - rfl
      refine ⟨_, _, hparse, hrecord, ?_, compile_untyped_null hnull⟩
      simp [compile, convertedValue, untyped]

/-- Words of operators inside a value do not matter, and a null is told apart. -/
theorem compile_written_operator_words :
    CompilesAlike "status" .includes
        (.object [("is null", .array [.text "not includes x", .integer (-3),
          .double ⟨false, 6755399441055744, -52⟩])]) ∧
      ∃ f g, parse (FilterText.write "status" .equal .null) = .ok f ∧
        ofJson (.object (writtenFields "status" .equal .null)) = .ok g ∧ g.compile.value = none ∧
          f.compile = { g.compile with value := some .null } := by
  have hname : Text.IsWord "status".toList := by decide
  constructor
  · refine (compile_written hname .includes _ fun _ => ⟨?_, by decide +kernel⟩).1 (.inr ?_)
    · refine .object (List.forall_mem_singleton.mpr (.array ?_))
      simp only [List.forall_mem_cons]
      exact ⟨.text _ _, .integer _ (by decide) (by decide), .double _ (by decide +kernel), by simp⟩
    · exact Json.noConfusion
  · exact (compile_written hname .equal .null fun _ => ⟨.null _, by decide +kernel⟩).2 rfl rfl

def nested (depth : Nat) : Json := Nat.repeat (fun j => .array [j]) depth .null

/-- Four values of which text and record make different filters: a null, two spaces in a row, a
double whose text is read as its neighbour, and containers nested too deep to be read. -/
theorem not_compilesAlike_written :
    ¬CompilesAlike "status" .equal .null ∧ ¬CompilesAlike "status" .equal (.text "a  b") ∧
      ¬CompilesAlike "status" .equal (.double ⟨false, 4707345624410664, 50⟩) ∧
        ¬CompilesAlike "status" .equal (nested 128) := by
  refine ⟨?_, ?_, ?_, ?_⟩
  · exact not_compilesAlike (f := untyped "status" .equal (some .null))
      (g := untyped "status" .equal none) (by decide +kernel) (by decide +kernel)
      (by decide +kernel)
  · exact not_compilesAlike (f := untyped "status" .equal (some (.text "a b")))
      (g := untyped "status" .equal (some (.text "a  b"))) (by decide +kernel) (by decide +kernel)
      (by decide +kernel)
  · exact not_compilesAlike
      (f := untyped "status" .equal (some (.double ⟨false, 4707345624410663, 50⟩)))
      (g := untyped "status" .equal (some (.double ⟨false, 4707345624410664, 50⟩)))
      (by decide +kernel) (by decide +kernel) (by decide +kernel)
  · have hname : Text.IsWord "status".toList := by decide
    have hword : Text.IsWord (nested 128).toText.toList := by
      rw [Json.toText, String.toList_ofList]
      decide +kernel
    have hread : Json.parse? (nested 128).toText = none := by
      rw [Json.parse?, Json.toText, String.toList_ofList]
      decide +kernel
    exact not_compilesAlike (parse_write_of_unread hname rfl hword hread)
      (g := untyped "status" .equal (some (nested 128))) (by decide +kernel) (by decide +kernel)

end PropertyFilter
end NoteSearch
