import Mathlib.Algebra.Order.Field.Power
import Mathlib.Data.List.Forall2
import Mathlib.Data.Rat.Cast.Order
import Mathlib.Tactic.Positivity
import NoteSearch.Proofs.Lockstep
import NoteSearch.Proofs.Numerals

/-!
# What choices stand for

The choices of a property are authored as a list, and an option is its position in that list. Not
all of the list can be read, and what cannot is passed over; a position still names the choice that
was authored there. So a value that is compared with choices becomes the label at the position that
it names, or the label that it equals, and stays as it is where it does neither.
-/

namespace NoteSearch

namespace Binary64

def value (x : Binary64) : ℚ := (if x.negative then -1 else 1) * (x.significand * 2 ^ x.exponent)

theorem ratio_snd_pos (x : Binary64) : 0 < x.ratio.2 := Nat.pow_pos (by decide)

theorem ratio_fst_eq (x : Binary64) :
    (x.ratio.1 : ℚ) = x.significand * 2 ^ x.exponent * x.ratio.2 := by
  obtain ⟨negative, significand, exponent⟩ := x
  cases exponent with
  | ofNat e => simp [ratio]
  | negSucc e =>
    have hpow : (2 : ℚ) ^ (e + 1) ≠ 0 := pow_ne_zero _ two_ne_zero
    simp [ratio, zpow_negSucc]

theorem abs_eq_iff (x : Binary64) (n : Nat) :
    (x.significand * 2 ^ x.exponent : ℚ) = n ↔ x.ratio.1 = n * x.ratio.2 := by
  have hpos : (x.ratio.2 : ℚ) ≠ 0 := Nat.cast_ne_zero.mpr x.ratio_snd_pos.ne'
  rw [← Nat.cast_inj (R := ℚ), Nat.cast_mul, ratio_fst_eq, mul_left_inj' hpos]

/-- A double is read as a natural number exactly if it stands for that number. -/
theorem toNat?_eq_some_iff (x : Binary64) (n : Nat) : x.toNat? = some n ↔ x.value = n := by
  have hdiv : (if x.ratio.1 % x.ratio.2 = 0 then some (x.ratio.1 / x.ratio.2) else none) = some n ↔
      x.ratio.1 = n * x.ratio.2 := by
    have hpos := x.ratio_snd_pos
    split_ifs with hmod
    · rw [Option.some.injEq, Nat.div_eq_iff_eq_mul_left hpos (Nat.dvd_of_mod_eq_zero hmod)]
    · refine iff_of_false nofun fun heq => hmod ?_
      rw [heq, Nat.mul_mod_left]
  unfold toNat?
  by_cases hsign : (x.negative && !x.isZero) = true
  · have hnegative : x.negative = true := (Bool.and_eq_true_iff.mp hsign).1
    have hzero : x.significand ≠ 0 := by simpa [hnegative, isZero] using hsign
    have habs : (0 : ℚ) < x.significand * 2 ^ x.exponent := by positivity
    have hvalue : x.value < 0 := by simpa [value, hnegative] using habs
    rw [if_pos hsign]
    exact iff_of_false nofun fun heq => absurd (heq ▸ hvalue) (not_lt.mpr n.cast_nonneg)
  · have hvalue : x.value = x.significand * 2 ^ x.exponent := by
      cases hnegative : x.negative with
      | false => simp [value, hnegative]
      | true =>
        have hzero : x.significand = 0 := by simpa [hnegative, isZero] using hsign
        simp [value, hzero]
    rw [if_neg hsign, hdiv, hvalue, abs_eq_iff]

end Binary64

/-- A whole number, or a text that spells one, names a position. -/
def Json.Names : Json → Nat → Prop
  | .integer n, i => n = i
  | .double x, i => x.value = i
  | .text s, i => Numeral.Spells (Text.trim s.toList) i
  | _, _ => False

theorem Json.Names.unique {j : Json} {i i' : Nat} (h : j.Names i) (h' : j.Names i') : i = i' := by
  cases j with
  | integer n => exact Int.ofNat_inj.mp (Eq.trans (Eq.symm h) h')
  | double x => exact Nat.cast_injective (R := ℚ) (Eq.trans (Eq.symm h) h')
  | text s =>
    have hread := Numeral.readNat?_eq_some_iff.mpr h
    rw [Numeral.readNat?_eq_some_iff.mpr h'] at hread
    exact (Option.some.inj hread).symm
  | _ => exact h.elim

namespace ChoiceOption

/-- The choices that the arguments of a type list. -/
def authored (typeArgs : Option Json) : List Json :=
  match typeArgs.bind (Json.get? "choices") with
  | some (.array choices) => choices
  | _ => []

def labelOf? : Json → Option String
  | .text label => some label
  | .object fields => (Json.lookup? "label" fields).bind Json.text?
  | _ => none

def labelAt? (choices : List Json) (i : Nat) : Option String := choices[i]?.bind labelOf?

/-- The first label that is a text up to ASCII case. -/
def labelLike? (choices : List Json) (text : String) : Option String :=
  (choices.filterMap labelOf?).find? fun label => sameIgnoringCase label text

/-- What a value becomes that is compared with choices. -/
inductive Resolves (choices : List Json) : Json → Json → Prop
  /-- A position becomes the label there. -/
  | position {j : Json} {i : Nat} {label : String} (hj : j.Names i)
      (h : labelAt? choices i = some label) : Resolves choices j (.text label)
  /-- A number that is no such position stays. -/
  | number {j : Json} (hj : j.isNumber = true) (h : ∀ i, j.Names i → labelAt? choices i = none) :
      Resolves choices j j
  /-- Any other text becomes the label that it equals up to case and the blanks around it. -/
  | label {s label : String} (hs : ∀ i, (Json.text s).Names i → labelAt? choices i = none)
      (h : labelLike? choices (trimmed s) = some label) : Resolves choices (.text s) (.text label)
  | text {s : String} (hs : ∀ i, (Json.text s).Names i → labelAt? choices i = none)
      (h : labelLike? choices (trimmed s) = none) : Resolves choices (.text s) (.text s)
  | null : Resolves choices .null .null
  | bool (b : Bool) : Resolves choices (.bool b) (.bool b)
  | object (fields : List (String × Json)) : Resolves choices (.object fields) (.object fields)
  | array {items items' : List Json} (h : List.Forall₂ (Resolves choices) items items') :
      Resolves choices (.array items) (.array items')

variable {choices : List Json} {i : Nat} {j : Json} {o : ChoiceOption}

namespace Resolves

variable {k : Json} {s label : String}

theorem eq_of_position (h : Resolves choices j k) (hj : j.Names i)
    (hlabel : labelAt? choices i = some label) : k = .text label := by
  have hnamed (hnone : ∀ i, j.Names i → labelAt? choices i = none) : False := by
    rw [hnone i hj] at hlabel
    cases hlabel
  cases h with
  | position hj' hlabel' =>
    rw [hj.unique hj', hlabel'] at hlabel
    cases hlabel
    rfl
  | number _ hnone => exact (hnamed hnone).elim
  | label hnone _ => exact (hnamed hnone).elim
  | text hnone _ => exact (hnamed hnone).elim
  | _ => exact hj.elim

theorem eq_of_number (h : Resolves choices j k) (hj : j.isNumber = true)
    (hnone : ∀ i, j.Names i → labelAt? choices i = none) : k = j := by
  cases h with
  | position hi hlabel =>
    rw [hnone _ hi] at hlabel
    cases hlabel
  | label => cases hj
  | array => cases hj
  | _ => rfl

theorem eq_of_text (h : Resolves choices (.text s) k)
    (hnone : ∀ i, (Json.text s).Names i → labelAt? choices i = none) :
    k = .text ((labelLike? choices (trimmed s)).getD s) := by
  cases h with
  | position hi hlabel =>
    rw [hnone _ hi] at hlabel
    cases hlabel
  | number hj => cases hj
  | label _ hlike => rw [hlike, Option.getD_some]
  | text _ hlike => rw [hlike, Option.getD_none]

mutual

theorem unique {j k k' : Json} (h : Resolves choices j k) (h' : Resolves choices j k') :
    k = k' := by
  cases h with
  | position hi hlabel => exact (h'.eq_of_position hi hlabel).symm
  | number hj hnone => exact (h'.eq_of_number hj hnone).symm
  | label hnone hlike => rw [h'.eq_of_text hnone, hlike, Option.getD_some]
  | text hnone hlike => rw [h'.eq_of_text hnone, hlike, Option.getD_none]
  | array hitems =>
    cases h' with
    | position hi => exact hi.elim
    | number hj => cases hj
    | array hitems' => exact congrArg Json.array (unique_items hitems hitems')
  | _ =>
    cases h' with
    | position hi => exact hi.elim
    | number hj => cases hj
    | _ => rfl

theorem unique_items {js ks ks' : List Json} (h : List.Forall₂ (Resolves choices) js ks)
    (h' : List.Forall₂ (Resolves choices) js ks') : ks = ks' := by
  cases h with
  | nil =>
    cases h'
    rfl
  | cons hj hjs =>
    obtain _ | ⟨hj', hjs'⟩ := h'
    rw [unique hj hj', unique_items hjs hjs']

end
end Resolves

theorem ofTypeArgs_eq (typeArgs : Option Json) :
    ofTypeArgs typeArgs = ofChoices 0 (authored typeArgs) := by
  unfold ofTypeArgs authored
  rcases typeArgs.bind (Json.get? "choices") with _ | j
  · rfl
  · cases j <;> rfl

theorem map_label_ofChoice? (i : Nat) (j : Json) : (ofChoice? i j).map label = labelOf? j := by
  cases j with
  | object fields =>
    simp only [ofChoice?, labelOf?, Option.map_map]
    exact Option.map_id'
  | _ => rfl

theorem value_of_ofChoice? (h : ofChoice? i j = some o) : o.value = i := by
  cases j with
  | text label =>
    cases h
    rfl
  | object fields =>
    obtain ⟨label, -, rfl⟩ := Option.map_eq_some_iff.mp h
    rfl
  | _ => cases h

theorem map_label_ofChoices (choices : List Json) :
    ∀ k, (ofChoices k choices).map label = choices.filterMap labelOf? := by
  induction choices with
  | nil => exact fun k => rfl
  | cons c cs ih =>
    intro k
    rw [ofChoices, List.map_append, ih, List.filterMap_cons, ← map_label_ofChoice? k c]
    cases ofChoice? k c <;> rfl

theorem ofChoices_eq_filterMap (choices : List Json) :
    ∀ k, ofChoices k choices = (choices.zipIdx k).filterMap fun c => ofChoice? c.2 c.1 := by
  induction choices with
  | nil => exact fun k => rfl
  | cons c cs ih =>
    intro k
    rw [ofChoices, ih, List.zipIdx_cons, List.filterMap_cons]
    cases ofChoice? k c <;> rfl

/-- An option stands at the position that it has as its value. -/
theorem mem_ofChoices_iff :
    o ∈ ofChoices 0 choices ↔ choices[o.value]?.bind (ofChoice? o.value) = some o := by
  rw [ofChoices_eq_filterMap, List.mem_filterMap]
  constructor
  · rintro ⟨⟨c, i⟩, hc, ho⟩
    rw [value_of_ofChoice? ho, List.mk_mem_zipIdx_iff_getElem?.mp hc]
    exact ho
  · intro h
    obtain ⟨c, hc, ho⟩ := Option.bind_eq_some_iff.mp h
    exact ⟨(c, o.value), List.mk_mem_zipIdx_iff_getElem?.mpr hc, ho⟩

/-- Choices that cannot be read leave the positions of the others as they are. -/
theorem find?_ofChoices (choices : List Json) (i : Nat) :
    (ofChoices 0 choices).find? (fun o => o.value == i) = choices[i]?.bind (ofChoice? i) := by
  cases h : (ofChoices 0 choices).find? (fun o => o.value == i) with
  | some o =>
    have hvalue : o.value = i := by simpa using List.find?_some h
    have hmem := mem_ofChoices_iff.mp (List.mem_of_find?_eq_some h)
    rw [hvalue] at hmem
    exact hmem.symm
  | none =>
    cases hi : choices[i]?.bind (ofChoice? i) with
    | none => rfl
    | some o =>
      obtain ⟨c, -, ho⟩ := Option.bind_eq_some_iff.mp hi
      have hvalue := value_of_ofChoice? ho
      have hmem : o ∈ ofChoices 0 choices := mem_ofChoices_iff.mpr (hvalue ▸ hi)
      exact absurd (beq_iff_eq.mpr hvalue) (List.find?_eq_none.mp h o hmem)

end ChoiceOption

namespace PropertySchema

open ChoiceOption

variable {p : PropertySchema} {choices : List Json}

theorem map_label_bind_optionAt? (hp : p.options = some (ofChoices 0 choices)) (i? : Option Nat) :
    (i?.bind p.optionAt?).map label = i?.bind (labelAt? choices) := by
  cases i? with
  | none => rfl
  | some i =>
    rw [Option.bind_some, Option.bind_some, optionAt?, hp, Option.getD_some, find?_ofChoices,
      labelAt?, Option.map_bind]
    exact congrArg (Option.bind choices[i]?) (funext fun c => map_label_ofChoice? i c)

theorem map_label_optionLabelled? (hp : p.options = some (ofChoices 0 choices)) (text : String) :
    (p.optionLabelled? text).map label = labelLike? choices text := by
  rw [optionLabelled?, hp, Option.getD_some, labelLike?, ← map_label_ofChoices choices 0,
    List.find?_map]
  rfl

theorem lt_length_of_labelAt? {i : Nat} {label : String} (h : labelAt? choices i = some label) :
    i < choices.length := by
  obtain ⟨c, hc, -⟩ := Option.bind_eq_some_iff.mp h
  exact (List.getElem?_eq_some_iff.mp hc).1

theorem resolveChoice_of_isArray {j : Json} (hj : j.isArray = false) :
    p.resolveChoice j = (((p.optionFor? j).map label).map Json.text).getD j := by
  cases j with
  | array items => cases hj
  | _ =>
    unfold resolveChoice
    rcases p.optionFor? _ with _ | o <;> rfl

/-- For a text a position comes before a label. -/
theorem optionFor?_text (s : String) :
    p.optionFor? (.text s) = ((Numeral.readWord64? (Text.trim s.toList)).bind p.optionAt?).or
      (p.optionLabelled? (trimmed s)) := by
  rw [optionFor?, optionNamed?, Option.orElse_eq_orElse, Option.orElse_eq_or]
  rfl

section Positions

variable (hlength : choices.length ≤ Numeral.maxWord64)
include hlength

/-- Positions are words. A larger double names the last word, where there is no choice. -/
theorem label_indexOf?_iff {j : Json} {label : String} :
    (indexOf? j).bind (labelAt? choices) = some label ↔
      j.isNumber = true ∧ ∃ i, j.Names i ∧ labelAt? choices i = some label := by
  cases j with
  | integer n =>
    have hindex : indexOf? (.integer n) = if 0 ≤ n then some n.toNat else none := rfl
    rw [hindex]
    split_ifs with hn
    · constructor
      · exact fun h => ⟨rfl, n.toNat, (Int.toNat_of_nonneg hn).symm, h⟩
      · rintro ⟨-, i, hi, h⟩
        cases hi
        exact h
    · refine iff_of_false nofun ?_
      rintro ⟨-, i, hi, -⟩
      cases hi
      exact hn (Int.natCast_nonneg i)
  | double x =>
    constructor
    · intro h
      obtain ⟨m, hm, hlabel⟩ := Option.bind_eq_some_iff.mp h
      obtain ⟨i, hi, rfl⟩ := Option.map_eq_some_iff.mp hm
      have hlt := lt_length_of_labelAt? hlabel
      have hmin : min Numeral.maxWord64 i = i := by omega
      rw [hmin] at hlabel
      exact ⟨rfl, i, (x.toNat?_eq_some_iff i).mp (Option.filter_eq_some_iff.mp hi).1, hlabel⟩
    · rintro ⟨-, i, hi, hlabel⟩
      have hlt := lt_length_of_labelAt? hlabel
      have hword : i ≤ Numeral.maxWord64 + 1 := by omega
      have hmin : min Numeral.maxWord64 i = i := by omega
      have hread : x.toNat? = some i := (x.toNat?_eq_some_iff i).mpr hi
      rw [indexOf?, hread, Option.filter_some_pos (by simpa using hword), Option.map_some, hmin]
      exact hlabel
  | _ => exact iff_of_false nofun fun h => nomatch h.1

theorem label_readWord64?_iff {s label : String} :
    (Numeral.readWord64? (Text.trim s.toList)).bind (labelAt? choices) = some label ↔
      ∃ i, (Json.text s).Names i ∧ labelAt? choices i = some label := by
  rw [Option.bind_eq_some_iff]
  refine exists_congr fun i => and_congr_left fun hlabel => ?_
  have hlt := lt_length_of_labelAt? hlabel
  rw [Numeral.readWord64?_eq_some_iff]
  exact and_iff_left (by omega)

variable (hp : p.options = some (ofChoices 0 choices))
include hp

theorem resolves_number {j : Json} (hj : j.isNumber = true) :
    Resolves choices j (p.resolveChoice j) := by
  have hfor : (p.optionFor? j).map label = (indexOf? j).bind (labelAt? choices) := by
    rw [← map_label_bind_optionAt? hp]
    cases j with
    | text s => cases hj
    | _ => rfl
  have harray : j.isArray = false := by
    cases j with
    | array items => cases hj
    | _ => rfl
  rw [resolveChoice_of_isArray harray, hfor]
  cases hlabel : (indexOf? j).bind (labelAt? choices) with
  | some label =>
    obtain ⟨-, i, hi, hat⟩ := (label_indexOf?_iff hlength).mp hlabel
    exact .position hi hat
  | none =>
    refine .number hj fun i hi => Option.eq_none_iff_forall_ne_some.mpr fun label hat => ?_
    rw [(label_indexOf?_iff hlength).mpr ⟨hj, i, hi, hat⟩] at hlabel
    cases hlabel

theorem resolves_text (s : String) : Resolves choices (.text s) (p.resolveChoice (.text s)) := by
  have hfor : (p.optionFor? (.text s)).map label =
      ((Numeral.readWord64? (Text.trim s.toList)).bind (labelAt? choices)).or
        (labelLike? choices (trimmed s)) := by
    rw [optionFor?_text, Option.map_or, map_label_bind_optionAt? hp, map_label_optionLabelled? hp]
  rw [resolveChoice_of_isArray rfl, hfor]
  cases hlabel : (Numeral.readWord64? (Text.trim s.toList)).bind (labelAt? choices) with
  | some label =>
    obtain ⟨i, hi, hat⟩ := (label_readWord64?_iff hlength).mp hlabel
    exact .position hi hat
  | none =>
    have hs : ∀ i, (Json.text s).Names i → labelAt? choices i = none := by
      intro i hi
      refine Option.eq_none_iff_forall_ne_some.mpr fun label hat => ?_
      rw [(label_readWord64?_iff hlength).mpr ⟨i, hi, hat⟩] at hlabel
      cases hlabel
    cases hlike : labelLike? choices (trimmed s) with
    | some label => exact .label hs hlike
    | none => exact .text hs hlike

end Positions

mutual

/-- Among the choices that were authored, every value becomes what it names. -/
theorem resolves_resolveChoice (hlength : choices.length ≤ Numeral.maxWord64)
    (hp : p.options = some (ofChoices 0 choices)) (j : Json) :
    Resolves choices j (p.resolveChoice j) := by
  match j with
  | .null => exact .null
  | .bool b => exact .bool b
  | .integer n => exact resolves_number hlength hp rfl
  | .double x => exact resolves_number hlength hp rfl
  | .text s => exact resolves_text hlength hp s
  | .object fields => exact .object fields
  | .array items =>
    rw [resolveChoice]
    exact .array (resolves_resolveChoices hlength hp items)

theorem resolves_resolveChoices (hlength : choices.length ≤ Numeral.maxWord64)
    (hp : p.options = some (ofChoices 0 choices)) (items : List Json) :
    List.Forall₂ (Resolves choices) items (p.resolveChoices items) := by
  match items with
  | [] => exact .nil
  | j :: js =>
    rw [resolveChoices]
    exact .cons (resolves_resolveChoice hlength hp j) (resolves_resolveChoices hlength hp js)

end

theorem ofDefinition?_of_type? {d : BlockProperty} {type : PropertyType}
    (h : d.type? = some type) :
    ofDefinition? d = some ⟨d.name, type, type.name,
      if type = .textChoices then some (ofChoices 0 (authored d.typeArgs)) else none⟩ := by
  rw [ofDefinition?, h, Option.map_some, ofTypeArgs_eq]

end PropertySchema

/-- The first property of known type that has a name, up to ASCII case and the blanks around it. -/
def Block.definition? (b : Block) (name : String) : Option BlockProperty :=
  b.properties.find? fun d => d.type?.isSome && sameIgnoringCase d.name (trimmed name)

namespace TagSchema

theorem property?_ofBlock (tag : String) (b : Block) (name : String) :
    (ofBlock tag b).property? name =
      (b.definition? name).bind PropertySchema.ofDefinition? := by
  have hname (d : BlockProperty) : ((PropertySchema.ofDefinition? d).any fun p =>
      sameIgnoringCase p.name (trimmed name)) =
        (d.type?.isSome && sameIgnoringCase d.name (trimmed name)) := by
    unfold PropertySchema.ofDefinition?
    cases d.type? <;> rfl
  simp only [property?, ofBlock, List.find?_filterMap, hname, Block.definition?]

variable {ω : Type} {source : SchemaSource ω} {tag : String} {w : ω}

/-- A schema is found exactly if the source has a block for the tag. -/
theorem fetch_eq_ok_iff {schema : TagSchema} :
    (fetch source tag w).1 = .ok schema ↔ ∃ id b,
      (source.tagId (schemaTagName tag) w).1 = .ok (some id) ∧
        (source.block id (source.tagId (schemaTagName tag) w).2).1 = .ok (some b) ∧
          ofBlock (schemaTagName tag) b = schema := by
  unfold fetch
  rw [bind_apply]
  rcases (source.tagId (schemaTagName tag) w).1 with e | _ | id
  · exact iff_of_false nofun fun ⟨_, _, h, _⟩ => nomatch h
  · exact iff_of_false nofun fun ⟨_, _, h, _⟩ => nomatch h
  · dsimp only
    rw [bind_apply]
    constructor
    · intro h
      refine ⟨id, ?_⟩
      revert h
      rcases (source.block id (source.tagId (schemaTagName tag) w).2).1 with e | _ | b
      · nofun
      · nofun
      · rintro ⟨⟩
        exact ⟨b, rfl, rfl, rfl⟩
    · rintro ⟨id, b, ⟨⟩, hb, rfl⟩
      rw [hb]
      rfl

/-- A filter on a choice property is enhanced by the first definition of the property that can be
read: it takes over its name and type, and its value becomes what it stands for among the choices
that were authored there. A list of choices is no longer than a word counts. -/
theorem enhance_resolves_choices {id : Int} {b : Block}
    (hid : (source.tagId (schemaTagName tag) w).1 = .ok (some id))
    (hb : (source.block id (source.tagId (schemaTagName tag) w).2).1 = .ok (some b))
    {f : PropertyFilter} {d : BlockProperty} (hd : b.definition? f.name = some d)
    (htype : d.type? = some .textChoices)
    (hlength : (ChoiceOption.authored d.typeArgs).length ≤ Numeral.maxWord64) :
    ∃ schema value, (fetch source tag w).1 = .ok schema ∧
      f.enhance schema = ⟨d.name, if f.op = .equal then .includes else f.op, value,
        some .textChoices, f.typeArgs⟩ ∧
      ∀ value',
        Option.Rel (ChoiceOption.Resolves (ChoiceOption.authored d.typeArgs)) f.value value' ↔
          value' = value := by
  let p : PropertySchema := ⟨d.name, .textChoices, PropertyType.textChoices.name,
    some (ChoiceOption.ofChoices 0 (ChoiceOption.authored d.typeArgs))⟩
  have hproperty : (ofBlock (schemaTagName tag) b).property? f.name = some p := by
    rw [property?_ofBlock, hd, Option.bind_some, PropertySchema.ofDefinition?_of_type? htype]
    rfl
  refine ⟨ofBlock (schemaTagName tag) b, f.value.map p.resolveChoice,
    fetch_eq_ok_iff.mpr ⟨id, b, hid, hb, rfl⟩, ?_, ?_⟩
  · rw [PropertyFilter.enhance, hproperty]
    rfl
  · intro value'
    have hresolves := PropertySchema.resolves_resolveChoice (p := p) hlength rfl
    cases f.value with
    | none =>
      constructor
      · rintro ⟨⟩
        rfl
      · rintro rfl
        exact .none
    | some j =>
      constructor
      · rintro ⟨h⟩
        exact congrArg some (h.unique (hresolves j))
      · rintro rfl
        exact .some (hresolves j)

/-- The second of three choices cannot be read, and the first property of the name has no known
type. -/
theorem enhance_resolves_choices_nested :
    let choices : List Json := [.text "todo", .integer 7, .object [("label", .text "Done")]]
    let unknown : BlockProperty := ⟨"status", some 42, none, none⟩
    let d : BlockProperty :=
      ⟨"Status", some 6, none, some (.object [("choices", .array choices)])⟩
    let source := MemorySource.empty.withTag "task" 7 [unknown, d]
    let two : Binary64 := ⟨false, 4503599627370496, -51⟩
    let value : Json :=
      .array [.integer 2, .double two, .text " +02 ", .array [.text "TODO", .integer 1], .null]
    let resolved : Json :=
      .array [.text "Done", .text "Done", .text "Done", .array [.text "todo", .integer 1], .null]
    ∃ schema, (fetch MemorySource.source "#task" source).1 = .ok schema ∧
      (PropertyFilter.untyped " STATUS " .equal (some value)).enhance schema =
        ⟨"Status", .includes, some resolved, some .textChoices, none⟩ ∧
      ChoiceOption.Resolves choices value resolved := by
  intro choices unknown d source two value resolved
  let b : Block := { Block.bare 7 with text := some "task", properties := [unknown, d] }
  let f : PropertyFilter := .untyped " STATUS " .equal (some value)
  have hid : (MemorySource.source.tagId (schemaTagName "#task") source).1 = .ok (some 7) := rfl
  have hb : (MemorySource.source.block 7
      (MemorySource.source.tagId (schemaTagName "#task") source).2).1 = .ok (some b) := rfl
  have hd : b.definition? f.name = some d := by decide +kernel
  obtain ⟨schema, value', hfetch, henhance, hresolves⟩ :=
    enhance_resolves_choices hid hb hd rfl (by decide)
  have hschema : ofBlock "task" b = schema := Except.ok.inj hfetch
  have hvalue : some resolved = value' := by
    have hcomputed : (f.enhance (ofBlock "task" b)).value = some resolved := by decide +kernel
    rw [hschema, henhance] at hcomputed
    exact hcomputed.symm
  subst hvalue
  exact ⟨schema, hfetch, henhance, Option.rel_some_some.mp ((hresolves _).mpr rfl)⟩

end TagSchema
end NoteSearch
