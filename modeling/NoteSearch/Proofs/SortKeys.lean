import NoteSearch.Proofs.CompactFilters
import NoteSearch.Query.Sort

/-!
# Normal sort keys

Normalizing sort keys is a projection: what comes out is written in a form that callers may use
themselves, and is normalized to itself. Keys are normalized one by one, so a key that cannot be
understood is dropped without any effect on the others.
-/

namespace NoteSearch

theorem trimmed_trimmed (s : String) : trimmed (trimmed s) = trimmed s := by
  unfold trimmed
  rw [String.toList_ofList, Text.trim_trim]

theorem isBlankText_iff (s : String) : isBlankText s = true ↔ trimmed s = "" := by
  rw [isBlankText, List.isEmpty_iff, ← String.toList_inj, trimmed, String.toList_ofList]
  rfl

/-- A text is what is left of it when it is trimmed, between blanks. -/
theorem Text.exists_blanks_around (cs : List Char) :
    ∃ before after, cs = before ++ trim cs ++ after ∧
      ∀ c ∈ before ++ after, isBlank c = true := by
  refine ⟨cs.takeWhile isBlank, ((trimStart cs).reverse.takeWhile isBlank).reverse, ?_, ?_⟩
  · rw [List.append_assoc, trim, trimEnd, ← List.reverse_append, List.takeWhile_append_dropWhile,
      List.reverse_reverse, trimStart, List.takeWhile_append_dropWhile]
  · intro c hc
    rw [List.mem_append, List.mem_reverse] at hc
    exact hc.elim List.mem_takeWhile_imp List.mem_takeWhile_imp

namespace SortDirection

def words : SortDirection → List String
  | ascending => ["asc", "ascending"]
  | descending => ["desc", "descending"]

/-- A word for the direction in any case, with blanks around it. -/
def Spells (d : SortDirection) (s : String) : Prop :=
  ∃ before word after, s.toList = before ++ word ++ after ∧
    (∀ c ∈ before ++ after, Text.isBlank c = true) ∧
    ∃ w ∈ d.words, Text.lowerAsciiAll word = w.toList

theorem ofWord?_eq_some_keyword_iff (s : String) (d : SortDirection) :
    ofWord? s = some d ↔ keyword s ∈ d.words := by
  unfold ofWord?
  split <;> cases d <;> simp_all [words]

theorem not_isBlank_of_mem_words {d : SortDirection} {w : String} (hw : w ∈ d.words) :
    ∀ c ∈ w.toList, Text.isBlank c = false := by
  have hall : ∀ w ∈ d.words, w.toList.all (fun c => !Text.isBlank c) = true := by
    cases d <;> decide
  simpa using List.all_eq_true.mp (hall w hw)

theorem ofWord?_eq_some_iff (s : String) (d : SortDirection) :
    ofWord? s = some d ↔ d.Spells s := by
  rw [ofWord?_eq_some_keyword_iff]
  constructor
  · intro h
    obtain ⟨before, after, hs, hblank⟩ := Text.exists_blanks_around s.toList
    refine ⟨before, Text.trim s.toList, after, hs, hblank, keyword s, h, ?_⟩
    rw [keyword, String.toList_ofList]
  · rintro ⟨before, word, after, hs, hblank, w, hw, hword⟩
    have hbare : Text.BareEnds word := by
      apply Text.bareEnds_of_not_blank
      intro c hc
      rw [← Text.isBlank_lowerAscii]
      apply not_isBlank_of_mem_words hw
      rw [← hword]
      exact List.mem_map_of_mem hc
    have htrim : Text.trim s.toList = word := by
      rw [hs]
      exact hbare.trim_between (fun c hc => hblank c (List.mem_append_left after hc))
        fun c hc => hblank c (List.mem_append_right before hc)
    rw [keyword, htrim, hword, String.ofList_toList]
    exact hw

end SortDirection

/-- A field that is not empty and has no blanks around it. -/
structure SortKey.IsNormal (k : SortKey) : Prop where
  nonempty : k.field ≠ ""
  trimmed : trimmed k.field = k.field

namespace SortSpec

variable {s : String} {direction : Option String} {k : SortKey}

theorem key?_eq_some_iff :
    key? s direction = some k ↔
      trimmed s ≠ "" ∧ trimmed s = k.field ∧ directionOf? direction = some k.direction := by
  unfold key?
  by_cases hblank : isBlankText s = true
  · rw [if_pos hblank]
    exact ⟨nofun, fun h => absurd ((isBlankText_iff s).mp hblank) h.1⟩
  · rw [if_neg hblank, Option.map_eq_some_iff]
    constructor
    · rintro ⟨d, hd, rfl⟩
      exact ⟨mt (isBlankText_iff s).mpr hblank, rfl, hd⟩
    · rintro ⟨-, hfield, hd⟩
      exact ⟨k.direction, hd, by rw [hfield]⟩

theorem isNormal_of_key? (h : key? s direction = some k) : k.IsNormal := by
  obtain ⟨hne, hfield, -⟩ := key?_eq_some_iff.mp h
  rw [hfield] at hne
  refine ⟨hne, ?_⟩
  rw [← hfield, trimmed_trimmed]

theorem isNormal_of_normalize? {spec : SortSpec} (h : normalize? spec = some k) : k.IsNormal := by
  cases spec with
  | field s => exact isNormal_of_key? h
  | pair s direction => exact isNormal_of_key? h
  | record s direction => exact isNormal_of_key? h
  | other j => cases h

theorem directionOf?_of_spells {d : SortDirection} (h : d.Spells s) :
    directionOf? (some s) = some d := by
  have hword := (SortDirection.ofWord?_eq_some_iff s d).mpr h
  have hblank : isBlankText s = false := by
    by_contra hblank
    have hkeyword := (SortDirection.ofWord?_eq_some_keyword_iff s d).mp hword
    rw [Bool.not_eq_false, isBlankText, List.isEmpty_iff] at hblank
    rw [keyword, hblank] at hkeyword
    revert hkeyword
    cases d <;> decide
  rw [directionOf?, hblank, if_neg Bool.false_ne_true, hword]

theorem spells_word (d : SortDirection) : d.Spells d.word :=
  (SortDirection.ofWord?_eq_some_iff _ d).mp (SortDirection.ofWord?_word d)

theorem spells_code (d : SortDirection) : d.Spells d.code :=
  (SortDirection.ofWord?_eq_some_iff _ d).mp (SortDirection.ofWord?_code d)

theorem normalize?_pair {d : SortDirection} {spelling : String} (hs : trimmed s ≠ "")
    (hd : d.Spells spelling) : normalize? (pair s spelling) = some ⟨trimmed s, d⟩ :=
  key?_eq_some_iff.mpr ⟨hs, rfl, directionOf?_of_spells hd⟩

theorem normalize?_ofJson_toJson (h : k.IsNormal) : normalize? (ofJson k.toJson) = some k := by
  have hne : trimmed k.field ≠ "" := by
    rw [h.trimmed]
    exact h.nonempty
  have hpair := normalize?_pair hne (spells_code k.direction)
  rw [h.trimmed] at hpair
  exact hpair

theorem parse_joined (hcolon : ':' ∉ s.toList) (spelling : String) :
    parse (s ++ ":" ++ spelling) = pair s spelling := by
  have hcut : Text.splitOnce [':'] (s ++ ":" ++ spelling).toList =
      some (s.toList, spelling.toList) := by
    rw [String.toList_append, String.toList_append, List.append_assoc]
    exact Text.splitOnce_append hcolon [] spelling.toList
  rw [parse, hcut]
  simp

/-- Normal keys are read again as themselves from what is written for them. -/
theorem normalizeAll_ofJson_toJson {keys : List SortKey} (h : ∀ k ∈ keys, k.IsNormal) :
    normalizeAll ((keys.map SortKey.toJson).map ofJson) = keys := by
  induction keys with
  | nil => rfl
  | cons k keys ih =>
    have hhead := normalize?_ofJson_toJson (h k List.mem_cons_self)
    have htail := ih fun l hl => h l (List.mem_cons_of_mem k hl)
    rw [normalizeAll] at htail ⊢
    rw [List.map_cons, List.map_cons, List.filterMap_cons_some hhead, htail]

/-- Normalizing is a projection onto what is written: normal keys have a field that is not empty and
is trimmed, and reading and normalizing them again changes nothing. Each key is normalized, or
dropped, by itself and at its place. A field survives with its direction, made into a key or written
in front of a colon and any spelling of the direction. -/
theorem normalizeAll_projection :
    (∀ js : List Json,
      let keys := normalizeAll (js.map ofJson)
      normalizeAll ((keys.map SortKey.toJson).map ofJson) = keys ∧ ∀ k ∈ keys, k.IsNormal) ∧
    (∀ (before : List SortSpec) (spec : SortSpec) (after : List SortSpec),
      normalizeAll (before ++ spec :: after) =
        normalizeAll before ++ (normalize? spec).toList ++ normalizeAll after) ∧
    (∀ (s : String) (d : SortDirection), trimmed s ≠ "" →
      normalizeAll [make s d] = [⟨trimmed s, d⟩]) ∧
    (∀ (s : String) (d : SortDirection) (spelling : String), trimmed s ≠ "" → ':' ∉ s.toList →
      d.Spells spelling → normalizeAll [parse (s ++ ":" ++ spelling)] = [⟨trimmed s, d⟩]) ∧
    ∀ (d : SortDirection) (spelling : String),
      SortDirection.ofWord? spelling = some d ↔ d.Spells spelling := by
  refine ⟨?_, ?_, ?_, ?_, fun d spelling => SortDirection.ofWord?_eq_some_iff spelling d⟩
  · intro js keys
    have hnormal : ∀ k ∈ keys, k.IsNormal := by
      intro k hk
      obtain ⟨spec, -, hspec⟩ := List.mem_filterMap.mp hk
      exact isNormal_of_normalize? hspec
    exact ⟨normalizeAll_ofJson_toJson hnormal, hnormal⟩
  · intro before spec after
    unfold normalizeAll
    rw [List.filterMap_append, List.filterMap_cons, List.append_assoc]
    cases normalize? spec <;> rfl
  · intro s d hs
    have hkey : normalize? (make s d) = some ⟨trimmed s, d⟩ := normalize?_pair hs (spells_word d)
    rw [normalizeAll, List.filterMap_cons_some hkey, List.filterMap_nil]
  · intro s d spelling hs hcolon hspelling
    have hkey := normalize?_pair hs hspelling
    rw [← parse_joined hcolon] at hkey
    rw [normalizeAll, List.filterMap_cons_some hkey, List.filterMap_nil]

/-- Padded fields, one of them in front of a word in capitals with blanks around it. -/
theorem normalizeAll_projection_padded :
    trimmed " due date" ≠ "" ∧ ':' ∉ " due date".toList ∧
      SortDirection.ascending.Spells " ASCending\t" ∧
      normalizeAll [parse (" due date" ++ ":" ++ " ASCending\t")] = [⟨"due date", .ascending⟩] ∧
      normalizeAll [make " due date" .descending] = [⟨"due date", .descending⟩] := by
  have hfield : trimmed " due date" ≠ "" := by decide
  have hcolon : ':' ∉ " due date".toList := by decide
  have htrimmed : trimmed " due date" = "due date" := by decide
  obtain ⟨-, -, hmake, hparse, hspells⟩ := normalizeAll_projection
  have hspelling := (hspells .ascending " ASCending\t").mp (by decide)
  refine ⟨hfield, hcolon, hspelling, ?_, ?_⟩
  · rw [hparse _ _ _ hfield hcolon hspelling, htrimmed]
  · rw [hmake _ _ hfield, htrimmed]

end SortSpec
end NoteSearch
