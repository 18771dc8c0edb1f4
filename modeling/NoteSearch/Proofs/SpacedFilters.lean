import NoteSearch.CommandLine.FilterText
import NoteSearch.Proofs.Words

/-!
# Filters in words

A filter of several words is cut at its first operator. The words of one operator never begin those
of another, so where an operator starts there is only one, and the search for it, which looks at two
words before it looks at one, finds it in any case and between any blanks.
-/

namespace NoteSearch

namespace Operator

variable {op other : Operator} {spelled ws rest : List (List Char)} {cs w v : List Char}

/-- The words are those of the operator, in any case. -/
def Spells (op : Operator) (spelled : List (List Char)) : Prop :=
  spelled.map Text.lowerAsciiAll = Text.words op.token.toList

instance (op : Operator) (spelled : List (List Char)) : Decidable (op.Spells spelled) :=
  inferInstanceAs (Decidable (_ = _))

theorem joinWith_words_token (op : Operator) :
    Text.joinWith [' '] (Text.words op.token.toList) = op.token.toList := by
  cases op <;> decide

theorem spells_words_token (op : Operator) : op.Spells (Text.words op.token.toList) := by
  cases op <;> decide

theorem length_words_token (op : Operator) :
    (Text.words op.token.toList).length = 1 ∨ (Text.words op.token.toList).length = 2 := by
  cases op <;> decide

/-- The words of an operator begin those of no other. -/
theorem eq_of_words_token_prefix
    (h : Text.words op.token.toList <+: Text.words other.token.toList) : op = other := by
  revert h
  cases op <;> cases other <;> decide

theorem Spells.length (h : op.Spells spelled) : spelled.length = 1 ∨ spelled.length = 2 := by
  have hlength := op.length_words_token
  rwa [← h, List.length_map] at hlength

theorem Spells.eq_of_prefix {others : List (List Char)} (h : op.Spells spelled)
    (h' : other.Spells others) (hbegin : spelled <+: others) : op = other := by
  apply eq_of_words_token_prefix
  rw [← h, ← h']
  exact hbegin.map Text.lowerAsciiAll

theorem ofToken?_eq_some_iff : ofToken? cs = some op ↔ op.token.toList = cs := by
  constructor
  · intro h
    have hfound := List.find?_some h
    exact beq_iff_eq.mp hfound
  · rintro rfl
    exact ofToken?_token op

/-- An operator is read from its words, whatever blanks are around them. -/
theorem read?_eq_some_iff : read? cs = some op ↔ op.Spells (Text.words cs) := by
  have hlower : ∀ w ∈ (Text.words cs).map Text.lowerAsciiAll, Text.IsWord w := by
    intro w hw
    obtain ⟨v, hv, rfl⟩ := List.mem_map.mp hw
    exact Text.isWord_lowerAsciiAll (Text.isWord_of_mem_words hv)
  rw [read?, normalize, ofToken?_eq_some_iff, Text.lowerAsciiAll_joinWith_space]
  constructor
  · intro h
    rw [Spells, h, Text.words_joinWith_space hlower]
  · intro h
    rw [h, joinWith_words_token]

theorem read?_unwords_eq_some_iff (hws : ∀ w ∈ ws, Text.IsWord w) :
    read? (FilterText.unwords ws) = some op ↔ op.Spells ws := by
  rw [read?_eq_some_iff, FilterText.unwords, Text.words_joinWith_space hws]

theorem read?_word_eq_some_iff (hw : Text.IsWord w) : read? w = some op ↔ op.Spells [w] := by
  rw [read?_eq_some_iff, Text.words_of_isWord hw]

end Operator

namespace FilterText

open Text

variable {op : Operator} {spelled ws rest name value : List (List Char)} {cs : List Char}

/-- Two words come before one, but no operator of one word begins one of two words. -/
theorem operatorAt?_append (hop : op.Spells spelled) (hws : ∀ w ∈ spelled ++ rest, IsWord w) :
    operatorAt? (spelled ++ rest) = some (op, rest) := by
  rcases hop.length with hone | htwo
  · obtain ⟨w, rfl⟩ := List.length_eq_one_iff.mp hone
    have hread := (Operator.read?_word_eq_some_iff (hws w List.mem_cons_self)).mpr hop
    cases rest with
    | nil => simp [operatorAt?, hread]
    | cons r rest =>
      have hpair : Operator.read? (unwords [w, r]) = none := by
        rw [Option.eq_none_iff_forall_ne_some]
        intro other hother
        rw [Operator.read?_unwords_eq_some_iff fun v hv =>
          hws v ((List.prefix_append [w, r] rest).subset hv)] at hother
        -- then it is the same operator, which has one number of words
        obtain rfl := hop.eq_of_prefix hother ⟨[r], rfl⟩
        have hlength := congrArg List.length (hop.trans hother.symm)
        simp at hlength
      simp [operatorAt?, hpair, hread]
  · obtain ⟨w, v, rfl⟩ := List.length_eq_two.mp htwo
    have hread := (Operator.read?_unwords_eq_some_iff fun u hu =>
      hws u (List.mem_append_left rest hu)).mpr hop
    simp [operatorAt?, hread]

theorem exists_of_operatorAt? (hws : ∀ w ∈ ws, IsWord w) (h : operatorAt? ws = some (op, rest)) :
    ∃ spelled, op.Spells spelled ∧ ws = spelled ++ rest := by
  have hone {w : List Char} {after : List (List Char)} (hw : IsWord w)
      (h : (Operator.read? w).map (fun op => (op, after)) = some (op, rest)) :
      ∃ spelled, op.Spells spelled ∧ w :: after = spelled ++ rest := by
    obtain ⟨_, hread, heq⟩ := Option.map_eq_some_iff.mp h
    cases heq
    exact ⟨[w], (Operator.read?_word_eq_some_iff hw).mp hread, rfl⟩
  unfold operatorAt? at h
  split at h
  · rename_i w v rest
    split at h
    · rename_i hread
      cases h
      rw [Operator.read?_unwords_eq_some_iff fun u hu =>
        hws u ((List.prefix_append [w, v] rest).subset hu)] at hread
      exact ⟨[w, v], hread, rfl⟩
    · exact hone (hws w List.mem_cons_self) h
  · exact hone (hws _ List.mem_cons_self) h
  · cases h

def StartsOperator (ws : List (List Char)) : Prop :=
  ∃ (op : Operator) (spelled : List (List Char)), op.Spells spelled ∧ spelled <+: ws

theorem operatorAt?_eq_none_iff (hws : ∀ w ∈ ws, IsWord w) :
    operatorAt? ws = none ↔ ¬StartsOperator ws := by
  constructor
  · rintro h ⟨op, spelled, hop, rest, rfl⟩
    cases h.symm.trans (operatorAt?_append hop hws)
  · intro h
    rw [Option.eq_none_iff_forall_ne_some]
    rintro ⟨op, rest⟩ hfound
    obtain ⟨spelled, hop, hcut⟩ := exists_of_operatorAt? hws hfound
    exact h ⟨op, spelled, hop, rest, hcut.symm⟩

theorem cutAfter_append (before : List (List Char)) (hws : ∀ w ∈ name ++ ws, IsWord w)
    (hname : ∀ i < name.length, ¬StartsOperator ((name ++ ws).drop i))
    (hop : operatorAt? ws = some (op, rest)) :
    cutAfter before (name ++ ws) = some ⟨unwords (before.reverse ++ name), op, unwords rest⟩ := by
  induction name generalizing before with
  | nil =>
    cases ws with
    | nil => cases hop
    | cons w ws => simp [cutAfter, hop]
  | cons w name ih =>
    have hnone : operatorAt? (w :: (name ++ ws)) = none :=
      (operatorAt?_eq_none_iff hws).mpr (hname 0 (Nat.succ_pos _))
    have hrest := ih (w :: before) (fun v hv => hws v (List.mem_cons_of_mem w hv))
      fun i hi => hname (i + 1) (Nat.succ_lt_succ hi)
    simpa [cutAfter, hnone] using hrest

/-- The name has a word at least, even if an operator starts with it. -/
theorem spaced?_eq (hname : name ≠ []) (hop : op.Spells spelled)
    (hcs : Spread (name ++ spelled ++ value) cs)
    (hfirst : ∀ i, 0 < i → i < name.length → ¬StartsOperator ((name ++ spelled ++ value).drop i)) :
    spaced? cs = some ⟨unwords name, op, unwords value⟩ := by
  obtain ⟨w, name, rfl⟩ := List.exists_cons_of_ne_nil hname
  have hws : ∀ v ∈ name ++ (spelled ++ value), IsWord v := by
    intro v hv
    exact hcs.isWord v (by simpa using List.mem_cons_of_mem w hv)
  have hcut := cutAfter_append [w] hws (fun i hi => by
    simpa using hfirst (i + 1) (Nat.succ_pos i) (Nat.succ_lt_succ hi))
    (operatorAt?_append hop fun v hv => hws v (List.mem_append_right name hv))
  rw [spaced?, hcs.words_eq]
  simpa using hcut

end FilterText

namespace PropertyFilter

open FilterText

/-- The words before the first operator are the name and those behind it the value, whatever the
blanks between them. -/
theorem parse_spread {name spelled value : List (List Char)} {op : Operator} {cs : List Char}
    (hname : name ≠ []) (hop : op.Spells spelled)
    (hcs : Text.Spread (name ++ spelled ++ value) cs)
    (hfirst : ∀ i, 0 < i → i < name.length →
      ¬StartsOperator ((name ++ spelled ++ value).drop i)) :
    let read := parse (String.ofList cs)
    let nameText := String.ofList (unwords name)
    let valueText := String.ofList (unwords value)
    (op.isNullCheck = true → read = .ok (untyped nameText op none)) ∧
      (op.isNullCheck = false →
        ((∃ fault, read = .error fault) ↔ value = []) ∧
          (value ≠ [] → read =
            .ok (untyped nameText op (some ((Json.read? valueText).getD (.text valueText)))))) := by
  intro read nameText valueText
  have hwords := hcs.isWord
  simp only [List.forall_mem_append] at hwords
  obtain ⟨⟨hnames, -⟩, hvalues⟩ := hwords
  have hread : read = complete (String.ofList cs) ⟨unwords name, op, unwords value⟩ := by
    simp [read, parse, spaced?_eq hname hop hcs hfirst]
  have hnonempty : ¬(unwords name).isEmpty = true := by
    rwa [List.isEmpty_iff, unwords, Text.joinWith_space_eq_nil_iff hnames]
  have hvalue : (unwords value).isEmpty = true ↔ value = [] := by
    rw [List.isEmpty_iff, unwords, Text.joinWith_space_eq_nil_iff hvalues]
  rw [hread, complete, if_neg hnonempty]
  constructor
  · intro hnull
    rw [if_pos hnull]
  · intro hnull
    rw [if_neg (by simp [hnull])]
    by_cases hempty : value = []
    · rw [if_pos (hvalue.mpr hempty)]
      exact ⟨iff_of_true ⟨_, rfl⟩ hempty, fun h => absurd hempty h⟩
    · rw [if_neg (mt hvalue.mp hempty)]
      exact ⟨iff_of_false nofun hempty, fun _ => rfl⟩

/-- The first words of a name may be those of an operator, and nothing behind a null check counts. -/
theorem parse_spread_capitals :
    parse " is null\tNOT \u3000Includes in  progress\n" =
        .ok (untyped "is null" .notIncludes (some (.text "in progress"))) ∧
      parse "due  date Is NULL or later" = .ok (untyped "due date" .isNull none) := by
  have hsecond : ∀ i, 0 < i → i < 2 → i = 1 := by omega
  constructor
  · have hspread : Text.Spread (["is".toList, "null".toList] ++ ["NOT".toList, "Includes".toList] ++
        ["in".toList, "progress".toList]) " is null\tNOT \u3000Includes in  progress\n".toList := by
      decide +kernel
    have hop : Operator.notIncludes.Spells ["NOT".toList, "Includes".toList] := by decide
    have hnull : ¬StartsOperator ["null".toList, "NOT".toList, "Includes".toList, "in".toList,
        "progress".toList] :=
      (operatorAt?_eq_none_iff (by decide)).mp (by decide +kernel)
    have h := parse_spread (by decide) hop hspread fun i hpos hlt => hsecond i hpos hlt ▸ hnull
    exact ((h.2 rfl).2 (by decide)).trans (by decide +kernel)
  · have hspread : Text.Spread (["due".toList, "date".toList] ++ ["Is".toList, "NULL".toList] ++
        ["or".toList, "later".toList]) "due  date Is NULL or later".toList := by
      decide +kernel
    have hop : Operator.isNull.Spells ["Is".toList, "NULL".toList] := by decide
    have hdate : ¬StartsOperator ["date".toList, "Is".toList, "NULL".toList, "or".toList,
        "later".toList] :=
      (operatorAt?_eq_none_iff (by decide)).mp (by decide +kernel)
    have h := parse_spread (by decide) hop hspread fun i hpos hlt => hsecond i hpos hlt ▸ hdate
    exact h.1 rfl

end PropertyFilter
end NoteSearch
