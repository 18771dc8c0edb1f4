import NoteSearch.Proofs.SpacedFilters

/-!
# Filters without blanks

A filter of one word is cut at the first place of a symbol. The symbols are looked for one after the
other, and not the places in the text: a symbol that stands in the value is taken for the operator
when it is looked for before the symbol that follows the name.
-/

namespace NoteSearch

namespace Text

variable {mark before cs : List Char} {m : Char}

theorem splitOnce_eq_none_iff (hmark : mark ≠ []) : splitOnce mark cs = none ↔ ¬mark <:+: cs := by
  induction cs with
  | nil => simp [splitOnce, hmark]
  | cons c cs ih =>
    rw [List.infix_cons_iff, not_or, ← ih, ← List.isPrefixOf_iff_prefix]
    by_cases hfirst : mark.isPrefixOf (c :: cs) = true <;> simp [splitOnce, hfirst]

/-- Characters other than its first are passed over in the search for a mark. -/
theorem splitOnce_append (hbefore : m ∉ before) (ms after : List Char) :
    splitOnce (m :: ms) (before ++ (m :: ms ++ after)) = some (before, after) := by
  induction before with
  | nil => simp [splitOnce]
  | cons c before ih =>
    obtain ⟨hne, hbefore⟩ := List.ne_and_not_mem_of_not_mem_cons hbefore
    have hrest := ih hbefore
    simp only [List.cons_append] at hrest ⊢
    simp [splitOnce, hne, hrest]

theorem infix_append_iff_of_notMem (hbefore : m ∉ before) (ms : List Char) :
    m :: ms <:+: before ++ cs ↔ m :: ms <:+: cs := by
  induction before with
  | nil => rfl
  | cons c before ih =>
    obtain ⟨hne, hbefore⟩ := List.ne_and_not_mem_of_not_mem_cons hbefore
    simp [List.infix_cons_iff, List.cons_prefix_cons, hne, ih hbefore]

end Text

namespace FilterText

open Text

variable {name w : List Char} {op other : Operator} {cut : Cut}

def symbolOperators : List Operator := symbols.map Prod.snd

/-- The operators whose symbols are looked for before that of an operator. -/
def triedBefore (op : Operator) : List Operator := symbolOperators.takeWhile (· != op)

def symbolChars : List Char := ['<', '>', '=', '!']

/-- Neither a blank nor a character of a symbol. -/
def IsBareName (name : List Char) : Prop := ∀ c ∈ name, isBlank c = false ∧ c ∉ symbolChars

instance : DecidablePred IsBareName := fun name =>
  decidable_of_iff (name.all (fun c => !isBlank c && !symbolChars.contains c) = true)
    (by simp [IsBareName])

theorem symbols_eq : symbols = symbolOperators.map fun op => (op.token, op) := rfl

theorem compact?_eq (cs : List Char) :
    compact? cs = symbolOperators.findSome? fun op => cutAtSymbol? cs (op.token, op) := by
  rw [compact?, symbols_eq, List.findSome?_map]
  rfl

theorem op_of_cutAtSymbol? {cs : List Char} {symbol : String × Operator}
    (h : cutAtSymbol? cs symbol = some cut) : cut.op = symbol.2 := by
  obtain ⟨_, -, rfl⟩ := Option.map_eq_some_iff.mp h
  rfl

theorem exists_token (hop : op ∈ symbolOperators) :
    ∃ first ∈ symbolChars, ∃ rest, op.token.toList = first :: rest ∧
      (rest = [] ∨ rest = ['=']) := by
  cases op with
  | atLeast => exact ⟨'>', by decide, ['='], rfl, .inr rfl⟩
  | greater => exact ⟨'>', by decide, [], rfl, .inl rfl⟩
  | atMost => exact ⟨'<', by decide, ['='], rfl, .inr rfl⟩
  | less => exact ⟨'<', by decide, [], rfl, .inl rfl⟩
  | equal => exact ⟨'=', by decide, ['='], rfl, .inr rfl⟩
  | notEqual => exact ⟨'!', by decide, ['='], rfl, .inr rfl⟩
  | _ => exact absurd hop (by decide)

theorem mem_of_triedBefore (h : other ∈ triedBefore op) : other ∈ symbolOperators :=
  (List.takeWhile_sublist _).subset h

theorem ne_of_triedBefore (h : other ∈ triedBefore op) : other ≠ op := by
  simpa using List.mem_takeWhile_imp h

/-- Longer symbols come first. -/
theorem not_infix_of_triedBefore (hop : op ∈ symbolOperators) (h : other ∈ triedBefore op) :
    ¬other.token.toList <:+: op.token.toList := by
  have hall : ∀ op ∈ symbolOperators, ∀ other ∈ triedBefore op,
      ¬other.token.toList <:+: op.token.toList := by decide +kernel
  exact hall op hop other h

theorem symbolOperators_eq (hop : op ∈ symbolOperators) :
    ∃ after, symbolOperators = triedBefore op ++ op :: after := by
  have hall : ∀ op ∈ symbolOperators, symbolOperators =
      triedBefore op ++ op :: (symbolOperators.dropWhile (· != op)).tail := by decide
  exact ⟨_, hall op hop⟩

theorem compact?_of_none {cs : List Char} (hop : op ∈ symbolOperators)
    (hearlier : ∀ other ∈ triedBefore op, cutAtSymbol? cs (other.token, other) = none)
    (hcut : cutAtSymbol? cs (op.token, op) = some cut) : compact? cs = some cut := by
  obtain ⟨after, hafter⟩ := symbolOperators_eq hop
  rw [compact?_eq, hafter, List.findSome?_append, List.findSome?_eq_none_iff.mpr hearlier,
    Option.none_or, List.findSome?_cons, hcut]

theorem exists_compact?_of_some {cs : List Char} (hop : op ∈ symbolOperators)
    (hother : other ∈ triedBefore op) (hsome : cutAtSymbol? cs (other.token, other) ≠ none) :
    ∃ cut, compact? cs = some cut ∧ cut.op ≠ op := by
  obtain ⟨after, hafter⟩ := symbolOperators_eq hop
  obtain ⟨cut, hcut⟩ : ∃ cut, (triedBefore op).findSome?
      (fun other => cutAtSymbol? cs (other.token, other)) = some cut := by
    rw [← Option.ne_none_iff_exists', Ne, List.findSome?_eq_none_iff]
    exact fun h => hsome (h other hother)
  obtain ⟨earlier, hearlier, hfound⟩ := List.exists_of_findSome?_eq_some hcut
  refine ⟨cut, ?_, ?_⟩
  · rw [compact?_eq, hafter, List.findSome?_append, hcut, Option.some_or]
  · rw [op_of_cutAtSymbol? hfound]
    exact ne_of_triedBefore hearlier

theorem infix_text_iff (hop : op ∈ symbolOperators) (hother : other ∈ triedBefore op)
    (hname : ∀ c ∈ name, c ∉ symbolChars) (hw : w.head? ≠ some '=') :
    other.token.toList <:+: name ++ (op.token.toList ++ w) ↔ other.token.toList <:+: w := by
  obtain ⟨first, hfirst, rest, htoken, hrest⟩ := exists_token (mem_of_triedBefore hother)
  have hskip : first ∉ name := fun h => hname first h hfirst
  have hbehind : other.token.toList <:+: name ++ (op.token.toList ++ w) ↔
      other.token.toList <:+: op.token.toList ++ w := by
    rw [htoken]
    exact infix_append_iff_of_notMem hskip rest
  rw [hbehind, List.infix_append_iff_ne_nil, or_iff_right (not_infix_of_triedBefore hop hother)]
  refine or_iff_left ?_
  -- a symbol that begins in the one before the value would end with the value's first character
  rintro ⟨before, after, hbefore, hafter, hcut, -, tail, rfl⟩
  obtain ⟨a, as, rfl⟩ := List.exists_cons_of_ne_nil hbefore
  obtain ⟨b, bs, rfl⟩ := List.exists_cons_of_ne_nil hafter
  rw [htoken, List.cons_append, List.cons.injEq] at hcut
  rcases hrest with rfl | rfl
  · simp at hcut
  · have hmem : b ∈ ['='] := by simp [hcut.2]
    exact hw (congrArg some (List.mem_singleton.mp hmem))

theorem cutAtSymbol?_text (hop : op ∈ symbolOperators) (hname : ∀ c ∈ name, c ∉ symbolChars) :
    cutAtSymbol? (name ++ (op.token.toList ++ w)) (op.token, op) =
      some ⟨trim name, op, trim w⟩ := by
  obtain ⟨first, hfirst, rest, htoken, -⟩ := exists_token hop
  have hskip : first ∉ name := fun h => hname first h hfirst
  rw [cutAtSymbol?, htoken, splitOnce_append hskip]
  rfl

theorem cutAtSymbol?_eq_none_iff (hop : op ∈ symbolOperators) (cs : List Char) :
    cutAtSymbol? cs (op.token, op) = none ↔ ¬op.token.toList <:+: cs := by
  obtain ⟨first, -, rest, htoken, -⟩ := exists_token hop
  rw [cutAtSymbol?, Option.map_eq_none_iff, splitOnce_eq_none_iff]
  rw [htoken]
  exact List.cons_ne_nil first rest

theorem isBlank_token (hop : op ∈ symbolOperators) :
    ∀ c ∈ op.token.toList, isBlank c = false := by
  have hall : ∀ op ∈ symbolOperators, op.token.toList.all (fun c => !isBlank c) = true := by decide
  simpa using List.all_eq_true.mp (hall op hop)

theorem isNullCheck_of_symbol (hop : op ∈ symbolOperators) : op.isNullCheck = false := by
  revert hop
  cases op <;> decide

theorem spaced?_of_isWord {cs : List Char} (h : IsWord cs) : spaced? cs = none := by
  rw [spaced?, words_of_isWord h]
  rfl

theorem op_of_complete {input : String} {f : PropertyFilter} (h : complete input cut = .ok f) :
    f.op = cut.op := by
  unfold complete at h
  split_ifs at h <;> cases h <;> rfl

end FilterText

namespace PropertyFilter

open FilterText

/-- Name, symbol and value are read back as they were put together if and only if there is a name
and no symbol that is looked for earlier stands in the value. -/
theorem parse_symbol_iff {name w : List Char} {op : Operator} (hop : op ∈ symbolOperators)
    (hname : IsBareName name) (hvalue : Text.IsWord w) (hequals : w.head? ≠ some '=') :
    parse (String.ofList (name ++ op.token.toList ++ w)) =
        .ok (untyped (String.ofList name) op
          (some ((Json.read? (String.ofList w)).getD (.text (String.ofList w))))) ↔
      name ≠ [] ∧ ∀ other ∈ triedBefore op, ¬other.token.toList <:+: w := by
  rw [List.append_assoc]
  have hsymbol : ∀ c ∈ name, c ∉ symbolChars := fun c hc => (hname c hc).2
  have hbare : ∀ c ∈ name, Text.isBlank c = false := fun c hc => (hname c hc).1
  have hword : Text.IsWord (name ++ (op.token.toList ++ w)) := by
    refine ⟨by simp [hvalue.1], ?_⟩
    simp only [List.forall_mem_append]
    exact ⟨hbare, isBlank_token hop, hvalue.2⟩
  have hread {cut : Cut} (h : compact? (name ++ (op.token.toList ++ w)) = some cut) :
      parse (String.ofList (name ++ (op.token.toList ++ w))) =
        complete (String.ofList (name ++ (op.token.toList ++ w))) cut := by
    simp [parse, spaced?_of_isWord hword, h]
  have hnone {other : Operator} (hother : other ∈ triedBefore op) :
      cutAtSymbol? (name ++ (op.token.toList ++ w)) (other.token, other) = none ↔
        ¬other.token.toList <:+: w := by
    rw [cutAtSymbol?_eq_none_iff (mem_of_triedBefore hother),
      infix_text_iff hop hother hsymbol hequals]
  by_cases hearlier : ∀ other ∈ triedBefore op, ¬other.token.toList <:+: w
  · have hcut := cutAtSymbol?_text (w := w) hop hsymbol
    rw [Text.trim_of_not_blank hbare, Text.trim_of_not_blank hvalue.2] at hcut
    rw [hread (compact?_of_none hop (fun other h => (hnone h).mpr (hearlier other h)) hcut)]
    by_cases hempty : name = []
    · exact iff_of_false (by simp [complete, hempty]) fun h => h.1 hempty
    · have hnull := isNullCheck_of_symbol hop
      exact iff_of_true (by simp [complete, hempty, hnull, hvalue.1, valueOf]) ⟨hempty, hearlier⟩
  · -- the text is cut somewhere, but with an operator that is looked for earlier
    simp only [not_forall, not_not] at hearlier
    obtain ⟨other, hother, hinfix⟩ := hearlier
    obtain ⟨cut, hcut, hne⟩ :=
      exists_compact?_of_some hop hother (fun h => (hnone hother).mp h hinfix)
    refine iff_of_false (fun h => ?_) fun h => h.2 other hother hinfix
    rw [hread hcut] at h
    exact hne (op_of_complete h).symm

/-- A symbol in the value does no harm if it is looked for later. -/
theorem parse_symbol_later :
    parse "url==https://notes/?q<b>" =
      .ok (untyped "url" .equal (some (.text "https://notes/?q<b>"))) := by
  have hop : Operator.equal ∈ symbolOperators := by decide
  have hname : IsBareName "url".toList := by decide
  have hvalue : Text.IsWord "https://notes/?q<b>".toList := by decide
  have h := (parse_symbol_iff hop hname hvalue (by decide)).mpr ⟨by decide, by decide +kernel⟩
  exact h.trans (by decide +kernel)

/-- A symbol in the value that is looked for earlier is taken for the operator, though with blanks
around it the first one is. -/
theorem parse_symbol_earlier :
    let filter := untyped "a" .greater (some (.text "b<=c"))
    parse "a>b<=c" ≠ .ok filter ∧
      parse "a>b<=c" = .ok (untyped "a>b" .atMost (some (.text "c"))) ∧
        parse "a > b<=c" = .ok filter := by
  decide +kernel

end PropertyFilter
end NoteSearch
