import Mathlib.Tactic.SplitIfs
import Mathlib.Tactic.Tauto
import NoteSearch.Json.Parser
import NoteSearch.Json.Printer
import NoteSearch.Proofs.Numerals

/-!
# Reading JSON text that was written

The compact text of a value is read as that value, if its containers are not nested too deep and its
numbers are read as they are written: integers always are, doubles only mostly. The text is first
cut into the tokens of the value, whatever comes after it, and the tokens then build the value on
any stack of open containers that leaves room for it.
-/

namespace NoteSearch

/-- Values with at most a given number of containers open at once, whose numbers are read as they
are written. -/
inductive Json.Legible : Nat → Json → Prop
  | null (depth : Nat) : Legible depth .null
  | bool (depth : Nat) (b : Bool) : Legible depth (.bool b)
  | text (depth : Nat) (s : String) : Legible depth (.text s)
  | integer (depth : Nat) {n : Int} (hlow : Numeral.minInt64 ≤ n)
      (hhigh : n ≤ Numeral.maxWord64) : Legible depth (.integer n)
  | double (depth : Nat) {x : Binary64}
      (hread : JsonNumeral.read? (JsonText.doubleLayout.write x).toList = some (.double x)) :
      Legible depth (.double x)
  | array {depth : Nat} {items : List Json} (hitems : ∀ j ∈ items, Legible depth j) :
      Legible (depth + 1) (.array items)
  | object {depth : Nat} {fields : List (String × Json)}
      (hfields : ∀ f ∈ fields, Legible depth f.2) : Legible (depth + 1) (.object fields)

namespace JsonText

mutual

/-- The tokens that the compact text of a value is cut into. -/
def tokensOf : Json → List Token
  | .array items => .openArray :: itemTokens items ++ [.closeArray]
  | .object fields => .openObject :: fieldTokens fields ++ [.closeObject]
  | j => [.scalar j]

def itemTokens : List Json → List Token
  | [] => []
  | [j] => tokensOf j
  | j :: js => tokensOf j ++ .comma :: itemTokens js

def fieldTokens : List (String × Json) → List Token
  | [] => []
  | [(key, value)] => .scalar (.text key) :: .colon :: tokensOf value
  | (key, value) :: rest =>
    .scalar (.text key) :: .colon :: tokensOf value ++ .comma :: fieldTokens rest

end

variable {mode next : Mode} {tokens before : List Token} {c : Char} {cs : List Char}

theorem tokensFrom_cons (h : step mode c = some (next, tokens)) :
    tokensFrom mode before (c :: cs) = tokensFrom next (tokens ++ before) cs := by
  cases mode <;> simp only [tokensFrom, h]

theorem start_of_punctuation? {t : Token} (h : punctuation? c = some t) (tokens : List Token) :
    start tokens c = some (.between, t :: tokens) := by
  have hother : isSpace c = false ∧ c ≠ '"' := by
    unfold punctuation? at h
    split at h <;> cases h <;> decide
  simp [start, hother.1, hother.2, h]

theorem tokensFrom_punctuation {t : Token} (h : punctuation? c = some t) :
    tokensFrom .between before (c :: cs) = tokensFrom .between (t :: before) cs := by
  have hstep : step .between c = some (.between, [t]) := start_of_punctuation? h []
  exact tokensFrom_cons hstep

theorem hexValue?_hexDigit {n : Nat} (h : n < 16) : hexValue? (hexDigit n) = some n := by
  revert h
  revert n
  decide

/-- A control character is written by its code. -/
theorem tokensFrom_control (hc : c.toNat < 0x20) (done : List Char) :
    tokensFrom (.quoted done) before
        (['\\', 'u', '0', '0', hexDigit (c.toNat / 16), hexDigit (c.toNat % 16)] ++ cs) =
      tokensFrom (.quoted (c :: done)) before cs := by
  have hhigh := hexValue?_hexDigit (n := c.toNat / 16) (by omega)
  have hlow := hexValue?_hexDigit (n := c.toNat % 16) (by omega)
  have hcode : 16 * (c.toNat / 16) + c.toNat % 16 = c.toNat := by omega
  have hopen : step (.quoted done) '\\' = some (.escape done, []) := rfl
  have hcode0 : step (.escape done) 'u' = some (.code done none 4 0, []) := rfl
  have hcode1 : step (.code done none 4 0) '0' = some (.code done none 3 0, []) := rfl
  have hcode2 : step (.code done none 3 0) '0' = some (.code done none 2 0, []) := rfl
  have hcode3 : step (.code done none 2 0) (hexDigit (c.toNat / 16)) =
      some (.code done none 1 (c.toNat / 16), []) := by
    simp [step, hhigh]
  have hclose : step (.code done none 1 (c.toNat / 16)) (hexDigit (c.toNat % 16)) =
      some (.quoted (c :: done), []) := by
    have hhalf : isHighHalf c.toNat = false ∧ isLowHalf c.toNat = false := by
      simp only [isHighHalf, isLowHalf]
      constructor <;> simp <;> omega
    simp [step, hlow, hcode, finishCode, hhalf.1, hhalf.2]
  simp only [List.cons_append, List.nil_append]
  rw [tokensFrom_cons hopen, tokensFrom_cons hcode0, tokensFrom_cons hcode1,
    tokensFrom_cons hcode2, tokensFrom_cons hcode3, tokensFrom_cons hclose]
  rfl

theorem tokensFrom_escapeChar (done : List Char) (c : Char) :
    tokensFrom (.quoted done) before (escapeChar c ++ cs) =
      tokensFrom (.quoted (c :: done)) before cs := by
  unfold escapeChar
  split_ifs with h1 h2 h3 h4 h5 h6 h7 h8
  · subst h1
    rfl
  · subst h2
    rfl
  · subst h3
    rfl
  · subst h4
    rfl
  · subst h5
    rfl
  · subst h6
    rfl
  · subst h7
    rfl
  · exact tokensFrom_control h8 done
  · have hstep : step (.quoted done) c = some (.quoted (c :: done), []) := by
      simp [step, h1, h2, h8]
    exact tokensFrom_cons hstep

theorem tokensFrom_escaped (s : List Char) (done : List Char) :
    tokensFrom (.quoted done) before (s.flatMap escapeChar ++ cs) =
      tokensFrom (.quoted (s.reverse ++ done)) before cs := by
  induction s generalizing done with
  | nil => rfl
  | cons c s ih =>
    rw [List.flatMap_cons, List.append_assoc, tokensFrom_escapeChar, ih, List.reverse_cons,
      List.append_assoc]
    rfl

theorem tokensFrom_quote (s : String) :
    tokensFrom .between before (quote s ++ cs) =
      tokensFrom .between (.scalar (.text s) :: before) cs := by
  have hopen : step .between '"' = some (.quoted [], []) := rfl
  have hclose (done : List Char) : step (.quoted done) '"' =
      some (.between, [.scalar (.text (String.ofList done.reverse))]) := rfl
  rw [quote, List.cons_append, List.cons_append, List.append_assoc, tokensFrom_cons hopen,
    List.nil_append, tokensFrom_escaped, List.append_nil, List.cons_append,
    tokensFrom_cons (hclose _)]
  simp

/-- The text is over, or punctuation follows. -/
def Ends (cs : List Char) : Prop := ∀ c ∈ cs.head?, (punctuation? c).isSome

theorem ends_comma (cs : List Char) : Ends (',' :: cs) := by
  simp [Ends, punctuation?]

theorem mem_of_endsWord (h : endsWord c = true) :
    c ∈ [' ', '\n', '\t', '\r', '"', '[', ']', '\x7b', '\x7d', ',', ':'] := by
  unfold endsWord isSpace punctuation? at h
  split at h <;> simp_all
  tauto

theorem endsWord_of_isPlain (h : JsonNumeral.IsPlain c) : endsWord c = false := by
  have hplain : [' ', '\n', '\t', '\r', '"', '[', ']', '\x7b', '\x7d', ',', ':'].all
      (fun d => ¬JsonNumeral.IsPlain d) = true := by
    decide
  by_contra hends
  have hmem := mem_of_endsWord (Bool.not_eq_false _ ▸ hends)
  exact of_decide_eq_true (List.all_eq_true.mp hplain c hmem) h

theorem step_word (h : endsWord c = false) : step .between c = some (.word [c], []) := by
  simp only [endsWord, Bool.or_eq_false_iff, beq_eq_false_iff_ne, Option.isSome_eq_false_iff,
    Option.isNone_iff_eq_none] at h
  obtain ⟨⟨hspace, hquote⟩, hpunctuation⟩ := h
  simp [step, start, hspace, hquote, hpunctuation]

theorem tokensFrom_wordRest {w : List Char} (hplain : ∀ c ∈ w, endsWord c = false)
    (done : List Char) :
    tokensFrom (.word done) before (w ++ cs) =
      tokensFrom (.word (w.reverse ++ done)) before cs := by
  induction w generalizing done with
  | nil => rfl
  | cons c w ih =>
    have hstep : step (.word done) c = some (.word (c :: done), []) := by
      simp [step, hplain c List.mem_cons_self]
    rw [List.cons_append, tokensFrom_cons hstep, List.nil_append,
      ih fun d hd => hplain d (List.mem_cons_of_mem c hd), List.reverse_cons, List.append_assoc]
    rfl

theorem tokensFrom_wordEnd {done : List Char} {v : Json} (hv : wordValue? done.reverse = some v)
    (hcs : Ends cs) :
    tokensFrom (.word done) before cs = tokensFrom .between (.scalar v :: before) cs := by
  have hfinish : finishWord done = some [.scalar v] := by
    rw [finishWord, hv, Option.map_some]
  cases cs with
  | nil => simp [tokensFrom, hfinish]
  | cons c cs =>
    obtain ⟨t, ht⟩ := Option.isSome_iff_exists.mp (hcs c rfl)
    have hstep : step (.word done) c = some (.between, [t, .scalar v]) := by
      simp [step, endsWord, hfinish, ht, start_of_punctuation? ht]
    rw [tokensFrom_cons hstep, tokensFrom_punctuation ht]
    rfl

theorem tokensFrom_word {w : List Char} {v : Json} (hne : w ≠ [])
    (hplain : ∀ c ∈ w, endsWord c = false) (hv : wordValue? w = some v) (hcs : Ends cs) :
    tokensFrom .between before (w ++ cs) = tokensFrom .between (.scalar v :: before) cs := by
  obtain ⟨c, w, rfl⟩ := List.exists_cons_of_ne_nil hne
  rw [List.cons_append, tokensFrom_cons (step_word (hplain c List.mem_cons_self)),
    List.nil_append, tokensFrom_wordRest fun d hd => hplain d (List.mem_cons_of_mem c hd)]
  exact tokensFrom_wordEnd (by simpa using hv) hcs

theorem tokensFrom_numeral {w : List Char} {v : Json} (hv : JsonNumeral.read? w = some v)
    (hcs : Ends cs) :
    tokensFrom .between before (w ++ cs) = tokensFrom .between (.scalar v :: before) cs := by
  have hplain : ∀ c ∈ w, endsWord c = false := fun c hc =>
    endsWord_of_isPlain (JsonNumeral.isPlain_of_read? hv c hc)
  have hword : wordValue? w = some v := by
    unfold wordValue?
    split_ifs with hnull htrue hfalse
    · subst hnull
      cases hv
    · subst htrue
      cases hv
    · subst hfalse
      cases hv
    · exact hv
  exact tokensFrom_word (JsonNumeral.ne_nil_of_read? hv) hplain hword hcs

/-- A text is cut into given tokens, whatever ends it. -/
def Yields (text : List Char) (tokens : List Token) : Prop :=
  ∀ before cs, Ends cs →
    tokensFrom .between before (text ++ cs) =
      tokensFrom .between (tokens.reverse ++ before) cs

theorem yields_word {w : List Char} {v : Json} (hne : w ≠ [])
    (hplain : w.all (fun c => !endsWord c) = true) (hv : wordValue? w = some v) :
    Yields w [.scalar v] :=
  fun _ _ hcs => tokensFrom_word hne (by simpa using hplain) hv hcs

theorem yields_compactItems {items : List Json}
    (h : ∀ j ∈ items, Yields (compact j) (tokensOf j)) :
    Yields (compactItems items) (itemTokens items) := by
  induction items with
  | nil => exact fun _ _ _ => rfl
  | cons j js ih =>
    have hj := h j List.mem_cons_self
    have hjs := ih fun i hi => h i (List.mem_cons_of_mem j hi)
    cases js with
    | nil => exact hj
    | cons k ks =>
      intro before cs hcs
      simp only [compactItems, itemTokens, List.append_assoc, List.cons_append] at hjs ⊢
      rw [hj _ _ (ends_comma _), tokensFrom_punctuation (t := .comma) rfl, hjs _ _ hcs]
      simp

theorem yields_compactFields {fields : List (String × Json)}
    (h : ∀ f ∈ fields, Yields (compact f.2) (tokensOf f.2)) :
    Yields (compactFields fields) (fieldTokens fields) := by
  induction fields with
  | nil => exact fun _ _ _ => rfl
  | cons f fs ih =>
    obtain ⟨key, value⟩ := f
    have hvalue := h (key, value) List.mem_cons_self
    have hfs := ih fun g hg => h g (List.mem_cons_of_mem _ hg)
    have hfield (before : List Token) (cs : List Char) (hcs : Ends cs) :
        tokensFrom .between before (quote key ++ ':' :: compact value ++ cs) =
          tokensFrom .between ((tokensOf value).reverse ++ .colon :: .scalar (.text key) :: before)
            cs := by
      rw [List.append_assoc, tokensFrom_quote, List.cons_append,
        tokensFrom_punctuation (t := .colon) rfl, hvalue _ _ hcs]
    cases fs with
    | nil =>
      intro before cs hcs
      rw [compactFields, hfield _ _ hcs]
      simp [fieldTokens]
    | cons g gs =>
      intro before cs hcs
      simp only [compactFields, fieldTokens]
      rw [List.append_assoc, List.cons_append, hfield _ _ (ends_comma _),
        tokensFrom_punctuation (t := .comma) rfl, hfs _ _ hcs]
      simp

/-- Containers put their brackets around the tokens of what is in them. -/
theorem Yields.between {o c : Char} {first last : Token} {text : List Char} {tokens : List Token}
    (h : Yields text tokens) (ho : punctuation? o = some first)
    (hc : punctuation? c = some last) :
    Yields (o :: text ++ [c]) (first :: tokens ++ [last]) := by
  intro before cs hcs
  have hclose : Ends (c :: cs) := by simp [Ends, hc]
  simp only [List.cons_append, List.append_assoc, List.nil_append]
  rw [tokensFrom_punctuation ho, h _ _ hclose, tokensFrom_punctuation hc]
  simp

theorem yields_compact {depth : Nat} {j : Json} (h : j.Legible depth) :
    Yields (compact j) (tokensOf j) := by
  induction h with
  | null => exact yields_word (by decide) rfl rfl
  | bool _ b =>
    cases b with
    | false => exact yields_word (by decide) rfl rfl
    | true => exact yields_word (by decide) rfl rfl
  | text _ s => exact fun _ _ _ => tokensFrom_quote s
  | integer _ hlow hhigh =>
    exact fun _ _ hcs => tokensFrom_numeral (JsonNumeral.read?_writeInt hlow hhigh) hcs
  | double _ hread => exact fun _ _ hcs => tokensFrom_numeral hread hcs
  | array _ ih => exact (yields_compactItems ih).between rfl rfl
  | object _ ih => exact (yields_compactFields ih).between rfl rfl

theorem tokens?_compact {depth : Nat} {j : Json} (h : j.Legible depth) :
    tokens? (compact j) = some (tokensOf j) := by
  have hend : Ends [] := by simp [Ends]
  have hyields := yields_compact h [] [] hend
  rw [List.append_nil] at hyields
  rw [tokens?, hyields]
  simp [tokensFrom]

section Building

variable {p next : Progress} {t : Token} {rest : List Token} {stack : List Frame} {depth : Nat}

theorem foldlM_token (h : advance p t = some next) :
    (t :: rest).foldlM advance p = rest.foldlM advance next := by
  rw [List.foldlM_cons, h]
  rfl

/-- A value may come next, on top of a stack. -/
def ExpectsValue (p : Progress) (stack : List Frame) : Prop :=
  ∀ t, t ≠ .closeArray → advance p t = startValue t stack

def ExpectsKey (p : Progress) (stack : List Frame) : Prop :=
  ∀ key, advance p (.scalar (.text key)) = some (.expecting (.colon key) stack)

theorem expectsValue_value : ExpectsValue (.expecting .value stack) stack := fun _ _ => rfl

theorem expectsValue_firstItem : ExpectsValue (.expecting .firstItem stack) stack :=
  fun _ ht => if_neg ht

theorem expectsKey_key : ExpectsKey (.expecting .key stack) stack := fun _ => rfl

theorem expectsKey_firstKey : ExpectsKey (.expecting .firstKey stack) stack := fun _ => rfl

/-- Where a value may come next, the tokens of this one deliver it, if the stack leaves room. -/
def Builds (depth : Nat) (j : Json) : Prop :=
  ∀ p stack rest, ExpectsValue p stack → stack.length + depth ≤ maxDepth →
    (tokensOf j ++ rest).foldlM advance p =
      (deliver j stack).bind fun next => rest.foldlM advance next

theorem builds_scalar {j : Json} (h : tokensOf j = [.scalar j]) : Builds depth j := by
  intro p stack rest hp _
  rw [h, List.cons_append, List.nil_append, List.foldlM_cons, hp _ (by simp)]
  rfl

theorem foldlM_itemTokens {items done : List Json} (hne : items ≠ [])
    (hitems : ∀ j ∈ items, Builds depth j) (hp : ExpectsValue p (.items done :: stack))
    (hroom : stack.length + 1 + depth ≤ maxDepth) :
    (itemTokens items ++ rest).foldlM advance p =
      rest.foldlM advance (.expecting .separator (.items (items.reverse ++ done) :: stack)) := by
  induction items generalizing done p with
  | nil => exact absurd rfl hne
  | cons j js ih =>
    have hj (rest : List Token) : (tokensOf j ++ rest).foldlM advance p =
        rest.foldlM advance (.expecting .separator (.items (j :: done) :: stack)) :=
      hitems j List.mem_cons_self p _ rest hp hroom
    cases js with
    | nil => exact hj rest
    | cons k ks =>
      have hcomma : advance (.expecting .separator (.items (j :: done) :: stack)) .comma =
          some (.expecting .value (.items (j :: done) :: stack)) := rfl
      rw [itemTokens, List.append_assoc, hj, List.cons_append, foldlM_token hcomma,
        ih (by simp) (fun i hi => hitems i (List.mem_cons_of_mem j hi)) expectsValue_value]
      · simp
      · simp

theorem foldlM_fieldTokens {fields done : List (String × Json)} (hne : fields ≠ [])
    (hfields : ∀ f ∈ fields, Builds depth f.2) (hp : ExpectsKey p (.fields done :: stack))
    (hroom : stack.length + 1 + depth ≤ maxDepth) :
    (fieldTokens fields ++ rest).foldlM advance p =
      rest.foldlM advance (.expecting .separator (.fields (fields.reverse ++ done) :: stack)) := by
  induction fields generalizing done p with
  | nil => exact absurd rfl hne
  | cons f fs ih =>
    obtain ⟨key, value⟩ := f
    have hfield (rest : List Token) :
        (.scalar (.text key) :: .colon :: (tokensOf value ++ rest)).foldlM advance p =
          rest.foldlM advance
            (.expecting .separator (.fields ((key, value) :: done) :: stack)) := by
      have hcolon : advance (.expecting (.colon key) (.fields done :: stack)) .colon =
          some (.expecting .value (.member done key :: stack)) := rfl
      rw [foldlM_token (hp key), foldlM_token hcolon]
      exact hfields _ List.mem_cons_self _ _ rest expectsValue_value hroom
    cases fs with
    | nil => exact hfield rest
    | cons g gs =>
      have hcomma :
          advance (.expecting .separator (.fields ((key, value) :: done) :: stack)) .comma =
            some (.expecting .key (.fields ((key, value) :: done) :: stack)) := rfl
      simp only [fieldTokens, List.cons_append, List.append_assoc]
      rw [hfield, foldlM_token hcomma,
        ih (by simp) (fun h hh => hfields h (List.mem_cons_of_mem _ hh)) expectsKey_key]
      simp

theorem builds_of_legible {j : Json} (h : j.Legible depth) : Builds depth j := by
  induction h with
  | null => exact builds_scalar rfl
  | bool => exact builds_scalar rfl
  | text => exact builds_scalar rfl
  | integer => exact builds_scalar rfl
  | double => exact builds_scalar rfl
  | @array depth items _ ih =>
    intro p stack rest hp hroom
    have hopen : advance p .openArray = some (.expecting .firstItem (.items [] :: stack)) := by
      rw [hp _ (by simp), startValue, push, if_pos (by omega)]
    have hclose : advance (.expecting .separator (.items items.reverse :: stack)) .closeArray =
        deliver (.array items) stack := by
      simp [advance, close]
    simp only [tokensOf, List.cons_append, List.append_assoc, List.nil_append]
    rw [foldlM_token hopen]
    -- An empty array is closed where its first item may stand, any other after a separator.
    cases items with
    | nil => rfl
    | cons j js =>
      rw [foldlM_itemTokens (by simp) ih expectsValue_firstItem (by omega), List.append_nil,
        List.foldlM_cons, hclose]
      rfl
  | @object depth fields _ ih =>
    intro p stack rest hp hroom
    have hopen : advance p .openObject = some (.expecting .firstKey (.fields [] :: stack)) := by
      rw [hp _ (by simp), startValue, push, if_pos (by omega)]
    have hclose : advance (.expecting .separator (.fields fields.reverse :: stack)) .closeObject =
        deliver (.object fields) stack := by
      simp [advance, close]
    simp only [tokensOf, List.cons_append, List.append_assoc, List.nil_append]
    rw [foldlM_token hopen]
    cases fields with
    | nil => rfl
    | cons f fs =>
      rw [foldlM_fieldTokens (by simp) ih expectsKey_firstKey (by omega), List.append_nil,
        List.foldlM_cons, hclose]
      rfl

theorem ofTokens?_tokensOf {j : Json} (h : j.Legible maxDepth) :
    ofTokens? (tokensOf j) = some j := by
  have hread := builds_of_legible h (.expecting .value []) [] [] expectsValue_value (by simp)
  rw [List.append_nil] at hread
  rw [ofTokens?, hread]
  rfl

end Building

end JsonText

namespace Json

/-- Compact text is read as the value that was written. -/
theorem parse?_toText {j : Json} (h : j.Legible JsonText.maxDepth) :
    parse? j.toText = some j := by
  rw [parse?, toText, String.toList_ofList, JsonText.tokens?_compact h, Option.bind_some,
    JsonText.ofTokens?_tokensOf h]

end Json
end NoteSearch
