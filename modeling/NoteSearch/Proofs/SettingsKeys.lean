import Mathlib.Data.List.SplitBy
import Mathlib.Data.List.TakeWhile
import NoteSearch.Proofs.Lowercasing
import NoteSearch.Settings.Tree

/-!
# Keys of settings

A key of a layer is one name, or a path that begins with one. Either way it writes to one slot of
the tree: a name to the slot of its lower case, a longer path to the slot of its first name as it
is written.
-/

namespace NoteSearch
namespace PathStep

variable {text : String} {path : List PathStep}

/-- Whether a step begins with a character. -/
def isStart (c : Char) : Bool := c == '.' || c == '['

theorem isStart_iff {c : Char} : isStart c = true ↔ c = '.' ∨ c = '[' := by
  simp [isStart]

theorem ofPart?_point {name : List Char} {step : PathStep} (h : ofPart? ('.' :: name) = some step) :
    step = .key (String.ofList name) ∧ name ≠ [] ∧ ∀ c ∈ name, isKeyChar c = true := by
  simp only [ofPart?, Option.ite_none_right_eq_some, Bool.and_eq_true, Bool.not_eq_true',
    List.isEmpty_eq_false_iff, List.all_eq_true, Option.some.injEq] at h
  exact ⟨h.2.symm, h.1⟩

theorem ofPart?_name {name : List Char} (hne : name ≠ [])
    (hchars : ∀ c ∈ name, isKeyChar c = true) :
    ofPart? ('.' :: name) = some (.key (String.ofList name)) := by
  simp [ofPart?, hne, List.all_eq_true.mpr hchars]

theorem eq_nil_iff_of_mapM {parts : List (List Char)} {rest : List PathStep}
    (h : parts.mapM ofPart? = some rest) : rest = [] ↔ parts = [] := by
  cases parts with
  | nil =>
    rw [List.mapM_nil] at h
    simp [← Option.some.inj h]
  | cons part parts =>
    rw [List.mapM_cons] at h
    obtain ⟨step, -, h⟩ := Option.bind_eq_some_iff.mp h
    obtain ⟨rest', -, h⟩ := Option.bind_eq_some_iff.mp h
    simp [← Option.some.inj h]

/-- Behind a first part, the rest of a text that is split before points and brackets begins with
one. -/
theorem isStart_head?_flatten {first : List Char} {parts : List (List Char)}
    (hchain : (first :: parts).IsChain fun a b =>
      ∃ ha hb, (fun _ c => c != '.' && c != '[') (a.getLast ha) (b.head hb) = false) :
    ∀ c ∈ parts.flatten.head?, isStart c = true := by
  rcases parts with _ | ⟨part, parts⟩
  · simp
  · obtain ⟨_, hne, hstart⟩ := (List.isChain_cons_cons.mp hchain).1
    obtain ⟨start, part, rfl⟩ := List.exists_cons_of_ne_nil hne
    intro c hc
    obtain rfl : start = c := by simpa using hc
    simpa [isStart, imp_iff_not_or] using hstart

/-- A path begins with a name, and what follows it in the text begins with a point or a bracket. -/
theorem path?_shape (h : path? text = some path) :
    ∃ name tail rest, path = .key name :: rest ∧ text.toList = name.toList ++ tail ∧
      name.toList ≠ [] ∧ (∀ c ∈ name.toList, isKeyChar c = true) ∧ (rest = [] ↔ tail = []) ∧
      ∀ c ∈ tail.head?, isStart c = true := by
  unfold path? at h
  have hflat := List.flatten_splitBy (fun _ c => c != '.' && c != '[') ('.' :: text.toList)
  have hnonempty := List.nil_notMem_splitBy (fun _ c => c != '.' && c != '[') ('.' :: text.toList)
  have hchain :=
    List.isChain_getLast_head_splitBy (fun _ c => c != '.' && c != '[') ('.' :: text.toList)
  generalize List.splitBy (fun _ c => c != '.' && c != '[') ('.' :: text.toList) = parts
    at h hflat hnonempty hchain
  rcases parts with _ | ⟨_ | ⟨first, name⟩, parts⟩
  · simp at hflat
  · simp at hnonempty
  · simp only [List.flatten_cons, List.cons_append, List.cons.injEq] at hflat
    obtain ⟨rfl, htext⟩ := hflat
    rw [List.mapM_cons] at h
    obtain ⟨step, hstep, h⟩ := Option.bind_eq_some_iff.mp h
    obtain ⟨rest, hrest, h⟩ := Option.bind_eq_some_iff.mp h
    obtain ⟨rfl, hname, hchars⟩ := ofPart?_point hstep
    have hnil : parts.flatten = [] ↔ parts = [] := by
      rw [List.flatten_eq_nil_iff, List.eq_nil_iff_forall_not_mem]
      constructor
      · intro hall part hpart
        exact hnonempty (hall part hpart ▸ List.mem_cons_of_mem _ hpart)
      · intro hnone part hpart
        exact absurd hpart (hnone part)
    refine ⟨String.ofList name, parts.flatten, rest, (Option.some.inj h).symm, ?_⟩
    rw [String.toList_ofList, eq_nil_iff_of_mapM hrest, hnil]
    exact ⟨htext.symm, hname, hchars, Iff.rfl, isStart_head?_flatten hchain⟩

theorem path?_key_shape {name : String} {rest : List PathStep}
    (h : path? text = some (.key name :: rest)) :
    ∃ tail, text.toList = name.toList ++ tail ∧ name.toList ≠ [] ∧
      (∀ c ∈ name.toList, isKeyChar c = true) ∧ (rest = [] ↔ tail = []) ∧
      ∀ c ∈ tail.head?, isStart c = true := by
  obtain ⟨name', tail, rest', hpath, hshape⟩ := path?_shape h
  obtain ⟨rfl, rfl⟩ : name = name' ∧ rest = rest' := by simpa using hpath
  exact ⟨tail, hshape⟩

theorem path?_ne_nil : path? text ≠ some [] := by
  intro h
  obtain ⟨name, tail, rest, hpath, -⟩ := path?_shape h
  simp at hpath

/-- A path of one name is this name. -/
theorem path?_single {step : PathStep} (h : path? text = some [step]) : step = .key text := by
  obtain ⟨name, tail, rest, hpath, htext, -, -, hrest, -⟩ := path?_shape h
  obtain ⟨rfl, rfl⟩ := List.cons.inj hpath
  rw [hrest.mp rfl, List.append_nil] at htext
  rw [String.toList_inj.mp htext]

theorem isStart_of_isKeyChar {c : Char} (h : isKeyChar c = true) : isStart c = false := by
  rw [Bool.eq_false_iff]
  intro hstart
  rcases isStart_iff.mp hstart with rfl | rfl <;> revert h <;> decide

/-- A name alone is a path to itself. -/
theorem path?_name {name : String} (hne : name.toList ≠ [])
    (hchars : ∀ c ∈ name.toList, isKeyChar c = true) : path? name = some [.key name] := by
  have hnostart : ∀ c ∈ name.toList, (c != '.' && c != '[') = true := fun c hc => by
    simpa [isStart] using isStart_of_isKeyChar (hchars c hc)
  have hchain : ('.' :: name.toList).IsChain fun _ c => (c != '.' && c != '[') = true :=
    (List.pairwise_cons.mpr
      ⟨hnostart, List.pairwise_of_forall_mem_list fun _ _ c hc => hnostart c hc⟩).isChain
  rw [path?, List.splitBy_of_isChain (List.cons_ne_nil _ _) hchain, List.mapM_cons,
    ofPart?_name hne hchars, String.ofList_toList]
  rfl

end PathStep

namespace SettingsTree

open PathStep Text

/-- The key under which an entry is put into a tree. -/
def keySlot (key : String) : String :=
  match path? key with
  | some (.key name :: _ :: _) => name
  | _ => lowered key

def isName (key : String) : Bool :=
  match path? key with
  | some (_ :: _ :: _) => false
  | _ => true

theorem keySlot_of_isName {key : String} (h : isName key = true) : keySlot key = lowered key := by
  unfold keySlot
  split
  · simp [isName, *] at h
  · rfl

theorem exists_path?_of_isName {key : String} (h : isName key = false) :
    ∃ name step rest, path? key = some (.key name :: step :: rest) ∧ keySlot key = name := by
  unfold isName at h
  split at h
  · rename_i first step rest hpath
    obtain ⟨name, _, _, hshape, -⟩ := path?_shape hpath
    obtain rfl : first = .key name := (List.cons.inj hshape).1
    exact ⟨name, step, rest, hpath, by simp [keySlot, hpath]⟩
  · simp at h

/-- The first name of a key, in lower case. -/
def topName (key : String) : String :=
  String.ofList ((lowered key).toList.takeWhile fun c => !isStart c)

/-- The names that a path leads through, the last in lower case; none if it goes through a
position. -/
def names? : List PathStep → Option (List String)
  | [.key name] => some [lowered name]
  | .key name :: path => (names? path).map (name :: ·)
  | _ => none

/-- The names that a key leads through; a key that is no path is one name. -/
def keyNames? (key : String) : Option (List String) :=
  match path? key with
  | none => some [lowered key]
  | some path => names? path

theorem names?_ne_nil (path : List PathStep) : names? path ≠ some [] := by
  intro h
  rcases path with _ | ⟨_ | _, _ | ⟨step, path⟩⟩ <;> simp [names?] at h

theorem names?_eq_singleton_iff {path : List PathStep} {name : String} :
    names? path = some [name] ↔ ∃ last, path = [.key last] ∧ lowered last = name := by
  constructor
  · intro h
    rcases path with _ | ⟨_ | _, _ | ⟨step, path⟩⟩ <;> simp [names?] at h
    · exact ⟨_, rfl, h⟩
    · exact absurd h.1 (names?_ne_nil _)
  · rintro ⟨last, rfl, rfl⟩
    rfl

theorem names?_eq_pair_iff {path : List PathStep} {first name : String} :
    names? path = some [first, name] ↔
      ∃ last, path = [.key first, .key last] ∧ lowered last = name := by
  constructor
  · intro h
    rcases path with _ | ⟨_ | _, _ | ⟨step, path⟩⟩ <;> simp [names?] at h
    obtain ⟨hnames, rfl⟩ := h
    obtain ⟨last, hpath, hlast⟩ := names?_eq_singleton_iff.mp hnames
    exact ⟨last, by rw [hpath], hlast⟩
  · rintro ⟨last, rfl, rfl⟩
    rfl

theorem keyNames?_eq_singleton_iff {key name : String} :
    keyNames? key = some [name] ↔ isName key = true ∧ lowered key = name := by
  unfold keyNames? isName
  cases hpath : path? key with
  | none => simp
  | some path =>
    rw [names?_eq_singleton_iff]
    rcases path with _ | ⟨step, _ | ⟨step', rest⟩⟩
    · exact absurd hpath path?_ne_nil
    · simp [path?_single hpath]
    · simp

theorem keyNames?_ne_nil (key : String) : keyNames? key ≠ some [] := by
  unfold keyNames?
  cases path? key with
  | none => simp
  | some path => exact names?_ne_nil path

theorem keyNames?_eq_pair_iff {key first name : String} :
    keyNames? key = some [first, name] ↔
      ∃ last, path? key = some [.key first, .key last] ∧ lowered last = name := by
  unfold keyNames?
  cases path? key with
  | none => simp
  | some path => simp [names?_eq_pair_iff]

theorem lowerBetween_of_isKeyChar {before after : List Char} {c : Char} (h : isKeyChar c = true) :
    lowerBetween before c after = [lowerChar c] := by
  refine lowerBetween_of_ne ?_ ?_ <;> rintro rfl <;> revert h <;> decide

theorem lowercaseFrom_append {before name : List Char} (h : ∀ c ∈ name, isKeyChar c = true)
    (tail : List Char) :
    lowercaseFrom before (name ++ tail) =
      name.map lowerChar ++ lowercaseFrom (name.reverse ++ before) tail := by
  induction name generalizing before with
  | nil => rfl
  | cons c name ih =>
    rw [List.forall_mem_cons] at h
    rw [List.cons_append, lowercaseFrom, lowerBetween_of_isKeyChar h.1, ih h.2]
    simp

theorem isKeyChar_iff (c : Char) :
    isKeyChar c = true ↔
      ((('A' ≤ c ∧ c ≤ 'Z') ∨ ('a' ≤ c ∧ c ≤ 'z')) ∨ ('0' ≤ c ∧ c ≤ '9')) ∨
        c = ' ' ∨ c = '_' ∨ c = '-' := by
  change (((decide ('A' ≤ c ∧ c ≤ 'Z') || (decide ('a' ≤ c) && decide (c ≤ 'z'))) ||
    (decide ('0' ≤ c) && decide (c ≤ '9'))) || c == ' ' || c == '_' || c == '-') = true ↔ _
  simp only [Bool.or_eq_true, Bool.and_eq_true, decide_eq_true_eq, beq_iff_eq, or_assoc]

theorem toNat_lt_of_isKeyChar {c : Char} (h : isKeyChar c = true) : c.toNat < 128 := by
  rcases (isKeyChar_iff c).mp h with ((h | h) | h) | rfl | rfl | rfl
  · exact lt_of_le_of_lt h.2 (by decide)
  · exact lt_of_le_of_lt h.2 (by decide)
  · exact lt_of_le_of_lt h.2 (by decide)
  all_goals decide

theorem isStart_lowerChar_ofNat : ∀ n < 128,
    isKeyChar (Char.ofNat n) = true → isStart (lowerChar (Char.ofNat n)) = false := by
  decide +kernel

theorem isStart_lowerChar {c : Char} (h : isKeyChar c = true) : isStart (lowerChar c) = false := by
  have hascii := isStart_lowerChar_ofNat c.toNat (toNat_lt_of_isKeyChar h)
  rw [Char.ofNat_toNat] at hascii
  exact hascii h

theorem isStart_head?_lowercaseFrom {before tail : List Char}
    (h : ∀ c ∈ tail.head?, isStart c = true) :
    ∀ c ∈ (lowercaseFrom before tail).head?, isStart c = true := by
  cases tail with
  | nil => simp [lowercaseFrom]
  | cons start tail =>
    rcases isStart_iff.mp (h start rfl) with rfl | rfl
    · have hlower : lowerChar '.' = '.' := by decide +kernel
      simp [lowercaseFrom, lowerBetween, hlower, isStart]
    · have hlower : lowerChar '[' = '[' := by decide +kernel
      simp [lowercaseFrom, lowerBetween, hlower, isStart]

theorem topName_of_toList {key : String} {name tail : List Char}
    (hkey : (lowered key).toList = name ++ tail) (hname : ∀ c ∈ name, isStart c = false)
    (htail : ∀ c ∈ tail.head?, isStart c = true) : topName key = String.ofList name := by
  have hnone : tail.takeWhile (fun c => !isStart c) = [] := by
    cases tail with
    | nil => rfl
    | cons start tail => simp [htail start rfl]
  rw [topName, hkey, List.takeWhile_append_of_pos (fun c hc => by simp [hname c hc]), hnone,
    List.append_nil]

/-- The first name of a path, whatever follows it. -/
theorem topName_of_path? {key name : String} {rest : List PathStep}
    (h : path? key = some (.key name :: rest)) : topName key = lowered name := by
  obtain ⟨tail, htext, -, hchars, -, hstart⟩ := path?_key_shape h
  have hlower : lowercase name.toList = name.toList.map lowerChar := by
    have happend : lowercase (name.toList ++ []) = _ := lowercaseFrom_append hchars []
    simpa [lowercaseFrom] using happend
  have hkey : (lowered key).toList =
      name.toList.map lowerChar ++ lowercaseFrom (name.toList.reverse ++ []) tail := by
    rw [toList_lowered, htext]
    exact lowercaseFrom_append hchars tail
  have hname : ∀ c ∈ name.toList.map lowerChar, isStart c = false := by
    simpa using fun c hc => isStart_lowerChar (hchars c hc)
  rw [topName_of_toList hkey hname (isStart_head?_lowercaseFrom hstart), lowered, hlower]

theorem isKeyChar_of_isSmall {c : Char} (h : isSmall c = true) : isKeyChar c = true := by
  simp only [isSmall, Bool.or_eq_true, Bool.and_eq_true, decide_eq_true_eq, beq_iff_eq] at h
  rw [isKeyChar_iff]
  rcases h with h | rfl
  · exact .inl (.inl (.inr h))
  · decide

theorem isName_of_isSmallName {name : String} (h : isSmallName name = true) :
    isName name = true := by
  obtain ⟨hne, hsmall⟩ := isSmallName_iff.mp h
  simp [isName, path?_name hne fun c hc => isKeyChar_of_isSmall (hsmall c hc)]

/-- What an entry leaves under its slot is read back as an entry of a name only if the key of the
entry begins with this name. -/
theorem topName_of_keySlot {key name : String} (hname : isSmallName name = true)
    (h : keySlot (keySlot key) = name) : topName key = name := by
  cases hone : isName key with
  | true =>
    rw [keySlot_of_isName hone] at h
    have hlower : ∃ tail, (lowered key).toList = name.toList ++ tail ∧
        ∀ c ∈ tail.head?, isStart c = true := by
      cases hone' : isName (lowered key) with
      | true =>
        rw [keySlot_of_isName hone'] at h
        have hkey := eq_of_lowered_eq hname (fun c hc => isCapital_of_mem_lowered hc) h
        exact ⟨[], by simp [hkey], by simp⟩
      | false =>
        obtain ⟨first, step, rest, hpath, hslot⟩ := exists_path?_of_isName hone'
        obtain ⟨tail, htext, -, -, -, hstart⟩ := path?_key_shape hpath
        exact ⟨tail, by rw [htext, ← h, hslot], hstart⟩
    obtain ⟨tail, htext, htail⟩ := hlower
    have hstart : ∀ c ∈ name.toList, isStart c = false := fun c hc =>
      isStart_of_isKeyChar (isKeyChar_of_isSmall ((isSmallName_iff.mp hname).2 c hc))
    rw [topName_of_toList htext hstart htail, String.ofList_toList]
  | false =>
    obtain ⟨first, step, rest, hpath, hslot⟩ := exists_path?_of_isName hone
    obtain ⟨-, -, hne, hchars, -⟩ := path?_key_shape hpath
    have hself : isName first = true := by simp [isName, path?_name hne hchars]
    rw [topName_of_path? hpath, ← keySlot_of_isName hself, ← hslot, h]

end SettingsTree
end NoteSearch
