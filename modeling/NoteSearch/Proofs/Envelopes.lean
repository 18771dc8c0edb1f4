import Mathlib.Data.List.Forall2
import NoteSearch.Backend.Envelope

/-!
# What responses hold

The shapes of a response overlap: a list of two items, a status with its data, and two lists of
matches are all arrays of length two. They are told apart by the kinds of their elements, since no
item is a number or an array. So a response unwraps to the items that it holds, whatever its
envelope, and each of these that can be read as a block yields that block, whatever the others are.
-/

namespace NoteSearch
namespace Envelope

def IsItem (j : Json) : Prop := j.isNumber = false ∧ j.isArray = false

/-- The items that a response holds. A status stands in front of anything but a number. -/
inductive Holds : Json → List Json → Prop
  | list {items : List Json} (h : ∀ item ∈ items, IsItem item) : Holds (.array items) items
  | single (fields : List (String × Json)) : Holds (.object fields) [.object fields]
  | matched (aliases contents : List Json) :
      Holds (.array [.array aliases, .array contents]) (aliases ++ contents)
  | status {code data : Json} {items : List Json} (hcode : code.isNumber = true)
      (hdata : data.isNumber = false) (h : Holds data items) : Holds (.array [code, data]) items
  | null : Holds .null []
  | text (s : String) : Holds (.text s) []
  | bool (b : Bool) : Holds (.bool b) []
  | number {j : Json} (h : j.isNumber = true) : Holds j []

theorem isItem_object (fields : List (String × Json)) : IsItem (.object fields) := ⟨rfl, rfl⟩

theorem unwrap_list {items : List Json} (h : ∀ item ∈ items, IsItem item) :
    unwrap (.array items) = items := by
  rcases items with _ | ⟨first, _ | ⟨second, _ | ⟨third, rest⟩⟩⟩
  · rfl
  · rfl
  · obtain ⟨hnumber, harray⟩ := h first List.mem_cons_self
    unfold unwrap
    rw [hnumber, Bool.false_and, if_neg Bool.false_ne_true]
    cases first with
    | array items => cases harray
    | _ => rfl
  · rfl

theorem unwrap_status {code data : Json} (hcode : code.isNumber = true)
    (hdata : data.isNumber = false) : unwrap (.array [code, data]) = unwrap data := by
  conv_lhs => unfold unwrap
  rw [hcode, hdata, Bool.not_false, Bool.and_true, if_pos rfl]

theorem Holds.unwrap_eq {response : Json} {items : List Json} (h : Holds response items) :
    unwrap response = items := by
  induction h with
  | list h => exact unwrap_list h
  | status hcode hdata _ ih => rw [unwrap_status hcode hdata, ih]
  | @number j h =>
    cases j with
    | integer n => rfl
    | double x => rfl
    | _ => cases h
  | _ => rfl

def isBlock (item : Json) : Bool := (Block.ofJson item).toOption.isSome

/-- An item that cannot be read yields nothing and changes nothing. -/
theorem filterMap_filter_isBlock (items : List Json) :
    (items.filter isBlock).filterMap (fun item => (Block.ofJson item).toOption) =
      items.filterMap fun item => (Block.ofJson item).toOption := by
  rw [List.filterMap_filter]
  apply List.filterMap_congr
  intro item _
  unfold isBlock
  cases (Block.ofJson item).toOption <;> rfl

theorem forall₂_filterMap_ofJson (items : List Json) :
    List.Forall₂ (fun item b => Block.ofJson item = .ok b) (items.filter isBlock)
      (items.filterMap fun item => (Block.ofJson item).toOption) := by
  induction items with
  | nil => exact .nil
  | cons item items ih =>
    cases h : Block.ofJson item with
    | error e =>
      have hblock : isBlock item = false := by rw [isBlock, h]; rfl
      rw [List.filter_cons_of_neg (by simp [hblock]), List.filterMap_cons_none (by rw [h]; rfl)]
      exact ih
    | ok b =>
      have hblock : isBlock item = true := by rw [isBlock, h]; rfl
      rw [List.filter_cons_of_pos hblock, List.filterMap_cons_some (b := b) (by rw [h]; rfl)]
      exact .cons h ih

/-- A response unwraps to the items that it holds, in whatever envelope. Its blocks are what those
items that can be read as blocks are read as, in order; so two responses whose items differ in
nothing that can be read have the same blocks. -/
theorem unwrap_and_blocks_of_holds {response : Json} {items : List Json}
    (h : Holds response items) :
    unwrap response = items ∧
      List.Forall₂ (fun item b => Block.ofJson item = .ok b) (items.filter isBlock)
        (blocks response) ∧
      ∀ other items', Holds other items' → items'.filter isBlock = items.filter isBlock →
        blocks other = blocks response := by
  refine ⟨h.unwrap_eq, ?_, ?_⟩
  · rw [blocks, h.unwrap_eq]
    exact forall₂_filterMap_ofJson items
  · intro other items' h' hitems
    rw [blocks, blocks, h.unwrap_eq, h'.unwrap_eq, ← filterMap_filter_isBlock items', hitems,
      filterMap_filter_isBlock]

/-- Matches behind two statuses yield the blocks of a bare list, although one of the matches is no
block. -/
theorem unwrap_and_blocks_of_nested_status :
    let first : Json := .object [("id", .integer 1)]
    let nameless : Json := .object [("text", .text "no id")]
    let last : Json := .object [("id", .integer 2)]
    let response : Json := .array
      [.integer 200, .array [.integer 0, .array [.array [first], .array [nameless, last]]]]
    Holds response [first, nameless, last] ∧ unwrap response = [first, nameless, last] ∧
      List.Forall₂ (fun item b => Block.ofJson item = .ok b)
        ([first, nameless, last].filter isBlock) (blocks response) ∧
      blocks (.array [first, last]) = blocks response ∧
      blocks response = [Block.bare 1, Block.bare 2] := by
  intro first nameless last response
  have h : Holds response [first, nameless, last] :=
    .status rfl rfl (.status rfl rfl (.matched _ _))
  have hlist : Holds (.array [first, last]) [first, last] := .list (by
    intro item hitem
    rcases List.mem_pair.mp hitem with rfl | rfl <;> exact isItem_object _)
  obtain ⟨hunwrap, hblocks, hsame⟩ := unwrap_and_blocks_of_holds h
  exact ⟨h, hunwrap, hblocks, hsame _ _ hlist (by decide +kernel), by decide +kernel⟩

end Envelope
end NoteSearch
