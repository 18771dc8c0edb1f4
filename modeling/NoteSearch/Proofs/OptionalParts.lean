import Mathlib.Logic.Relation
import NoteSearch.Block.Tree
import NoteSearch.Proofs.Envelopes
import NoteSearch.Proofs.Records

/-!
# Parts that never cost a block

A time that cannot be read is no time, and a list is empty if it is missing, null or written as an
empty one. So whatever stands in place of a time, or of a list without items, at any level, a block
or a tree that could be read can still be read, and nothing else in it changes.
-/

namespace NoteSearch

namespace Decoded

variable {α β γ : Type}

theorem map_bind (x : Decoded α) (f : α → Decoded β) (g : β → γ) :
    (x >>= f).map g = x >>= fun a => (f a).map g := by
  cases x <;> rfl

theorem map_map (x : Decoded α) (f : α → β) (g : β → γ) :
    (x.map f).map g = x.map fun a => g (f a) := by
  cases x <;> rfl

theorem map_id (x : Decoded α) : (x.map fun a => a) = x := by
  cases x <;> rfl

theorem toOption_map (x : Decoded α) (f : α → β) : (x.map f).toOption = x.toOption.map f := by
  cases x <;> rfl

theorem bind_of_map (x : Decoded α) (f : α → β) (g : β → Decoded γ) :
    x.map f >>= g = x >>= fun a => g (f a) := by
  cases x <;> rfl

end Decoded

/-- All that may be written for a list that has no items. -/
inductive Vacant : Option Json → Prop
  | absent : Vacant none
  | null : Vacant (some .null)
  | empty : Vacant (some (.array []))

namespace Record

/-- Records that agree in every field but one. -/
inductive AgreeBut (index : Nat) (name : String) : Record → Record → Prop
  | named {fields gields : List (String × Json)}
      (h : ∀ n, n ≠ name → valuesOf n fields = valuesOf n gields) :
      AgreeBut index name (named fields) (named gields)
  | listed {items jtems : List Json} (h : ∀ i, i ≠ index → items[i]? = jtems[i]?) :
      AgreeBut index name (listed items) (listed jtems)

def listOf {α : Type} (r : Record) (index : Nat) (name : String) (item : Json → Decoded α) :
    Decoded (List α) :=
  (r.field index name (Json.asListOrNull item)).map fun items => items.getD []

/-- Records that have nothing in a list, and agree in every other field. -/
structure BothVacant (index : Nat) (name : String) (r s : Record) : Prop where
  left : ∃ v, r.value? index name = .ok v ∧ Vacant v
  right : ∃ v, s.value? index name = .ok v ∧ Vacant v
  others : AgreeBut index name r s

variable {α : Type} {r s : Record} {index : Nat} {name : String} {i : Nat} {n : String}

namespace AgreeBut

variable (h : AgreeBut index name r s)

include h

theorem value?_eq (hi : i ≠ index) (hn : n ≠ name) : r.value? i n = s.value? i n := by
  cases h with
  | named h => rw [value?, value?, h n hn]
  | listed h => exact congrArg Except.ok (h i hi)

theorem field_eq (decode : Json → Decoded α) (hi : i ≠ index) (hn : n ≠ name) :
    r.field i n decode = s.field i n decode := by
  rw [field, field, h.value?_eq hi hn]

theorem optional_eq (decode : Json → Decoded α) (hi : i ≠ index) (hn : n ≠ name) :
    r.optional i n decode = s.optional i n decode := by
  rw [optional, optional, h.field_eq _ hi hn]

theorem listOf_eq (item : Json → Decoded α) (hi : i ≠ index) (hn : n ≠ name) :
    r.listOf i n item = s.listOf i n item := by
  rw [listOf, listOf, h.field_eq _ hi hn]

theorem close_eq {size : Nat} (hindex : index < size) : r.close size = s.close size := by
  cases h with
  | named h => rfl
  | @listed items jtems h =>
    have hlength : items.length ≤ size ↔ jtems.length ≤ size := by
      rw [← List.getElem?_eq_none_iff, ← List.getElem?_eq_none_iff, h size (by omega)]
    simp only [close, hlength]

end AgreeBut

theorem value?_named {fields : List (String × Json)} {j : Json} (h : valuesOf name fields = [j])
    (index : Nat) : (named fields).value? index name = .ok (some j) := by
  simp only [value?, h]

theorem listOf_of_vacant (item : Json → Decoded α)
    (h : ∃ v, r.value? index name = .ok v ∧ Vacant v) : r.listOf index name item = .ok [] := by
  obtain ⟨v, hv, hvacant⟩ := h
  cases hvacant <;> (rw [listOf, field, hv]; rfl)

/-- Reading a list only depends on what its items are read as. -/
theorem listOf_of_item {item : Json → Decoded α} {before after : List Json} {a b : Json}
    (hr : r.value? index name = .ok (some (.array (before ++ a :: after))))
    (hs : s.value? index name = .ok (some (.array (before ++ b :: after)))) (h : item a = item b) :
    r.listOf index name item = s.listOf index name item := by
  rw [listOf, listOf, field, field, hr, hs]
  simp only [Json.asListOrNull, Json.asList, List.mapM_append, List.mapM_cons, h]

end Record

namespace BlockRef

theorem ofRecord_eq (r : Record) :
    ofRecord r = do
      let id ← r.optional 0 "id" Json.asInt64
      let source ← r.optional 1 "from" Json.asInt64
      let target ← r.optional 2 "to" Json.asInt64
      let kind ← r.field 3 "type" Json.asWord8
      let name ← r.optional 4 "alias" Json.asText
      let data ← r.listOf 5 "data" BlockProperty.ofJson
      r.close 6
      return ⟨id, source, target, kind.getD 0, name, data⟩ := by
  simp only [ofRecord, Record.listOf, Decoded.bind_of_map]

/-- Links that have no properties, however that is written, and agree in everything else. -/
def Respelled (j k : Json) : Prop :=
  ∃ r s, Record.ofJson j = .ok r ∧ Record.ofJson k = .ok s ∧ Record.BothVacant 5 "data" r s

theorem ofJson_eq_of_respelled {j k : Json} (h : Respelled j k) : ofJson j = ofJson k := by
  obtain ⟨r, s, hr, hs, h⟩ := h
  have hdata := Record.listOf_of_vacant BlockProperty.ofJson h.left
  have hdata' := Record.listOf_of_vacant BlockProperty.ofJson h.right
  have hrecords : ofRecord r = ofRecord s := by
    simp (disch := decide) only [ofRecord_eq, h.others.field_eq, h.others.optional_eq,
      h.others.close_eq, hdata, hdata']
  rw [ofJson, ofJson, hr, hs]
  exact hrecords

end BlockRef

namespace Block

theorem ofRecord_eq (r : Record) :
    ofRecord r = do
      let id ← r.field 0 "id" Json.asInt64
      let text ← r.optional 1 "text" Json.asText
      let aliases ← r.listOf 2 "aliases" Json.asText
      let properties ← r.listOf 3 "properties" BlockProperty.ofJson
      let refs ← r.listOf 4 "refs" BlockRef.ofJson
      let backRefs ← r.listOf 5 "backRefs" BlockRef.ofJson
      let children ← r.listOf 6 "children" Json.asInt64
      let parent ← r.optional 7 "parent" Json.asInt64
      let created ← r.field 8 "created" asTime
      let modified ← r.field 9 "modified" asTime
      let id ← Decoded.ofOption id
      r.close 10
      return ⟨id, text, aliases, properties, refs, backRefs, children, parent, created.join,
        modified.join⟩ := by
  simp only [ofRecord, Record.listOf, Decoded.bind_of_map]

def lists : List (Nat × String) :=
  [(2, "aliases"), (3, "properties"), (4, "refs"), (5, "backRefs"), (6, "children")]

def linkLists : List (Nat × String) := [(4, "refs"), (5, "backRefs")]

def times : List (Nat × String) := [(8, "created"), (9, "modified")]

def forget (name : String) (b : Block) : Block :=
  { b with
    created := if name = "created" then none else b.created
    modified := if name = "modified" then none else b.modified }

def timeless (b : Block) : Block := { b with created := none, modified := none }

variable {fields gields : List (String × Json)} {index : Nat} {name : String}

theorem ofJson_of_bothVacant (hlist : (index, name) ∈ lists)
    (h : Record.BothVacant index name (.named fields) (.named gields)) :
    ofJson (.object fields) = ofJson (.object gields) := by
  have hvacant := fun {α} (item : Json → Decoded α) => Record.listOf_of_vacant item h.left
  have hvacant' := fun {α} (item : Json → Decoded α) => Record.listOf_of_vacant item h.right
  change ofRecord (.named fields) = ofRecord (.named gields)
  simp only [lists, List.mem_cons, Prod.mk.injEq, List.not_mem_nil, or_false] at hlist
  rcases hlist with ⟨rfl, rfl⟩ | ⟨rfl, rfl⟩ | ⟨rfl, rfl⟩ | ⟨rfl, rfl⟩ | ⟨rfl, rfl⟩ <;>
    simp (disch := decide) only [ofRecord_eq, h.others.field_eq, h.others.optional_eq,
      h.others.listOf_eq, h.others.close_eq, hvacant, hvacant']

theorem ofJson_of_respelled_link {before after : List Json} {a b : Json}
    (hlist : (index, name) ∈ linkLists)
    (hfields : Record.valuesOf name fields = [.array (before ++ a :: after)])
    (hgields : Record.valuesOf name gields = [.array (before ++ b :: after)])
    (hlink : BlockRef.Respelled a b)
    (h : Record.AgreeBut index name (.named fields) (.named gields)) :
    ofJson (.object fields) = ofJson (.object gields) := by
  have hlinks : (Record.named fields).listOf index name BlockRef.ofJson =
      (Record.named gields).listOf index name BlockRef.ofJson := by
    exact Record.listOf_of_item (Record.value?_named hfields index)
      (Record.value?_named hgields index) (BlockRef.ofJson_eq_of_respelled hlink)
  change ofRecord (.named fields) = ofRecord (.named gields)
  simp only [linkLists, List.mem_cons, Prod.mk.injEq, List.not_mem_nil, or_false] at hlist
  rcases hlist with ⟨rfl, rfl⟩ | ⟨rfl, rfl⟩ <;>
    simp (disch := decide) only [ofRecord_eq, h.field_eq, h.optional_eq, h.listOf_eq, h.close_eq,
      hlinks]

/-- Reading a time never fails. -/
theorem exists_field_asTime (h : (Record.valuesOf name fields).length ≤ 1) (index : Nat) :
    ∃ o, (Record.named fields).field index name asTime = .ok o := by
  match hvalues : Record.valuesOf name fields with
  | [] => exact ⟨none, Record.field_named_of_nil hvalues index⟩
  | [j] => exact ⟨some (time? j), Record.field_named hvalues index⟩
  | _ :: _ :: _ => simp [hvalues] at h

/-- Objects that differ in what stands in the place of a time, or in whether anything does. -/
structure Retimed (name : String) (fields gields : List (String × Json)) : Prop where
  left : (Record.valuesOf name fields).length ≤ 1
  right : (Record.valuesOf name gields).length ≤ 1
  others : ∃ index, (index, name) ∈ times ∧
    Record.AgreeBut index name (.named fields) (.named gields)

/-- Objects that differ in how one empty list is written, of the block or of one of its links. -/
inductive SameLists : List (String × Json) → List (String × Json) → Prop
  | list {index : Nat} {name : String} {fields gields : List (String × Json)}
      (hlist : (index, name) ∈ lists)
      (h : Record.BothVacant index name (.named fields) (.named gields)) : SameLists fields gields
  | link {index : Nat} {name : String} {fields gields : List (String × Json)}
      {before after : List Json} {a b : Json} (hlist : (index, name) ∈ linkLists)
      (hleft : Record.valuesOf name fields = [.array (before ++ a :: after)])
      (hright : Record.valuesOf name gields = [.array (before ++ b :: after)])
      (hlink : BlockRef.Respelled a b)
      (h : Record.AgreeBut index name (.named fields) (.named gields)) : SameLists fields gields

/-- Objects that differ in one part that a block can do without. -/
inductive Respelled : List (String × Json) → List (String × Json) → Prop
  | time {name : String} {fields gields : List (String × Json)} (h : Retimed name fields gields) :
      Respelled fields gields
  | list {fields gields : List (String × Json)} (h : SameLists fields gields) :
      Respelled fields gields

/-- Only a time depends on what stands in its place. -/
theorem map_forget_ofJson (h : Retimed name fields gields) :
    (ofJson (.object fields)).map (forget name) = (ofJson (.object gields)).map (forget name) := by
  obtain ⟨hfields, hgields, index, htime, h⟩ := h
  obtain ⟨o, ho⟩ := exists_field_asTime hfields index
  obtain ⟨o', ho'⟩ := exists_field_asTime hgields index
  change (ofRecord (.named fields)).map _ = (ofRecord (.named gields)).map _
  simp only [times, List.mem_cons, Prod.mk.injEq, List.not_mem_nil, or_false] at htime
  rcases htime with ⟨rfl, rfl⟩ | ⟨rfl, rfl⟩ <;>
    (simp (disch := decide) only [ofRecord_eq, h.field_eq, h.optional_eq, h.listOf_eq, h.close_eq,
      ho, ho', Decoded.ok_bind, Decoded.map_bind]
     rfl)

theorem ofJson_eq_of_sameLists (h : SameLists fields gields) :
    ofJson (.object fields) = ofJson (.object gields) := by
  cases h with
  | list hlist h => exact ofJson_of_bothVacant hlist h
  | link hlist hleft hright hlink h => exact ofJson_of_respelled_link hlist hleft hright hlink h

theorem map_timeless_ofJson (h : Respelled fields gields) :
    (ofJson (.object fields)).map timeless = (ofJson (.object gields)).map timeless := by
  cases h with
  | @time name _ _ h =>
    have hforget := congrArg (Except.map timeless) (map_forget_ofJson h)
    rw [Decoded.map_map, Decoded.map_map] at hforget
    exact hforget
  | list h => rw [ofJson_eq_of_sameLists h]

end Block

namespace Envelope

/-- Lists of objects of which one is written in another way. -/
inductive Respelled : List (List (String × Json)) → List (List (String × Json)) → Prop
  | item (before after : List (List (String × Json))) {fields gields : List (String × Json)}
      (h : Block.Respelled fields gields) :
      Respelled (before ++ fields :: after) (before ++ gields :: after)

def timeless? (fields : List (String × Json)) : Option Block :=
  ((Block.ofJson (.object fields)).map Block.timeless).toOption

theorem map_timeless_blocks_eq (objects : List (List (String × Json))) :
    (blocks (.array (objects.map .object))).map Block.timeless = objects.filterMap timeless? := by
  have hunwrap : unwrap (.array (objects.map .object)) = objects.map .object := by
    apply unwrap_list
    intro item hitem
    obtain ⟨fields, -, rfl⟩ := List.mem_map.mp hitem
    exact isItem_object fields
  rw [blocks, hunwrap, List.filterMap_map, List.map_filterMap]
  apply List.filterMap_congr
  intro fields _
  exact (Decoded.toOption_map _ _).symm

variable {objects others : List (List (String × Json))}

theorem map_timeless_blocks_of_step (h : Respelled objects others) :
    (blocks (.array (objects.map .object))).map Block.timeless =
      (blocks (.array (others.map .object))).map Block.timeless := by
  rw [map_timeless_blocks_eq, map_timeless_blocks_eq]
  cases h with
  | @item before after fields gields h =>
    have hitem : timeless? fields = timeless? gields :=
      congrArg Except.toOption (Block.map_timeless_ofJson h)
    rw [List.filterMap_append, List.filterMap_append, List.filterMap_cons, List.filterMap_cons,
      hitem]

theorem map_timeless_blocks (h : Relation.ReflTransGen Respelled objects others) :
    (blocks (.array (objects.map .object))).map Block.timeless =
      (blocks (.array (others.map .object))).map Block.timeless := by
  induction h with
  | refl => rfl
  | tail _ hstep ih => rw [ih, map_timeless_blocks_of_step hstep]

end Envelope

namespace BlockTree

/-- A node by its fields, or as a list in declared order. -/
def ofRecord (r : Record) : Decoded BlockTree := do
  r.close 3
  let children ← r.listOf 2 "children" ofJson
  ofParts (← r.value? 0 "id") (← r.value? 1 "text") children

theorem childFields_eq (fields : List (String × Json)) :
    childFields fields = (Record.valuesOf "children" fields).map childrenOf := by
  induction fields with
  | nil => rfl
  | cons f fields ih =>
    obtain ⟨key, value⟩ := f
    rw [childFields, Record.valuesOf_cons, ih]
    split <;> rfl

theorem listOfJson_eq (items : List Json) : listOfJson items = items.mapM ofJson := by
  induction items with
  | nil => rfl
  | cons item items ih => rw [listOfJson, ih, List.mapM_cons]

theorem childrenOf_eq : childrenOf = Json.asListOrNull ofJson := by
  funext j
  cases j with
  | array items => exact listOfJson_eq items
  | _ => rfl

theorem listOf_children_named (fields : List (String × Json)) :
    (Record.named fields).listOf 2 "children" ofJson =
      match childFields fields with
      | [] => .ok []
      | [children] => children
      | _ => .error .unfit := by
  rw [childFields_eq, childrenOf_eq, Record.listOf]
  match hvalues : Record.valuesOf "children" fields with
  | [] =>
    rw [Record.field_named_of_nil hvalues]
    rfl
  | [children] =>
    rw [Record.field_named hvalues, Decoded.map_map]
    exact Decoded.map_id _
  | _ :: _ :: _ =>
    simp only [Record.field, Record.value?, hvalues]
    rfl

theorem ofJson_eq_ofRecord {j : Json} {r : Record} (h : Record.ofJson j = .ok r) :
    ofJson j = ofRecord r := by
  cases j with
  | object fields =>
    cases h
    rw [ofRecord, listOf_children_named, ofJson]
    rcases childFields fields with _ | ⟨children, _ | ⟨_, _⟩⟩ <;> rfl
  | array items =>
    cases h
    rw [ofRecord, Record.listOf, ← childrenOf_eq]
    rcases items with _ | ⟨id, _ | ⟨text, _ | ⟨children, _ | ⟨_, _⟩⟩⟩⟩
    · rfl
    · rfl
    · rfl
    · change childrenOf children >>= _ = ((childrenOf children).map some).map _ >>= _
      cases childrenOf children <;> rfl
    · rfl
  | _ => cases h

theorem ofRecord_congr {r s : Record} (h : Record.AgreeBut 2 "children" r s)
    (hchildren : r.listOf 2 "children" ofJson = s.listOf 2 "children" ofJson) :
    ofRecord r = ofRecord s := by
  simp (disch := decide) only [ofRecord, h.close_eq, h.value?_eq, hchildren]

/-- Trees of which one node without children is written in another way, at any depth. -/
inductive Respelled : Json → Json → Prop
  | root {j k : Json} {r s : Record} (hr : Record.ofJson j = .ok r) (hs : Record.ofJson k = .ok s)
      (h : Record.BothVacant 2 "children" r s) : Respelled j k
  | child {j k : Json} {r s : Record} {before after : List Json} {a b : Json}
      (hr : Record.ofJson j = .ok r) (hs : Record.ofJson k = .ok s)
      (hleft : r.value? 2 "children" = .ok (some (.array (before ++ a :: after))))
      (hright : s.value? 2 "children" = .ok (some (.array (before ++ b :: after))))
      (hchild : Respelled a b) (h : Record.AgreeBut 2 "children" r s) : Respelled j k

theorem ofJson_eq_of_respelled {j k : Json} (h : Respelled j k) : ofJson j = ofJson k := by
  induction h with
  | root hr hs h =>
    rw [ofJson_eq_ofRecord hr, ofJson_eq_ofRecord hs]
    apply ofRecord_congr h.others
    rw [Record.listOf_of_vacant ofJson h.left, Record.listOf_of_vacant ofJson h.right]
  | child hr hs hleft hright _ h ih =>
    rw [ofJson_eq_ofRecord hr, ofJson_eq_ofRecord hs]
    exact ofRecord_congr h (Record.listOf_of_item hleft hright ih)

end BlockTree

/-- What stands in the place of a time changes neither whether an object is a block nor anything
else in the block. A list without items may be missing, null or empty, in a block, a link or a tree
at any depth. So a response that is a list of objects keeps all its blocks, up to their times,
through any number of such changes. -/
theorem unusable_parts_cost_nothing :
    (∀ (name : String) (fields gields : List (String × Json)), Block.Retimed name fields gields →
      (Block.ofJson (.object fields)).map (Block.forget name) =
        (Block.ofJson (.object gields)).map (Block.forget name)) ∧
    (∀ fields gields : List (String × Json), Block.SameLists fields gields →
      Block.ofJson (.object fields) = Block.ofJson (.object gields)) ∧
    (∀ j k : Json, BlockRef.Respelled j k → BlockRef.ofJson j = BlockRef.ofJson k) ∧
    (∀ j k : Json, BlockTree.Respelled j k → BlockTree.ofJson j = BlockTree.ofJson k) ∧
    ∀ objects others : List (List (String × Json)),
      Relation.ReflTransGen Envelope.Respelled objects others →
        (Envelope.blocks (.array (objects.map .object))).map Block.timeless =
          (Envelope.blocks (.array (others.map .object))).map Block.timeless :=
  ⟨fun _ _ _ => Block.map_forget_ofJson, fun _ _ => Block.ofJson_eq_of_sameLists,
    fun _ _ => BlockRef.ofJson_eq_of_respelled, fun _ _ => BlockTree.ofJson_eq_of_respelled,
    fun _ _ => Envelope.map_timeless_blocks⟩

/-- A time that becomes a list, and a link that gets a null list. -/
theorem unusable_parts_cost_nothing_twice :
    let link := fun data => Json.object (("to", .integer 5) :: data)
    let block := fun time data =>
      [("id", Json.integer 1), ("created", time), ("refs", .array [link data])]
    let last : List (String × Json) := [("id", .integer 2)]
    let before := [block (.integer 0) [], last]
    let after := [block (.array []) [("data", .null)], last]
    Relation.ReflTransGen Envelope.Respelled before after ∧
      (Envelope.blocks (.array (before.map .object))).map Block.timeless =
        (Envelope.blocks (.array (after.map .object))).map Block.timeless ∧
      (Envelope.blocks (.array (after.map .object))).map Block.id = [1, 2] := by
  intro link block last before after
  have htime : Block.Retimed "created" (block (.integer 0) []) (block (.array []) []) := by
    refine ⟨by decide, by decide, 8, by decide, .named ?_⟩
    intro n hn
    simp [block, hn.symm]
  have hlink : BlockRef.Respelled (link []) (link [("data", .null)]) := by
    refine ⟨_, _, rfl, rfl, ⟨none, rfl, .absent⟩, ⟨some .null, rfl, .null⟩, .named ?_⟩
    intro n hn
    simp [hn.symm]
  have hlist : Block.SameLists (block (.array []) []) (block (.array []) [("data", .null)]) := by
    have hmem : (4, "refs") ∈ Block.linkLists := by decide
    refine @Block.SameLists.link _ _ _ _ [] [] _ _ hmem rfl rfl hlink (.named ?_)
    intro n hn
    simp [block, hn.symm]
  have hsteps : Relation.ReflTransGen Envelope.Respelled before after :=
    .tail (.single (.item [] [last] (.time htime))) (.item [] [last] (.list hlist))
  exact ⟨hsteps, unusable_parts_cost_nothing.2.2.2.2 before after hsteps, by decide +kernel⟩

end NoteSearch
