import NoteSearch.Query.Options
import NoteSearch.Wire.Item

/-!
# Query descriptions and their wire shapes

What is submitted to the backend: the root of a query tree with sorting, paging and exclusion. Newer
backends take a description as it is compiled. Older ones take a single tag condition only, in a
group of its own kind or bare; such a description is put in another envelope with the same clauses.
-/

namespace NoteSearch

inductive WireShape where
  | current
  | legacySingle
  | directTag
deriving DecidableEq, Repr

namespace WireShape

def name : WireShape → String
  | current => "current"
  | legacySingle => "legacy_single"
  | directTag => "direct_tag"

def ofName? : String → Option WireShape
  | "current" => some current
  | "legacy_single" => some legacySingle
  | "direct_tag" => some directTag
  | _ => none

@[simp] theorem ofName?_name (s : WireShape) : ofName? s.name = some s := by
  cases s <;> rfl

end WireShape

structure QueryDescription where
  item : WireItem
  sort : List SortKey
  page : Option Nat
  pageSize : Option Nat
  excludeId : Option Int
deriving Repr

namespace QueryDescription

/-- A root with options, the sort keys normalized. -/
def describe (item : WireItem) (options : QueryOptions) : QueryDescription :=
  { item
    sort := SortSpec.normalizeAll options.sort
    page := options.page
    pageSize := options.pageSize
    excludeId := options.excludeId }

/-- The root in the envelope of a shape; none if the shape cannot hold it. -/
def rootIn? (item : WireItem) : WireShape → Option WireItem
  | .current => some item
  | .legacySingle => item.singleTag?.map fun tag => .group .legacyAnd [.tag tag]
  | .directTag => item.singleTag?.map .tag

def reshape? (q : QueryDescription) (shape : WireShape) : Option QueryDescription :=
  (rootIn? q.item shape).map fun item => { q with item }

/-- The shape that a submitted description has. -/
def shape (q : QueryDescription) : WireShape :=
  match q.item with
  | .group .legacyAnd _ => .legacySingle
  | .tag _ => .directTag
  | _ => .current

def sortFields : List SortKey → List (String × Json)
  | [] => []
  | keys => [("sort", .array (keys.map SortKey.toJson))]

/-- Absent parts are not written. -/
def toJson (q : QueryDescription) : Json :=
  .object <|
    [("q", q.item.toJson)] ++ sortFields q.sort ++
      Json.whenSome "page" (q.page.map fun n => .integer n) ++
        Json.whenSome "pageSize" (q.pageSize.map fun n => .integer n) ++
          Json.whenSome "excludeId" (q.excludeId.map .integer)

@[simp] theorem reshape?_current (q : QueryDescription) : q.reshape? .current = some q := by
  cases q
  rfl

end QueryDescription
end NoteSearch
