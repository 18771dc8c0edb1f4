import NoteSearch.Query.Sort

/-!
# Query options

Sorting, paging and the exclusion of one block, common to all searches.
-/

namespace NoteSearch

structure QueryOptions where
  sort : List SortSpec
  page : Option Nat
  pageSize : Option Nat
  excludeId : Option Int
deriving DecidableEq, Repr

namespace QueryOptions

/-- No sorting, paging or exclusion. -/
def standard : QueryOptions := ⟨[], none, none, none⟩

def withSort (o : QueryOptions) (spec : SortSpec) : QueryOptions :=
  { o with sort := o.sort ++ [spec] }

def withPage (o : QueryOptions) (page pageSize : Nat) : QueryOptions :=
  { o with page := some page, pageSize := some pageSize }

def excluding (o : QueryOptions) (id : Int) : QueryOptions := { o with excludeId := some id }

def ofRecord (r : Record) : Decoded QueryOptions := do
  let sort ← r.field 0 "sort" (Json.asList fun j => .ok (SortSpec.ofJson j))
  let page ← r.optional 1 "page" Json.asWord32
  let pageSize ← r.optional 2 "pageSize" Json.asWord32
  let excludeId ← r.optional 3 "excludeId" Json.asInt64
  r.close 4
  return ⟨sort.getD [], page, pageSize, excludeId⟩

def ofJson (j : Json) : Decoded QueryOptions := Record.ofJson j >>= ofRecord

def toJson (o : QueryOptions) : Json :=
  .object
    [ ("sort", .array (o.sort.map SortSpec.toJson))
    , ("page", Json.orNull (o.page.map fun n => .integer n))
    , ("pageSize", Json.orNull (o.pageSize.map fun n => .integer n))
    , ("excludeId", Json.orNull (o.excludeId.map .integer)) ]

end QueryOptions
end NoteSearch
