import NoteSearch.Schema.Basic
import NoteSearch.Text.Lowercase

/-!
# The schema cache

Schemas are kept for a time under the name of their tag, up to case, the blanks around it and
leading hash signs. An entry is replaced as a whole; one that has expired stays until it is replaced
or dropped, but is not answered.
-/

namespace NoteSearch

/-- An entry without an expiry never expires. -/
structure CacheEntry where
  schema : TagSchema
  expiresAt : Option Nat
deriving DecidableEq, Repr

def CacheEntry.isLive (now : Nat) (e : CacheEntry) : Bool :=
  match e.expiresAt with
  | some finish => now < finish
  | none => true

/-- Keys with their entries, each key once. Times and the lifetime are in nanoseconds. -/
structure SchemaCache where
  lifetime : Nat
  entries : List (String × CacheEntry)
deriving DecidableEq, Repr

namespace SchemaCache

def standardLifetime : Nat := 1800

def nanosPerSecond : Nat := 1000000000

/-- A cache whose lifetime is given in seconds. -/
def empty (seconds : Nat) : SchemaCache := ⟨seconds * nanosPerSecond, []⟩

def key (tag : String) : String :=
  lowered (String.ofList ((Text.trim tag.toList).dropWhile (· == '#')))

def lastSecond : Nat := 9223372036854775807

/-- The end of a lifetime that starts now; none past the end of the clock. -/
def expiry (lifetime now : Nat) : Option Nat :=
  let finish := now + lifetime
  if finish / nanosPerSecond ≤ lastSecond then some finish else none

def entry? (c : SchemaCache) (tag : String) : Option CacheEntry := c.entries.lookup (key tag)

/-- The schema of a tag unless it has expired. -/
def get? (c : SchemaCache) (now : Nat) (tag : String) : Option TagSchema :=
  match c.entry? tag with
  | some e => if e.isLive now then some e.schema else none
  | none => none

def without (k : String) (entries : List (String × CacheEntry)) : List (String × CacheEntry) :=
  entries.filter fun entry => entry.1 != k

def insert (c : SchemaCache) (now : Nat) (tag : String) (schema : TagSchema) : SchemaCache :=
  { c with
    entries := (key tag, ⟨schema, expiry c.lifetime now⟩) :: without (key tag) c.entries }

def invalidate (c : SchemaCache) (tag : String) : Bool × SchemaCache :=
  ((c.entry? tag).isSome, { c with entries := without (key tag) c.entries })

def clear (c : SchemaCache) : SchemaCache := { c with entries := [] }

/-- Expired entries count. -/
def size (c : SchemaCache) : Nat := c.entries.length

end SchemaCache
end NoteSearch
