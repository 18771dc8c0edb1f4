import NoteSearch.Text.Blank

/-!
# ASCII case

Only the letters `A` to `Z` have a lower case here; every other character stands for itself.
-/

namespace NoteSearch
namespace Text

def lowerAscii (c : Char) : Char :=
  if 'A' ≤ c ∧ c ≤ 'Z' then Char.ofNat (c.toNat + 32) else c

def lowerAsciiAll (cs : List Char) : List Char := cs.map lowerAscii

end Text

def asciiLower (s : String) : String := String.ofList (Text.lowerAsciiAll s.toList)

def sameIgnoringCase (a b : String) : Bool :=
  Text.lowerAsciiAll a.toList == Text.lowerAsciiAll b.toList

/-- The spelling under which keywords are looked up. -/
def keyword (s : String) : String :=
  String.ofList (Text.lowerAsciiAll (Text.trim s.toList))

@[simp] theorem sameIgnoringCase_self (a : String) : sameIgnoringCase a a = true := by
  simp [sameIgnoringCase]

end NoteSearch
