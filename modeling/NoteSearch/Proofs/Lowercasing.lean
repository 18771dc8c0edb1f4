import NoteSearch.Text.Lowercase

/-!
# Lowercasing into small letters

Only small letters themselves, the capitals `A` to `Z` and the Kelvin sign have a small ASCII letter
as their lower case, and no character has one of these capitals as its lower case. So a text that is
lowercased already has a name in small letters as its lower case only if it is this name.
-/

namespace NoteSearch
namespace Text

def isSmall (c : Char) : Bool := ('a' ≤ c && c ≤ 'z') || c == '_'

/-- Characters other than small letters that have a small letter as their lower case. -/
def isCapital (c : Char) : Bool := ('A' ≤ c && c ≤ 'Z') || c == '\u212A'

theorem isSmall_iff (c : Char) :
    isSmall c = true ↔ (0x61 ≤ c.toNat ∧ c.toNat ≤ 0x7A) ∨ c.toNat = 0x5F := by
  simp [isSmall, Char.le_def, ← Char.toNat_inj, UInt32.le_iff_toNat_le]

theorem isCapital_iff (c : Char) :
    isCapital c = true ↔ (0x41 ≤ c.toNat ∧ c.toNat ≤ 0x5A) ∨ c.toNat = 0x212A := by
  simp [isCapital, Char.le_def, ← Char.toNat_inj, UInt32.le_iff_toNat_le]

/-- No range of the table leads to a capital. -/
theorem ranges_avoid_capitals : ∀ r ∈ lowercaseRanges,
    0x5A < (r.first : Int) + r.shift ∧
      (0x212A < (r.first : Int) + r.shift ∨ (r.last : Int) + r.shift < 0x212A) := by
  decide +kernel

/-- Only the ranges of the capitals lead to small letters. -/
theorem ranges_to_small : ∀ r ∈ lowercaseRanges,
    (r.first = 0x41 ∧ r.last = 0x5A) ∨ (r.first = 0x212A ∧ r.last = 0x212A) ∨
      0x7A < (r.first : Int) + r.shift := by
  decide +kernel

theorem ranges_avoid_small : ∀ r ∈ lowercaseRanges, r.last < 0x5F ∨ 0x7A < r.first := by
  decide +kernel

theorem ranges_take_capitals :
    (lowercaseRanges.any fun r => r.first == 0x41 && r.last == 0x5A && r.stride == 1) = true ∧
      (lowercaseRanges.any fun r => r.covers 0x212A) = true := by
  decide +kernel

theorem le_of_covers {r : CaseRange} {code : Nat} (h : r.covers code = true) :
    r.first ≤ code ∧ code ≤ r.last := by
  simp only [CaseRange.covers, Bool.and_eq_true, decide_eq_true_eq] at h
  exact h.1

theorem exists_covers_of_isCapital {c : Char} (h : isCapital c = true) :
    ∃ r ∈ lowercaseRanges, r.covers c.toNat = true := by
  obtain ⟨hletters, hkelvin⟩ := ranges_take_capitals
  rcases (isCapital_iff c).mp h with hc | hc
  · obtain ⟨r, hr, hrange⟩ := List.any_eq_true.mp hletters
    simp only [Bool.and_eq_true, beq_iff_eq] at hrange
    obtain ⟨⟨hfirst, hlast⟩, hstride⟩ := hrange
    refine ⟨r, hr, ?_⟩
    simp only [CaseRange.covers, hfirst, hlast, hstride, Nat.mod_one]
    simp [hc]
  · obtain ⟨r, hr, hcovers⟩ := List.any_eq_true.mp hkelvin
    exact ⟨r, hr, by rw [hc]; exact hcovers⟩

theorem toNat_ofNat_cases (n : Nat) : (Char.ofNat n).toNat = n ∨ (Char.ofNat n).toNat = 0 := by
  by_cases h : n.isValidChar
  · have hvalid : Char.ofNat n = Char.ofNatAux n h := dif_pos h
    exact .inl (congrArg Char.toNat hvalid)
  · have hinvalid : Char.ofNat n = ⟨0, .inl (by decide)⟩ := dif_neg h
    exact .inr (congrArg Char.toNat hinvalid)

/-- A character stands for itself if no range of the table covers it. -/
theorem lowerChar_cases (c : Char) :
    (lowerChar c = c ∧ ∀ r ∈ lowercaseRanges, r.covers c.toNat = false) ∨
      ∃ r ∈ lowercaseRanges, r.covers c.toNat = true ∧
        ((lowerChar c).toNat = ((c.toNat : Int) + r.shift).toNat ∨ (lowerChar c).toNat = 0) := by
  unfold lowerChar
  cases h : lowercaseRanges.find? (fun r => r.covers c.toNat) with
  | none =>
    left
    exact ⟨rfl, fun r hr => by simpa using List.find?_eq_none.mp h r hr⟩
  | some r =>
    right
    have hcovers := List.find?_some h
    exact ⟨r, List.mem_of_find?_eq_some h, hcovers, toNat_ofNat_cases _⟩

theorem isCapital_lowerChar (c : Char) : isCapital (lowerChar c) = false := by
  rw [Bool.eq_false_iff]
  intro h
  rcases lowerChar_cases c with ⟨hself, hnone⟩ | ⟨r, hr, hcovers, hcode⟩
  · rw [hself] at h
    obtain ⟨r, hr, hcovers⟩ := exists_covers_of_isCapital h
    simp [hnone r hr] at hcovers
  · have hcapital := (isCapital_iff _).mp h
    have havoid := ranges_avoid_capitals r hr
    have hle := le_of_covers hcovers
    omega

/-- Only a capital changes into a small letter. -/
theorem lowerChar_eq_self {c : Char} (hcapital : isCapital c = false)
    (hsmall : isSmall (lowerChar c) = true) : lowerChar c = c := by
  rcases lowerChar_cases c with ⟨hself, -⟩ | ⟨r, hr, hcovers, hcode⟩
  · exact hself
  · rw [Bool.eq_false_iff, Ne, isCapital_iff] at hcapital
    have hto := (isSmall_iff _).mp hsmall
    have hrange := ranges_to_small r hr
    have hle := le_of_covers hcovers
    omega

theorem lowerChar_of_isSmall {c : Char} (h : isSmall c = true) : lowerChar c = c := by
  rcases lowerChar_cases c with ⟨hself, -⟩ | ⟨r, hr, hcovers, -⟩
  · exact hself
  · have hsmall := (isSmall_iff c).mp h
    have hrange := ranges_avoid_small r hr
    have hle := le_of_covers hcovers
    omega

theorem lowerBetween_of_ne {before after : List Char} {c : Char} (hsigma : c ≠ 'Σ')
    (hdotted : c ≠ 'İ') : lowerBetween before c after = [lowerChar c] := by
  rw [lowerBetween, if_neg hsigma, if_neg hdotted]

theorem lowercaseFrom_of_isSmall {before cs : List Char} (h : ∀ c ∈ cs, isSmall c = true) :
    lowercaseFrom before cs = cs := by
  induction cs generalizing before with
  | nil => rfl
  | cons c cs ih =>
    rw [List.forall_mem_cons] at h
    have hsigma : c ≠ 'Σ' := by
      rintro rfl
      exact absurd h.1 (by decide)
    have hdotted : c ≠ 'İ' := by
      rintro rfl
      exact absurd h.1 (by decide)
    rw [lowercaseFrom, lowerBetween_of_ne hsigma hdotted, lowerChar_of_isSmall h.1, ih h.2]
    rfl

theorem isCapital_of_mem_lowerBetween {before after : List Char} {c d : Char}
    (h : d ∈ lowerBetween before c after) : isCapital d = false := by
  unfold lowerBetween at h
  split at h
  · split at h <;> simp only [List.mem_singleton] at h <;> subst h <;> decide
  · split at h
    · simp only [List.mem_cons, List.not_mem_nil, or_false] at h
      rcases h with rfl | rfl <;> decide
    · rw [List.mem_singleton.mp h]
      exact isCapital_lowerChar c

theorem isCapital_of_mem_lowercaseFrom {before cs : List Char} {d : Char}
    (h : d ∈ lowercaseFrom before cs) : isCapital d = false := by
  induction cs generalizing before with
  | nil => simp [lowercaseFrom] at h
  | cons c cs ih =>
    rcases List.mem_append.mp h with h | h
    · exact isCapital_of_mem_lowerBetween h
    · exact ih h

/-- The two characters with more to their lower case than a table entry do not end in small
letters. -/
theorem lowerBetween_eq_self {before after : List Char} {c : Char} (hcapital : isCapital c = false)
    (hsmall : ∀ d ∈ lowerBetween before c after, isSmall d = true) :
    lowerBetween before c after = [c] := by
  unfold lowerBetween at hsmall ⊢
  split at hsmall
  · split at hsmall
    · exact absurd (hsmall 'ς' (by simp)) (by decide)
    · exact absurd (hsmall 'σ' (by simp)) (by decide)
  · rename_i hsigma
    rw [if_neg hsigma]
    split at hsmall
    · exact absurd (hsmall '\u0307' (by simp)) (by decide)
    · rename_i hdotted
      rw [if_neg hdotted, lowerChar_eq_self hcapital (hsmall _ (by simp))]

theorem lowercaseFrom_eq_self {before cs : List Char} (hcapital : ∀ c ∈ cs, isCapital c = false)
    (hsmall : ∀ d ∈ lowercaseFrom before cs, isSmall d = true) : lowercaseFrom before cs = cs := by
  induction cs generalizing before with
  | nil => rfl
  | cons c cs ih =>
    simp only [lowercaseFrom, List.mem_append, List.forall_mem_cons] at hsmall hcapital ⊢
    rw [lowerBetween_eq_self hcapital.1 fun d hd => hsmall d (.inl hd),
      ih hcapital.2 fun d hd => hsmall d (.inr hd)]
    rfl

end Text

open Text

theorem toList_lowered (s : String) : (lowered s).toList = lowercase s.toList :=
  String.toList_ofList

def isSmallName (s : String) : Bool := !s.toList.isEmpty && s.toList.all isSmall

theorem isSmallName_iff {s : String} :
    isSmallName s = true ↔ s.toList ≠ [] ∧ ∀ c ∈ s.toList, isSmall c = true := by
  simp [isSmallName]

theorem lowered_of_isSmallName {name : String} (h : isSmallName name = true) :
    lowered name = name := by
  rw [← String.toList_inj, toList_lowered]
  exact lowercaseFrom_of_isSmall (isSmallName_iff.mp h).2

theorem isCapital_of_mem_lowered {s : String} {c : Char} (h : c ∈ (lowered s).toList) :
    isCapital c = false := by
  rw [toList_lowered] at h
  exact isCapital_of_mem_lowercaseFrom h

/-- A text without capitals has a name in small letters as its lower case only if it is this
name. -/
theorem eq_of_lowered_eq {s name : String} (hname : isSmallName name = true)
    (hcapital : ∀ c ∈ s.toList, isCapital c = false) (h : lowered s = name) : s = name := by
  subst h
  rw [isSmallName_iff, toList_lowered] at hname
  rw [← String.toList_inj, toList_lowered, lowercase, lowercaseFrom_eq_self hcapital hname.2]

end NoteSearch
