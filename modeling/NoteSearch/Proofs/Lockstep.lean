import NoteSearch.Service

/-!
# Computations in lockstep

Two computations run in lockstep when related states give related answers and leave related states.
-/

namespace NoteSearch

theorem bind_apply {ω α β : Type} (m : StateM ω α) (k : α → StateM ω β) (s : ω) :
    (m >>= k) s = k (m s).1 (m s).2 := rfl

/-- States related by `R` give answers related by `A` and states related by `R` again. -/
def Lockstep {ω ω' α α' : Type} (R : ω → ω' → Prop) (A : α → α' → Prop) (m : StateM ω α)
    (m' : StateM ω' α') : Prop :=
  ∀ s s', R s s' → A (m s).1 (m' s').1 ∧ R (m s).2 (m' s').2

namespace Lockstep

variable {ω ω' α α' β β' : Type} {R : ω → ω' → Prop} {A : α → α' → Prop} {B : β → β' → Prop}

theorem pure {a : α} {a' : α'} (h : A a a') :
    Lockstep R A (Pure.pure a : StateM ω α) (Pure.pure a' : StateM ω' α') :=
  fun _ _ hs => ⟨h, hs⟩

theorem bind {m : StateM ω α} {m' : StateM ω' α'} {k : α → StateM ω β} {k' : α' → StateM ω' β'}
    (hm : Lockstep R A m m') (hk : ∀ a a', A a a' → Lockstep R B (k a) (k' a')) :
    Lockstep R B (m >>= k) (m' >>= k') := by
  intro s s' hs
  obtain ⟨ha, ht⟩ := hm s s' hs
  exact hk _ _ ha _ _ ht

theorem mono {A' : α → α' → Prop} {m : StateM ω α} {m' : StateM ω' α'} (h : Lockstep R A m m')
    (hA : ∀ a a', A a a' → A' a a') : Lockstep R A' m m' :=
  fun s s' hs => ⟨hA _ _ (h s s' hs).1, (h s s' hs).2⟩

end Lockstep
end NoteSearch
