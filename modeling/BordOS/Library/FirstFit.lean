import Mathlib.Order.Bounds.Basic
import Mathlib.Order.WellFounded

namespace BordOS.Library
set_option autoImplicit true
set_option relaxedAutoImplicit false

/-- The choice of a cyclic first fit: the least free number from the hint on, else the least one
below it. -/
def CyclicFirst (free : Set Nat) (hint m : Nat) : Prop :=
  IsLeast (free ∩ Set.Ici hint) m ∨
    free ∩ Set.Ici hint = ∅ ∧ IsLeast (free ∩ Set.Iio hint) m

variable {free : Set Nat} {hint m : Nat}

theorem CyclicFirst.mem (h : CyclicFirst free hint m) : m ∈ free := by
  rcases h with h | ⟨-, h⟩
  · exact h.1.1
  · exact h.1.1

theorem CyclicFirst.unique {m' : Nat} (h : CyclicFirst free hint m)
    (h' : CyclicFirst free hint m') : m = m' := by
  rcases h with h | ⟨hnone, h⟩
  · rcases h' with h' | ⟨hnone, -⟩
    · exact h.unique h'
    · rw [hnone] at h
      exact h.1.elim
  · rcases h' with h' | ⟨-, h'⟩
    · rw [hnone] at h'
      exact h'.1.elim
    · exact h.unique h'

end BordOS.Library
