import Mathlib.Data.List.Basic
import Mathlib.Logic.Function.Basic

namespace BordOS.Library
set_option autoImplicit true
set_option relaxedAutoImplicit false

def partner (i : Nat) : Nat := if i % 2 = 0 then i + 1 else i - 1

theorem partner_even (j : Nat) : partner (2 * j) = 2 * j + 1 := if_pos (by omega)

theorem partner_odd (j : Nat) : partner (2 * j + 1) = 2 * j := if_neg (by omega)

theorem even_or_odd (i : Nat) : ∃ j, i = 2 * j ∨ i = 2 * j + 1 := ⟨i / 2, by omega⟩

theorem partner_partner (i : Nat) : partner (partner i) = i := by
  obtain ⟨j, rfl | rfl⟩ := even_or_odd i
  · rw [partner_even, partner_odd]
  · rw [partner_odd, partner_even]

/-- A sequence with the elements of each pair in the other order. -/
def swapPairs (f : Nat → α) (i : Nat) : α := f (partner i)

theorem swapPairs_swapPairs (f : Nat → α) : swapPairs (swapPairs f) = f := by
  funext i
  exact congrArg f (partner_partner i)

theorem swapPairs_eq_iff (f : Nat → α) (k : Nat) :
    (∀ i < 2 * k, swapPairs f i = f i) ↔ ∀ j < k, f (2 * j) = f (2 * j + 1) := by
  constructor
  · intro h j hj
    have hpair := h (2 * j) (by omega)
    rw [swapPairs, partner_even] at hpair
    exact hpair.symm
  · intro h i hi
    obtain ⟨j, rfl | rfl⟩ := even_or_odd i
    · rw [swapPairs, partner_even]
      exact (h j (by omega)).symm
    · rw [swapPairs, partner_odd]
      exact h j (by omega)

def exchange (f : Nat → α) (i : Nat) : Nat → α :=
  Function.update (Function.update f (i + 1) (f i)) i (f (i + 1))

theorem exchange_left (f : Nat → α) (i : Nat) : exchange f i i = f (i + 1) :=
  Function.update_self ..

theorem exchange_right (f : Nat → α) (i : Nat) : exchange f i (i + 1) = f i := by
  rw [exchange, Function.update_of_ne (Nat.succ_ne_self i), Function.update_self]

theorem exchange_other (f : Nat → α) {i a : Nat} (h : a ≠ i) (h' : a ≠ i + 1) :
    exchange f i a = f a := by
  rw [exchange, Function.update_of_ne h, Function.update_of_ne h']

/-- A loop with step two that exchanges the elements of `m` pairs, the first one at `base`. -/
theorem foldl_exchange (f : Nat → α) (base m a : Nat) :
    (List.range' 0 m 2).foldl (fun g i => exchange g (base + i)) f a =
      if base ≤ a ∧ a < base + 2 * m then swapPairs (fun i => f (base + i)) (a - base)
      else f a := by
  induction m generalizing a with
  | zero => rw [if_neg (by omega)]; rfl
  | succ m ih =>
    rw [List.range'_concat, List.foldl_append, List.foldl_cons, List.foldl_nil, Nat.zero_add]
    by_cases hleft : a = base + 2 * m
    · subst hleft
      rw [exchange_left, ih, if_neg (by omega), if_pos (by omega), Nat.add_sub_cancel_left,
        swapPairs, partner_even]
      rfl
    · by_cases hright : a = base + 2 * m + 1
      · subst hright
        rw [exchange_right, ih, if_neg (by omega), if_pos (by omega), Nat.add_assoc,
          Nat.add_sub_cancel_left, swapPairs, partner_odd]
      · rw [exchange_other _ hleft hright, ih]
        by_cases hin : base ≤ a ∧ a < base + 2 * m
        · rw [if_pos hin, if_pos (by omega)]
        · rw [if_neg hin, if_neg (by omega)]

end BordOS.Library
