import Mathlib.Algebra.BigOperators.Group.Finset.Piecewise
import Mathlib.Algebra.Order.BigOperators.Group.Finset

namespace BordOS.Library
set_option autoImplicit true
set_option relaxedAutoImplicit false

/-- The places of a system of parties weigh `n` together, and only finitely many weigh anything. -/
def Tally (w : κ → Nat) (f : ι → κ) (n : Nat) : Prop :=
  ∃ s : Finset ι, (∀ d, d ∉ s → w (f d) = 0) ∧ ∑ d ∈ s, w (f d) = n

variable {ι κ : Type} {w : κ → Nat} {f : ι → κ} {n m : Nat}

theorem Tally.zero (h : ∀ d, w (f d) = 0) : Tally w f 0 := ⟨∅, fun d _ => h d, rfl⟩

theorem Tally.le (h : Tally w f n) (d : ι) : w (f d) ≤ n := by
  obtain ⟨s, hout, rfl⟩ := h
  by_cases hd : d ∈ s
  · exact Finset.single_le_sum (f := fun d => w (f d)) (fun _ _ => Nat.zero_le _) hd
  · rw [hout d hd]
    exact Nat.zero_le _

theorem Tally.eq [Subsingleton ι] (h : Tally w f n) (d : ι) : n = w (f d) := by
  apply Nat.le_antisymm _ (h.le d)
  obtain ⟨s, -, rfl⟩ := h
  have hall : s ⊆ {d} := fun c _ => Finset.mem_singleton.2 (Subsingleton.elim c d)
  have hsum := Finset.sum_le_sum_of_subset (f := fun d => w (f d)) hall
  rwa [Finset.sum_singleton] at hsum

theorem Tally.update [DecidableEq ι] {c : ι} {q : κ} (h : Tally w f n)
    (hm : m + w (f c) = n + w q) : Tally w (Function.update f c q) m := by
  obtain ⟨s, hout, rfl⟩ := h
  have hmem : c ∈ insert c s := Finset.mem_insert_self c s
  have hall : ∑ d ∈ insert c s, w (f d) = ∑ d ∈ s, w (f d) :=
    Finset.sum_insert_of_eq_zero_if_notMem (hout c)
  have hrest : ∑ d ∈ (insert c s).erase c, w (Function.update f c q d) =
      ∑ d ∈ (insert c s).erase c, w (f d) := by
    apply Finset.sum_congr rfl
    intro d hd
    rw [Function.update_of_ne (Finset.ne_of_mem_erase hd)]
  refine ⟨insert c s, ?_, ?_⟩
  · intro d hd
    rw [Finset.mem_insert, not_or] at hd
    rw [Function.update_of_ne hd.1]
    exact hout d hd.2
  · have hold := Finset.add_sum_erase _ (fun d => w (f d)) hmem
    have hnew := Finset.add_sum_erase _ (fun d => w (Function.update f c q d)) hmem
    rw [hall] at hold
    rw [hrest, Function.update_self] at hnew
    omega

end BordOS.Library
