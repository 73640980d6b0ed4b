import Mathlib.Data.Nat.Digits.Defs

namespace BordOS.Library
set_option autoImplicit true
set_option relaxedAutoImplicit false

/-- Zero has one digit. No other number starts with a zero. -/
def positional (base n : Nat) : List Nat :=
  if n = 0 then [0] else (Nat.digits base n).reverse

def readPositional (base : Nat) (ds : List Nat) : Nat := Nat.ofDigits base ds.reverse

variable {base n : Nat}

theorem positional_of_lt (h : n < base) : positional base n = [n] := by
  by_cases hn : n = 0
  · rw [positional, if_pos hn, hn]
  · rw [positional, if_neg hn, Nat.digits_of_lt base n hn h]
    rfl

theorem positional_of_le (hb : 1 < base) (h : base ≤ n) :
    positional base n = positional base (n / base) ++ [n % base] := by
  have hn : n ≠ 0 := by omega
  have hq : n / base ≠ 0 := Nat.ne_of_gt (Nat.div_pos h (by omega))
  rw [positional, if_neg hn, positional, if_neg hq, Nat.digits_def' hb (by omega),
    List.reverse_cons]

@[simp] theorem readPositional_singleton (base d : Nat) : readPositional base [d] = d := by
  simp [readPositional]

theorem readPositional_append (base : Nat) (ds : List Nat) (d : Nat) :
    readPositional base (ds ++ [d]) = base * readPositional base ds + d := by
  rw [readPositional, List.reverse_append, List.reverse_singleton, List.singleton_append,
    Nat.ofDigits_cons, Nat.add_comm]
  rfl

theorem readPositional_positional (base n : Nat) :
    readPositional base (positional base n) = n := by
  by_cases hn : n = 0
  · rw [positional, if_pos hn, hn, readPositional_singleton]
  · rw [positional, if_neg hn, readPositional, List.reverse_reverse, Nat.ofDigits_digits]

theorem positional_lt (hb : 1 < base) {d : Nat} (h : d ∈ positional base n) : d < base := by
  by_cases hn : n = 0
  · rw [positional, if_pos hn, List.mem_singleton] at h
    omega
  · rw [positional, if_neg hn, List.mem_reverse] at h
    exact Nat.digits_lt_base hb h

end BordOS.Library
