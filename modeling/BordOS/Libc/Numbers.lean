import BordOS.Libc.Printf
import BordOS.Library.Positional

namespace BordOS
open Library
set_option autoImplicit true
set_option relaxedAutoImplicit false

def digitValue (c : BitVec 8) : Nat := (CString.lit "0123456789ABCDEF").chars.idxOf c

def numeral (base n : Nat) : List (BitVec 8) := (positional base n).map digitChar

def readNumeral (base : Nat) (cs : List (BitVec 8)) : Nat :=
  readPositional base (cs.map digitValue)

variable {base n : Nat}

theorem digitValue_digitChar {d : Nat} (h : d < 16) : digitValue (digitChar d) = d := by
  have hall : ∀ d : Fin 16, digitValue (digitChar d) = d := by decide
  exact hall ⟨d, h⟩

theorem readNumeral_numeral (hlow : 2 ≤ base) (hhigh : base ≤ 16) (n : Nat) :
    readNumeral base (numeral base n) = n := by
  have hdigits : (positional base n).map (digitValue ∘ digitChar) = (positional base n).map id := by
    apply List.map_congr_left
    intro d hd
    exact digitValue_digitChar (Nat.lt_of_lt_of_le (positional_lt hlow hd) hhigh)
  rw [readNumeral, numeral, List.map_map, hdigits, List.map_id, readPositional_positional]

/-- A quotient of the number is the base itself. The writers take it for a digit. -/
def MeetsBase (base n : Nat) : Prop := ∃ k, n / base ^ k = base

theorem meetsBase_div (h : n ≠ base) : MeetsBase base (n / base) ↔ MeetsBase base n := by
  constructor
  · rintro ⟨k, hk⟩
    refine ⟨k + 1, ?_⟩
    rw [Nat.pow_succ', ← Nat.div_div_eq_div_mul, hk]
  · rintro ⟨k, hk⟩
    cases k with
    | zero =>
      rw [Nat.pow_zero, Nat.div_one] at hk
      exact absurd hk h
    | succ k =>
      refine ⟨k, ?_⟩
      rw [Nat.div_div_eq_div_mul, ← Nat.pow_succ', hk]

theorem not_meetsBase_of_lt (h : n < base) : ¬ MeetsBase base n := by
  rintro ⟨k, hk⟩
  have hle := Nat.div_le_self n (base ^ k)
  omega

theorem writtenDigits_of_le (h : n ≤ base) : writtenDigits base n = [digitChar (n % base)] := by
  rw [writtenDigits, if_neg (by omega)]

theorem writtenDigits_of_gt (hlow : 2 ≤ base) (h : base < n) :
    writtenDigits base n = writtenDigits base (n / base) ++ [digitChar (n % base)] := by
  rw [writtenDigits, if_pos ⟨hlow, h⟩]

/-- Away from the base the writers divide on exactly while a further digit is left. -/
theorem writtenDigits_eq_numeral (hlow : 2 ≤ base) (h : ¬ MeetsBase base n) :
    writtenDigits base n = numeral base n := by
  induction n using Nat.strongRecOn with
  | ind n ih =>
    have hne : n ≠ base := by
      rintro rfl
      exact h ⟨0, by simp⟩
    by_cases hlt : n < base
    · rw [writtenDigits_of_le (by omega), numeral, positional_of_lt hlt, Nat.mod_eq_of_lt hlt]
      rfl
    · have hdiv : n / base < n := Nat.div_lt_self (by omega) (by omega)
      rw [writtenDigits_of_gt hlow (by omega), ih _ hdiv (fun hq => h ((meetsBase_div hne).1 hq)),
        numeral, numeral, positional_of_le (n := n) (by omega) (by omega), List.map_append]
      rfl

theorem readNumeral_writtenDigits_ne (hlow : 2 ≤ base) (hhigh : base ≤ 16)
    (h : MeetsBase base n) : readNumeral base (writtenDigits base n) ≠ n := by
  induction n using Nat.strongRecOn with
  | ind n ih =>
    have hdigit : digitValue (digitChar (n % base)) = n % base :=
      digitValue_digitChar (Nat.lt_of_lt_of_le (Nat.mod_lt n (by omega)) hhigh)
    by_cases heq : n = base
    · rw [writtenDigits_of_le (by omega), readNumeral, List.map_singleton,
        readPositional_singleton, hdigit, heq, Nat.mod_self]
      omega
    · have hgt : base < n := by
        by_contra hle
        exact not_meetsBase_of_lt (by omega) h
      have hdiv : n / base < n := Nat.div_lt_self (by omega) (by omega)
      have hrest := ih _ hdiv ((meetsBase_div heq).2 h)
      rw [writtenDigits_of_gt hlow hgt, readNumeral, List.map_append, List.map_singleton,
        readPositional_append, hdigit]
      intro hread
      apply hrest
      have hsplit := Nat.div_add_mod n base
      exact Nat.eq_of_mul_eq_mul_left (by omega) (Nat.add_right_cancel (hread.trans hsplit.symm))

/-- Both writers put the same characters. These are the numeral of the number, and can be read back,
exactly when no quotient in the chain of divisions is the base itself. -/
theorem number_rendering_iff (b : Beyond) (ports : PortDevice σ) (s : σ) (port : BitVec 16)
    (nb : BitVec 32) (base : BitVec 8) (hlow : 2 ≤ base.toNat) (hhigh : base.toNat ≤ 16) :
    ∃ cs, Prints b ports (fun n => serialWriteNb port n nb base) s (.ok () s)
        (cs.map (.serial port)) ∧
      Prints b ports (fun n => vgaWriteNb n nb base) s (.ok () s) (cs.map .vga) ∧
      (cs = numeral base.toNat nb.toNat ↔ ∀ k, nb.toNat / base.toNat ^ k ≠ base.toNat) ∧
      (readNumeral base.toNat cs = nb.toNat ↔ ∀ k, nb.toNat / base.toNat ^ k ≠ base.toNat) := by
  refine ⟨_, serialWriteNb_prints port hlow hhigh nb, vgaWriteNb_prints hlow hhigh nb, ?_⟩
  rw [← not_exists]
  by_cases hmeets : MeetsBase base.toNat nb.toNat
  · have hread := readNumeral_writtenDigits_ne hlow hhigh hmeets
    refine ⟨⟨fun hcs => ?_, fun h => absurd hmeets h⟩, fun h => absurd h hread,
      fun h => absurd hmeets h⟩
    rw [hcs, readNumeral_numeral hlow hhigh] at hread
    exact absurd rfl hread
  · have hcs := writtenDigits_eq_numeral hlow hmeets
    refine ⟨⟨fun _ => hmeets, fun _ => hcs⟩, fun _ => hmeets, fun _ => ?_⟩
    rw [hcs, readNumeral_numeral hlow hhigh]

theorem number_rendering_2017 :
    ∃ cs, Prints ⟨fun _ _ => 0, ⟨0, .lit ""⟩⟩ emptyBus
        (fun n => serialWriteNb serialCom1 n 2017 10) () (.ok () ())
        (cs.map (.serial serialCom1)) ∧
      Prints ⟨fun _ _ => 0, ⟨0, .lit ""⟩⟩ emptyBus
        (fun n => vgaWriteNb n 2017 10) () (.ok () ()) (cs.map .vga) ∧
      (cs = numeral 10 2017 ↔ ∀ k, 2017 / 10 ^ k ≠ 10) ∧
      (readNumeral 10 cs = 2017 ↔ ∀ k, 2017 / 10 ^ k ≠ 10) :=
  number_rendering_iff _ emptyBus () serialCom1 2017 10
    (by decide) (by decide)

/-- Ten in base ten is written without its first digit. -/
theorem number_rendering_ten :
    Prints ⟨fun _ _ => 0, ⟨0, .lit ""⟩⟩ emptyBus
        (fun n => serialWriteNb serialCom1 n 10 10) () (.ok () ())
        [.serial serialCom1 0x30] ∧
      Prints ⟨fun _ _ => 0, ⟨0, .lit ""⟩⟩ emptyBus
        (fun n => vgaWriteNb n 10 10) () (.ok () ()) [.vga 0x30] ∧
      numeral 10 10 = [0x31, 0x30] ∧ readNumeral 10 [0x30] = 0 := by
  have hten : writtenDigits (10 : BitVec 8).toNat (10 : BitVec 32).toNat = [0x30] := by
    rw [writtenDigits_of_le (by decide)]
    rfl
  have hserial := @serialWriteNb_prints _ ⟨fun _ _ => 0, ⟨0, .lit ""⟩⟩
    emptyBus () serialCom1 10 (by decide) (by decide) 10
  have hscreen := @vgaWriteNb_prints _ ⟨fun _ _ => 0, ⟨0, .lit ""⟩⟩
    emptyBus () 10 (by decide) (by decide) 10
  rw [hten] at hserial hscreen
  refine ⟨hserial, hscreen, ?_, ?_⟩
  · rw [numeral, positional_of_le (by decide) (by decide), positional_of_lt (by decide)]
    rfl
  · rfl

end BordOS
