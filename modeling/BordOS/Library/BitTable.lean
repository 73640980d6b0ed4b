import Mathlib.Logic.Function.Basic
import Mathlib.Tactic.Common

namespace BordOS.Library
set_option autoImplicit true
set_option relaxedAutoImplicit false

/-- A table of bits packed eight to a byte: bit `k` is bit `k % 8` of byte `k / 8`. -/
def bitAt (b : Fin n → BitVec 8) (k : Nat) : Bool :=
  if h : k / 8 < n then (b ⟨k / 8, h⟩).getLsbD (k % 8) else false

def setBitAt (b : Fin n → BitVec 8) (k : Nat) : Fin n → BitVec 8 :=
  if h : k / 8 < n then Function.update b ⟨k / 8, h⟩ (b ⟨k / 8, h⟩ ||| 1#8 <<< (k % 8)) else b

def clearBitAt (b : Fin n → BitVec 8) (k : Nat) : Fin n → BitVec 8 :=
  if h : k / 8 < n then Function.update b ⟨k / 8, h⟩ (b ⟨k / 8, h⟩ &&& ~~~(1#8 <<< (k % 8)))
  else b

theorem bitAt_of_lt {b : Fin n → BitVec 8} (h : k / 8 < n) :
    bitAt b k = (b ⟨k / 8, h⟩).getLsbD (k % 8) :=
  dif_pos h

@[simp] theorem bitAt_zero (n k : Nat) : bitAt (fun _ : Fin n => 0#8) k = false := by
  simp [bitAt]

theorem bitAt_byte (b : Fin n → BitVec 8) (hi : i < n) (hj : j < 8) :
    bitAt b (8 * i + j) = (b ⟨i, hi⟩).getLsbD j := by
  have hd : (8 * i + j) / 8 = i := by omega
  have hm : (8 * i + j) % 8 = j := by omega
  simp only [bitAt, hd, hm, hi, ↓reduceDIte]

theorem bitAt_ext {b c : Fin n → BitVec 8} (h : ∀ k, bitAt b k = bitAt c k) : b = c := by
  funext i
  apply BitVec.eq_of_getLsbD_eq
  intro j hj
  rw [← bitAt_byte b i.isLt hj, ← bitAt_byte c i.isLt hj]
  exact h _

theorem one_shift_bit (hj : j < 8) (i : Nat) : (1#8 <<< j).getLsbD i = decide (i = j) := by
  rw [Bool.eq_iff_iff]
  simp only [BitVec.getLsbD_shiftLeft, BitVec.getLsbD_one, Bool.and_eq_true, decide_eq_true_eq,
    Bool.not_eq_true', decide_eq_false_iff_not]
  omega

theorem bitAt_setBitAt {b : Fin n → BitVec 8} (hk : k / 8 < n) (i : Nat) :
    bitAt (setBitAt b k) i = (bitAt b i || decide (i = k)) := by
  have hj : k % 8 < 8 := Nat.mod_lt _ (by decide)
  by_cases hi : i / 8 < n
  · simp only [bitAt_of_lt hi, setBitAt, hk, ↓reduceDIte]
    by_cases he : i / 8 = k / 8
    · have hf : (⟨i / 8, hi⟩ : Fin n) = ⟨k / 8, hk⟩ := Fin.ext he
      rw [hf, Function.update_self, BitVec.getLsbD_or, one_shift_bit hj]
      congr 1
      rw [Bool.eq_iff_iff, decide_eq_true_eq, decide_eq_true_eq]
      omega
    · have hf : (⟨i / 8, hi⟩ : Fin n) ≠ ⟨k / 8, hk⟩ := fun h => he (Fin.ext_iff.1 h)
      have hne : i ≠ k := fun h => he (by rw [h])
      rw [Function.update_of_ne hf, decide_eq_false hne, Bool.or_false]
  · have hne : i ≠ k := fun h => hi (h ▸ hk)
    simp only [bitAt, hi, ↓reduceDIte, decide_eq_false hne, Bool.or_false]

theorem bitAt_clearBitAt {b : Fin n → BitVec 8} (hk : k / 8 < n) (i : Nat) :
    bitAt (clearBitAt b k) i = (bitAt b i && !decide (i = k)) := by
  have hj : k % 8 < 8 := Nat.mod_lt _ (by decide)
  by_cases hi : i / 8 < n
  · simp only [bitAt_of_lt hi, clearBitAt, hk, ↓reduceDIte]
    by_cases he : i / 8 = k / 8
    · have hf : (⟨i / 8, hi⟩ : Fin n) = ⟨k / 8, hk⟩ := Fin.ext he
      have hlt : i % 8 < 8 := Nat.mod_lt _ (by decide)
      rw [hf, Function.update_self, BitVec.getLsbD_and, BitVec.getLsbD_not, one_shift_bit hj,
        decide_eq_true hlt, Bool.true_and]
      congr 2
      rw [Bool.eq_iff_iff, decide_eq_true_eq, decide_eq_true_eq]
      omega
    · have hf : (⟨i / 8, hi⟩ : Fin n) ≠ ⟨k / 8, hk⟩ := fun h => he (Fin.ext_iff.1 h)
      have hne : i ≠ k := fun h => he (by rw [h])
      rw [Function.update_of_ne hf, decide_eq_false hne, Bool.not_false, Bool.and_true]
  · simp only [bitAt, hi, ↓reduceDIte, Bool.false_and]

theorem byte_full_iff (x : BitVec 8) : x = 0xFF#8 ↔ ∀ j < 8, x.getLsbD j = true := by
  constructor
  · intro h j hj
    subst x
    have hff : (0xFF#8) = BitVec.allOnes 8 := rfl
    rw [hff, BitVec.getLsbD_allOnes, decide_eq_true hj]
  · intro h
    have hff : (0xFF#8) = BitVec.allOnes 8 := rfl
    apply BitVec.eq_of_getLsbD_eq
    intro j hj
    rw [h j hj, hff, BitVec.getLsbD_allOnes, decide_eq_true hj]

theorem mask_test (x : BitVec 8) (hw : 8 ≤ w) (hj : j < 8) :
    (x.setWidth w &&& 1#w <<< j) ≠ 0#w ↔ x.getLsbD j = true := by
  constructor
  · intro h
    by_contra hx
    apply h
    apply BitVec.eq_of_getLsbD_eq
    intro i hi
    by_cases he : i = j
    · subst he
      simp [hx]
    · have ho : (1#w <<< j).getLsbD i = false := by
        simp only [BitVec.getLsbD_shiftLeft, BitVec.getLsbD_one]
        simp only [Bool.and_eq_false_iff, decide_eq_false_iff_not, Bool.not_eq_false',
          decide_eq_true_eq]
        omega
      rw [BitVec.getLsbD_and, ho, Bool.and_false, BitVec.getLsbD_zero]
  · intro h he
    have hb := congrArg (fun y => y.getLsbD j) he
    simp only [BitVec.getLsbD_and, BitVec.getLsbD_setWidth, h, BitVec.getLsbD_shiftLeft,
      BitVec.getLsbD_one, BitVec.getLsbD_zero, Nat.sub_self, Nat.lt_irrefl] at hb
    simp at hb
    omega

theorem mask_or (x : BitVec 8) (hw : 8 ≤ w) (j : Nat) :
    (x.setWidth w ||| 1#w <<< j).setWidth 8 = x ||| 1#8 <<< j := by
  apply BitVec.eq_of_getLsbD_eq
  intro i hi
  simp only [BitVec.getLsbD_setWidth, BitVec.getLsbD_or, BitVec.getLsbD_shiftLeft,
    BitVec.getLsbD_one, decide_eq_true hi, Bool.true_and]
  have hiw : i < w := by omega
  have h0w : 0 < w := by omega
  simp [hiw, h0w, hi]

theorem mask_and_not (x : BitVec 8) (hw : 8 ≤ w) (j : Nat) :
    (x.setWidth w &&& ~~~(1#w <<< j)).setWidth 8 = x &&& ~~~(1#8 <<< j) := by
  apply BitVec.eq_of_getLsbD_eq
  intro i hi
  simp only [BitVec.getLsbD_setWidth, BitVec.getLsbD_and, BitVec.getLsbD_not,
    BitVec.getLsbD_shiftLeft, BitVec.getLsbD_one, decide_eq_true hi, Bool.true_and]
  have hiw : i < w := by omega
  have h0w : 0 < w := by omega
  simp [hiw, h0w, hi]

end BordOS.Library
