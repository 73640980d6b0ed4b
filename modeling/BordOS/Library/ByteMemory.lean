import Mathlib.Algebra.Group.Nat.Defs
import Mathlib.Logic.Function.Basic
import Mathlib.Tactic.Common

namespace BordOS.Library
set_option autoImplicit true
set_option relaxedAutoImplicit false

/-- A flat 32-bit address space of bytes. Words are little-endian. -/
abbrev Memory := BitVec 32 → BitVec 8

namespace Memory

def store8 (m : Memory) (a : BitVec 32) (v : BitVec 8) : Memory := Function.update m a v

def load16 (m : Memory) (a : BitVec 32) : BitVec 16 := m (a + 1) ++ m a

def store16 (m : Memory) (a : BitVec 32) (v : BitVec 16) : Memory :=
  (m.store8 a (v.setWidth 8)).store8 (a + 1) ((v >>> 8).setWidth 8)

def load32 (m : Memory) (a : BitVec 32) : BitVec 32 := m.load16 (a + 2) ++ m.load16 a

def store32 (m : Memory) (a : BitVec 32) (v : BitVec 32) : Memory :=
  (m.store16 a (v.setWidth 16)).store16 (a + 2) ((v >>> 16).setWidth 16)

def copyUp (m : Memory) (dst src : BitVec 32) : Nat → Memory
  | 0 => m
  | n + 1 => (m.store8 dst (m src)).copyUp (dst + 1) (src + 1) n

variable {m : Memory} {a b : BitVec 32}

-- Byte `b` is not one of the `n` bytes from `a` on if `n ≤ (b - a).toNat`.

@[simp] theorem store8_same (v : BitVec 8) : m.store8 a v a = v := Function.update_self ..

theorem store8_other (v : BitVec 8) (h : b ≠ a) : m.store8 a v b = m b := Function.update_of_ne h ..

theorem store16_outside (v : BitVec 16) (h : 2 ≤ (b - a).toNat) : m.store16 a v b = m b := by
  rw [store16, store8_other _ (by bv_omega), store8_other _ (by bv_omega)]

theorem store32_outside (v : BitVec 32) (h : 4 ≤ (b - a).toNat) : m.store32 a v b = m b := by
  rw [store32, store16_outside _ (by bv_omega), store16_outside _ (by bv_omega)]

theorem setWidth_mask {n w : Nat} {mask : BitVec n} (h : mask.setWidth w = BitVec.allOnes w)
    (x : BitVec n) : (x &&& mask).setWidth w = x.setWidth w := by
  rw [BitVec.setWidth_and, h, BitVec.and_allOnes]

theorem append_low_high {w k : Nat} (v : BitVec (w + k)) :
    (v >>> k).setWidth w ++ v.setWidth k = v := by
  rw [BitVec.setWidth_ushiftRight_eq_extractLsb, BitVec.setWidth_eq_extractLsb' (by omega),
    BitVec.extractLsb'_append_extractLsb']

@[simp] theorem load16_store16_same (v : BitVec 16) : (m.store16 a v).load16 a = v := by
  rw [load16, store16, store8_same, store8_other _ (by bv_omega), store8_same]
  exact @append_low_high 8 8 v

theorem load16_congr {m' : Memory} (h0 : m a = m' b) (h1 : m (a + 1) = m' (b + 1)) :
    m.load16 a = m'.load16 b := by
  rw [load16, load16, h0, h1]

theorem load32_congr {n : Memory} (h : ∀ i < 4, m (a + i) = n (b + i)) :
    m.load32 a = n.load32 b := by
  have h0 := h 0#32 (by decide)
  have h3 : m (a + 2 + 1) = n (b + 2 + 1) := by
    rw [BitVec.add_assoc, BitVec.add_assoc]
    exact h 3 (by decide)
  rw [BitVec.add_zero, BitVec.add_zero] at h0
  rw [load32, load32, load16_congr h0 (h 1 (by decide)), load16_congr (h 2 (by decide)) h3]

theorem load16_store16_other (v : BitVec 16) (h : 2 ≤ (b - a).toNat) (h' : 2 ≤ (a - b).toNat) :
    (m.store16 a v).load16 b = m.load16 b :=
  load16_congr (store16_outside v h) (store16_outside v (by bv_omega))

@[simp] theorem load32_store32_same (v : BitVec 32) : (m.store32 a v).load32 a = v := by
  rw [load32, store32, load16_store16_same, load16_store16_other _ (by bv_omega) (by bv_omega),
    load16_store16_same]
  exact @append_low_high 16 16 v

theorem load32_store32_other (v : BitVec 32) (h : 4 ≤ (b - a).toNat) (h' : 4 ≤ (a - b).toNat) :
    (m.store32 a v).load32 b = m.load32 b :=
  load32_congr fun _ hi => store32_outside v (by bv_omega)

theorem load32_store16_other (v : BitVec 16) (h : 2 ≤ (b - a).toNat) (h' : 4 ≤ (a - b).toNat) :
    (m.store16 a v).load32 b = m.load32 b :=
  load32_congr fun _ hi => store16_outside v (by bv_omega)

theorem load32_low (m : Memory) (a : BitVec 32) : (m.load32 a).setWidth 16 = m.load16 a :=
  BitVec.setWidth_append_eq_right

theorem succ_sub_succ (a b : BitVec 32) : a + 1 - (b + 1) = a - b := by
  bv_omega

theorem succ_add_sub_succ (a b c : BitVec 32) : a + 1 + (b - (c + 1)) = a + (b - c) := by
  bv_omega

/-- A copy writes to its destination only, wherever it copies from. -/
theorem copyUp_outside {m : Memory} {dst src : BitVec 32} {n : Nat} (h : n ≤ (a - dst).toNat) :
    m.copyUp dst src n a = m a := by
  induction n generalizing m dst src with
  | zero => rfl
  | succ n ih =>
    have hne : a ≠ dst := by
      rintro rfl
      rw [BitVec.sub_self] at h
      exact absurd h (Nat.not_succ_le_zero n)
    have hnext : n ≤ (a - (dst + 1)).toNat := by
      clear ih
      bv_omega
    rw [copyUp, ih hnext, store8_other _ hne]

/-- A copy upwards to a place that its source does not run into is right also when they overlap. -/
theorem copyUp_apply {m : Memory} {dst src : BitVec 32} {n : Nat}
    (h : (src - dst).toNat + n ≤ 2 ^ 32) (a : BitVec 32) :
    m.copyUp dst src n a = if (a - dst).toNat < n then m (src + (a - dst)) else m a := by
  induction n generalizing m dst src with
  | zero => simp [copyUp]
  | succ n ih =>
    have hgap : (src + 1 - (dst + 1)).toNat + n ≤ 2 ^ 32 := by
      rw [succ_sub_succ]
      omega
    rw [copyUp, ih hgap]
    by_cases ha : a = dst
    · subst ha
      have hlast : (a - (a + 1)).toNat = 2 ^ 32 - 1 := by
        clear ih h hgap
        bv_omega
      rw [if_neg (by omega), if_pos (by simp), store8_same]
      simp
    · have hpred : (a - (dst + 1)).toNat = (a - dst).toNat - 1 := by
        clear ih h hgap
        bv_omega
      have hpos : 0 < (a - dst).toNat := by
        clear ih h hgap hpred
        bv_omega
      rw [succ_add_sub_succ]
      by_cases hn : (a - dst).toNat < n + 1
      · have hne : src + (a - dst) ≠ dst := by
          clear ih hgap hpred
          bv_omega
        rw [if_pos (by omega), if_pos hn, store8_other _ hne]
      · rw [if_neg (by omega), if_neg hn, store8_other _ ha]

theorem load32_copyUp {dst src : BitVec 32} {n : Nat} (h : (src - dst).toNat + n ≤ 2 ^ 32)
    (hn : 4 ≤ n) : (m.copyUp dst src n).load32 dst = m.load32 src := by
  apply load32_congr
  intro i hi
  have hoff : dst + i - dst = i := by
    rw [BitVec.add_comm, BitVec.add_sub_cancel]
  rw [copyUp_apply h, hoff, if_pos (by bv_omega)]

end Memory

end BordOS.Library
