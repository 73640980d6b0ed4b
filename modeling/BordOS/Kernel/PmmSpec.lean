import Mathlib.Data.Fintype.Card
import Mathlib.Data.FinEnum
import BordOS.Kernel.Pmm

namespace BordOS
open Library
set_option autoImplicit true
set_option relaxedAutoImplicit false

variable {addr : PhysAddr}

theorem frameBitmapSize_eq : frameBitmapSize = 131072 := by decide

theorem nbFrames_eq : nbFrames = 8 * frameBitmapSize := by decide

def frameNo (addr : PhysAddr) : Nat := addr.toNat / pageSize

theorem frameNo_lt (addr : PhysAddr) : frameNo addr < nbFrames := by
  have h := addr.isLt
  simp only [frameNo, pageSize, nbFrames]
  omega

theorem frameNo_byte_lt (addr : PhysAddr) : frameNo addr / 8 < frameBitmapSize := by
  have h := frameNo_lt addr
  rw [nbFrames_eq] at h
  omega

theorem isPageAligned_iff (addr : PhysAddr) :
    isPageAligned addr = true ↔ addr.toNat % pageSize = 0 := by
  have hm : pageSizeMask.toNat = 2 ^ 12 - 1 := by decide
  rw [isPageAligned, beq_iff_eq, ← BitVec.toNat_inj, BitVec.toNat_and, hm,
    Nat.and_two_pow_sub_one_eq_mod]
  rfl

theorem pmmGetFrameNdx_toNat (addr : PhysAddr) :
    (pmmGetFrameNdx addr).toNat = frameNo addr / 8 := by
  simp only [pmmGetFrameNdx, BitVec.toNat_udiv, BitVec.toNat_ushiftRight, frameNo, pageSize,
    Nat.shiftRight_eq_div_pow]
  rfl

theorem pmmGetFrameMask_eq (addr : PhysAddr) :
    pmmGetFrameMask addr = 1#32 <<< (frameNo addr % 8) := by
  simp only [pmmGetFrameMask, BitVec.toNat_umod, BitVec.toNat_ushiftRight, frameNo, pageSize,
    Nat.shiftRight_eq_div_pow]
  rfl

theorem bitmapRead_run {s : Pmm} (h : i < frameBitmapSize) :
    (bitmapRead i).run s = .ok (s.pmmBitmap ⟨i, h⟩) s := by
  simp only [bitmapRead, EStateM.run_bind, EStateM.run_get, h, ↓reduceDIte, EStateM.run_pure]

theorem bitmapWrite_run {s : Pmm} (h : i < frameBitmapSize) (x : BitVec 8) :
    (bitmapWrite i x).run s =
      .ok () { s with pmmBitmap := Function.update s.pmmBitmap ⟨i, h⟩ x } := by
  simp only [bitmapWrite, h, ↓reduceDIte, EStateM.run_modify]

theorem pmmMarkAsAllocated_run (s : Pmm) (h : isPageAligned addr = true) :
    (pmmMarkAsAllocated addr).run s =
      .ok () { s with pmmBitmap := setBitAt s.pmmBitmap (frameNo addr) } := by
  have hlt := frameNo_byte_lt addr
  simp only [pmmMarkAsAllocated, h, EStateM.run_bind, kassert_true, pmmGetFrameNdx_toNat,
    bitmapRead_run hlt, bitmapWrite_run hlt, pmmGetFrameMask_eq, mask_or _ (by decide : 8 ≤ 32)]
  simp only [setBitAt, hlt, ↓reduceDIte]

theorem pmmIsFrameAllocated_run (s : Pmm) (h : isPageAligned addr = true) :
    (pmmIsFrameAllocated addr).run s = .ok (bitAt s.pmmBitmap (frameNo addr)) s := by
  have hlt := frameNo_byte_lt addr
  have hj : frameNo addr % 8 < 8 := Nat.mod_lt _ (by decide)
  have hm := mask_test (s.pmmBitmap ⟨_, hlt⟩) (by decide : 8 ≤ 32) hj
  simp only [pmmIsFrameAllocated, h, EStateM.run_bind, kassert_true, pmmGetFrameNdx_toNat,
    bitmapRead_run hlt, EStateM.run_pure, pmmGetFrameMask_eq, bitAt_of_lt hlt]
  congr 1
  rw [Bool.eq_iff_iff, decide_eq_true_eq]
  exact hm

theorem pmmFree_run {s : Pmm} (h : isPageAligned addr = true)
    (hb : bitAt s.pmmBitmap (frameNo addr) = true) :
    (pmmFree addr).run s =
      .ok () { pmmBitmap := clearBitAt s.pmmBitmap (frameNo addr),
               pmmNextFrame := frameNo addr / 8 } := by
  have hlt := frameNo_byte_lt addr
  simp only [pmmFree, h, EStateM.run_bind, kassert_true, pmmIsFrameAllocated_run s h, hb,
    pmmGetFrameNdx_toNat, bitmapRead_run hlt, bitmapWrite_run hlt, pmmGetFrameMask_eq,
    mask_and_not _ (by decide : 8 ≤ 32), EStateM.run_modify]
  simp only [clearBitAt, hlt, ↓reduceDIte]

theorem pmmFree_run_clear {s : Pmm} (h : isPageAligned addr = true)
    (hb : bitAt s.pmmBitmap (frameNo addr) = false) :
    (pmmFree addr).run s = .error (.assertion "pmm_is_frame_allocated(frame)") s := by
  simp only [pmmFree, h, EStateM.run_bind, kassert_true, pmmIsFrameAllocated_run s h, hb,
    kassert_false]

theorem pmmFree_run_unaligned (s : Pmm) (h : isPageAligned addr = false) :
    (pmmFree addr).run s = .error (.assertion "IS_PAGE_ALIGNED(frame)") s := by
  simp only [pmmFree, h, EStateM.run_bind, kassert_false]

theorem pmmIsFrameAllocated_run_unaligned (s : Pmm) (h : isPageAligned addr = false) :
    (pmmIsFrameAllocated addr).run s = .error (.assertion "IS_PAGE_ALIGNED(frame)") s := by
  simp only [pmmIsFrameAllocated, h, EStateM.run_bind, kassert_false]

/-- The scan of a byte stops at a bit with only set bits below it. The bit it stops at is clear
unless the scan ran out of tests. -/
theorem pmmScanByte_spec (x : BitVec 8) (n j : Nat) (hn : n + j ≤ 8) :
    j ≤ pmmScanByte x n j ∧ pmmScanByte x n j ≤ n + j ∧
      (∀ i, j ≤ i → i < pmmScanByte x n j → x.getLsbD i = true) ∧
      (pmmScanByte x n j < n + j → x.getLsbD (pmmScanByte x n j) = false) := by
  induction n generalizing j with
  | zero =>
    refine ⟨Nat.le_refl _, by simp [pmmScanByte], ?_, ?_⟩
    · intro i hi hlt
      exact absurd hlt (Nat.not_lt_of_ge hi)
    · intro hlt
      simp [pmmScanByte] at hlt
  | succ n ih =>
    have hj : j < 8 := by omega
    have hm := mask_test x (by decide : 8 ≤ 32) hj
    by_cases hx : x.getLsbD j = true
    · obtain ⟨hle, hub, hset, hclr⟩ := ih (j + 1) (by omega)
      have he : pmmScanByte x (n + 1) j = pmmScanByte x n (j + 1) := if_pos (hm.2 hx)
      rw [he]
      refine ⟨by omega, by omega, fun i hi hlt => ?_, fun hlt => hclr (by omega)⟩
      by_cases he : i = j
      · subst he; exact hx
      · exact hset i (by omega) hlt
    · have he : pmmScanByte x (n + 1) j = j := if_neg fun h => hx (hm.1 h)
      rw [he]
      refine ⟨Nat.le_refl _, by omega, fun i hi hlt => ?_, fun _ => by simpa using hx⟩
      exact absurd hlt (Nat.not_lt_of_ge hi)

theorem pmmScanByte_lowest {x : BitVec 8} (hx : x ≠ 0xFF#8) :
    pmmScanByte x 7 0 < 8 ∧ x.getLsbD (pmmScanByte x 7 0) = false ∧
      ∀ i < pmmScanByte x 7 0, x.getLsbD i = true := by
  obtain ⟨_, hub, hset, hclr⟩ := pmmScanByte_spec x 7 0 (by decide)
  refine ⟨by omega, ?_, fun i hi => hset i (Nat.zero_le _) hi⟩
  by_cases hlt : pmmScanByte x 7 0 < 7
  · exact hclr hlt
  · have he : pmmScanByte x 7 0 = 7 := by omega
    by_contra hne
    apply hx
    rw [byte_full_iff]
    intro j hj
    by_cases h7 : j < 7
    · exact hset j (Nat.zero_le _) (by omega)
    · have hj7 : j = pmmScanByte x 7 0 := by omega
      rw [hj7]
      simpa using hne

def NotFull (s : Pmm) (i : Nat) : Prop :=
  ∃ h : i < frameBitmapSize, s.pmmBitmap ⟨i, h⟩ ≠ 0xFF#8

/-- The search returns the first byte that is not full, and stays in the bitmap as long as the
range does or such a byte is in range. -/
theorem pmmSearch_run (s : Pmm) (n i : Nat)
    (h : i + n ≤ frameBitmapSize ∨ ∃ k, i ≤ k ∧ k < i + n ∧ NotFull s k) :
    (∃ k, ∃ hk : k < frameBitmapSize, i ≤ k ∧ k < i + n ∧ s.pmmBitmap ⟨k, hk⟩ ≠ 0xFF#8 ∧
        (∀ m, i ≤ m → m < k → ¬ NotFull s m) ∧
        (pmmSearch n i).run s = .ok (some (k, pmmScanByte (s.pmmBitmap ⟨k, hk⟩) 7 0)) s) ∨
      ((∀ m, i ≤ m → m < i + n → ¬ NotFull s m) ∧ (pmmSearch n i).run s = .ok none s) := by
  induction n generalizing i with
  | zero =>
    refine .inr ⟨fun m hm hlt => absurd hlt (Nat.not_lt_of_ge hm), ?_⟩
    simp only [pmmSearch, EStateM.run_pure]
  | succ n ih =>
    have hi : i < frameBitmapSize := by
      rcases h with h | ⟨k, hik, _, hk, _⟩ <;> omega
    by_cases hx : s.pmmBitmap ⟨i, hi⟩ = 0xFF#8
    · have hfull : ¬ NotFull s i := fun ⟨_, hne⟩ => hne hx
      have hrun : (pmmSearch (n + 1) i).run s = (pmmSearch n (i + 1)).run s := by
        simp only [pmmSearch, EStateM.run_bind, bitmapRead_run hi, hx, ne_eq, not_true_eq_false,
          ↓reduceIte]
      have hnext : i + 1 + n ≤ frameBitmapSize ∨
          ∃ k, i + 1 ≤ k ∧ k < i + 1 + n ∧ NotFull s k := by
        rcases h with h | ⟨k, hik, hkn, hk⟩
        · exact .inl (by omega)
        · have hne : i ≠ k := fun he => hfull (he ▸ hk)
          exact .inr ⟨k, by omega, by omega, hk⟩
      have hbelow {m b : Nat} (hb : ∀ m, i + 1 ≤ m → m < b → ¬ NotFull s m)
          (hm : i ≤ m) (hlt : m < b) : ¬ NotFull s m := by
        by_cases he : m = i
        · subst he; exact hfull
        · exact hb m (by omega) hlt
      rw [hrun]
      rcases ih (i + 1) hnext with ⟨k, hk, hik, hkn, hne, hmin, hres⟩ | ⟨hall, hres⟩
      · exact .inl ⟨k, hk, by omega, by omega, hne, fun m hm hlt => hbelow hmin hm hlt, hres⟩
      · refine .inr ⟨fun m hm hlt => hbelow hall hm ?_, hres⟩
        omega
    · refine .inl ⟨i, hi, Nat.le_refl _, by omega, hx,
        fun m hm hlt => absurd hlt (Nat.not_lt_of_ge hm), ?_⟩
      simp only [pmmSearch, EStateM.run_bind, bitmapRead_run hi, ne_eq, hx, not_false_eq_true,
        ↓reduceIte, EStateM.run_pure]

end BordOS
