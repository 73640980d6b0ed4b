import BordOS.Kernel.PmmAlloc

namespace BordOS
open Library
set_option autoImplicit true
set_option relaxedAutoImplicit false

variable {start stop kernelEnd : PhysAddr} {fuel : Nat}

theorem next_page_toNat {start : PhysAddr} (h : start.toNat + pageSize < 2 ^ 32) :
    (start + BitVec.ofNat 32 pageSize).toNat = start.toNat + pageSize := by
  simp only [pageSize] at h ⊢
  rw [BitVec.toNat_add, BitVec.toNat_ofNat]
  omega

/-- Below the last frame of the address space the marking loop ends, and it sets exactly the
bits of the frames from `start` to `stop`. -/
theorem pmmMarkLoop_run (fuel : Nat) (s : Pmm) (hstart : isPageAligned start = true)
    (hstop : stop.toNat + pageSize < 2 ^ 32) (hfuel : frameNo stop + 1 - frameNo start < fuel) :
    ∃ b, (pmmMarkLoop fuel start stop).run s = .ok () { s with pmmBitmap := b } ∧
      ∀ k, bitAt b k = (bitAt s.pmmBitmap k ||
        decide (frameNo start ≤ k ∧ k * pageSize ≤ stop.toNat)) := by
  induction fuel generalizing start s with
  | zero => omega
  | succ n ih =>
    have hal := (isPageAligned_iff start).1 hstart
    by_cases hle : start ≤ stop
    · have hle' : start.toNat ≤ stop.toNat := hle
      have hnext : (start + BitVec.ofNat 32 pageSize).toNat = start.toNat + pageSize :=
        next_page_toNat (by omega)
      have hno : frameNo (start + BitVec.ofNat 32 pageSize) = frameNo start + 1 := by
        rw [frameNo, hnext, frameNo, Nat.add_div_right _ (by decide)]
      have hal' : isPageAligned (start + BitVec.ofNat 32 pageSize) = true := by
        rw [isPageAligned_iff, hnext, Nat.add_mod_right]
        exact hal
      have hfr : frameNo start ≤ frameNo stop := Nat.div_le_div_right hle'
      obtain ⟨b, hrun, hb⟩ :=
        ih { s with pmmBitmap := setBitAt s.pmmBitmap (frameNo start) } hal' (by omega)
      refine ⟨b, ?_, ?_⟩
      · simp only [pmmMarkLoop, hle, ↓reduceIte, EStateM.run_bind,
          pmmMarkAsAllocated_run s hstart, hrun]
      · intro k
        have hkb : (frameNo start ≤ k ∧ k * pageSize ≤ stop.toNat) ↔
            k = frameNo start ∨ frameNo start + 1 ≤ k ∧ k * pageSize ≤ stop.toNat := by
          constructor
          · intro h
            by_cases he : k = frameNo start
            · exact .inl he
            · exact .inr ⟨by omega, h.2⟩
          · rintro (he | h)
            · subst he
              exact ⟨Nat.le_refl _, Nat.le_trans (Nat.div_mul_le_self _ _) hle'⟩
            · exact ⟨by omega, h.2⟩
        rw [hb, hno, bitAt_setBitAt (frameNo_byte_lt start), decide_eq_decide.2 hkb,
          Bool.decide_or, Bool.or_assoc]
    · refine ⟨s.pmmBitmap, ?_, ?_⟩
      · simp only [pmmMarkLoop, hle, ↓reduceIte, EStateM.run_pure]
      · intro k
        have hgt : stop.toNat < start.toNat := Nat.lt_of_not_ge hle
        have hk : ¬ (frameNo start ≤ k ∧ k * pageSize ≤ stop.toNat) := by
          rintro ⟨hk, hks⟩
          have hmul := Nat.mul_le_mul_right pageSize hk
          have hdiv : frameNo start * pageSize = start.toNat := by
            rw [frameNo, Nat.mul_comm]
            exact Nat.mul_div_cancel' (Nat.dvd_of_mod_eq_zero hal)
          omega
        rw [decide_eq_false hk, Bool.or_false]

/-- The addresses that the linker script and the size of the address space leave for
`KERNEL_END`. -/
structure KernelEndOk (kernelEnd : PhysAddr) : Prop where
  lower : 0x100000 ≤ kernelEnd.toNat
  upper : kernelEnd.toNat < 0xFFFFE000

theorem reservedEnd_toNat (h : kernelEnd.toNat < 0xFFFFE000) :
    (reservedEnd kernelEnd).toNat = kernelEnd.toNat / pageSize * pageSize + pageSize := by
  have hmask : (~~~pageSizeMask).toNat = 2 ^ 32 - 2 ^ 12 := by decide
  have hand : (kernelEnd &&& ~~~pageSizeMask).toNat =
      kernelEnd.toNat / pageSize * pageSize := by
    have hshift : kernelEnd &&& ~~~pageSizeMask = (kernelEnd >>> 12) <<< 12 := by
      apply BitVec.eq_of_getLsbD_eq
      intro i hi
      have hm : (~~~pageSizeMask).getLsbD i = decide (12 ≤ i) := by
        revert i
        decide
      rw [BitVec.getLsbD_and, hm, BitVec.getLsbD_shiftLeft, BitVec.getLsbD_ushiftRight]
      by_cases h12 : 12 ≤ i
      · have hlt : ¬ i < 12 := by omega
        have hsub : 12 + (i - 12) = i := by omega
        simp [h12, hlt, hi, hsub]
      · have hlt : i < 12 := by omega
        simp [h12, hlt]
    rw [hshift, BitVec.toNat_shiftLeft, BitVec.toNat_ushiftRight, Nat.shiftRight_eq_div_pow,
      Nat.shiftLeft_eq]
    apply Nat.mod_eq_of_lt
    have hdm := Nat.div_mul_le_self kernelEnd.toNat (2 ^ 12)
    have hlt := kernelEnd.isLt
    omega
  have hdm := Nat.div_mul_le_self kernelEnd.toNat pageSize
  have hfit : (kernelEnd &&& ~~~pageSizeMask).toNat + pageSize < 2 ^ 32 := by
    rw [hand]
    simp only [pageSize] at *
    omega
  have hnext := next_page_toNat hfit
  rw [reservedEnd, hnext, hand]

theorem reservedEnd_aligned (h : kernelEnd.toNat < 0xFFFFE000) :
    isPageAligned (reservedEnd kernelEnd) = true := by
  rw [isPageAligned_iff, reservedEnd_toNat h, Nat.add_mod_right]
  exact Nat.mul_mod_left _ _

/-- After `pmm_init` exactly the frames up to the reserved end are in use, and the hint is the
address of the last of them instead of a byte index. -/
theorem pmmInit_run (h : KernelEndOk kernelEnd) (hfuel : nbFrames ≤ fuel) (s₀ : Pmm) :
    ∃ b, (pmmInit fuel kernelEnd).run s₀ =
        .ok () { pmmBitmap := b, pmmNextFrame := (reservedEnd kernelEnd).toNat } ∧
      ∀ k, bitAt b k = decide (k * pageSize ≤ (reservedEnd kernelEnd).toNat) := by
  have hend := reservedEnd_toNat h.upper
  have hup := h.upper
  have hdm := Nat.div_mul_le_self kernelEnd.toNat pageSize
  have hno := frameNo_lt (reservedEnd kernelEnd)
  have h0 : frameNo (0 : PhysAddr) = 0 := by decide
  have hstop : (reservedEnd kernelEnd).toNat + pageSize < 2 ^ 32 := by
    rw [hend]
    simp only [pageSize] at *
    omega
  have hcount : frameNo (reservedEnd kernelEnd) + 1 - frameNo (0 : PhysAddr) < fuel := by
    rw [h0, frameNo]
    simp only [pageSize, nbFrames] at *
    omega
  have hz : isPageAligned (0 : PhysAddr) = true := by decide
  obtain ⟨b, hrun, hb⟩ := pmmMarkLoop_run fuel
    { pmmBitmap := fun _ => 0#8, pmmNextFrame := 0 } hz hstop hcount
  refine ⟨b, ?_, ?_⟩
  · simp only [pmmInit, pmmMarkRangeAsAllocated, EStateM.run_bind, EStateM.run_set, hz,
      reservedEnd_aligned h.upper, kassert_true, hrun, EStateM.run_modify]
  · intro k
    rw [hb, bitAt_zero, Bool.false_or, h0]
    simp

theorem pmmInit_returned {s₀ s : Pmm} (h : KernelEndOk kernelEnd) (hfuel : nbFrames ≤ fuel)
    (hinit : (pmmInit fuel kernelEnd).run s₀ = .ok () s) :
    ∃ b, s = { pmmBitmap := b, pmmNextFrame := (reservedEnd kernelEnd).toNat } ∧
      ∀ k, bitAt b k = decide (k * pageSize ≤ (reservedEnd kernelEnd).toNat) := by
  obtain ⟨b, hrun, hb⟩ := pmmInit_run h hfuel s₀
  rw [hinit] at hrun
  injection hrun with _ hs
  exact ⟨b, hs, hb⟩

end BordOS
