import BordOS.Kernel.PmmSpec

namespace BordOS
open Library
set_option autoImplicit true
set_option relaxedAutoImplicit false

def frameAddr (k : Nat) : PhysAddr := BitVec.ofNat 32 (pageSize * k)

theorem frameAddr_toNat (h : k < nbFrames) : (frameAddr k).toNat = pageSize * k := by
  rw [frameAddr, BitVec.toNat_ofNat]
  apply Nat.mod_eq_of_lt
  simp only [nbFrames, pageSize] at h ⊢
  omega

theorem frameNo_frameAddr (h : k < nbFrames) : frameNo (frameAddr k) = k := by
  rw [frameNo, frameAddr_toNat h]
  exact Nat.mul_div_cancel_left _ (by decide)

theorem frameAddr_aligned (h : k < nbFrames) : isPageAligned (frameAddr k) = true := by
  rw [isPageAligned_iff, frameAddr_toNat h]
  exact Nat.mul_mod_right _ _

theorem frameAddr_frameNo {addr : PhysAddr} (h : isPageAligned addr = true) :
    frameAddr (frameNo addr) = addr := by
  apply BitVec.eq_of_toNat_eq
  rw [frameAddr_toNat (frameNo_lt addr), frameNo]
  rw [isPageAligned_iff] at h
  simp only [pageSize] at h ⊢
  omega

theorem nullFrame_unaligned : isPageAligned nullFrame = false := by decide

theorem ne_nullFrame {addr : PhysAddr} (h : isPageAligned addr = true) : addr ≠ nullFrame := by
  intro he
  rw [he, nullFrame_unaligned] at h
  cases h

theorem bitAt_of_full {s : Pmm} (h : ¬ NotFull s (m / 8)) (hm : m < nbFrames) :
    bitAt s.pmmBitmap m = true := by
  have hlt : m / 8 < frameBitmapSize := by rw [nbFrames_eq] at hm; omega
  have hx : s.pmmBitmap ⟨m / 8, hlt⟩ = 0xFF#8 := by
    by_contra hne
    exact h ⟨hlt, hne⟩
  rw [bitAt_of_lt hlt]
  exact (byte_full_iff _).1 hx _ (Nat.mod_lt _ (by decide))

theorem notFull_of_bitAt {s : Pmm} (h : bitAt s.pmmBitmap m = false) (hm : m < nbFrames) :
    NotFull s (m / 8) := by
  by_contra hf
  rw [bitAt_of_full hf hm] at h
  cases h

/-- One pass of `pmm_alloc_frame` takes the lowest free frame of the bytes `i .. final - 1`, if
these hold one, and otherwise changes nothing. -/
theorem pmmAllocFrame_run (s : Pmm) (i final : Nat)
    (h : final ≤ frameBitmapSize ∨ final ≤ i ∨ ∃ k, i ≤ k ∧ k < final ∧ NotFull s k) :
    (∃ m, 8 * i ≤ m ∧ m < 8 * final ∧ m < nbFrames ∧ bitAt s.pmmBitmap m = false ∧
        (∀ l, 8 * i ≤ l → l < m → bitAt s.pmmBitmap l = true) ∧
        (pmmAllocFrame i final).run s =
          .ok (frameAddr m) { pmmBitmap := setBitAt s.pmmBitmap m, pmmNextFrame := m / 8 }) ∨
      ((∀ l, 8 * i ≤ l → l < 8 * final → l < nbFrames → bitAt s.pmmBitmap l = true) ∧
        (pmmAllocFrame i final).run s = .ok nullFrame s) := by
  by_cases hn : final ≤ i
  · have h0 : final - i = 0 := Nat.sub_eq_zero_of_le hn
    refine .inr ⟨fun l hl hlt => by omega, ?_⟩
    simp only [pmmAllocFrame, h0, pmmSearch, EStateM.run_bind, EStateM.run_pure]
  have hrange : i + (final - i) = final := by omega
  have hsafe : i + (final - i) ≤ frameBitmapSize ∨
      ∃ k, i ≤ k ∧ k < i + (final - i) ∧ NotFull s k := by
    rw [hrange]
    rcases h with h | h | h
    · exact .inl h
    · exact absurd h hn
    · exact .inr h
  rcases pmmSearch_run s (final - i) i hsafe with
    ⟨k, hk, hik, hkn, hne, hmin, hrun⟩ | ⟨hall, hrun⟩
  · -- the byte `k` is the first that is not full, and the scan finds its lowest clear bit
    obtain ⟨hj, hclr, hset⟩ := pmmScanByte_lowest hne
    generalize pmmScanByte (s.pmmBitmap ⟨k, hk⟩) 7 0 = j at hj hclr hset hrun
    have hd : (8 * k + j) / 8 = k := by omega
    have hm : (8 * k + j) % 8 = j := by omega
    have hlt : (8 * k + j) / 8 < frameBitmapSize := by rw [hd]; exact hk
    have hnb : 8 * k + j < nbFrames := by rw [nbFrames_eq]; omega
    refine .inl ⟨8 * k + j, by omega, by omega, hnb, ?_, fun l hl hlt' => ?_, ?_⟩
    · rw [bitAt_byte _ hk hj]; exact hclr
    · by_cases hb : l / 8 = k
      · have hl8 : l = 8 * k + l % 8 := by omega
        rw [hl8, bitAt_byte _ hk (by omega)]
        exact hset _ (by omega)
      · exact bitAt_of_full (hmin _ (by omega) (by omega)) (by omega)
    · simp only [pmmAllocFrame, EStateM.run_bind, hrun, bitmapRead_run hk, bitmapWrite_run hk,
        mask_or _ (by decide : 8 ≤ 32), EStateM.run_modify, EStateM.run_pure, frameAddr]
      simp only [setBitAt, hd, hm, hk, ↓reduceDIte, Nat.mul_comm k 8]
  · refine .inr ⟨fun l hl hlt hnb => bitAt_of_full (hall _ ?_ ?_) hnb, ?_⟩
    · omega
    · omega
    · simp only [pmmAllocFrame, EStateM.run_bind, hrun, EStateM.run_pure]

/-- The hint names a byte of the bitmap, or some frame is free: what keeps both passes of
`pmm_alloc` inside the bitmap. -/
def SearchSafe (s : Pmm) : Prop :=
  s.pmmNextFrame < frameBitmapSize ∨ ∃ k < nbFrames, bitAt s.pmmBitmap k = false

/-- `pmm_alloc` takes the lowest free frame from the hint on, else the lowest free one below it.
It fails only when no frame is free, and then changes nothing. A hint right after the last byte
leaves it to the second pass. -/
theorem pmmAlloc_run {s : Pmm}
    (h : s.pmmNextFrame ≤ frameBitmapSize ∨ ∃ k < nbFrames, bitAt s.pmmBitmap k = false) :
    (∃ m, m < nbFrames ∧ bitAt s.pmmBitmap m = false ∧
        (8 * s.pmmNextFrame ≤ m ∧
            (∀ l, 8 * s.pmmNextFrame ≤ l → l < m → bitAt s.pmmBitmap l = true) ∨
          m < 8 * s.pmmNextFrame ∧ (∀ l < m, bitAt s.pmmBitmap l = true) ∧
            ∀ l < nbFrames, 8 * s.pmmNextFrame ≤ l → bitAt s.pmmBitmap l = true) ∧
        pmmAlloc.run s =
          .ok (frameAddr m) { pmmBitmap := setBitAt s.pmmBitmap m, pmmNextFrame := m / 8 }) ∨
      ((∀ l < nbFrames, bitAt s.pmmBitmap l = true) ∧ pmmAlloc.run s = .ok nullFrame s) := by
  rcases pmmAllocFrame_run s s.pmmNextFrame frameBitmapSize (.inl (Nat.le_refl _)) with
    ⟨m, hlo, _, hnb, hclr, hmin, hrun⟩ | ⟨hhigh, hrun⟩
  · refine .inl ⟨m, hnb, hclr, .inl ⟨hlo, hmin⟩, ?_⟩
    simp only [pmmAlloc, EStateM.run_bind, EStateM.run_get, hrun,
      ne_nullFrame (frameAddr_aligned hnb), ↓reduceIte, EStateM.run_pure]
  -- the first pass found nothing, so a free frame lies below the hint
  have hrun₂ : pmmAlloc.run s = (pmmAllocFrame 0 s.pmmNextFrame).run s := by
    simp only [pmmAlloc, EStateM.run_bind, EStateM.run_get, hrun, ↓reduceIte]
  have hhigh' : ∀ l < nbFrames, 8 * s.pmmNextFrame ≤ l → bitAt s.pmmBitmap l = true := by
    intro l hl hlo
    exact hhigh l hlo (by rw [nbFrames_eq] at hl; exact hl) hl
  have hsafe : s.pmmNextFrame ≤ frameBitmapSize ∨ s.pmmNextFrame ≤ 0 ∨
      ∃ k, 0 ≤ k ∧ k < s.pmmNextFrame ∧ NotFull s k := by
    rcases h with h | ⟨k, hk, hclr⟩
    · exact .inl h
    · have hlt : k < 8 * s.pmmNextFrame := by
        by_contra hge
        rw [hhigh' k hk (by omega)] at hclr
        cases hclr
      exact .inr (.inr ⟨k / 8, Nat.zero_le _, by omega, notFull_of_bitAt hclr hk⟩)
  rw [hrun₂]
  rcases pmmAllocFrame_run s 0 s.pmmNextFrame hsafe with
    ⟨m, _, hlt, hnb, hclr, hmin, hres⟩ | ⟨hlow, hres⟩
  · exact .inl ⟨m, hnb, hclr, .inr ⟨hlt, fun l hl => hmin l (by omega) hl, hhigh'⟩, hres⟩
  · refine .inr ⟨fun l hl => ?_, hres⟩
    by_cases hlt : l < 8 * s.pmmNextFrame
    · exact hlow l (by omega) hlt hl
    · exact hhigh' l hl (by omega)

end BordOS
