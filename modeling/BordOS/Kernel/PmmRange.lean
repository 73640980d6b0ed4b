import BordOS.Kernel.PmmInit

namespace BordOS
open Library
set_option autoImplicit true
set_option relaxedAutoImplicit false

def lastFrame : PhysAddr := 0xFFFFF000

variable {start stop : PhysAddr}

theorem next_page_of_ne (hstop : isPageAligned stop = true) (h : stop ≠ lastFrame) :
    stop.toNat + pageSize < 2 ^ 32 := by
  rw [isPageAligned_iff] at hstop
  rw [ne_eq, ← BitVec.toNat_inj] at h
  have hlast : lastFrame.toNat = 4294963200 := by decide
  have hlt := stop.isLt
  simp only [pageSize] at *
  omega

theorem aligned_le_lastFrame (h : isPageAligned start = true) : start ≤ lastFrame := by
  rw [isPageAligned_iff] at h
  rw [BitVec.le_def]
  have hlast : lastFrame.toNat = 4294963200 := by decide
  have hlt := start.isLt
  simp only [pageSize] at h
  omega

theorem next_page_aligned (h : isPageAligned start = true) :
    isPageAligned (start + BitVec.ofNat 32 pageSize) = true := by
  rw [isPageAligned_iff] at h ⊢
  simp only [pageSize] at h ⊢
  rw [BitVec.toNat_add, BitVec.toNat_ofNat]
  omega

/-- Up to the last frame the marking loop does not end: every aligned address is a round of it. -/
theorem pmmMarkLoop_endless (fuel : Nat) (s : Pmm) (hstart : isPageAligned start = true) :
    ∃ t, (pmmMarkLoop fuel start lastFrame).run s = .error .outOfFuel t := by
  induction fuel generalizing start s with
  | zero => exact ⟨s, rfl⟩
  | succ n ih =>
    obtain ⟨t, ht⟩ := ih { s with pmmBitmap := setBitAt s.pmmBitmap (frameNo start) }
      (next_page_aligned hstart)
    refine ⟨t, ?_⟩
    simp only [pmmMarkLoop, aligned_le_lastFrame hstart, ↓reduceIte, EStateM.run_bind,
      pmmMarkAsAllocated_run s hstart, ht]

theorem pmmMarkRange_endless (fuel : Nat) (s : Pmm) (hstart : isPageAligned start = true) :
    ∃ t, (pmmMarkRangeAsAllocated fuel start lastFrame).run s = .error .outOfFuel t := by
  have hlast : isPageAligned lastFrame = true := by decide
  obtain ⟨t, ht⟩ := pmmMarkLoop_endless fuel s hstart
  refine ⟨t, ?_⟩
  simp only [pmmMarkRangeAsAllocated, EStateM.run_bind, hstart, hlast, kassert_true, ht]

theorem pmmMarkRange_not_returns {s t : Pmm} (hstart : isPageAligned start = true) :
    ¬ ∃ N, ∀ n, N ≤ n → (pmmMarkRangeAsAllocated n start lastFrame).run s = .ok () t := by
  rintro ⟨N, hN⟩
  obtain ⟨u, hu⟩ := pmmMarkRange_endless N s hstart
  rw [hN N (Nat.le_refl N)] at hu
  cases hu

def MarksRange (start stop : PhysAddr) (s t : Pmm) : Prop :=
  ∀ k, bitAt t.pmmBitmap k =
    (bitAt s.pmmBitmap k || decide (frameNo start ≤ k ∧ k ≤ frameNo stop))

theorem pmmMarkRange_run (fuel : Nat) (s : Pmm) (hstart : isPageAligned start = true)
    (hstop : isPageAligned stop = true) (h : stop ≠ lastFrame) (hfuel : nbFrames < fuel) :
    ∃ t, (pmmMarkRangeAsAllocated fuel start stop).run s = .ok () t ∧
      t.pmmNextFrame = stop.toNat ∧ MarksRange start stop s t := by
  have hno := frameNo_lt stop
  obtain ⟨b, hrun, hb⟩ :=
    pmmMarkLoop_run fuel s hstart (next_page_of_ne hstop h) (by omega)
  refine ⟨{ pmmBitmap := b, pmmNextFrame := stop.toNat }, ?_, rfl, ?_⟩
  · simp only [pmmMarkRangeAsAllocated, EStateM.run_bind, hstart, hstop, kassert_true, hrun,
      EStateM.run_modify]
  · intro k
    have hle : k * pageSize ≤ stop.toNat ↔ k ≤ frameNo stop :=
      (Nat.le_div_iff_mul_le (by decide)).symm
    simp only [hb, hle]

theorem MarksRange.unique {s t u : Pmm} (ht : MarksRange start stop s t)
    (hu : MarksRange start stop s u) (h : t.pmmNextFrame = u.pmmNextFrame) : t = u := by
  obtain ⟨b, hint⟩ := t
  obtain ⟨c, hint'⟩ := u
  have hbits : b = c := bitAt_ext fun k => (ht k).trans (hu k).symm
  cases hbits
  cases h
  rfl

/-- `pmm_mark_range_as_allocated` ends, and marks its range, exactly if the range does not reach
the last frame of the address space. -/
theorem pmm_mark_range_iff (s : Pmm) (start stop : PhysAddr)
    (hstart : isPageAligned start = true) (hstop : isPageAligned stop = true) :
    (∃ t, (∃ N, ∀ n, N ≤ n → (pmmMarkRangeAsAllocated n start stop).run s = .ok () t) ∧
      MarksRange start stop s t) ↔ stop ≠ lastFrame := by
  constructor
  · rintro ⟨t, hreturns, -⟩ rfl
    exact pmmMarkRange_not_returns hstart hreturns
  · intro h
    obtain ⟨t, -, hhint, ht⟩ :=
      pmmMarkRange_run (nbFrames + 1) s hstart hstop h (Nat.lt_succ_self _)
    refine ⟨t, ⟨nbFrames + 1, ?_⟩, ht⟩
    intro n hn
    obtain ⟨u, hrun, hhint', hu⟩ := pmmMarkRange_run n s hstart hstop h hn
    rw [hrun, ht.unique hu (hhint.trans hhint'.symm)]

def emptyPmm : Pmm where
  pmmBitmap _ := 0
  pmmNextFrame := 0

theorem pmm_mark_range_megabyte :
    (∃ t, (∃ N, ∀ n, N ≤ n →
        (pmmMarkRangeAsAllocated n 0x100000 0x1FF000).run emptyPmm = .ok () t) ∧
      MarksRange 0x100000 0x1FF000 emptyPmm t) ↔ 0x1FF000 ≠ lastFrame :=
  pmm_mark_range_iff emptyPmm 0x100000 0x1FF000 (by decide) (by decide)

/-- The last frame alone is a range that is never done. -/
theorem pmm_mark_range_last :
    ¬ ∃ t, (∃ N, ∀ n, N ≤ n →
        (pmmMarkRangeAsAllocated n lastFrame lastFrame).run emptyPmm = .ok () t) ∧
      MarksRange lastFrame lastFrame emptyPmm t := by
  have hlast : isPageAligned lastFrame = true := by decide
  rintro ⟨t, hreturns, -⟩
  exact pmmMarkRange_not_returns hlast hreturns

end BordOS
