import BordOS.Kernel.PmmAlloc
import BordOS.Library.FirstFit

namespace BordOS
open Library
set_option autoImplicit true
set_option relaxedAutoImplicit false

def Pmm.free (s : Pmm) : Set Nat := {k | k < nbFrames ∧ bitAt s.pmmBitmap k = false}

theorem Pmm.free_eq_empty {s : Pmm} :
    s.free = ∅ ↔ ∀ k < nbFrames, bitAt s.pmmBitmap k = true := by
  simp only [Set.eq_empty_iff_forall_notMem, Pmm.free, Set.mem_ofPred_eq, not_and,
    Bool.not_eq_false]

theorem pmmAlloc_first {s : Pmm} (h : s.pmmNextFrame ≤ frameBitmapSize) :
    (∃ m, CyclicFirst s.free (8 * s.pmmNextFrame) m ∧ pmmAlloc.run s =
        .ok (frameAddr m) { pmmBitmap := setBitAt s.pmmBitmap m, pmmNextFrame := m / 8 }) ∨
      s.free = ∅ ∧ pmmAlloc.run s = .ok nullFrame s := by
  rcases pmmAlloc_run (.inl h) with ⟨m, hm, hclr, hfirst, hrun⟩ | ⟨hfull, hrun⟩
  · refine .inl ⟨m, ?_, hrun⟩
    rcases hfirst with ⟨hlo, hbelow⟩ | ⟨hlt, hbelow, habove⟩
    · refine .inl ⟨⟨⟨hm, hclr⟩, hlo⟩, ?_⟩
      rintro k ⟨⟨-, hk⟩, hge⟩
      by_contra hlt
      rw [hbelow k hge (Nat.lt_of_not_le hlt)] at hk
      cases hk
    · refine .inr ⟨?_, ⟨⟨hm, hclr⟩, hlt⟩, ?_⟩
      · rw [Set.eq_empty_iff_forall_notMem]
        rintro k ⟨⟨hk, hkclr⟩, hge⟩
        rw [habove k hk hge] at hkclr
        cases hkclr
      · rintro k ⟨⟨-, hk⟩, -⟩
        by_contra hlt'
        rw [hbelow k (Nat.lt_of_not_le hlt')] at hk
        cases hk
  · exact .inr ⟨Pmm.free_eq_empty.2 hfull, hrun⟩

/-- `pmm_alloc` is a cyclic first fit from its hint, and fails only when every frame is taken. -/
theorem pmm_alloc_first_fit (s : Pmm) (h : s.pmmNextFrame ≤ frameBitmapSize) :
    (∀ m, CyclicFirst s.free (8 * s.pmmNextFrame) m →
      frameAddr m ≠ nullFrame ∧ ∃ t, pmmAlloc.run s = .ok (frameAddr m) t ∧
        (∀ k, bitAt t.pmmBitmap k = (bitAt s.pmmBitmap k || decide (k = m))) ∧
        t.pmmNextFrame = m / 8) ∧
      ((∃ t, pmmAlloc.run s = .ok nullFrame t) ↔ ∀ k < nbFrames, bitAt s.pmmBitmap k = true) ∧
      ∀ t, pmmAlloc.run s = .ok nullFrame t → t = s := by
  have hne {m : Nat} (hm : m ∈ s.free) : frameAddr m ≠ nullFrame :=
    ne_nullFrame (frameAddr_aligned hm.1)
  rw [← Pmm.free_eq_empty]
  rcases pmmAlloc_first h with ⟨m, hfirst, hrun⟩ | ⟨hfull, hrun⟩
  · have hm := hfirst.mem
    have hbyte : m / 8 < frameBitmapSize := by
      have hlt := hm.1
      rw [nbFrames_eq] at hlt
      omega
    refine ⟨?_, ⟨?_, ?_⟩, ?_⟩
    · intro m' hfirst'
      obtain rfl := hfirst.unique hfirst'
      exact ⟨hne hm, _, hrun, bitAt_setBitAt hbyte, rfl⟩
    · rintro ⟨t, ht⟩
      rw [hrun, EStateM.Result.ok.injEq] at ht
      exact absurd ht.1 (hne hm)
    · intro hfull
      rw [hfull] at hm
      exact hm.elim
    · intro t ht
      rw [hrun, EStateM.Result.ok.injEq] at ht
      exact absurd ht.1 (hne hm)
  · refine ⟨?_, ⟨fun _ => hfull, fun _ => ⟨s, hrun⟩⟩, ?_⟩
    · intro m hfirst
      have hm := hfirst.mem
      rw [hfull] at hm
      exact hm.elim
    · intro t ht
      rw [hrun] at ht
      cases ht
      rfl

/-- Only the first frame is free, and the hint is behind the last byte. -/
def firstFrameFree : Pmm where
  pmmBitmap i := if i.val = 0 then 0xFE else 0xFF
  pmmNextFrame := frameBitmapSize

theorem pmm_alloc_first_fit_wraps :
    frameAddr 0 ≠ nullFrame ∧ ∃ t, pmmAlloc.run firstFrameFree = .ok (frameAddr 0) t ∧
      (∀ k, bitAt t.pmmBitmap k = (bitAt firstFrameFree.pmmBitmap k || decide (k = 0))) ∧
      t.pmmNextFrame = 0 := by
  have hfree : 0 ∈ firstFrameFree.free := by
    refine ⟨by decide, ?_⟩
    rw [bitAt_of_lt (by decide)]
    rfl
  apply (pmm_alloc_first_fit firstFrameFree (Nat.le_refl _)).1 0
  refine .inr ⟨?_, ⟨hfree, Nat.mul_pos (by decide) (by decide)⟩, fun _ _ => Nat.zero_le _⟩
  rw [Set.eq_empty_iff_forall_notMem]
  rintro k ⟨⟨hk, -⟩, hge⟩
  rw [nbFrames_eq] at hk
  exact absurd hk (Nat.not_lt_of_le hge)

end BordOS
