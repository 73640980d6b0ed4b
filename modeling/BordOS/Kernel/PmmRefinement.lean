import BordOS.Kernel.PmmInit
import BordOS.Library.Allocator

namespace BordOS
open Library
set_option autoImplicit true
set_option relaxedAutoImplicit false

/-- A page frame, named by its page-aligned address. -/
abbrev Frame := { f : PhysAddr // isPageAligned f = true }

def frameOfNo (k : Nat) (h : k < nbFrames) : Frame := ⟨frameAddr k, frameAddr_aligned h⟩

def Pmm.used (s : Pmm) : Set Frame := {f | bitAt s.pmmBitmap (frameNo f.1) = true}

theorem Pmm.mem_used {s : Pmm} {f : Frame} :
    f ∈ s.used ↔ bitAt s.pmmBitmap (frameNo f.1) = true := Iff.rfl

theorem frame_ext_iff {f g : Frame} : f = g ↔ frameNo f.1 = frameNo g.1 := by
  constructor
  · intro h
    rw [h]
  · intro h
    apply Subtype.ext
    rw [← frameAddr_frameNo f.2, h, frameAddr_frameNo g.2]

theorem frameNo_frameOfNo (h : k < nbFrames) : frameNo (frameOfNo k h).1 = k :=
  frameNo_frameAddr h

def allocResult : Option Frame → PhysAddr
  | none => nullFrame
  | some f => f.1

theorem used_set (s : Pmm) (h : k < nbFrames) :
    Pmm.used { pmmBitmap := setBitAt s.pmmBitmap k, pmmNextFrame := i } =
      insert (frameOfNo k h) s.used := by
  have hk : k / 8 < frameBitmapSize := by rw [nbFrames_eq] at h; omega
  ext f
  rw [Pmm.mem_used, bitAt_setBitAt hk, Bool.or_eq_true, decide_eq_true_eq, Set.mem_insert_iff,
    frame_ext_iff, frameNo_frameOfNo, or_comm, Pmm.mem_used]

theorem used_clear (s : Pmm) (f : Frame) :
    Pmm.used { pmmBitmap := clearBitAt s.pmmBitmap (frameNo f.1), pmmNextFrame := i } =
      s.used \ {f} := by
  ext g
  rw [Pmm.mem_used, bitAt_clearBitAt (frameNo_byte_lt f.1), Bool.and_eq_true, Bool.not_eq_true',
    decide_eq_false_iff_not, Set.mem_sdiff, Set.mem_singleton_iff, frame_ext_iff, Pmm.mem_used]

/-- `pmm_alloc` is a step of the finite-set allocator. It keeps both passes inside the bitmap,
leaves the hint inside it when it succeeds, and changes nothing when it fails. -/
theorem pmmAlloc_refines {s : Pmm} (h : SearchSafe s) :
    ∃ r t, pmmAlloc.run s = .ok (allocResult r) t ∧ AllocStep s.used (.alloc r) t.used ∧
      SearchSafe t ∧ (r = none → t = s) ∧ (r ≠ none → t.pmmNextFrame < frameBitmapSize) := by
  rcases pmmAlloc_run (h.imp_left Nat.le_of_lt) with ⟨m, hm, hclr, _, hrun⟩ | ⟨hall, hrun⟩
  · have hnext : m / 8 < frameBitmapSize := by rw [nbFrames_eq] at hm; omega
    refine ⟨some (frameOfNo m hm), _, hrun, ?_, .inl hnext, ?_, fun _ => hnext⟩
    · rw [used_set s hm]
      apply AllocStep.alloc
      rw [Pmm.mem_used, frameNo_frameOfNo hm, hclr]
      exact Bool.false_ne_true
    · intro he
      cases he
  · refine ⟨none, s, hrun, .full ?_, h, fun _ => rfl, fun he => absurd rfl he⟩
    rw [Set.eq_univ_iff_forall]
    intro f
    exact hall _ (frameNo_lt f.1)

theorem pmmFree_refines {s : Pmm} {f : Frame} (h : f ∈ s.used) :
    ∃ t, (pmmFree f.1).run s = .ok () t ∧ AllocStep s.used (.free f) t.used ∧
      t.pmmNextFrame < frameBitmapSize := by
  refine ⟨_, pmmFree_run f.2 h, ?_, frameNo_byte_lt f.1⟩
  rw [used_clear s f]
  exact .free h

theorem pmmAlloc_step {s t : Pmm} {f : PhysAddr} (h : SearchSafe s)
    (hrun : pmmAlloc.run s = .ok f t) :
    ∃ r, f = allocResult r ∧ AllocStep s.used (.alloc r) t.used ∧ SearchSafe t ∧
      (r = none → t = s) ∧ (r ≠ none → t.pmmNextFrame < frameBitmapSize) := by
  obtain ⟨r, t', hrun', hstep⟩ := pmmAlloc_refines h
  rw [hrun] at hrun'
  injection hrun' with hf ht
  subst ht
  exact ⟨r, hf, hstep⟩

theorem pmmFree_step {s t : Pmm} {f : Frame} (h : f ∈ s.used)
    (hrun : (pmmFree f.1).run s = .ok () t) :
    AllocStep s.used (.free f) t.used ∧ t.pmmNextFrame < frameBitmapSize := by
  obtain ⟨t', hrun', hstep⟩ := pmmFree_refines h
  rw [hrun] at hrun'
  injection hrun' with _ ht
  subst ht
  exact hstep

/-- The page frames up to the reserved end: those of the kernel image and the frames below. -/
def reserved (kernelEnd : PhysAddr) : Set PhysAddr :=
  {f | isPageAligned f = true ∧ f ≤ reservedEnd kernelEnd}

def framesOf (S : Set PhysAddr) : Set Frame := {f | f.1 ∈ S}

theorem pmmInit_used {kernelEnd : PhysAddr} {b : Fin frameBitmapSize → BitVec 8}
    (hb : ∀ k, bitAt b k = decide (k * pageSize ≤ (reservedEnd kernelEnd).toNat)) :
    Pmm.used { pmmBitmap := b, pmmNextFrame := i } = framesOf (reserved kernelEnd) := by
  ext f
  have hf : frameNo f.1 * pageSize = f.1.toNat :=
    Nat.div_mul_cancel (Nat.dvd_of_mod_eq_zero ((isPageAligned_iff f.1).1 f.2))
  rw [Pmm.mem_used, hb, decide_eq_true_eq, hf]
  exact ⟨fun h => ⟨f.2, h⟩, fun h => h.2⟩

/-- The last frame of the address space is never reserved, so something is free after
`pmm_init` and the first search ends inside the bitmap. -/
theorem pmmInit_searchSafe {kernelEnd : PhysAddr} {b : Fin frameBitmapSize → BitVec 8}
    (h : KernelEndOk kernelEnd)
    (hb : ∀ k, bitAt b k = decide (k * pageSize ≤ (reservedEnd kernelEnd).toNat)) :
    SearchSafe { pmmBitmap := b, pmmNextFrame := i } := by
  refine .inr ⟨nbFrames - 1, by decide, ?_⟩
  have hup := h.upper
  have hdm := Nat.div_mul_le_self kernelEnd.toNat pageSize
  rw [hb, decide_eq_false_iff_not, reservedEnd_toNat hup]
  simp only [pageSize, nbFrames] at *
  omega

theorem kernel_reserved {kernelEnd f : PhysAddr} (h : KernelEndOk kernelEnd)
    (hf : isPageAligned f = true) (hr : f ∉ reserved kernelEnd) : kernelEnd < f := by
  have hgt : ¬ f ≤ reservedEnd kernelEnd := fun hle => hr ⟨hf, hle⟩
  have hend := reservedEnd_toNat h.upper
  have hmod := Nat.div_add_mod kernelEnd.toNat pageSize
  have hlt : kernelEnd.toNat % pageSize < pageSize := Nat.mod_lt _ (by decide)
  rw [Nat.mul_comm] at hmod
  rw [BitVec.le_def, hend] at hgt
  rw [BitVec.lt_def]
  omega

end BordOS
