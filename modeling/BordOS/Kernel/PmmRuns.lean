import BordOS.Kernel.PmmRefinement

namespace BordOS
open Library
set_option autoImplicit true
set_option relaxedAutoImplicit false

variable {kernelEnd : PhysAddr} {fuel : Nat} {s₀ : Pmm}

/-- The allocator and the frames that its clients hold: those returned and not yet freed. -/
structure Client where
  pmm : Pmm
  held : Set PhysAddr

inductive ClientCall where
  | alloc
  | free (frame : PhysAddr)

/-- One call of a client, which frees only frames that it holds. -/
inductive ClientStep : Client → ClientCall → Client → Prop where
  | alloc {c : Client} {f : PhysAddr} {t : Pmm} : pmmAlloc.run c.pmm = .ok f t →
      ClientStep c .alloc ⟨t, if f = nullFrame then c.held else insert f c.held⟩
  | free {c : Client} {f : PhysAddr} {t : Pmm} : f ∈ c.held → (pmmFree f).run c.pmm = .ok () t →
      ClientStep c (.free f) ⟨t, c.held \ {f}⟩

/-- What every client run keeps: a safe search, and a ledger in which the frames in use are the
reserved ones and the held ones. -/
structure ClientInv (kernelEnd : PhysAddr) (c : Client) : Prop where
  safe : SearchSafe c.pmm
  ledger : Ledger (framesOf (reserved kernelEnd)) c.pmm.used (framesOf c.held)
  aligned : ∀ f ∈ c.held, isPageAligned f = true

theorem framesOf_insert (f : Frame) (S : Set PhysAddr) :
    framesOf (insert f.1 S) = insert f (framesOf S) := by
  ext g
  simp only [framesOf, Set.mem_ofPred_eq, Set.mem_insert_iff, Subtype.ext_iff]

theorem framesOf_remove (f : Frame) (S : Set PhysAddr) :
    framesOf (S \ {f.1}) = framesOf S \ {f} := by
  ext g
  simp only [framesOf, Set.mem_ofPred_eq, Set.mem_sdiff, Set.mem_singleton_iff, Subtype.ext_iff]

theorem ClientInv.start (h : KernelEndOk kernelEnd) {b : Fin frameBitmapSize → BitVec 8}
    (hb : ∀ k, bitAt b k = decide (k * pageSize ≤ (reservedEnd kernelEnd).toNat)) :
    ClientInv kernelEnd ⟨{ pmmBitmap := b, pmmNextFrame := i }, ∅⟩ where
  safe := pmmInit_searchSafe h hb
  ledger := by
    rw [pmmInit_used hb]
    exact Ledger.start
  aligned := fun f hf => by cases hf

theorem ClientInv.mem_used {c : Client} (h : ClientInv kernelEnd c) {f : PhysAddr}
    (hf : f ∈ c.held) : (⟨f, h.aligned f hf⟩ : Frame) ∈ c.pmm.used := by
  rw [h.ledger.used_eq]
  exact .inr hf

theorem ClientInv.step {c c' : Client} (h : ClientInv kernelEnd c)
    (hs : ClientStep c a c') : ClientInv kernelEnd c' := by
  cases hs with
  | @alloc f t hrun =>
    obtain ⟨r, rfl, hstep, hsafe, _, _⟩ := pmmAlloc_step h.safe hrun
    have hl := h.ledger.step hstep True.intro
    cases r with
    | none => exact ⟨hsafe, hl, h.aligned⟩
    | some g =>
      have hne := ne_nullFrame g.2
      simp only [allocResult, hne, ↓reduceIte]
      refine ⟨hsafe, ?_, ?_⟩
      · rw [framesOf_insert]
        exact hl
      · intro f hf
        rcases hf with he | hf
        · rw [he]; exact g.2
        · exact h.aligned f hf
  | @free f t hf hrun =>
    obtain ⟨hstep, hlt⟩ := pmmFree_step (h.mem_used hf) hrun
    have hl := h.ledger.step hstep hf
    refine ⟨.inl hlt, ?_, fun g hg => h.aligned g hg.1⟩
    rw [framesOf_remove ⟨f, h.aligned f hf⟩]
    exact hl

/-- What the allocator shows of a set of frames: its queries answer for the reserved and the held
frames, an allocation is of neither, a release of a free frame aborts where it stands, and a
release of a held frame returns. -/
structure ShowsFrames (kernelEnd : PhysAddr) (c : Client) : Prop where
  query : ∀ f, isPageAligned f = true →
    ∃ b, (pmmIsFrameAllocated f).run c.pmm = .ok b c.pmm ∧
      (b = true ↔ f ∈ reserved kernelEnd ∨ f ∈ c.held)
  fresh : ∃ f t, pmmAlloc.run c.pmm = .ok f t ∧
    (f ≠ nullFrame → isPageAligned f = true ∧ f ∉ reserved kernelEnd ∧ kernelEnd < f ∧
      f ∉ c.held)
  abort : ∀ f, isPageAligned f = true → (pmmIsFrameAllocated f).run c.pmm = .ok false c.pmm →
    (pmmFree f).run c.pmm = .error (.assertion "pmm_is_frame_allocated(frame)") c.pmm
  release : ∀ f ∈ c.held, ∃ t, (pmmFree f).run c.pmm = .ok () t

theorem ClientInv.showsFrames {c : Client} (h : ClientInv kernelEnd c)
    (hk : KernelEndOk kernelEnd) : ShowsFrames kernelEnd c where
  query f hf := by
    have hu := Set.ext_iff.1 h.ledger.used_eq ⟨f, hf⟩
    exact ⟨_, pmmIsFrameAllocated_run c.pmm hf, hu⟩
  fresh := by
    obtain ⟨r, t, hrun, hstep, _, _, _⟩ := pmmAlloc_refines h.safe
    refine ⟨allocResult r, t, hrun, ?_⟩
    intro hne
    cases r with
    | none => exact absurd rfl hne
    | some g =>
      obtain ⟨hres, hheld⟩ := h.ledger.fresh hstep.not_mem
      exact ⟨g.2, hres, kernel_reserved hk g.2 hres, hheld⟩
  abort f hf hrun := by
    rw [pmmIsFrameAllocated_run c.pmm hf] at hrun
    injection hrun with hb
    exact pmmFree_run_clear hf hb
  release f hf := by
    obtain ⟨t, hrun, _, _⟩ := pmmFree_refines (h.mem_used hf)
    exact ⟨t, hrun⟩

/-- The bitmap allocator refines a finite-set allocator over whole runs of its clients. -/
theorem pmm_refines_frame_set (h : KernelEndOk kernelEnd) (hfuel : nbFrames ≤ fuel) (s₀ : Pmm) :
    ∃ s, (pmmInit fuel kernelEnd).run s₀ = .ok () s ∧
      ∀ l c, Run ClientStep ⟨s, ∅⟩ l c → ShowsFrames kernelEnd c := by
  obtain ⟨b, hrun, hb⟩ := pmmInit_run h hfuel s₀
  refine ⟨_, hrun, ?_⟩
  intro l c hl
  have hinv := hl.invariant_end (ClientInv.start h hb) fun c a c' hs hc => hc.step hs
  exact hinv.showsFrames h

theorem pmm_refines_frame_set_small_kernel :
    ∃ s, (pmmInit nbFrames 0x100000#32).run ⟨fun _ => 0#8, 0⟩ = .ok () s ∧
      ∀ l c, Run ClientStep ⟨s, ∅⟩ l c → ShowsFrames 0x100000#32 c :=
  pmm_refines_frame_set ⟨by decide, by decide⟩ (Nat.le_refl _) _

end BordOS
