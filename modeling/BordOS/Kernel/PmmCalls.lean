import BordOS.Kernel.PmmRefinement

namespace BordOS
open Library
set_option autoImplicit true
set_option relaxedAutoImplicit false

variable {kernelEnd : PhysAddr} {fuel : Nat} {s₀ : Pmm}

/-- A call of the allocator by any part of the kernel, whoever owns the frame it names. -/
inductive PmmCall where
  | alloc
  | free (frame : PhysAddr)
  | isFrameAllocated (frame : PhysAddr)

def PmmCall.exec : PmmCall → KernelM Pmm Unit
  | .alloc => do let _ ← pmmAlloc
  | .free frame => pmmFree frame
  | .isFrameAllocated frame => do let _ ← pmmIsFrameAllocated frame

def PmmCall.IsQuery : PmmCall → Prop
  | .isFrameAllocated _ => True
  | _ => False

/-- A call that returns. One that aborts ends the run. -/
def PmmStep (s : Pmm) (c : PmmCall) (t : Pmm) : Prop := c.exec.run s = .ok () t

theorem PmmStep.of_alloc {s t : Pmm} (h : pmmAlloc.run s = .ok f t) : PmmStep s .alloc t := by
  simp only [PmmStep, PmmCall.exec, EStateM.run_bind, h, EStateM.run_pure]

theorem PmmStep.of_query (s : Pmm) (h : isPageAligned f = true) :
    PmmStep s (.isFrameAllocated f) s := by
  simp only [PmmStep, PmmCall.exec, EStateM.run_bind, pmmIsFrameAllocated_run s h,
    EStateM.run_pure]

theorem PmmStep.cases {s t : Pmm} {c : PmmCall} (h : PmmStep s c t) :
    (c = .alloc ∧ ∃ f, pmmAlloc.run s = .ok f t) ∨
      (∃ f : Frame, c = .free f.1 ∧ f ∈ s.used ∧ (pmmFree f.1).run s = .ok () t) ∨
      (c.IsQuery ∧ t = s) := by
  cases c with
  | alloc =>
    refine .inl ⟨rfl, ?_⟩
    simp only [PmmStep, PmmCall.exec, EStateM.run_bind] at h
    cases hr : pmmAlloc.run s with
    | ok f t' =>
      simp only [hr, EStateM.run_pure, EStateM.Result.ok.injEq, true_and] at h
      exact ⟨f, by rw [h]⟩
    | error e t' => simp [hr] at h
  | free f =>
    refine .inr (.inl ?_)
    have h' : (pmmFree f).run s = .ok () t := h
    cases hal : isPageAligned f with
    | false => simp [pmmFree_run_unaligned s hal] at h'
    | true =>
      cases hb : bitAt s.pmmBitmap (frameNo f) with
      | false => simp [pmmFree_run_clear hal hb] at h'
      | true => exact ⟨⟨f, hal⟩, rfl, hb, h'⟩
  | isFrameAllocated f =>
    refine .inr (.inr ⟨trivial, ?_⟩)
    simp only [PmmStep, PmmCall.exec, EStateM.run_bind] at h
    cases hal : isPageAligned f with
    | false => simp [pmmIsFrameAllocated_run_unaligned s hal] at h
    | true =>
      simp only [pmmIsFrameAllocated_run s hal, EStateM.run_pure, EStateM.Result.ok.injEq,
        true_and] at h
      exact h.symm

theorem PmmStep.searchSafe {s t : Pmm} {c : PmmCall} (hs : SearchSafe s) (h : PmmStep s c t) :
    SearchSafe t := by
  rcases h.cases with ⟨_, f, hrun⟩ | ⟨f, _, hf, hrun⟩ | ⟨_, he⟩
  · obtain ⟨r, _, _, hsafe, _, _⟩ := pmmAlloc_step hs hrun
    exact hsafe
  · exact .inl (pmmFree_step hf hrun).2
  · rw [he]
    exact hs

theorem pmmRun_searchSafe {s t : Pmm} {l : List (Step Pmm PmmCall)} (h : KernelEndOk kernelEnd)
    (hfuel : nbFrames ≤ fuel) (hinit : (pmmInit fuel kernelEnd).run s₀ = .ok () s)
    (hl : Run PmmStep s l t) : SearchSafe t := by
  obtain ⟨b, rfl, hb⟩ := pmmInit_returned h hfuel hinit
  exact hl.invariant_end (pmmInit_searchSafe h hb) fun s c t hc hs => hc.searchSafe hs

/-- The hint names a byte of the bitmap, so that both search ranges lie inside it. -/
def HintInBitmap (s : Pmm) : Prop :=
  s.pmmNextFrame < frameBitmapSize ∧
    ∀ i, s.pmmNextFrame ≤ i ∧ i < frameBitmapSize ∨ i < s.pmmNextFrame → i < frameBitmapSize

theorem hintInBitmap_iff {s : Pmm} : HintInBitmap s ↔ s.pmmNextFrame < frameBitmapSize := by
  refine ⟨fun h => h.1, fun h => ⟨h, fun i hi => ?_⟩⟩
  rcases hi with hi | hi <;> omega

/-- The hint is in the bitmap after a call that is no query, if something was free before it or
the hint was in the bitmap already. -/
theorem PmmStep.hint {s t : Pmm} {c : PmmCall} (h : PmmStep s c t)
    (hs : s.pmmNextFrame < frameBitmapSize ∨
      ¬ c.IsQuery ∧ ∃ k < nbFrames, bitAt s.pmmBitmap k = false) :
    t.pmmNextFrame < frameBitmapSize := by
  rcases h.cases with ⟨hc, f, hrun⟩ | ⟨f, _, hf, hrun⟩ | ⟨hq, he⟩
  · have hsafe : SearchSafe s := hs.imp_right fun h => h.2
    obtain ⟨r, _, hstep, _, hnone, hsome⟩ := pmmAlloc_step hsafe hrun
    cases r with
    | some g => exact hsome fun he => by cases he
    | none =>
      rw [hnone rfl]
      rcases hs with hs | ⟨_, k, hk, hclr⟩
      · exact hs
      · -- a refusal means that every frame is in use, against the free frame `k`
        have huniv := hstep.eq_univ
        have hmem : frameOfNo k hk ∈ s.used := by rw [huniv]; trivial
        rw [Pmm.mem_used, frameNo_frameOfNo, hclr] at hmem
        cases hmem
  · exact (pmmFree_step hf hrun).2
  · rw [he]
    rcases hs with hs | ⟨hn, _⟩
    · exact hs
    · exact absurd hq hn

theorem PmmStep.query {s t : Pmm} {c : PmmCall} (h : PmmStep s c t) (hc : c.IsQuery) : t = s := by
  rcases h.cases with ⟨he, _⟩ | ⟨f, he, _⟩ | ⟨_, he⟩
  · rw [he] at hc
    cases hc
  · rw [he] at hc
    cases hc
  · exact he

theorem Run.hint_iff {s t : Pmm} {l : List (Step Pmm PmmCall)} (hl : Run PmmStep s l t)
    (hfree : ∃ k < nbFrames, bitAt s.pmmBitmap k = false) :
    t.pmmNextFrame < frameBitmapSize ↔
      s.pmmNextFrame < frameBitmapSize ∨ ∃ c ∈ labels l, ¬ c.IsQuery := by
  induction hl with
  | nil => simp
  | @cons s u t c l hn hr ih =>
    by_cases hc : c.IsQuery
    · have he := hn.query hc
      subst he
      rw [ih hfree]
      simp [hc]
    · have hu := hn.hint (.inr ⟨hc, hfree⟩)
      have ht : t.pmmNextFrame < frameBitmapSize :=
        hr.invariant_end hu fun s c t hs hh => hs.hint (.inl hh)
      refine ⟨fun _ => .inr ⟨c, by simp, hc⟩, fun _ => ht⟩

/-- `pmm_init` leaves an address in the hint. It becomes a byte index with the first call of
`pmm_alloc` or `pmm_free`, and stays one from there on. -/
theorem pmm_hint_in_bitmap_iff {s t : Pmm} {l : List (Step Pmm PmmCall)}
    (h : KernelEndOk kernelEnd) (hfuel : nbFrames ≤ fuel)
    (hinit : (pmmInit fuel kernelEnd).run s₀ = .ok () s) (hl : Run PmmStep s l t) :
    HintInBitmap t ↔ ∃ c ∈ labels l, ¬ c.IsQuery := by
  obtain ⟨b, hs, hb⟩ := pmmInit_returned h hfuel hinit
  have hhint : ¬ s.pmmNextFrame < frameBitmapSize := by
    have hlo := h.lower
    have hmod := Nat.div_add_mod kernelEnd.toNat pageSize
    rw [hs]
    simp only [reservedEnd_toNat h.upper, frameBitmapSize_eq, pageSize] at *
    omega
  have hfree : ∃ k < nbFrames, bitAt s.pmmBitmap k = false := by
    rcases pmmInit_searchSafe h hb (i := s.pmmNextFrame) with hi | hi
    · exact absurd hi hhint
    · rw [hs]
      exact hi
  rw [hintInBitmap_iff, Run.hint_iff hl hfree]
  simp [hhint]

theorem pmm_hint_after_alloc :
    ∃ s t l, (pmmInit nbFrames 0x100000#32).run ⟨fun _ => 0#8, 0⟩ = .ok () s ∧
      Run PmmStep s l t ∧ labels l = [.alloc] ∧
      (HintInBitmap t ↔ ∃ c ∈ labels l, ¬ c.IsQuery) := by
  have hk : KernelEndOk 0x100000#32 := ⟨by decide, by decide⟩
  obtain ⟨b, hrun, hb⟩ := pmmInit_run hk (Nat.le_refl _) ⟨fun _ => 0#8, 0⟩
  obtain ⟨r, t, halloc, _⟩ := pmmAlloc_refines (pmmInit_searchSafe hk hb)
  have hl := Run.cons (PmmStep.of_alloc halloc) (.nil t)
  exact ⟨_, t, _, hrun, hl, rfl, pmm_hint_in_bitmap_iff hk (Nat.le_refl _) hrun hl⟩

theorem pmm_hint_after_init :
    ∃ s, (pmmInit nbFrames 0x100000#32).run ⟨fun _ => 0#8, 0⟩ = .ok () s ∧ ¬ HintInBitmap s := by
  have hk : KernelEndOk 0x100000#32 := ⟨by decide, by decide⟩
  obtain ⟨b, hrun, _⟩ := pmmInit_run hk (Nat.le_refl _) ⟨fun _ => 0#8, 0⟩
  refine ⟨_, hrun, ?_⟩
  intro h
  have hlt : (reservedEnd 0x100000#32).toNat < frameBitmapSize := h.1
  have hend : (reservedEnd 0x100000#32).toNat = 0x101000 := by decide
  rw [hend, frameBitmapSize_eq] at hlt
  omega

end BordOS
