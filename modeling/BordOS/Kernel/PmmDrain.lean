import BordOS.Kernel.PmmCalls

namespace BordOS
open Library
set_option autoImplicit true
set_option relaxedAutoImplicit false

variable {kernelEnd : PhysAddr} {fuel : Nat} {s₀ : Pmm}

theorem pmmSearch_bounds (n i : Nat) (s t : Pmm)
    (h : (pmmSearch n i).run s = .ok (some (k, j)) t) : k < frameBitmapSize ∧ j < 8 := by
  induction n generalizing i with
  | zero => simp [pmmSearch] at h
  | succ n ih =>
    by_cases hi : i < frameBitmapSize
    · by_cases hx : s.pmmBitmap ⟨i, hi⟩ = 0xFF#8
      · simp only [pmmSearch, EStateM.run_bind, bitmapRead_run hi, hx, ne_eq, not_true_eq_false,
          ↓reduceIte] at h
        exact ih (i + 1) h
      · simp only [pmmSearch, EStateM.run_bind, bitmapRead_run hi, ne_eq, hx, not_false_eq_true,
          ↓reduceIte, EStateM.run_pure, EStateM.Result.ok.injEq, Option.some.injEq,
          Prod.mk.injEq] at h
        obtain ⟨⟨hk, hj⟩, _⟩ := h
        rw [← hk, ← hj]
        exact ⟨hi, (pmmScanByte_lowest hx).1⟩
    · simp [pmmSearch, bitmapRead, hi] at h

theorem SearchSafe.exec_in_bounds {s : Pmm} (h : SearchSafe s) (c : PmmCall) (i : Nat) (u : Pmm) :
    c.exec.run s ≠ .error (.outOfBounds i) u := by
  intro he
  cases c with
  | alloc =>
    obtain ⟨r, t, hrun, _⟩ := pmmAlloc_refines h
    have hstep : PmmStep s .alloc t := .of_alloc hrun
    rw [PmmStep, he] at hstep
    cases hstep
  | free f =>
    simp only [PmmCall.exec] at he
    cases hal : isPageAligned f with
    | false => simp [pmmFree_run_unaligned s hal] at he
    | true =>
      cases hb : bitAt s.pmmBitmap (frameNo f) with
      | false => simp [pmmFree_run_clear hal hb] at he
      | true => simp [pmmFree_run hal hb] at he
  | isFrameAllocated f =>
    simp only [PmmCall.exec, EStateM.run_bind] at he
    cases hal : isPageAligned f with
    | false => simp [pmmIsFrameAllocated_run_unaligned s hal] at he
    | true => simp [pmmIsFrameAllocated_run s hal] at he

/-- From `pmm_init` on no call reads or writes outside the bitmap, no legal call faults at all,
and the address that a search computes fits in 32 bits. -/
theorem pmm_accesses_in_bounds (h : KernelEndOk kernelEnd) (hfuel : nbFrames ≤ fuel) (s₀ : Pmm) :
    ∃ s, (pmmInit fuel kernelEnd).run s₀ = .ok () s ∧
      ∀ l t, Run PmmStep s l t →
        (∀ (c : PmmCall) i u, c.exec.run t ≠ .error (.outOfBounds i) u) ∧
          (∃ u, PmmStep t .alloc u) ∧
          (∀ f, isPageAligned f = true → PmmStep t (.isFrameAllocated f) t) ∧
          (∀ f, isPageAligned f = true → (pmmIsFrameAllocated f).run t = .ok true t →
            ∃ u, PmmStep t (.free f) u) ∧
          ∀ i j, (pmmSearch (frameBitmapSize - t.pmmNextFrame) t.pmmNextFrame).run t =
                .ok (some (i, j)) t ∨
              (pmmSearch t.pmmNextFrame 0).run t = .ok (some (i, j)) t →
            pageSize * (i * 8 + j) < 2 ^ 32 := by
  obtain ⟨b, hrun, _⟩ := pmmInit_run h hfuel s₀
  refine ⟨_, hrun, ?_⟩
  intro l t hl
  have hsafe := pmmRun_searchSafe h hfuel hrun hl
  refine ⟨hsafe.exec_in_bounds, ?_, ?_, ?_, ?_⟩
  · obtain ⟨r, u, hu, _⟩ := pmmAlloc_refines hsafe
    exact ⟨u, .of_alloc hu⟩
  · intro f hf
    exact .of_query t hf
  · intro f hf hb
    rw [pmmIsFrameAllocated_run t hf] at hb
    injection hb with hb
    exact ⟨_, pmmFree_run hf hb⟩
  · intro i j hij
    have hb : i < frameBitmapSize ∧ j < 8 := by
      rcases hij with hij | hij
      · exact pmmSearch_bounds _ _ _ _ hij
      · exact pmmSearch_bounds _ _ _ _ hij
    simp only [frameBitmapSize_eq, pageSize] at hb ⊢
    omega

theorem pmm_accesses_in_bounds_small_kernel :
    ∃ s, (pmmInit nbFrames 0x100000#32).run ⟨fun _ => 0#8, 0⟩ = .ok () s ∧
      ∀ l t, Run PmmStep s l t →
        (∀ (c : PmmCall) i u, c.exec.run t ≠ .error (.outOfBounds i) u) ∧
          ∃ u, PmmStep t .alloc u := by
  have hk : KernelEndOk 0x100000#32 := ⟨by decide, by decide⟩
  obtain ⟨s, hrun, hs⟩ := pmm_accesses_in_bounds hk (Nat.le_refl _) ⟨fun _ => 0#8, 0⟩
  exact ⟨s, hrun, fun l t hl => ⟨(hs l t hl).1, (hs l t hl).2.1⟩⟩

def pmmAllocMany : Nat → KernelM Pmm (List PhysAddr)
  | 0 => pure []
  | n + 1 => do
    let f ← pmmAlloc
    let fs ← pmmAllocMany n
    pure (f :: fs)

theorem pmmAllocMany_refines (n : Nat) {s : Pmm} (h : SearchSafe s) :
    ∃ (rs : List (Option Frame)) (u : Pmm) (l : List (Step (Set Frame) (AllocOp Frame))),
      (pmmAllocMany n).run s = .ok (rs.map allocResult) u ∧
      Run AllocStep s.used l u.used ∧ labels l = rs.map .alloc ∧ rs.length = n ∧
      SearchSafe u := by
  induction n generalizing s with
  | zero => exact ⟨[], s, [], rfl, .nil _, rfl, rfl, h⟩
  | succ n ih =>
    obtain ⟨r, t, hrun, hstep, hsafe, _, _⟩ := pmmAlloc_refines h
    obtain ⟨rs, u, l, hruns, hl, hlab, hlen, hu⟩ := ih hsafe
    refine ⟨r :: rs, u, _, ?_, .cons hstep hl, ?_, ?_, hu⟩
    · simp only [pmmAllocMany, EStateM.run_bind, hrun, hruns, EStateM.run_pure, List.map_cons]
    · rw [labels_cons, hlab, List.map_cons]
    · rw [List.length_cons, hlen]

def Pmm.freeFrames (s : Pmm) : Set PhysAddr :=
  {f | isPageAligned f = true ∧ bitAt s.pmmBitmap (frameNo f) = false}

theorem freeFrames_eq (s : Pmm) : s.freeFrames = Subtype.val '' (s.used)ᶜ := by
  ext f
  simp only [Pmm.freeFrames, Set.mem_ofPred_eq, Set.mem_image, Set.mem_compl_iff, Pmm.mem_used,
    Bool.not_eq_true]
  constructor
  · rintro ⟨hal, hb⟩
    exact ⟨⟨f, hal⟩, hb, rfl⟩
  · rintro ⟨g, hb, he⟩
    subst he
    exact ⟨g.2, hb⟩

theorem pmmAlloc_full {s : Pmm} (h : SearchSafe s) (hu : s.used = Set.univ) :
    pmmAlloc.run s = .ok nullFrame s := by
  obtain ⟨r, t, hrun, hstep, _, hnone, _⟩ := pmmAlloc_refines h
  cases r with
  | none =>
    rw [hnone rfl] at hrun
    exact hrun
  | some f =>
    have hf := hstep.not_mem
    rw [hu] at hf
    exact absurd trivial hf

theorem pmmAllocMany_full {s : Pmm} (h : SearchSafe s) (hu : s.used = Set.univ) (n : Nat) :
    (pmmAllocMany n).run s = .ok (List.replicate n nullFrame) s := by
  induction n with
  | zero => rfl
  | succ n ih =>
    simp only [pmmAllocMany, EStateM.run_bind, pmmAlloc_full h hu, ih, EStateM.run_pure,
      List.replicate_succ]

theorem pmmFree_alloc_full {s : Pmm} (hu : s.used = Set.univ) (f : Frame) :
    ∃ t u, (pmmFree f.1).run s = .ok () t ∧ pmmAlloc.run t = .ok f.1 u := by
  have hf : f ∈ s.used := by rw [hu]; trivial
  obtain ⟨t, hrun, hstep, hlt⟩ := pmmFree_refines hf
  obtain ⟨r, u, halloc, hstep', _, _, _⟩ := pmmAlloc_refines (.inl hlt)
  have ht : t.used = Set.univ \ {f} := by
    rw [← hu]
    exact hstep.eq_remove
  refine ⟨t, u, hrun, ?_⟩
  rw [halloc]
  cases r with
  | none =>
    have hmem : f ∈ t.used := by rw [hstep'.eq_univ]; trivial
    rw [ht] at hmem
    exact absurd rfl hmem.2
  | some g =>
    have hg := hstep'.not_mem
    rw [ht, Set.mem_sdiff, Set.mem_singleton_iff] at hg
    have he : g = f := by
      by_contra hne
      exact hg ⟨trivial, hne⟩
    rw [he]
    rfl

/-- No frame is leaked: from every reachable state, as many calls of `pmm_alloc` as there are free
frames return each of them once. Further calls fail without effect, and a frame that is then
given back is the next one handed out. -/
theorem pmm_drain {s t : Pmm} {l : List (Step Pmm PmmCall)} (h : KernelEndOk kernelEnd)
    (hfuel : nbFrames ≤ fuel) (hinit : (pmmInit fuel kernelEnd).run s₀ = .ok () s)
    (hl : Run PmmStep s l t) :
    ∃ fs u, (pmmAllocMany t.freeFrames.ncard).run t = .ok fs u ∧
      fs.length = t.freeFrames.ncard ∧ fs.Nodup ∧ {f | f ∈ fs} = t.freeFrames ∧
      (∀ n, (pmmAllocMany n).run u = .ok (List.replicate n nullFrame) u) ∧
      ∀ f, isPageAligned f = true →
        ∃ v w, (pmmFree f).run u = .ok () v ∧ pmmAlloc.run v = .ok f w := by
  have hsafe := pmmRun_searchSafe h hfuel hinit hl
  have hcard : t.freeFrames.ncard = ((t.used)ᶜ).ncard := by
    rw [freeFrames_eq]
    exact Set.ncard_image_of_injective _ Subtype.val_injective
  obtain ⟨rs, u, l', hruns, hrun, hlab, hlen, hu⟩ := pmmAllocMany_refines t.freeFrames.ncard hsafe
  obtain ⟨xs, rfl, hnd, hset, huniv⟩ := AllocStep.drain hrun hlab (hlen.trans hcard)
  have hmap : (xs.map some).map allocResult = xs.map Subtype.val := by
    rw [List.map_map]
    rfl
  refine ⟨_, u, hruns, by simpa using hlen, ?_, ?_, pmmAllocMany_full hu huniv, ?_⟩
  · rw [hmap]
    exact hnd.map Subtype.val_injective
  · rw [hmap, freeFrames_eq, ← hset]
    ext f
    simp
  · intro f hf
    exact pmmFree_alloc_full huniv ⟨f, hf⟩

/-- Before the drain two frames are handed out, and the first one is given back. -/
theorem pmm_drain_small_kernel :
    ∃ s l t f fs u, (pmmInit nbFrames 0x100000#32).run ⟨fun _ => 0#8, 0⟩ = .ok () s ∧
      Run PmmStep s l t ∧ labels l = [.alloc, .alloc, .free f] ∧
      (pmmAllocMany t.freeFrames.ncard).run t = .ok fs u ∧ fs.Nodup ∧
      {g | g ∈ fs} = t.freeFrames ∧ f ∈ fs := by
  have hk : KernelEndOk 0x100000#32 := ⟨by decide, by decide⟩
  obtain ⟨b, hinit, hb⟩ := pmmInit_run hk (Nat.le_refl _) ⟨fun _ => 0#8, 0⟩
  have hfree : frameOfNo 300 (by decide) ∉
      Pmm.used { pmmBitmap := b, pmmNextFrame := (reservedEnd 0x100000#32).toNat } := by
    rw [Pmm.mem_used, frameNo_frameOfNo, hb]
    decide
  obtain ⟨r, s₁, hfirst, hstep, hsafe, -⟩ := pmmAlloc_refines (pmmInit_searchSafe hk hb)
  cases r with
  | none =>
    rw [hstep.eq_univ] at hfree
    exact absurd trivial hfree
  | some f =>
    obtain ⟨r', s₂, hsecond, hstep', -⟩ := pmmAlloc_refines hsafe
    have hused : f ∈ s₂.used := hstep'.subset hstep.mem
    obtain ⟨t, hback, hstep'', -⟩ := pmmFree_refines hused
    have hthird : PmmStep s₂ (.free f.1) t := hback
    have hl := Run.cons (PmmStep.of_alloc hfirst) <| .cons (PmmStep.of_alloc hsecond) <|
      .cons hthird (.nil t)
    obtain ⟨fs, u, hfs, -, hnd, hset, -⟩ := pmm_drain hk (Nat.le_refl _) hinit hl
    refine ⟨_, _, t, f.1, fs, u, hinit, hl, rfl, hfs, hnd, hset, ?_⟩
    have hmem : f.1 ∈ t.freeFrames := by
      rw [freeFrames_eq, hstep''.eq_remove]
      exact ⟨f, fun h => h.2 rfl, rfl⟩
    rw [← hset] at hmem
    exact hmem

end BordOS
