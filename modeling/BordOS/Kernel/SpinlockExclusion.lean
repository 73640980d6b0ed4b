import BordOS.Kernel.Spinlock

namespace BordOS
open Library
set_option autoImplicit true
set_option relaxedAutoImplicit false

variable {ι : Type} [DecidableEq ι] {s t : LockSystem ι} {c : ι}

/-- A step of one client keeps mutual exclusion exactly when it does not enter beside another. -/
theorem LockStep.exclusion {a : ι × LockAction} (h : LockStep s a t) (hs : MutualExclusion s) :
    MutualExclusion t ↔ ¬ EntersOccupied s a := by
  obtain ⟨p, x, hn, he⟩ := h
  subst he
  constructor
  · rintro ht ⟨hp, ha, hl, d, hd, hh⟩
    rw [hp, ha] at hn
    have hc : (Function.update s.pc a.1 p a.1).Holds := by
      rw [Function.update_self, Pc.next_spinning hn hl]
      trivial
    have hd' : (Function.update s.pc a.1 p d).Holds := by
      rw [Function.update_of_ne hd]
      exact hh
    exact hd (ht d a.1 hd' hc)
  · intro hocc
    -- the client that moved, beside one that did not
    have hmoved {d : ι} (hd : d ≠ a.1) (hp : p.Holds) (hh : (s.pc d).Holds) : d = a.1 := by
      rcases Pc.next_holds hn hp with hc | ⟨hc, ha, hl⟩
      · exact hs d a.1 hh hc
      · exact absurd ⟨hc, ha, hl, d, hd, hh⟩ hocc
    intro c d hc hd
    simp only at hc hd
    by_cases hca : c = a.1
    · by_cases hda : d = a.1
      · exact hca.trans hda.symm
      · rw [hca, Function.update_self] at hc
        rw [Function.update_of_ne hda] at hd
        exact hca.trans (hmoved hda hc hd).symm
    · rw [Function.update_of_ne hca] at hc
      by_cases hda : d = a.1
      · rw [hda, Function.update_self] at hd
        exact (hmoved hca hd hc).trans hda.symm
      · rw [Function.update_of_ne hda] at hd
        exact hs c d hc hd

theorem lockRun_exclusion {l : List (Step (LockSystem ι) (ι × LockAction))}
    (h : Run LockStep s l t) (hs : MutualExclusion s) :
    (∀ st ∈ l, MutualExclusion st.post) ↔ ∀ st ∈ l, ¬ EntersOccupied st.pre st.label := by
  induction h with
  | nil => simp
  | @cons s u t a l hn hr ih =>
    have hstep := hn.exclusion hs
    simp only [List.forall_mem_cons]
    constructor
    · rintro ⟨hu, hl⟩
      exact ⟨hstep.1 hu, (ih hu).1 hl⟩
    · rintro ⟨hu, hl⟩
      have hu' := hstep.2 hu
      exact ⟨hu', (ih hu').2 hl⟩

theorem LockStep.of_next {f : ι → Pc} {p q : Pc} {x y : Spinlock} {a : LockAction}
    (h : p.next a x = some (q, y)) :
    LockStep ⟨x, Function.update f c p⟩ (c, a) ⟨y, Function.update f c q⟩ := by
  refine ⟨q, y, ?_, by rw [Function.update_idem]⟩
  simp only [Function.update_self]
  exact h

theorem lock_reaches_loop (hc : s.pc c = .outside) :
    ∃ l, Run LockStep s l
      ⟨{ s.spin with depth := s.spin.depth + 1 }, Function.update s.pc c .spinning⟩ := by
  have hcall : LockStep s (c, .call .lock) ⟨s.spin, Function.update s.pc c .enterLock⟩ :=
    ⟨_, _, by rw [hc]; rfl, rfl⟩
  have hbump : Pc.enterLock.next .run s.spin =
      some (.spinning, { s.spin with depth := s.spin.depth + 1 }) := rfl
  exact ⟨_, .cons hcall (.cons (.of_next hbump) (.nil _))⟩

theorem lock_set_enters (hc : s.pc c = .outside) (hl : s.spin.locked ≠ 0) :
    ∃ l t, Run LockStep s l t ∧ t.pc c = .holder ∧ ∀ d, d ≠ c → t.pc d = s.pc d := by
  obtain ⟨l, hl'⟩ := lock_reaches_loop hc
  have hnext : Pc.spinning.next .run { s.spin with depth := s.spin.depth + 1 } =
      some (.holder, { depth := s.spin.depth + 1, locked := 1 }) :=
    (Pc.Access.enter { s.spin with depth := s.spin.depth + 1 } hl).next
  refine ⟨_, _, hl'.append (.cons (.of_next hnext) (.nil _)), ?_, ?_⟩
  · exact Function.update_self ..
  · intro d hd
    exact Function.update_of_ne hd ..

/-- On a free lock word, the first exchange sets the word and goes on waiting, and the second
finds it set. -/
theorem lock_free_enters (hc : s.pc c = .outside) (hl : s.spin.locked = 0) :
    ∃ l t, Run LockStep s l t ∧ t.pc c = .holder ∧ t.spin.locked ≠ 0 ∧
      ∀ d, d ≠ c → t.pc d = s.pc d := by
  obtain ⟨l, hl'⟩ := lock_reaches_loop hc
  have hset : Pc.spinning.next .run { s.spin with depth := s.spin.depth + 1 } =
      some (.spinning, { depth := s.spin.depth + 1, locked := 1 }) :=
    (Pc.Access.wait { s.spin with depth := s.spin.depth + 1 } hl).next
  have hfound : Pc.spinning.next .run { depth := s.spin.depth + 1, locked := 1 } =
      some (.holder, { depth := s.spin.depth + 1, locked := 1 }) := rfl
  refine ⟨_, _, hl'.append (.cons (.of_next hset) (.cons (.of_next hfound) (.nil _))), ?_, ?_,
    fun d hd => ?_⟩
  · exact Function.update_self ..
  · exact (by decide : (1 : BitVec 32) ≠ 0)
  · exact Function.update_of_ne hd ..

theorem two_clients_enter {c d : ι} (h : c ≠ d) :
    ∃ l t, Run LockStep (LockSystem.start ι) l t ∧ ¬ MutualExclusion t := by
  obtain ⟨l, s, hrun, hc, hl, hother⟩ :=
    lock_free_enters (s := LockSystem.start ι) (c := c) rfl rfl
  have hd : s.pc d = .outside := by rw [hother d h.symm]; rfl
  obtain ⟨l', t, hrun', hd', hother'⟩ := lock_set_enters hd hl
  refine ⟨_, t, hrun.append hrun', fun hm => h (hm c d ?_ ?_)⟩
  · rw [hother' c h, hc]
    trivial
  · rw [hd']
    trivial

/-- The lock excludes nobody: all runs of a set of clients keep mutual exclusion only when there
is at most one client, and a run keeps it exactly as long as no exchange of a waiting loop is
made on a set lock word while another client holds the lock. -/
theorem spinlock_exclusion_iff (ι : Type) [DecidableEq ι] :
    ((∀ l t, Run LockStep (LockSystem.start ι) l t → MutualExclusion t) ↔ Subsingleton ι) ∧
      ∀ l t, Run LockStep (LockSystem.start ι) l t →
        ((∀ st ∈ l, MutualExclusion st.post) ↔
          ∀ st ∈ l, ¬ EntersOccupied st.pre st.label) := by
  refine ⟨⟨fun hall => ⟨fun c d => ?_⟩, fun hι l t _ c d _ _ => Subsingleton.elim c d⟩,
    fun l t h => lockRun_exclusion h mutualExclusion_start⟩
  by_contra hne
  obtain ⟨l, t, hrun, hm⟩ := two_clients_enter hne
  exact hm (hall l t hrun)

theorem spinlock_two_clients :
    ∃ l t, Run LockStep (LockSystem.start (Fin 2)) l t ∧ ¬ MutualExclusion t :=
  two_clients_enter Fin.zero_ne_one

end BordOS
