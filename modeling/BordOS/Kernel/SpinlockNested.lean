import BordOS.Kernel.SpinlockExclusion

namespace BordOS
open Library
set_option autoImplicit true
set_option relaxedAutoImplicit false

/-- A client that may lock again what it holds: where it stands with the innermost lock, and how
many it holds beside that. -/
structure LockClient where
  pc : Pc
  outer : Nat
deriving DecidableEq

/-- A client that is out of its calls is back at the lock that it took before. -/
def LockClient.back (c : LockClient) : LockClient :=
  if c.pc = .outside ∧ 0 < c.outer then { pc := .holder, outer := c.outer - 1 } else c

/-- One atomic step of a client: one of `Pc.next`, or the call of `lock_spinlock` by a holder. -/
def LockClient.next (c : LockClient) (a : LockAction) (x : Spinlock) :
    Option (LockClient × Spinlock) :=
  if c.pc = .holder ∧ a = .call .lock then some ({ pc := .enterLock, outer := c.outer + 1 }, x)
  else (c.pc.next a x).map fun r => (LockClient.back { pc := r.1, outer := c.outer }, r.2)

/-- One of its `lock_spinlock` calls has returned and is not undone by an `unlock_spinlock` yet. -/
def LockClient.Holds (c : LockClient) : Prop := c.pc.Holds ∨ 0 < c.outer

structure SharedLock (ι : Type) where
  spin : Spinlock
  client : ι → LockClient

def SharedLock.start (ι : Type) : SharedLock ι where
  spin := initSpinlock
  client _ := { pc := .outside, outer := 0 }

variable {ι : Type} [DecidableEq ι]

def SharedStep (s : SharedLock ι) (a : ι × LockAction) (t : SharedLock ι) : Prop :=
  ∃ c x, (s.client a.1).next a.2 s.spin = some (c, x) ∧
    t = { spin := x, client := Function.update s.client a.1 c }

/-- The client's next step is a `++spin->depth` that wraps. -/
def SharedLock.Wraps (s : SharedLock ι) (c : ι) : Prop :=
  (s.client c).pc = .enterLock ∧ s.spin.depth + 1 = 0

theorem LockClient.next_cases {c e : LockClient} {a : LockAction} {x y : Spinlock}
    (h : c.next a x = some (e, y)) :
    (c.pc = .holder ∧ e = { pc := .enterLock, outer := c.outer + 1 } ∧ y = x) ∨
      ∃ d : LockClient, c.pc.next a x = some (d.pc, y) ∧ d.outer = c.outer ∧ e = d.back := by
  by_cases hagain : c.pc = .holder ∧ a = .call .lock
  · rw [next, if_pos hagain] at h
    cases h
    exact .inl ⟨hagain.1, rfl, rfl⟩
  · rw [next, if_neg hagain, Option.map_eq_some_iff] at h
    obtain ⟨⟨q, z⟩, hq, he⟩ := h
    cases he
    exact .inr ⟨{ pc := q, outer := c.outer }, hq, rfl, rfl⟩

theorem LockClient.back_cases (c : LockClient) :
    (c.pc = .outside ∧ 0 < c.outer ∧ c.back = { pc := .holder, outer := c.outer - 1 }) ∨
      ((c.pc = .outside → c.outer = 0) ∧ c.back = c) := by
  by_cases h : c.pc = .outside ∧ 0 < c.outer
  · exact .inl ⟨h.1, h.2, if_pos h⟩
  · refine .inr ⟨fun hpc => ?_, if_neg h⟩
    exact Nat.eq_zero_of_not_pos fun hpos => h ⟨hpc, hpos⟩

theorem SharedStep.of_next {f : ι → LockClient} {k : ι} {c d : LockClient} {x y : Spinlock}
    {a : LockAction} (h : c.next a x = some (d, y)) :
    SharedStep ⟨x, Function.update f k c⟩ (k, a) ⟨y, Function.update f k d⟩ := by
  refine ⟨d, y, ?_, by rw [Function.update_idem]⟩
  simp only [Function.update_self]
  exact h

/-- Clients that unlock before they lock again. -/
def LockSystem.shared (s : LockSystem ι) : SharedLock ι where
  spin := s.spin
  client d := { pc := s.pc d, outer := 0 }

theorem LockClient.next_of_pc {p q : Pc} {a : LockAction} {x y : Spinlock}
    (h : p.next a x = some (q, y)) :
    LockClient.next { pc := p, outer := 0 } a x = some ({ pc := q, outer := 0 }, y) := by
  have hagain : ¬ (p = .holder ∧ a = .call .lock) := by
    rintro ⟨rfl, rfl⟩
    cases h
  have hback : LockClient.back { pc := q, outer := 0 } = { pc := q, outer := 0 } :=
    if_neg fun hpos => Nat.lt_irrefl 0 hpos.2
  simp only [next, if_neg hagain, h, Option.map_some, hback]

/-- Their steps are steps of clients that may nest. -/
theorem LockStep.shared {s t : LockSystem ι} {a : ι × LockAction} (h : LockStep s a t) :
    SharedStep s.shared a t.shared := by
  obtain ⟨q, x, hn, rfl⟩ := h
  refine ⟨{ pc := q, outer := 0 }, x, LockClient.next_of_pc hn, ?_⟩
  simp only [LockSystem.shared, SharedLock.mk.injEq, true_and]
  funext d
  by_cases hd : d = a.1
  · subst hd
    rw [Function.update_self, Function.update_self]
  · rw [Function.update_of_ne hd, Function.update_of_ne hd]

theorem lockRun_shared {s t : LockSystem ι} {l : List (Step (LockSystem ι) (ι × LockAction))}
    (h : Run LockStep s l t) :
    Run SharedStep s.shared (l.map fun st => ⟨st.pre.shared, st.label, st.post.shared⟩) t.shared :=
  h.map fun _ _ _ => LockStep.shared

end BordOS
