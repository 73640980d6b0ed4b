import Mathlib.Algebra.Group.Nat.Defs
import Mathlib.Data.List.Induction
import Mathlib.Data.List.Infix
import Mathlib.Logic.Relation
import BordOS.Kernel.Spinlock

namespace BordOS
open Library
set_option autoImplicit true
set_option relaxedAutoImplicit false

def initSpinlockCall : KernelM Spinlock Unit := set initSpinlock

def atomicExchange (val : BitVec 32) : KernelM Spinlock (BitVec 32) :=
  modifyGet fun s => s.atomicExchange val

/-- `while (!atomic_exchange(&spin->locked, 1));` -/
def lockLoop : Nat → KernelM Spinlock Unit
  | 0 => throw .outOfFuel
  | fuel + 1 => do
    if (← atomicExchange 1) = 0 then lockLoop fuel

def lockSpinlock (fuel : Nat) : KernelM Spinlock Unit := do
  modify fun s => { s with depth := s.depth + 1 }
  lockLoop fuel

def isLockedSpinlock : KernelM Spinlock Bool := do
  if (← get).locked ≠ 0 then kassert ((← get).depth > 0) "spin->depth > 0"
  return (← get).locked ≠ 0

def unlockSpinlock : KernelM Spinlock Unit := do
  let locked ← isLockedSpinlock
  kassert (locked && (← get).depth > 0) "is_locked_spinlock(spin) && spin->depth > 0"
  modify fun s => { s with depth := s.depth - 1 }
  if (← get).depth = 0 then
    let _ ← atomicExchange 0

def LockCall.exec (fuel : Nat) : LockCall → KernelM Spinlock Unit
  | .lock => lockSpinlock fuel
  | .unlock => unlockSpinlock
  | .isLocked => do let _ ← isLockedSpinlock

def spinlockCalls (fuel : Nat) (calls : List LockCall) : KernelM Spinlock Unit := do
  initSpinlockCall
  calls.forM (LockCall.exec fuel)

variable {s t : Spinlock} {n m fuel : Nat}

@[simp] theorem atomicExchange_run (val : BitVec 32) (s : Spinlock) :
    (atomicExchange val).run s = .ok s.locked { s with locked := val } := rfl

theorem lockLoop_run (fuel : Nat) (s : Spinlock) :
    (lockLoop (fuel + 1)).run s =
      if s.locked = 0 then (lockLoop fuel).run { s with locked := 1 }
      else .ok () { s with locked := 1 } := by
  simp only [lockLoop, EStateM.run_bind, atomicExchange_run]
  by_cases hfree : s.locked = 0
  · simp only [if_pos hfree]
  · simp only [if_neg hfree, EStateM.run_pure]

theorem lockSpinlock_run (fuel : Nat) (s : Spinlock) :
    (lockSpinlock fuel).run s = (lockLoop fuel).run { s with depth := s.depth + 1 } := rfl

theorem isLockedSpinlock_run (h : s.locked ≠ 0 → s.depth > 0) :
    isLockedSpinlock.run s = .ok (s.locked ≠ 0) s := by
  by_cases hlocked : s.locked ≠ 0
  · simp only [isLockedSpinlock, EStateM.run_bind, EStateM.run_get, if_pos hlocked,
      decide_eq_true (h hlocked), kassert_true, EStateM.run_pure]
  · simp only [isLockedSpinlock, EStateM.run_bind, EStateM.run_get, if_neg hlocked,
      EStateM.run_pure]

def Spinlock.decremented (s : Spinlock) : Spinlock :=
  if s.depth - 1 = 0 then { depth := s.depth - 1, locked := 0 } else { s with depth := s.depth - 1 }

theorem unlockSpinlock_run (h : s.locked ≠ 0) (hdepth : s.depth > 0) :
    unlockSpinlock.run s = .ok () s.decremented := by
  have hread := isLockedSpinlock_run (s := s) fun _ => hdepth
  by_cases hlast : s.depth - 1 = 0
  · simp only [unlockSpinlock, EStateM.run_bind, hread, EStateM.run_get, decide_eq_true h,
      decide_eq_true hdepth, Bool.and_self, kassert_true, EStateM.run_modify, if_pos hlast,
      atomicExchange_run, EStateM.run_pure, Spinlock.decremented]
  · simp only [unlockSpinlock, EStateM.run_bind, hread, EStateM.run_get, decide_eq_true h,
      decide_eq_true hdepth, Bool.and_self, kassert_true, EStateM.run_modify, if_neg hlast,
      EStateM.run_pure, Spinlock.decremented]

/-- Accesses of one client with no other client between them. -/
def Pc.Reaches : Pc × Spinlock → Pc × Spinlock → Prop :=
  Relation.ReflTransGen fun x y => x.1.next .run x.2 = some y

theorem lockLoop_reaches (h : (lockLoop fuel).run s = .ok () t) :
    Pc.Reaches (.spinning, s) (.holder, t) := by
  induction fuel generalizing s with
  | zero => cases h
  | succ n ih =>
    rw [lockLoop_run] at h
    by_cases hfree : s.locked = 0
    · rw [if_pos hfree] at h
      exact .head (Pc.Access.wait s hfree).next (ih h)
    · rw [if_neg hfree] at h
      cases h
      exact .single (Pc.Access.enter s hfree).next

theorem lockSpinlock_reaches (h : (lockSpinlock fuel).run s = .ok () t) :
    Pc.Reaches (.enterLock, s) (.holder, t) := by
  rw [lockSpinlock_run] at h
  exact .head (Pc.Access.bump s).next (lockLoop_reaches h)

theorem isLockedSpinlock_reaches (h : s.locked ≠ 0 → s.depth > 0) (c : LockCaller) :
    Pc.Reaches (.readLocked c, s) (c.resume (s.locked ≠ 0), s) := by
  have hlast : Pc.Reaches (.returnLocked c, s) (c.resume (s.locked ≠ 0), s) :=
    .single (Pc.Access.returns c s).next
  by_cases hclear : s.locked = 0
  · exact .head (Pc.Access.readClear c s hclear).next hlast
  · exact .head (Pc.Access.readSet c s hclear).next
      (.head (Pc.Access.deep c s (h hclear)).next hlast)

theorem unlockSpinlock_reaches (h : s.locked ≠ 0) (hdepth : s.depth > 0) :
    Pc.Reaches (.readLocked .unlock, s) (.outside, s.decremented) := by
  have hread : Pc.Reaches (.readLocked .unlock, s) (.assertDepth, s) := by
    have hresume := isLockedSpinlock_reaches (s := s) (fun _ => hdepth) .unlock
    rw [decide_eq_true h] at hresume
    exact hresume
  have hrest : Pc.Reaches (.testDepth, { s with depth := s.depth - 1 })
      (.outside, s.decremented) := by
    by_cases hlast : s.depth - 1 = 0
    · rw [Spinlock.decremented, if_pos hlast]
      exact .head (Pc.Access.last _ hlast).next (.single (Pc.Access.free _).next)
    · rw [Spinlock.decremented, if_neg hlast]
      exact .single (Pc.Access.nested _ hlast).next
  exact hread.trans
    (.head (Pc.Access.asserted s hdepth).next (.head (Pc.Access.leave s).next hrest))

/-- What the lock is for: it counts. An unlock of a free lock has no result, and neither has a lock
at the end of the counter. -/
def LockCall.count : LockCall → Nat → Option Nat
  | .lock, n => if n + 1 < 2 ^ 32 then some (n + 1) else none
  | .unlock, n => if n = 0 then none else some (n - 1)
  | .isLocked, n => some n

structure Spinlock.Counts (s : Spinlock) (n : Nat) : Prop where
  depth : s.depth.toNat = n
  locked : s.locked = if n = 0 then 0 else 1

theorem initSpinlock_counts : initSpinlock.Counts 0 where
  depth := rfl
  locked := rfl

theorem Spinlock.Counts.locked_ne_zero_iff (h : s.Counts n) : s.locked ≠ 0 ↔ n ≠ 0 := by
  rw [h.locked]
  by_cases hn : n = 0
  · simp [hn]
  · simp [hn]

theorem Spinlock.Counts.depth_pos (h : s.Counts n) (hn : n ≠ 0) : s.depth > 0 := by
  have hdepth := h.depth
  bv_omega

theorem lockSpinlock_counts (h : s.Counts n) (hn : n + 1 < 2 ^ 32) (hfuel : 2 ≤ fuel) :
    ∃ t, (lockSpinlock fuel).run s = .ok () t ∧ t.Counts (n + 1) := by
  obtain ⟨k, rfl⟩ := Nat.exists_eq_add_of_le' hfuel
  refine ⟨{ depth := s.depth + 1, locked := 1 }, ?_, ?_, ?_⟩
  · rw [lockSpinlock_run, lockLoop_run]
    by_cases hfree : s.locked = 0
    · have hset : (1 : BitVec 32) ≠ 0 := by decide
      rw [if_pos hfree, lockLoop_run]
      exact if_neg hset
    · rw [if_neg hfree]
  · have hone : (1 : BitVec 32).toNat = 1 := rfl
    rw [BitVec.toNat_add, h.depth, hone]
    exact Nat.mod_eq_of_lt hn
  · rw [if_neg (Nat.succ_ne_zero n)]

theorem unlockSpinlock_counts (h : s.Counts n) (hn : n ≠ 0) :
    ∃ t, unlockSpinlock.run s = .ok () t ∧ t.Counts (n - 1) := by
  have hlocked := h.locked_ne_zero_iff.mpr hn
  have hpos := h.depth_pos hn
  have hdepth : (s.depth - 1).toNat = n - 1 := by
    have hcount := h.depth
    bv_omega
  refine ⟨_, unlockSpinlock_run hlocked hpos, ?_⟩
  by_cases hlast : s.depth - 1 = 0
  · rw [Spinlock.decremented, if_pos hlast]
    have hzero : n - 1 = 0 := by
      rw [← hdepth, hlast]
      rfl
    exact ⟨hdepth, (if_pos hzero).symm⟩
  · rw [Spinlock.decremented, if_neg hlast]
    have hmore : n - 1 ≠ 0 := by
      rw [← hdepth]
      intro hzero
      exact hlast (BitVec.eq_of_toNat_eq hzero)
    refine ⟨hdepth, ?_⟩
    rw [if_neg hmore, h.locked, if_neg hn]

theorem LockCall.exec_counts {c : LockCall} (h : s.Counts n) (hc : c.count n = some m)
    (hfuel : 2 ≤ fuel) : ∃ t, (c.exec fuel).run s = .ok () t ∧ t.Counts m := by
  cases c with
  | lock =>
    by_cases hn : n + 1 < 2 ^ 32
    · rw [count, if_pos hn] at hc
      cases hc
      exact lockSpinlock_counts h hn hfuel
    · rw [count, if_neg hn] at hc
      cases hc
  | unlock =>
    by_cases hn : n = 0
    · rw [count, if_pos hn] at hc
      cases hc
    · rw [count, if_neg hn] at hc
      cases hc
      exact unlockSpinlock_counts h hn
  | isLocked =>
    cases hc
    have hread := isLockedSpinlock_run (s := s) fun hlocked =>
      h.depth_pos (h.locked_ne_zero_iff.mp hlocked)
    refine ⟨s, ?_, h⟩
    simp only [exec, EStateM.run_bind, hread, EStateM.run_pure]

/-- Where a client of a shared lock is when it has made a call, and after its last access. -/
def LockCall.entry : LockCall → Pc
  | .lock => .enterLock
  | .unlock => .readLocked .unlock
  | .isLocked => .readLocked .outside

def LockCall.exit : LockCall → Pc
  | .lock => .holder
  | _ => .outside

/-- A call makes the accesses of the client of a shared lock that is alone during the call. -/
theorem LockCall.exec_reaches {c : LockCall} (h : s.Counts n) (hc : c.count n = some m)
    (hrun : (c.exec fuel).run s = .ok () t) : Pc.Reaches (c.entry, s) (c.exit, t) := by
  cases c with
  | lock => exact lockSpinlock_reaches hrun
  | unlock =>
    have hn : n ≠ 0 := by
      intro hn
      rw [count, if_pos hn] at hc
      cases hc
    have hlocked := h.locked_ne_zero_iff.mpr hn
    rw [exec, unlockSpinlock_run hlocked (h.depth_pos hn)] at hrun
    cases hrun
    exact unlockSpinlock_reaches hlocked (h.depth_pos hn)
  | isLocked =>
    have hdepth : s.locked ≠ 0 → s.depth > 0 := fun hlocked =>
      h.depth_pos (h.locked_ne_zero_iff.mp hlocked)
    simp only [exec, EStateM.run_bind, isLockedSpinlock_run hdepth, EStateM.run_pure] at hrun
    cases hrun
    exact isLockedSpinlock_reaches hdepth .outside

/-- The locks that are not undone yet. -/
def nesting (calls : List LockCall) : Nat := calls.count .lock - calls.count .unlock

/-- No prefix has more unlocks than locks, and the nesting fits the counter. -/
def WellNested (calls : List LockCall) : Prop :=
  ∀ p, p <+: calls → p.count .unlock ≤ p.count .lock ∧ nesting p < 2 ^ 32

theorem WellNested.of_prefix {p calls : List LockCall} (h : WellNested calls) (hp : p <+: calls) :
    WellNested p :=
  fun q hq => h q (hq.trans hp)

theorem WellNested.count {p : List LockCall} {c : LockCall} (h : WellNested (p ++ [c])) :
    c.count (nesting p) = some (nesting (p ++ [c])) := by
  obtain ⟨hle, -⟩ := h p (List.prefix_append p [c])
  obtain ⟨hle', hlt⟩ := h (p ++ [c]) (List.prefix_refl _)
  have hlock : p.count .lock + [c].count .lock = (p ++ [c]).count .lock := List.count_append.symm
  have hunlock : p.count .unlock + [c].count .unlock = (p ++ [c]).count .unlock :=
    List.count_append.symm
  cases c with
  | lock =>
    have h1 : [LockCall.lock].count .lock = 1 := rfl
    have h0 : [LockCall.lock].count .unlock = 0 := rfl
    have hnext : nesting (p ++ [.lock]) = nesting p + 1 := by
      rw [nesting, nesting]
      omega
    rw [hnext] at hlt ⊢
    exact if_pos hlt
  | unlock =>
    have h1 : [LockCall.unlock].count .unlock = 1 := rfl
    have h0 : [LockCall.unlock].count .lock = 0 := rfl
    have hnext : nesting (p ++ [.unlock]) = nesting p - 1 := by
      rw [nesting, nesting]
      omega
    have hheld : nesting p ≠ 0 := by
      rw [nesting]
      omega
    rw [hnext]
    exact if_neg hheld
  | isLocked =>
    have h1 : [LockCall.isLocked].count .unlock = 0 := rfl
    have h0 : [LockCall.isLocked].count .lock = 0 := rfl
    have hnext : nesting (p ++ [.isLocked]) = nesting p := by
      rw [nesting, nesting]
      omega
    rw [hnext]
    rfl

theorem spinlockCalls_counts {calls : List LockCall} (h : WellNested calls) (hfuel : 2 ≤ fuel)
    (s₀ : Spinlock) :
    ∃ t, (spinlockCalls fuel calls).run s₀ = .ok () t ∧ t.Counts (nesting calls) := by
  induction calls using List.reverseRecOn with
  | nil => exact ⟨initSpinlock, rfl, initSpinlock_counts⟩
  | append_singleton p c ih =>
    obtain ⟨s, hrun, hs⟩ := ih (h.of_prefix (List.prefix_append p [c]))
    obtain ⟨t, hcall, ht⟩ := c.exec_counts hs h.count hfuel
    refine ⟨t, ?_, ht⟩
    have hinit : initSpinlockCall.run s₀ = .ok () initSpinlock := rfl
    simp only [spinlockCalls, EStateM.run_bind, hinit] at hrun ⊢
    simp only [List.forM_eq_forM, List.forM_append, List.forM_cons, List.forM_nil,
      EStateM.run_bind, EStateM.run_pure] at hrun ⊢
    simp only [hrun, hcall]

/-- After `init_spinlock` the calls of one client form a counting lock. -/
theorem spinlock_counts (s₀ : Spinlock) (calls : List LockCall) (h : WellNested calls)
    (fuel : Nat) (hfuel : 2 ≤ fuel) (p : List LockCall) (hp : p <+: calls) :
    ∃ t, (spinlockCalls fuel p).run s₀ = .ok () t ∧
      t.depth.toNat = p.count .lock - p.count .unlock ∧ (t.locked = 1 ↔ t.depth > 0) := by
  obtain ⟨t, hrun, ht⟩ := spinlockCalls_counts (h.of_prefix hp) hfuel s₀
  refine ⟨t, hrun, ht.depth, ?_⟩
  by_cases hfree : nesting p = 0
  · have hlocked : t.locked = 0 := by
      rw [ht.locked, if_pos hfree]
    have hdepth : t.depth = 0 := BitVec.eq_of_toNat_eq (ht.depth.trans hfree)
    rw [hlocked, hdepth]
    decide
  · have hlocked : t.locked = 1 := by
      rw [ht.locked, if_neg hfree]
    exact ⟨fun _ => ht.depth_pos hfree, fun _ => hlocked⟩

def nestedCalls : List LockCall := [.lock, .lock, .isLocked, .unlock, .lock, .unlock, .unlock]

theorem nestedCalls_wellNested : WellNested nestedCalls := by
  intro p hp
  have hinits : ∀ q ∈ nestedCalls.inits,
      q.count .unlock ≤ q.count .lock ∧ nesting q < 2 ^ 32 := by decide
  exact hinits p ((List.mem_inits p nestedCalls).mpr hp)

theorem spinlock_counts_nested :
    ∃ t, (spinlockCalls 2 [.lock, .lock, .isLocked, .unlock]).run { depth := 7, locked := 9 } =
        .ok () t ∧
      t.depth.toNat = 2 - 1 ∧ (t.locked = 1 ↔ t.depth > 0) :=
  spinlock_counts { depth := 7, locked := 9 } nestedCalls nestedCalls_wellNested 2
    (Nat.le_refl 2) [.lock, .lock, .isLocked, .unlock] ⟨[.lock, .unlock, .unlock], rfl⟩

end BordOS
