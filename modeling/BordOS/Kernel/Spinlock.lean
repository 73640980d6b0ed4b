import Mathlib.Logic.Function.Basic
import BordOS.Kernel.Fault
import BordOS.Library.Transition

namespace BordOS
open Library
set_option autoImplicit true
set_option relaxedAutoImplicit false

structure Spinlock where
  depth : BitVec 32
  locked : BitVec 32
deriving DecidableEq

def initSpinlock : Spinlock := { depth := 0, locked := 0 }

/-- `atomic_exchange(&spin->locked, val)`: the old value is returned and the new one stored in one
step. -/
def Spinlock.atomicExchange (s : Spinlock) (val : BitVec 32) : BitVec 32 × Spinlock :=
  (s.locked, { s with locked := val })

/-- Who called `is_locked_spinlock`: `unlock_spinlock`, a client between its calls, or a client
that is past the return of its `lock_spinlock`. -/
inductive LockCaller where
  | unlock
  | outside
  | holder
deriving DecidableEq

/-- Where a client stands, named by the access to the lock that it makes next. -/
inductive Pc where
  /-- between two rounds -/
  | outside
  /-- `++spin->depth` in `lock_spinlock` -/
  | enterLock
  /-- one `atomic_exchange(&spin->locked, 1)` of the waiting loop -/
  | spinning
  /-- `lock_spinlock` has returned and `unlock_spinlock` is not called yet -/
  | holder
  /-- `if (spin->locked)` in `is_locked_spinlock` -/
  | readLocked (caller : LockCaller)
  /-- `assert(spin->depth > 0)` in `is_locked_spinlock` -/
  | checkDepth (caller : LockCaller)
  /-- `return spin->locked` in `is_locked_spinlock` -/
  | returnLocked (caller : LockCaller)
  /-- `spin->depth > 0` in the assertion of `unlock_spinlock` -/
  | assertDepth
  /-- `--spin->depth` -/
  | decrement
  /-- `if (!spin->depth)` -/
  | testDepth
  /-- `atomic_exchange(&spin->locked, 0)` -/
  | release
  | aborted (fault : Fault)
deriving DecidableEq

inductive LockCall where
  | lock
  | unlock
  | isLocked
deriving DecidableEq

inductive LockAction where
  | call (c : LockCall)
  | run
deriving DecidableEq

def unlockAssertion : Fault := .assertion "is_locked_spinlock(spin) && spin->depth > 0"

def LockCaller.resume (result : Bool) : LockCaller → Pc
  | .unlock => if result then .assertDepth else .aborted unlockAssertion
  | .outside => .outside
  | .holder => .holder

/-- One atomic step of a client: `none` when it cannot make the step. -/
def Pc.next : Pc → LockAction → Spinlock → Option (Pc × Spinlock)
  | .outside, .call .lock, s => some (.enterLock, s)
  | .outside, .call .isLocked, s => some (.readLocked .outside, s)
  | .holder, .call .unlock, s => some (.readLocked .unlock, s)
  | .holder, .call .isLocked, s => some (.readLocked .holder, s)
  | .enterLock, .run, s => some (.spinning, { s with depth := s.depth + 1 })
  | .spinning, .run, s =>
    some (if (s.atomicExchange 1).1 = 0 then .spinning else .holder, (s.atomicExchange 1).2)
  | .readLocked c, .run, s => some (if s.locked ≠ 0 then .checkDepth c else .returnLocked c, s)
  | .checkDepth c, .run, s =>
    some (if s.depth > 0 then .returnLocked c else .aborted (.assertion "spin->depth > 0"), s)
  | .returnLocked c, .run, s => some (c.resume (s.locked ≠ 0), s)
  | .assertDepth, .run, s =>
    some (if s.depth > 0 then .decrement else .aborted unlockAssertion, s)
  | .decrement, .run, s => some (.testDepth, { s with depth := s.depth - 1 })
  | .testDepth, .run, s => some (if s.depth = 0 then .release else .outside, s)
  | .release, .run, s => some (.outside, (s.atomicExchange 0).2)
  | _, _, _ => none

/-- A client is past the return of its `lock_spinlock` and not yet in its `unlock_spinlock`. -/
def Pc.Holds : Pc → Prop
  | .holder => True
  | .readLocked c | .checkDepth c | .returnLocked c => c = .holder
  | _ => False

structure LockSystem (ι : Type) where
  spin : Spinlock
  pc : ι → Pc

def LockSystem.start (ι : Type) : LockSystem ι := { spin := initSpinlock, pc := fun _ => .outside }

variable {ι : Type} [DecidableEq ι]

/-- One atomic step of one client. The order of the clients is arbitrary. -/
def LockStep (s : LockSystem ι) (a : ι × LockAction) (t : LockSystem ι) : Prop :=
  ∃ p x, (s.pc a.1).next a.2 s.spin = some (p, x) ∧
    t = { spin := x, pc := Function.update s.pc a.1 p }

def MutualExclusion (s : LockSystem ι) : Prop := ∀ c d, (s.pc c).Holds → (s.pc d).Holds → c = d

/-- The step is an exchange of a waiting loop that finds the lock word set while another client
holds the lock. -/
def EntersOccupied (s : LockSystem ι) (a : ι × LockAction) : Prop :=
  s.pc a.1 = .spinning ∧ a.2 = .run ∧ s.spin.locked ≠ 0 ∧ ∃ d, d ≠ a.1 ∧ (s.pc d).Holds

omit [DecidableEq ι] in
theorem mutualExclusion_start : MutualExclusion (LockSystem.start ι) := by
  intro c d hc _
  exact absurd hc (by simp [LockSystem.start, Pc.Holds])

theorem LockCaller.resume_holds {c : LockCaller} (h : (c.resume b).Holds) : c = .holder := by
  cases c with
  | unlock => cases b <;> cases h
  | outside => cases h
  | holder => rfl

inductive Pc.Access : Pc → LockAction → Spinlock → Pc → Spinlock → Prop where
  | callLock (x : Spinlock) : Access .outside (.call .lock) x .enterLock x
  | callIsLocked (x : Spinlock) : Access .outside (.call .isLocked) x (.readLocked .outside) x
  | callUnlock (x : Spinlock) : Access .holder (.call .unlock) x (.readLocked .unlock) x
  | callHeld (x : Spinlock) : Access .holder (.call .isLocked) x (.readLocked .holder) x
  | bump (x : Spinlock) : Access .enterLock .run x .spinning { x with depth := x.depth + 1 }
  | wait (x : Spinlock) (h : x.locked = 0) :
      Access .spinning .run x .spinning { x with locked := 1 }
  | enter (x : Spinlock) (h : x.locked ≠ 0) :
      Access .spinning .run x .holder { x with locked := 1 }
  | readSet (c : LockCaller) (x : Spinlock) (h : x.locked ≠ 0) :
      Access (.readLocked c) .run x (.checkDepth c) x
  | readClear (c : LockCaller) (x : Spinlock) (h : x.locked = 0) :
      Access (.readLocked c) .run x (.returnLocked c) x
  | deep (c : LockCaller) (x : Spinlock) (h : x.depth > 0) :
      Access (.checkDepth c) .run x (.returnLocked c) x
  | shallow (c : LockCaller) (x : Spinlock) (h : ¬ x.depth > 0) :
      Access (.checkDepth c) .run x (.aborted (.assertion "spin->depth > 0")) x
  | returns (c : LockCaller) (x : Spinlock) :
      Access (.returnLocked c) .run x (c.resume (x.locked ≠ 0)) x
  | asserted (x : Spinlock) (h : x.depth > 0) : Access .assertDepth .run x .decrement x
  | refuted (x : Spinlock) (h : ¬ x.depth > 0) :
      Access .assertDepth .run x (.aborted unlockAssertion) x
  | leave (x : Spinlock) : Access .decrement .run x .testDepth { x with depth := x.depth - 1 }
  | last (x : Spinlock) (h : x.depth = 0) : Access .testDepth .run x .release x
  | nested (x : Spinlock) (h : x.depth ≠ 0) : Access .testDepth .run x .outside x
  | free (x : Spinlock) : Access .release .run x .outside { x with locked := 0 }

theorem Pc.Access.next {p q : Pc} {a : LockAction} {x y : Spinlock} (h : Pc.Access p a x q y) :
    p.next a x = some (q, y) := by
  cases h with
  | wait x h => simp only [Pc.next, Spinlock.atomicExchange, h, ↓reduceIte]
  | enter x h => simp only [Pc.next, Spinlock.atomicExchange, h, ↓reduceIte]
  | readSet c x h => simp only [Pc.next, if_pos h]
  | readClear c x h => simp only [Pc.next, if_neg (not_not_intro h)]
  | deep c x h => simp only [Pc.next, if_pos h]
  | shallow c x h => simp only [Pc.next, if_neg h]
  | asserted x h => simp only [Pc.next, if_pos h]
  | refuted x h => simp only [Pc.next, if_neg h]
  | last x h => simp only [Pc.next, if_pos h]
  | nested x h => simp only [Pc.next, if_neg h]
  | _ => rfl

theorem Pc.Access.of_next {p q : Pc} {a : LockAction} {x y : Spinlock}
    (h : p.next a x = some (q, y)) : Pc.Access p a x q y := by
  have hunique {q' : Pc} {y' : Spinlock} (hacc : Pc.Access p a x q' y') : Pc.Access p a x q y := by
    have hsame := hacc.next.symm.trans h
    cases hsame
    exact hacc
  cases a with
  | call c =>
    cases p <;> cases c <;> cases h
    · exact .callLock x
    · exact .callIsLocked x
    · exact .callUnlock x
    · exact .callHeld x
  | run =>
    cases p with
    | outside => cases h
    | enterLock => exact hunique (.bump x)
    | spinning =>
      by_cases hl : x.locked = 0
      · exact hunique (.wait x hl)
      · exact hunique (.enter x hl)
    | holder => cases h
    | readLocked c =>
      by_cases hl : x.locked = 0
      · exact hunique (.readClear c x hl)
      · exact hunique (.readSet c x hl)
    | checkDepth c =>
      by_cases hd : x.depth > 0
      · exact hunique (.deep c x hd)
      · exact hunique (.shallow c x hd)
    | returnLocked c => exact hunique (.returns c x)
    | assertDepth =>
      by_cases hd : x.depth > 0
      · exact hunique (.asserted x hd)
      · exact hunique (.refuted x hd)
    | decrement => exact hunique (.leave x)
    | testDepth =>
      by_cases hd : x.depth = 0
      · exact hunique (.last x hd)
      · exact hunique (.nested x hd)
    | release => exact hunique (.free x)
    | aborted => cases h

/-- A client that holds the lock after a step held it before, or left the waiting loop because
its exchange returned a non-zero word. -/
theorem Pc.next_holds {p q : Pc} {a : LockAction} {x y : Spinlock}
    (h : p.next a x = some (q, y)) (hq : q.Holds) :
    p.Holds ∨ p = .spinning ∧ a = .run ∧ x.locked ≠ 0 := by
  cases Access.of_next h with
  | callHeld => exact .inl trivial
  | enter _ hl => exact .inr ⟨rfl, rfl, hl⟩
  | readSet => exact .inl hq
  | readClear => exact .inl hq
  | deep => exact .inl hq
  | returns => exact .inl (LockCaller.resume_holds hq)
  | callIsLocked => cases hq
  | callUnlock => cases hq
  | _ => exact hq.elim

theorem Pc.next_spinning {x y : Spinlock} {q : Pc} (h : Pc.spinning.next .run x = some (q, y))
    (hl : x.locked ≠ 0) : q = .holder := by
  cases Access.of_next h with
  | wait _ hclear => exact absurd hclear hl
  | enter => rfl

end BordOS
