import BordOS.Kernel.SpinlockExclusion

namespace BordOS
open Library
set_option autoImplicit true
set_option relaxedAutoImplicit false

def Pc.waits (p : Pc) (a : LockAction) (x : Spinlock) : Bool :=
  p = .spinning ∧ a = .run ∧ x.locked = 0

def Pc.clears (p : Pc) (a : LockAction) (x : Spinlock) : Bool :=
  p = .release ∧ a = .run ∧ x.locked ≠ 0

def Spinlock.word (x : Spinlock) : Nat := if x.locked = 0 then 0 else 1

theorem Spinlock.word_le (x : Spinlock) : x.word ≤ 1 := by
  rw [word]
  split_ifs
  · exact Nat.zero_le 1
  · exact Nat.le_refl 1

/-- The waiting loops set the word, and the releases clear it. -/
theorem Pc.Access.balance {p q : Pc} {a : LockAction} {x y : Spinlock} (h : Pc.Access p a x q y) :
    (p.waits a x).toNat + x.word = (p.clears a x).toNat + y.word := by
  cases h with
  | wait x hl =>
    have hclear : x.locked = 0#32 := hl
    simp [Pc.waits, Pc.clears, Spinlock.word, hclear]
  | enter x hl =>
    have hset : x.locked ≠ 0#32 := hl
    simp [Pc.waits, Pc.clears, Spinlock.word, hset]
  | free x =>
    by_cases hl : x.locked = 0#32
    · simp [Pc.waits, Pc.clears, Spinlock.word, hl]
    · simp [Pc.waits, Pc.clears, Spinlock.word, hl]
  | _ => simp [Pc.waits, Pc.clears, Spinlock.word]

section Runs

variable {ι : Type}

abbrev LockRunStep (ι : Type) := Step (LockSystem ι) (ι × LockAction)

def LockRunStep.waits (st : LockRunStep ι) : Bool :=
  (st.pre.pc st.label.1).waits st.label.2 st.pre.spin

def LockRunStep.clears (st : LockRunStep ι) : Bool :=
  (st.pre.pc st.label.1).clears st.label.2 st.pre.spin

variable [DecidableEq ι] {s t : LockSystem ι} {c : ι}

theorem lockRun_balance {l : List (LockRunStep ι)} (h : Run LockStep s l t) :
    l.countP LockRunStep.waits + s.spin.word = l.countP LockRunStep.clears + t.spin.word := by
  apply h.balance (w := fun s => s.spin.word)
  rintro s a t ⟨q, x, hn, rfl⟩
  exact (Pc.Access.of_next hn).balance

theorem spinning_enters (hc : s.pc c = .spinning) :
    ∃ l t, Run LockStep s l t ∧ l.length ≤ 2 ∧ (∀ st ∈ l, st.label = (c, .run)) ∧
      t.pc c = .holder ∧ ∀ d, d ≠ c → t.pc d = s.pc d := by
  have hself : s = ⟨s.spin, Function.update s.pc c .spinning⟩ := by
    rw [← hc, Function.update_eq_self]
  have hone : (1 : BitVec 32) ≠ 0 := by decide
  by_cases hl : s.spin.locked = 0
  · have hset := LockStep.of_next (f := s.pc) (c := c) (Pc.Access.wait s.spin hl).next
    have hfound := LockStep.of_next (f := s.pc) (c := c)
      (Pc.Access.enter { s.spin with locked := 1 } hone).next
    rw [← hself] at hset
    refine ⟨_, _, .cons hset (.cons hfound (.nil _)), Nat.le_refl 2, ?_, ?_, ?_⟩
    · simp
    · exact Function.update_self ..
    · exact fun d hd => Function.update_of_ne hd ..
  · have hfound := LockStep.of_next (f := s.pc) (c := c) (Pc.Access.enter s.spin hl).next
    rw [← hself] at hfound
    refine ⟨_, _, .cons hfound (.nil _), Nat.le_succ 1, ?_, ?_, ?_⟩
    · simp
    · exact Function.update_self ..
    · exact fun d hd => Function.update_of_ne hd ..

end Runs

/-- In every run of any clients the exchanges of waiting loops that fail are the releases that clear
the word, up to the word at both ends. So no more than one of them fails where nobody releases,
whoever holds the lock, and a waiting client needs two exchanges at most. -/
theorem spinlock_waits (ι : Type) [DecidableEq ι] :
    (∀ (s : LockSystem ι) l t, Run LockStep s l t →
      l.countP LockRunStep.waits + s.spin.word = l.countP LockRunStep.clears + t.spin.word) ∧
    (∀ (s : LockSystem ι) l t, Run LockStep s l t → (∀ st ∈ l, ¬ LockRunStep.clears st) →
      l.countP LockRunStep.waits ≤ 1) ∧
    ∀ (s : LockSystem ι) c, s.pc c = .spinning →
      ∃ l t, Run LockStep s l t ∧ l.length ≤ 2 ∧ (∀ st ∈ l, st.label = (c, .run)) ∧
        t.pc c = .holder ∧ ∀ d, d ≠ c → t.pc d = s.pc d := by
  refine ⟨fun s l t h => lockRun_balance h, ?_, fun s c => spinning_enters⟩
  intro s l t h hnone
  have hbalance := lockRun_balance h
  have hzero : l.countP LockRunStep.clears = 0 := List.countP_eq_zero.2 hnone
  have hword := t.spin.word_le
  omega

def twoWaiting : LockSystem (Fin 2) where
  spin := { depth := 2, locked := 0 }
  pc _ := .spinning

theorem spinlock_waits_two :
    ∃ l t, Run LockStep twoWaiting l t ∧ l.length ≤ 2 ∧ (∀ st ∈ l, st.label = (1, .run)) ∧
      t.pc 1 = .holder ∧ ∀ d, d ≠ 1 → t.pc d = .spinning :=
  (spinlock_waits (Fin 2)).2.2 twoWaiting 1 rfl

end BordOS
