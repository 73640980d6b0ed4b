import BordOS.Kernel.Fault
import BordOS.Libc.String
import BordOS.Library.ProgramSpec

namespace BordOS
open Library Prog
set_option autoImplicit true
set_option relaxedAutoImplicit false

/-! ### Memory as a device -/

inductive MemOp where
  | load8 (a : BitVec 32)
  | store8 (a : BitVec 32) (v : BitVec 8)
deriving DecidableEq, Repr

abbrev MemOp.Reply : MemOp → Type
  | .load8 _ => BitVec 8
  | .store8 _ _ => Unit

abbrev MemM := Prog MemOp MemOp.Reply Fault

def memDevice : Device MemOp MemOp.Reply Memory
  | .load8 a, m => (m a, m)
  | .store8 a v, m => ((), m.store8 a v)

def load8 (a : BitVec 32) : MemM (BitVec 8) := .perform (MemOp.load8 a)

def store8 (a : BitVec 32) (v : BitVec 8) : MemM Unit := .perform (MemOp.store8 a v)

/-! ### `string.c` -/

def strlenLoop (str : BitVec 32) : Nat → BitVec 32 → MemM (BitVec 32)
  | 0, _ => .fail .outOfFuel
  | fuel + 1, s1 => do
    if (← load8 s1) ≠ 0 then strlenLoop str fuel (s1 + 1) else return s1 - str

def strlen (fuel : Nat) (str : BitVec 32) : MemM (BitVec 32) := strlenLoop str fuel str

def memsetLoop (c : BitVec 32) : Nat → BitVec 32 → MemM Unit
  | 0, _ => pure ()
  | n + 1, cur => do
    store8 cur (c.setWidth 8)
    memsetLoop c n (cur + 1)

def memset (buff c n : BitVec 32) : MemM (BitVec 32) := do
  memsetLoop c n.toNat buff
  return buff

def memcpyLoop : Nat → BitVec 32 → BitVec 32 → MemM Unit
  | 0, _, _ => pure ()
  | n + 1, d, s => do
    store8 d (← load8 s)
    memcpyLoop n (d + 1) (s + 1)

def memcpyBytes (dst src n : BitVec 32) : MemM (BitVec 32) := do
  memcpyLoop n.toNat dst src
  return dst

/-- The loop of `memcmp` from byte `i` on, over two ways of loading a byte. -/
def memcmpLoop {ι : Type} {ρ : ι → Type} {ε : Type} (load1 load2 : Nat → Prog ι ρ ε (BitVec 8)) :
    Nat → Nat → Prog ι ρ ε (BitVec 32)
  | 0, _ => pure 0
  | n + 1, i => do
    if (← load1 i) ≠ (← load2 i) then
      return (← load1 i).setWidth 32 - (← load2 i).setWidth 32
    memcmpLoop load1 load2 n (i + 1)

def memcmp (s1 s2 n : BitVec 32) : MemM (BitVec 32) :=
  memcmpLoop (fun i => load8 (s1 + BitVec.ofNat 32 i)) (fun i => load8 (s2 + BitVec.ofNat 32 i))
    n.toNat 0

variable {m : Memory} {a s1 s2 str buff c n w : BitVec 32}

@[simp] theorem load8_run (a : BitVec 32) (m : Memory) :
    (load8 a).run memDevice m = .ok (m a) m := rfl

@[simp] theorem load8_events (a : BitVec 32) (m : Memory) :
    (load8 a).events memDevice m = [⟨m, .load8 a, m a⟩] := rfl

@[simp] theorem store8_run (a : BitVec 32) (v : BitVec 8) (m : Memory) :
    (store8 a v).run memDevice m = .ok () (m.store8 a v) := rfl

/-! ### Comparing -/

/-- The sign of a word orders two strings of bytes. -/
structure Orders (w : BitVec 32) (xs ys : List (BitVec 8)) : Prop where
  less : w.toInt < 0 ↔ xs < ys
  equal : w = 0 ↔ xs = ys
  greater : 0 < w.toInt ↔ ys < xs

theorem Orders.nil : Orders 0 [] [] where
  less := ⟨fun h => absurd h (by decide), fun h => absurd h (List.lt_irrefl _)⟩
  equal := ⟨fun _ => rfl, fun _ => rfl⟩
  greater := ⟨fun h => absurd h (by decide), fun h => absurd h (List.lt_irrefl _)⟩

theorem byteDiff_toInt (x y : BitVec 8) :
    (x.setWidth 32 - y.setWidth 32).toInt = (x.toNat : Int) - y.toNat := by
  have hx := x.isLt
  have hy := y.isLt
  rw [BitVec.toInt_eq_toNat_cond, BitVec.toNat_sub, BitVec.toNat_setWidth, BitVec.toNat_setWidth]
  omega

theorem Orders.diff {x y : BitVec 8} (h : x ≠ y) (xs ys : List (BitVec 8)) :
    Orders (x.setWidth 32 - y.setWidth 32) (x :: xs) (y :: ys) where
  less := by
    rw [byteDiff_toInt, List.cons_lt_cons_iff, BitVec.lt_def]
    simp only [h, false_and, or_false]
    omega
  equal := by
    have hne : ¬ x.setWidth 32 - y.setWidth 32 = 0 := by
      intro hzero
      have hint := byteDiff_toInt x y
      rw [hzero] at hint
      have hword : (0 : BitVec 32).toInt = 0 := rfl
      exact h (BitVec.eq_of_toNat_eq (by omega))
    simp only [hne, List.cons.injEq, h, false_and]
  greater := by
    rw [byteDiff_toInt, List.cons_lt_cons_iff, BitVec.lt_def]
    simp only [h.symm, false_and, or_false]
    omega

theorem Orders.cons {xs ys : List (BitVec 8)} (h : Orders w xs ys) (x : BitVec 8) :
    Orders w (x :: xs) (x :: ys) where
  less := by
    rw [h.less, List.cons_lt_cons_iff]
    simp only [BitVec.lt_irrefl, false_or, true_and]
  equal := by
    rw [h.equal, List.cons.injEq]
    simp only [true_and]
  greater := by
    rw [h.greater, List.cons_lt_cons_iff]
    simp only [BitVec.lt_irrefl, false_or, true_and]

section Loop

variable {ι : Type} {ρ : ι → Type} {ε σ : Type} {d : Device ι ρ σ}
  {load1 load2 : Nat → Prog ι ρ ε (BitVec 8)} {x y : Nat → BitVec 8} {s : σ}

theorem memcmpLoop_run (h1 : ∀ i, (load1 i).run d s = .ok (x i) s)
    (h2 : ∀ i, (load2 i).run d s = .ok (y i) s) (n i : Nat) :
    (memcmpLoop load1 load2 (n + 1) i).run d s =
      if x i ≠ y i then .ok ((x i).setWidth 32 - (y i).setWidth 32) s
      else (memcmpLoop load1 load2 n (i + 1)).run d s := by
  simp only [memcmpLoop, run_bind, h1, h2]
  split_ifs
  · simp only [run_bind, h1, h2, run_pure]
  · rfl

theorem memcmpLoop_events (h1 : ∀ i, (load1 i).run d s = .ok (x i) s)
    (h2 : ∀ i, (load2 i).run d s = .ok (y i) s) (n i : Nat) :
    (memcmpLoop load1 load2 (n + 1) i).events d s =
      (load1 i).events d s ++ (load2 i).events d s ++
        if x i ≠ y i then (load1 i).events d s ++ (load2 i).events d s
        else (memcmpLoop load1 load2 n (i + 1)).events d s := by
  simp only [memcmpLoop, events_bind, h1, h2, List.append_assoc]
  split_ifs
  · simp only [events_bind, h1, h2, events_pure, List.append_nil]
  · rfl

/-- An event of the loop from byte `i` on is one of a load, and the bytes before it agree. -/
def ComparesAt (d : Device ι ρ σ) (load1 load2 : Nat → Prog ι ρ ε (BitVec 8))
    (x y : Nat → BitVec 8) (s : σ) (n i : Nat) (e : Event ι ρ σ) : Prop :=
  ∃ j, i ≤ j ∧ j < i + n ∧ (e ∈ (load1 j).events d s ∨ e ∈ (load2 j).events d s) ∧
    ∀ k, i ≤ k → k < j → x k = y k

theorem ComparesAt.later {n i : Nat} {e : Event ι ρ σ} (hhead : x i = y i)
    (h : ComparesAt d load1 load2 x y s n (i + 1) e) :
    ComparesAt d load1 load2 x y s (n + 1) i e := by
  obtain ⟨j, hij, hj, hmem, hbefore⟩ := h
  refine ⟨j, by omega, by omega, hmem, fun k hik hkj => ?_⟩
  by_cases hk : i = k
  · exact hk ▸ hhead
  · exact hbefore k (by omega) hkj

/-- The loop compares as lists do, and stops reading at the first difference. -/
theorem memcmpLoop_orders (h1 : ∀ i, (load1 i).run d s = .ok (x i) s)
    (h2 : ∀ i, (load2 i).run d s = .ok (y i) s) (n i : Nat) :
    ∃ w, (memcmpLoop load1 load2 n i).run d s = .ok w s ∧
      Orders w ((List.range' i n).map x) ((List.range' i n).map y) ∧
      ∀ e ∈ (memcmpLoop load1 load2 n i).events d s, ComparesAt d load1 load2 x y s n i e := by
  induction n generalizing i with
  | zero => exact ⟨0, rfl, .nil, fun e he => absurd he List.not_mem_nil⟩
  | succ n ih =>
    rw [memcmpLoop_run h1 h2, memcmpLoop_events h1 h2, List.range'_succ, List.map_cons,
      List.map_cons]
    have hhere {e : Event ι ρ σ} (he : e ∈ (load1 i).events d s ++ (load2 i).events d s) :
        ComparesAt d load1 load2 x y s (n + 1) i e :=
      ⟨i, Nat.le_refl i, by omega, List.mem_append.1 he, fun k hik hki => by omega⟩
    by_cases hhead : x i = y i
    · obtain ⟨w, hrun, horders, hevents⟩ := ih (i + 1)
      simp only [hhead, ne_eq, not_true_eq_false, if_false]
      refine ⟨w, hrun, horders.cons _, fun e he => ?_⟩
      rcases List.mem_append.1 he with he | he
      · exact hhere he
      · exact (hevents e he).later hhead
    · simp only [hhead, ne_eq, not_false_eq_true, if_true]
      refine ⟨_, rfl, .diff hhead _ _, fun e he => ?_⟩
      rcases List.mem_append.1 he with he | he
      · exact hhere he
      · exact hhere he

end Loop

def bytesAt (m : Memory) (a : BitVec 32) (n : Nat) : List (BitVec 8) :=
  (List.range' 0 n).map fun i => m (a + BitVec.ofNat 32 i)

theorem bytesAt_congr {m m' : Memory} {a b : BitVec 32} {n : Nat}
    (h : ∀ i < n, m (a + BitVec.ofNat 32 i) = m' (b + BitVec.ofNat 32 i)) :
    bytesAt m a n = bytesAt m' b n := by
  apply List.map_congr_left
  intro i hi
  obtain ⟨-, hlt⟩ := List.mem_range'_1.1 hi
  exact h i (by omega)

/-- `memcmp` orders any two strings of bytes as lists are ordered, writes nothing, and reads no byte
of either string after the first one in which they differ. -/
theorem memcmp_orders (m : Memory) (s1 s2 n : BitVec 32) :
    ∃ w, (memcmp s1 s2 n).run memDevice m = .ok w m ∧
      (w.toInt < 0 ↔ bytesAt m s1 n.toNat < bytesAt m s2 n.toNat) ∧
      (w = 0 ↔ bytesAt m s1 n.toNat = bytesAt m s2 n.toNat) ∧
      (0 < w.toInt ↔ bytesAt m s2 n.toNat < bytesAt m s1 n.toNat) ∧
      ∀ e ∈ (memcmp s1 s2 n).events memDevice m,
        ∃ i < n.toNat, (e.op = .load8 (s1 + BitVec.ofNat 32 i) ∨
          e.op = .load8 (s2 + BitVec.ofNat 32 i)) ∧ bytesAt m s1 i = bytesAt m s2 i := by
  obtain ⟨w, hrun, horders, hevents⟩ := memcmpLoop_orders (d := memDevice) (s := m)
    (fun i => load8_run (s1 + BitVec.ofNat 32 i) m) (fun i => load8_run (s2 + BitVec.ofNat 32 i) m)
    n.toNat 0
  refine ⟨w, hrun, horders.less, horders.equal, horders.greater, fun e he => ?_⟩
  obtain ⟨i, -, hi, hmem, hbefore⟩ := hevents e he
  refine ⟨i, by omega, ?_, bytesAt_congr fun k hk => hbefore k (Nat.zero_le k) hk⟩
  simp only [load8_events, List.mem_singleton] at hmem
  rcases hmem with rfl | rfl
  · exact .inl rfl
  · exact .inr rfl

/-! ### Lengths -/

def FirstNul (m : Memory) (str k : BitVec 32) : Prop :=
  m (str + k) = 0 ∧ ∀ i < k, m (str + i) ≠ 0

theorem strlenLoop_run (fuel : Nat) (str s1 : BitVec 32) (m : Memory) :
    (strlenLoop str (fuel + 1) s1).run memDevice m =
      if m s1 ≠ 0 then (strlenLoop str fuel (s1 + 1)).run memDevice m else .ok (s1 - str) m := by
  simp only [strlenLoop, run_bind, load8_run]
  split_ifs <;> rfl

theorem strlenLoop_events (fuel : Nat) (str s1 : BitVec 32) (m : Memory) :
    (strlenLoop str (fuel + 1) s1).events memDevice m =
      ⟨m, .load8 s1, m s1⟩ ::
        if m s1 ≠ 0 then (strlenLoop str fuel (s1 + 1)).events memDevice m else [] := by
  simp only [strlenLoop, events_bind, load8_run, load8_events]
  split_ifs <;> rfl

theorem strlenLoop_settles {k i : BitVec 32} (h : FirstNul m str k) (hi : i ≤ k) :
    ∃ tr, Settles memDevice (fun n => strlenLoop str n (str + i)) m (.ok k m) tr ∧
      ∀ e ∈ tr, ∃ j ≤ k, e.op = .load8 (str + j) := by
  generalize hj : (k - i).toNat = j
  induction j generalizing i with
  | zero =>
    obtain rfl : i = k := by bv_omega
    have hlen : str + i - str = i := by rw [BitVec.add_comm, BitVec.add_sub_cancel]
    refine ⟨[⟨m, .load8 (str + i), m (str + i)⟩], .succ ⟨0, fun n _ => ?_⟩, ?_⟩
    · rw [strlenLoop_run, strlenLoop_events, h.1, hlen]
      exact ⟨rfl, rfl⟩
    · intro e he
      obtain rfl := List.mem_singleton.1 he
      exact ⟨i, hi, rfl⟩
  | succ j ih =>
    have hlt : i < k := by bv_omega
    obtain ⟨tr, ⟨N, hN⟩, hloads⟩ := ih (i := i + 1) (by bv_omega) (by bv_omega)
    refine ⟨⟨m, .load8 (str + i), m (str + i)⟩ :: tr, .succ ⟨N, fun n hn => ?_⟩, ?_⟩
    · obtain ⟨hrun, hevents⟩ := hN n hn
      rw [strlenLoop_run, strlenLoop_events, if_pos (h.2 i hlt), if_pos (h.2 i hlt),
        BitVec.add_assoc, hrun, hevents]
      exact ⟨rfl, rfl⟩
    · intro e he
      rcases List.mem_cons.1 he with rfl | he
      · exact ⟨i, hi, rfl⟩
      · exact hloads e he

theorem strlenLoop_spins (h : ∀ a, m a ≠ 0) (str : BitVec 32) (fuel : Nat) (s1 : BitVec 32) :
    (strlenLoop str fuel s1).run memDevice m = .error .outOfFuel m := by
  induction fuel generalizing s1 with
  | zero => rfl
  | succ fuel ih => rw [strlenLoop_run, if_pos (h s1), ih]

theorem FirstNul.exists (h : m a = 0) (str : BitVec 32) : ∃ k, FirstNul m str k := by
  have hat : m (str + (a - str)) = 0 := by
    rw [BitVec.add_comm, BitVec.sub_add_cancel, h]
  -- the least offset that holds a NUL, by strong induction on one that does
  generalize a - str = i at hat
  induction hi : i.toNat using Nat.strongRecOn generalizing i with
  | ind n ih =>
    by_cases hfirst : ∃ j < i, m (str + j) = 0
    · obtain ⟨j, hlt, hj⟩ := hfirst
      exact ih j.toNat (hi ▸ hlt) j hj rfl
    · exact ⟨i, hat, fun j hlt hj => hfirst ⟨j, hlt, hj⟩⟩

theorem strlen_settles {k : BitVec 32} (h : FirstNul m str k) :
    ∃ tr, Settles memDevice (fun n => strlen n str) m (.ok k m) tr ∧
      ∀ e ∈ tr, ∃ j ≤ k, e.op = .load8 (str + j) := by
  have hstart : (0 : BitVec 32) ≤ k := by bv_omega
  have hset := strlenLoop_settles h hstart
  have hzero : str + 0 = str := BitVec.add_zero str
  rw [hzero] at hset
  exact hset

theorem strlen_converges {k : BitVec 32} {t : Memory}
    (h : Converges memDevice (fun n => strlen n str) m k t) : FirstNul m str k ∧ t = m := by
  obtain ⟨N, hN⟩ := h
  by_cases hnul : ∃ a, m a = 0
  · obtain ⟨a, ha⟩ := hnul
    obtain ⟨j, hj⟩ := FirstNul.exists ha str
    obtain ⟨tr, hset, -⟩ := strlen_settles hj
    obtain ⟨M, hM⟩ := hset.converges
    have hrun := hN (max N M) (by omega)
    rw [hM (max N M) (by omega)] at hrun
    cases hrun
    exact ⟨hj, rfl⟩
  · have hrun : (strlen N str).run memDevice m = _ := hN N (Nat.le_refl N)
    rw [strlen, strlenLoop_spins (fun a ha => hnul ⟨a, ha⟩)] at hrun
    cases hrun

/-- `strlen` returns the distance to the first NUL, having read nothing behind it and written
nothing; it goes on for ever exactly when no byte of the address space is NUL. -/
theorem strlen_iff (m : Memory) (str : BitVec 32) :
    (∀ k t, Converges memDevice (fun n => strlen n str) m k t ↔ FirstNul m str k ∧ t = m) ∧
      (∀ k, FirstNul m str k → ∃ tr, Settles memDevice (fun n => strlen n str) m (.ok k m) tr ∧
        ∀ e ∈ tr, ∃ j ≤ k, e.op = .load8 (str + j)) ∧
      ((∀ n, (strlen n str).run memDevice m = .error .outOfFuel m) ↔ ∀ a, m a ≠ 0) := by
  refine ⟨fun k t => ⟨strlen_converges, ?_⟩, fun k => strlen_settles, fun hspins a ha => ?_, ?_⟩
  · rintro ⟨hk, rfl⟩
    obtain ⟨tr, hset, -⟩ := strlen_settles hk
    exact hset.converges
  · obtain ⟨k, hk⟩ := FirstNul.exists ha str
    obtain ⟨tr, hset, -⟩ := strlen_settles hk
    obtain ⟨N, hN⟩ := hset.converges
    have hrun := hN N (Nat.le_refl N)
    rw [hspins N] at hrun
    cases hrun
  · intro h n
    exact strlenLoop_spins h str n str

/-! ### Filling and copying -/

theorem memcpyLoop_run (d s : BitVec 32) (n : Nat) (m : Memory) :
    (memcpyLoop n d s).run memDevice m = .ok () (m.copyUp d s n) := by
  induction n generalizing d s m with
  | zero => rfl
  | succ n ih => exact ih (d + 1) (s + 1) (m.store8 d (m s))

theorem memsetLoop_fills (c cur : BitVec 32) {n : Nat} (hn : n < 2 ^ 32) (m : Memory) :
    ∃ t, (memsetLoop c n cur).run memDevice m = .ok () t ∧
      ∀ a, t a = if (a - cur).toNat < n then c.setWidth 8 else m a := by
  induction n generalizing cur m with
  | zero => exact ⟨m, rfl, fun a => by simp⟩
  | succ n ih =>
    obtain ⟨t, hrun, hbytes⟩ := ih (cur + 1) (by omega) (m.store8 cur (c.setWidth 8))
    refine ⟨t, hrun, fun a => ?_⟩
    rw [hbytes a]
    by_cases ha : a = cur
    · subst ha
      have hlast : (a - (a + 1)).toNat = 2 ^ 32 - 1 := by
        clear ih hrun hbytes
        bv_omega
      rw [if_neg (by omega), if_pos (by simp), Memory.store8_same]
    · have hpred : (a - (cur + 1)).toNat = (a - cur).toNat - 1 := by
        clear ih hrun hbytes
        bv_omega
      have hpos : 0 < (a - cur).toNat := by
        clear ih hrun hbytes hpred
        bv_omega
      rw [Memory.store8_other _ ha, hpred]
      congr 1
      apply propext
      omega

theorem memcmp_equal (h : bytesAt m s1 n.toNat = bytesAt m s2 n.toNat) :
    (memcmp s1 s2 n).run memDevice m = .ok 0 m := by
  obtain ⟨w, hrun, horders, -⟩ := memcmpLoop_orders (d := memDevice) (s := m)
    (fun i => load8_run (s1 + BitVec.ofNat 32 i) m) (fun i => load8_run (s2 + BitVec.ofNat 32 i) m)
    n.toNat 0
  rw [memcmp, hrun, horders.equal.2 h]

theorem memset_run (buff c n : BitVec 32) (m : Memory) :
    ∃ t, (memset buff c n).run memDevice m = .ok buff t ∧
      ∀ a, t a = if (a - buff).toNat < n.toNat then c.setWidth 8 else m a := by
  obtain ⟨t, hrun, hbytes⟩ := memsetLoop_fills c buff n.isLt m
  refine ⟨t, ?_, hbytes⟩
  rw [memset, run_bind, hrun]
  rfl

/-- `memset` returns its first argument and fills its range and nothing else, also around the end of
the address space. Two ranges that were filled alike compare equal, also where they overlap. -/
theorem memset_memcmp (m : Memory) (p q c n : BitVec 32) :
    (∃ u, (memset p c n).run memDevice m = .ok p u ∧
      ∀ a, u a = if (a - p).toNat < n.toNat then c.setWidth 8 else m a) ∧
    ∃ t, (do
        let _ ← memset p c n
        let _ ← memset q c n
        memcmp p q n).run memDevice m = .ok 0 t ∧
      ∀ a, t a = if (a - p).toNat < n.toNat ∨ (a - q).toNat < n.toNat then c.setWidth 8 else m a := by
  obtain ⟨u, hp, hu⟩ := memset_run p c n m
  refine ⟨⟨u, hp, hu⟩, ?_⟩
  obtain ⟨t, hq, ht⟩ := memset_run q c n u
  have hall (a : BitVec 32) :
      t a = if (a - p).toNat < n.toNat ∨ (a - q).toNat < n.toNat then c.setWidth 8 else m a := by
    rw [ht, hu]
    by_cases h : (a - q).toNat < n.toNat
    · simp only [h, or_true, if_true]
    · simp only [h, or_false, if_false]
  have hfilled (s : BitVec 32) (hs : s = p ∨ s = q) (i : Nat) (hi : i < n.toNat) :
      t (s + BitVec.ofNat 32 i) = c.setWidth 8 := by
    have hoff : (s + BitVec.ofNat 32 i - s).toNat < n.toNat := by
      rw [BitVec.add_comm, BitVec.add_sub_cancel, BitVec.toNat_ofNat]
      exact Nat.lt_of_le_of_lt (Nat.mod_le _ _) hi
    rw [hall]
    rcases hs with rfl | rfl
    · rw [if_pos (.inl hoff)]
    · rw [if_pos (.inr hoff)]
  refine ⟨t, ?_, hall⟩
  simp only [run_bind, hp, hq]
  apply memcmp_equal
  apply bytesAt_congr
  intro i hi
  rw [hfilled p (.inl rfl) i hi, hfilled q (.inr rfl) i hi]

theorem inBytes_add (hfits : FitsBytes a n) {i : Nat} (hi : i < n.toNat) :
    BitVec.ofNat 32 i < n ∧ InBytes a n (a + BitVec.ofNat 32 i) := by
  rw [FitsBytes] at hfits
  have hmod : (BitVec.ofNat 32 i).toNat = i := by
    rw [BitVec.toNat_ofNat]
    omega
  rw [BitVec.lt_def, InBytes, BitVec.toNat_add, hmod]
  omega

/-- A copy between ranges that do not overlap compares equal with its source, which is kept. -/
theorem memcpy_memcmp (m : Memory) (dst src n : BitVec 32) (hdst : FitsBytes dst n)
    (hsrc : FitsBytes src n) (h : ∀ a, InBytes dst n a → ¬ InBytes src n a) :
    (do
        let _ ← memcpyBytes dst src n
        memcmp dst src n).run memDevice m = .ok 0 (memcpy m dst src n).2 ∧
      bytesAt (memcpy m dst src n).2 src n.toNat = bytesAt m src n.toNat := by
  have hkept (i : Nat) (hi : i < n.toNat) :
      m.copyUp dst src n.toNat (src + BitVec.ofNat 32 i) = m (src + BitVec.ofNat 32 i) :=
    kept_byte hdst fun hin => h _ hin (inBytes_add hsrc hi).2
  have hcopied (i : Nat) (hi : i < n.toNat) :
      m.copyUp dst src n.toNat (dst + BitVec.ofNat 32 i) = m (src + BitVec.ofNat 32 i) :=
    copied_byte (source_ahead hdst hsrc (.inr h)) (inBytes_add hsrc hi).1
  have hcode : (memcpyBytes dst src n).run memDevice m = .ok dst (m.copyUp dst src n.toNat) := by
    rw [memcpyBytes, run_bind, memcpyLoop_run]
    rfl
  refine ⟨?_, bytesAt_congr hkept⟩
  simp only [run_bind, hcode]
  apply memcmp_equal
  apply bytesAt_congr
  intro i hi
  rw [hcopied i hi, hkept i hi]

theorem memcpy_memcmp_three :
    (do
        let _ ← memcpyBytes 0x1000 0x2000 3
        memcmp 0x1000 0x2000 3).run memDevice (fun a => a.setWidth 8) =
          .ok 0 (memcpy (fun a => a.setWidth 8) 0x1000 0x2000 3).2 ∧
      bytesAt (memcpy (fun a => a.setWidth 8) 0x1000 0x2000 3).2 0x2000 3 =
        bytesAt (fun a => a.setWidth 8) 0x2000 3 := by
  apply memcpy_memcmp (fun a => a.setWidth 8) 0x1000 0x2000 3
  · rw [FitsBytes]
    decide
  · rw [FitsBytes]
    decide
  · intro a hdst hsrc
    have hlow : a.toNat < 0x1000 + 3 := hdst.2
    have hhigh : 0x2000 ≤ a.toNat := hsrc.1
    omega

end BordOS
