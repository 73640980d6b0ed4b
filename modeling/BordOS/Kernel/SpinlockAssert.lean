import BordOS.Kernel.SpinlockNested
import BordOS.Library.Tally

namespace BordOS
open Library
set_option autoImplicit true
set_option relaxedAutoImplicit false

/-- One from the `++spin->depth` of a client to its `--spin->depth`. -/
def Pc.weight : Pc → Nat
  | .spinning | .holder | .assertDepth | .decrement => 1
  | .readLocked c | .checkDepth c | .returnLocked c => if c = .outside then 0 else 1
  | _ => 0

def LockClient.weight (c : LockClient) : Nat := c.pc.weight + c.outer

/-- A client is past its waiting loop and before its `--spin->depth`. -/
def Pc.PastLoop : Pc → Prop
  | .holder | .assertDepth | .decrement => True
  | .readLocked c | .checkDepth c | .returnLocked c => c ≠ .outside
  | _ => False

def LockClient.PastLoop (c : LockClient) : Prop := c.pc.PastLoop ∨ 0 < c.outer

variable {ι : Type}

/-- No assertion has failed, and the lock word is 1 while a client holds the lock. -/
structure LockSafe (s : SharedLock ι) : Prop where
  assertions : ∀ c f, (s.client c).pc ≠ .aborted f
  held : ∀ c, (s.client c).Holds → s.spin.locked = 1

/-- The client's next step is one that goes wrong: a `++spin->depth` that wraps, the check of
`spin->depth` for a caller outside the lock after the last counted client has left, or the
`atomic_exchange(&spin->locked, 0)` after a client got past its waiting loop. -/
inductive LockRace (s : SharedLock ι) (c : ι) : Prop where
  | wrap (h : s.Wraps c)
  | check (hc : (s.client c).pc = .checkDepth .outside) (hd : ∀ d, (s.client d).weight = 0)
  | drop (hc : (s.client c).pc = .release) (hd : (s.client d).PastLoop)

/-! ### What a step can do -/

/-- The steps that write a word of the lock, the steps that keep both words and the standing of
their client, and the assertions that fail. -/
inductive Pc.Move : Pc → Spinlock → Pc → Spinlock → Prop where
  | bump (x : Spinlock) : Move .enterLock x .spinning { x with depth := x.depth + 1 }
  | wait (x : Spinlock) (h : x.locked = 0) : Move .spinning x .spinning { x with locked := 1 }
  | enter (x : Spinlock) (h : x.locked ≠ 0) : Move .spinning x .holder { x with locked := 1 }
  | leave (x : Spinlock) : Move .decrement x .testDepth { x with depth := x.depth - 1 }
  | free (x : Spinlock) : Move .release x .outside { x with locked := 0 }
  | quiet (x : Spinlock) (hweight : q.weight = p.weight) (hpast : q.PastLoop ↔ p.PastLoop)
      (hsafe : ∀ f, q ≠ .aborted f) : Move p x q x
  | depthZero (x : Spinlock) (f : Fault) (hp : p.weight = 1 ∨ p = .checkDepth .outside)
      (h : x.depth = 0) : Move p x (.aborted f) x
  | lockClear (x : Spinlock) (f : Fault) (h : x.locked = 0) :
      Move (.returnLocked .unlock) x (.aborted f) x

theorem Pc.next_move {p q : Pc} {a : LockAction} {x y : Spinlock}
    (h : p.next a x = some (q, y)) : Pc.Move p x q y := by
  cases Access.of_next h with
  | callLock => exact .quiet x rfl .rfl (by simp)
  | callIsLocked => exact .quiet x rfl (by simp [PastLoop]) (by simp)
  | callUnlock => exact .quiet x rfl (by simp [PastLoop]) (by simp)
  | callHeld => exact .quiet x rfl (by simp [PastLoop]) (by simp)
  | bump => exact .bump x
  | wait _ hl => exact .wait x hl
  | enter _ hl => exact .enter x hl
  | readSet => exact .quiet x rfl .rfl (by simp)
  | readClear => exact .quiet x rfl .rfl (by simp)
  | deep => exact .quiet x rfl .rfl (by simp)
  | shallow c _ hd =>
    have hzero : x.depth = 0 := by bv_omega
    by_cases hc : c = .outside
    · exact .depthZero x _ (.inr (congrArg checkDepth hc)) hzero
    · exact .depthZero x _ (.inl (if_neg hc)) hzero
  | returns c =>
    cases c with
    | outside => exact .quiet x rfl (by simp [PastLoop, LockCaller.resume]) nofun
    | holder => exact .quiet x rfl (by simp [PastLoop, LockCaller.resume]) nofun
    | unlock =>
      by_cases hl : x.locked = 0
      · simp only [hl, ne_eq, not_true_eq_false, decide_false, LockCaller.resume,
          Bool.false_eq_true, ↓reduceIte]
        exact .lockClear x _ hl
      · simp only [hl, ne_eq, not_false_eq_true, decide_true, LockCaller.resume, ↓reduceIte]
        exact .quiet x rfl (by simp [PastLoop]) (by simp)
  | asserted => exact .quiet x rfl .rfl (by simp)
  | refuted _ hd =>
    have hzero : x.depth = 0 := by bv_omega
    exact .depthZero x _ (.inl rfl) hzero
  | leave => exact .leave x
  | last => exact .quiet x rfl .rfl (by simp)
  | nested => exact .quiet x rfl .rfl (by simp)
  | free => exact .free x

/-! ### Runs without races -/

variable {s t : SharedLock ι}

/-- `depth` counts the locks between their two updates, and the lock word is 1 as soon as a client
is past its waiting loop. -/
structure LockInvariant (s : SharedLock ι) : Prop where
  assertions : ∀ c f, (s.client c).pc ≠ .aborted f
  depth : Tally LockClient.weight s.client s.spin.depth.toNat
  locked : ∀ c, (s.client c).PastLoop → s.spin.locked = 1

theorem Pc.Holds.pastLoop {p : Pc} (h : p.Holds) : p.PastLoop := by
  cases p with
  | holder => trivial
  | readLocked c | checkDepth c | returnLocked c =>
    cases (h : c = .holder)
    exact LockCaller.noConfusion
  | _ => cases h

theorem LockInvariant.lockSafe (h : LockInvariant s) : LockSafe s :=
  ⟨h.assertions, fun c hc => h.locked c (hc.imp_left Pc.Holds.pastLoop)⟩

theorem lockInvariant_start : LockInvariant (SharedLock.start ι) where
  assertions c f h := by cases h
  depth := .zero fun d => rfl
  locked c h := by
    rcases h with h | h
    · cases h
    · cases h

theorem LockClient.back_keeps (c : LockClient) :
    c.back.weight = c.weight ∧ (c.back.PastLoop → c.PastLoop) ∧
      ∀ f, c.back.pc = .aborted f → c.pc = .aborted f := by
  rcases c.back_cases with ⟨hpc, hpos, hback⟩ | ⟨-, hback⟩
  · rw [hback]
    refine ⟨?_, fun _ => .inr hpos, nofun⟩
    simp only [weight, Pc.weight, hpc]
    omega
  · rw [hback]
    exact ⟨rfl, id, fun _ => id⟩

variable [DecidableEq ι]

theorem forall_update {f : ι → LockClient} {c : ι} {q : LockClient} {P : LockClient → Prop}
    (hq : P q) (hf : ∀ d, P (f d)) (d : ι) : P (Function.update f c q d) := by
  by_cases hd : d = c
  · subst hd
    rw [Function.update_self]
    exact hq
  · rw [Function.update_of_ne hd]
    exact hf d

theorem LockInvariant.goes (hs : LockInvariant s) {c : ι} {q : LockClient}
    (hweight : q.weight = (s.client c).weight) (hpast : q.PastLoop → s.spin.locked = 1)
    (hsafe : ∀ f, q.pc ≠ .aborted f) :
    LockInvariant ⟨s.spin, Function.update s.client c q⟩ where
  assertions d f := forall_update (P := fun q => q.pc ≠ .aborted f) (hsafe f)
    (fun d => hs.assertions d f) d
  depth := hs.depth.update (by rw [hweight])
  locked := forall_update (P := fun q => q.PastLoop → s.spin.locked = 1) hpast hs.locked

theorem LockInvariant.move (hs : LockInvariant s) {c : ι} {d : LockClient} {x : Spinlock}
    (hmove : Pc.Move (s.client c).pc s.spin d.pc x) (houter : d.outer = (s.client c).outer)
    (hrace : ¬ LockRace s c) : LockInvariant ⟨x, Function.update s.client c d⟩ := by
  obtain ⟨q, outer⟩ := d
  simp only at hmove houter
  subst houter
  generalize hp : (s.client c).pc = p at hmove
  have hle := hs.depth.le c
  rw [LockClient.weight, hp] at hle
  have hassert (hq : ∀ f, q ≠ .aborted f) (d : ι) (f : Fault) :
      (Function.update s.client c ⟨q, (s.client c).outer⟩ d).pc ≠ .aborted f :=
    forall_update (P := fun q => q.pc ≠ .aborted f) (hq f) (fun d => hs.assertions d f) d
  have hlocked (hq : ¬ q.PastLoop) :
      ∀ d, (Function.update s.client c ⟨q, (s.client c).outer⟩ d).PastLoop → s.spin.locked = 1 :=
    forall_update (P := fun q => q.PastLoop → s.spin.locked = 1)
      (fun h => hs.locked c (.inr (h.resolve_left hq))) hs.locked
  cases hmove with
  | bump _ =>
    have hdepth : (s.spin.depth + 1).toNat = s.spin.depth.toNat + 1 := by
      have hwrap : s.spin.depth + 1 ≠ 0 := fun hd => hrace (.wrap ⟨hp, hd⟩)
      bv_omega
    refine ⟨hassert (by simp), ?_, hlocked id⟩
    apply hs.depth.update
    simp only [LockClient.weight, hp, Pc.weight, hdepth]
    omega
  | wait _ hl =>
    refine ⟨hassert (by simp), ?_, fun _ _ => rfl⟩
    apply hs.depth.update
    simp only [LockClient.weight, hp]
  | enter _ hl =>
    refine ⟨hassert (by simp), ?_, fun _ _ => rfl⟩
    apply hs.depth.update
    simp only [LockClient.weight, hp, Pc.weight]
  | leave _ =>
    have hone : Pc.decrement.weight = 1 := rfl
    have hdepth : s.spin.depth.toNat = (s.spin.depth - 1).toNat + 1 := by bv_omega
    refine ⟨hassert (by simp), ?_, hlocked id⟩
    apply hs.depth.update
    simp only [LockClient.weight, hp, Pc.weight, hdepth]
    omega
  | free _ =>
    refine ⟨hassert (by simp), ?_, ?_⟩
    · apply hs.depth.update
      simp only [LockClient.weight, hp, Pc.weight]
    · have hnone (d : ι) (hd : (s.client d).PastLoop) : (0 : BitVec 32) = 1 :=
        absurd (.drop hp hd) hrace
      exact forall_update (P := fun q => q.PastLoop → (0 : BitVec 32) = 1)
        (fun h => hnone c (.inr (h.resolve_left id))) hnone
  | quiet _ hweight hpast hsafe =>
    refine hs.goes ?_ (fun hq => hs.locked c ?_) hsafe
    · rw [LockClient.weight, LockClient.weight, hp, hweight]
    · rw [LockClient.PastLoop, hp]
      exact hq.imp_left hpast.1
  | depthZero _ f hcounted hzero =>
    have hnone (d : ι) : (s.client d).weight = 0 := by
      have hd := hs.depth.le d
      rw [hzero] at hd
      exact Nat.le_zero.1 hd
    rcases hcounted with hcounted | hcheck
    · rw [hcounted, hzero] at hle
      exact absurd (Nat.le_of_add_right_le hle) (by decide)
    · exact absurd (.check (hp.trans hcheck) hnone) hrace
  | lockClear _ f hzero =>
    have hpast : (s.client c).pc.PastLoop := by
      rw [hp]
      exact LockCaller.noConfusion
    have hone := hs.locked c (.inl hpast)
    rw [hzero] at hone
    cases hone

theorem LockInvariant.comesBack {f : ι → LockClient} {x : Spinlock} {c : ι} {d : LockClient}
    (h : LockInvariant ⟨x, Function.update f c d⟩) :
    LockInvariant ⟨x, Function.update f c d.back⟩ := by
  obtain ⟨hweight, hpast, hsafe⟩ := d.back_keeps
  have hself : Function.update f c d c = d := Function.update_self ..
  have hd := h.locked c
  have hd' := h.assertions c
  simp only [hself] at hd hd'
  have hback := h.goes (c := c) (q := d.back) (by simp only [hself, hweight])
    (fun hb => hd (hpast hb)) fun f hf => hd' f (hsafe f hf)
  rwa [Function.update_idem] at hback

theorem SharedStep.invariant {a : ι × LockAction} (h : SharedStep s a t) (hs : LockInvariant s)
    (hrace : ¬ LockRace s a.1) : LockInvariant t := by
  obtain ⟨c, x, hn, rfl⟩ := h
  rcases LockClient.next_cases hn with ⟨hp, rfl, rfl⟩ | ⟨d, hd, houter, rfl⟩
  · refine hs.goes ?_ (fun _ => hs.locked a.1 ?_) nofun
    · simp only [LockClient.weight, hp, Pc.weight]
      omega
    · rw [LockClient.PastLoop, hp]
      exact .inl trivial
  · exact (hs.move (Pc.next_move hd) houter hrace).comesBack

theorem lockRun_invariant {l : List (Step (SharedLock ι) (ι × LockAction))}
    (h : Run SharedStep s l t) (hs : LockInvariant s)
    (hrace : ∀ st ∈ l, ¬ LockRace st.pre st.label.1) :
    LockInvariant t ∧ ∀ st ∈ l, LockInvariant st.pre ∧ LockInvariant st.post :=
  h.invariant hs fun st hst hstep hpre => hstep.invariant hpre (hrace st hst)

/-! ### A single client -/

/-- A client that is not between its `lock_spinlock` and the end of its `unlock_spinlock`. -/
def Pc.Away : Pc → Prop
  | .outside | .enterLock => True
  | .readLocked c | .returnLocked c => c = .outside
  | _ => False

def LockClient.Away (c : LockClient) : Prop := c.pc.Away ∧ (c.pc = .enterLock → c.outer = 0)

/-- While its only client is away the lock word is clear, so that `is_locked_spinlock` does not
get to its check, and the client clears the word when it holds no other lock. -/
structure LockAlone (s : SharedLock ι) : Prop where
  inv : LockInvariant s
  clear : ∀ c, (s.client c).Away → s.spin.locked = 0
  check : ∀ c, (s.client c).pc ≠ .checkDepth .outside
  release : ∀ c, (s.client c).pc = .release → (s.client c).outer = 0

omit [DecidableEq ι] in
theorem lockAlone_start : LockAlone (SharedLock.start ι) where
  inv := lockInvariant_start
  clear _ _ := rfl
  check c h := by cases h
  release c h := by cases h

omit [DecidableEq ι] in
theorem LockAlone.no_race [Subsingleton ι] (h : LockAlone s) {c : ι} (hwrap : ¬ s.Wraps c) :
    ¬ LockRace s c := by
  intro hrace
  cases hrace with
  | wrap hw => exact hwrap hw
  | check hc hd => exact h.check c hc
  | @drop d hc hd =>
    rw [Subsingleton.elim d c, LockClient.PastLoop, hc, h.release c hc] at hd
    rcases hd with hd | hd
    · exact hd
    · cases hd

/-- The places that a step of the only client may lead to while the lock word is clear. -/
theorem Pc.next_away {p q : Pc} {a : LockAction} {x y : Spinlock} {outer : Nat}
    (h : p.next a x = some (q, y)) (hp : LockClient.Away ⟨p, outer⟩ → x.locked = 0)
    (hd : p = .testDepth → x.depth.toNat = outer) (hc : p ≠ .checkDepth .outside) :
    (q.Away → (q = .outside → outer = 0) → y.locked = 0) ∧ q ≠ .checkDepth .outside ∧
      (q = .release → outer = 0) := by
  cases Access.of_next h with
  | callLock => exact ⟨fun _ _ => hp ⟨trivial, nofun⟩, by simp, nofun⟩
  | callIsLocked => exact ⟨fun _ _ => hp ⟨trivial, nofun⟩, by simp, nofun⟩
  | callUnlock => exact ⟨by simp [Away], by simp, nofun⟩
  | callHeld => exact ⟨by simp [Away], by simp, nofun⟩
  | readSet c _ hl =>
    refine ⟨False.elim, fun heq => hl (hp ⟨?_, nofun⟩), nofun⟩
    injection heq
  | readClear c _ hl => exact ⟨fun _ _ => hl, by simp, nofun⟩
  | deep c => exact ⟨fun hq => absurd (congrArg checkDepth hq) hc, by simp, nofun⟩
  | returns c =>
    cases c with
    | outside => exact ⟨fun _ _ => hp ⟨rfl, nofun⟩, by simp [LockCaller.resume], nofun⟩
    | holder => exact ⟨False.elim, by simp [LockCaller.resume], nofun⟩
    | unlock =>
      simp only [LockCaller.resume]
      split
      · exact ⟨False.elim, by simp, nofun⟩
      · exact ⟨False.elim, by simp, nofun⟩
  | last _ hzero =>
    refine ⟨False.elim, by simp, fun _ => ?_⟩
    rw [← hd rfl, hzero]
    rfl
  | nested _ hne =>
    refine ⟨fun _ hout => absurd ?_ hne, by simp, nofun⟩
    apply BitVec.eq_of_toNat_eq
    rw [hd rfl, hout rfl]
    rfl
  | free => exact ⟨fun _ _ => rfl, by simp, nofun⟩
  | _ => exact ⟨False.elim, by simp, nofun⟩

theorem LockAlone.goes [Subsingleton ι] {f : ι → LockClient} {c : ι} {d : LockClient}
    {x : Spinlock} (hinv : LockInvariant ⟨x, Function.update f c d⟩)
    (hclear : d.Away → x.locked = 0) (hcheck : d.pc ≠ .checkDepth .outside)
    (hrelease : d.pc = .release → d.outer = 0) : LockAlone ⟨x, Function.update f c d⟩ := by
  have hself (k : ι) : Function.update f c d k = d := by
    rw [Subsingleton.elim k c, Function.update_self]
  constructor
  · exact hinv
  · simp only [hself]
    exact fun _ => hclear
  · simp only [hself]
    exact fun _ => hcheck
  · simp only [hself]
    exact fun _ => hrelease

theorem SharedStep.alone [Subsingleton ι] {a : ι × LockAction} (h : SharedStep s a t)
    (hs : LockAlone s) (hwrap : ¬ s.Wraps a.1) : LockAlone t := by
  have hinv := h.invariant hs.inv (hs.no_race hwrap)
  obtain ⟨c, x, hn, rfl⟩ := h
  rcases LockClient.next_cases hn with ⟨-, rfl, rfl⟩ | ⟨d, hd, houter, rfl⟩
  · exact .goes hinv (fun haway => absurd (haway.2 rfl) (Nat.succ_ne_zero _)) nofun nofun
  · have hdepth (hp : (s.client a.1).pc = .testDepth) : s.spin.depth.toNat = d.outer := by
      rw [hs.inv.depth.eq a.1, LockClient.weight, hp, houter]
      exact Nat.zero_add _
    have hclear (haway : LockClient.Away ⟨(s.client a.1).pc, d.outer⟩) : s.spin.locked = 0 :=
      hs.clear a.1 ⟨haway.1, fun hp => houter ▸ haway.2 hp⟩
    obtain ⟨hnext, hcheck, hrelease⟩ := Pc.next_away hd hclear hdepth (hs.check a.1)
    rcases d.back_cases with ⟨-, -, hback⟩ | ⟨hout, hback⟩
    · rw [hback] at hinv ⊢
      exact .goes hinv (fun haway => haway.1.elim) nofun nofun
    · rw [hback] at hinv ⊢
      exact .goes hinv (fun haway => hnext haway.1 hout) hcheck hrelease

theorem lockRun_alone [Subsingleton ι] {l : List (Step (SharedLock ι) (ι × LockAction))}
    (h : Run SharedStep s l t) (hs : LockAlone s)
    (hwrap : ∀ st ∈ l, ¬ st.pre.Wraps st.label.1) : LockAlone t :=
  (h.invariant hs fun st hst hstep hpre => hstep.alone hpre (hwrap st hst)).1

/-! ### Two clients -/

def Pc.nexts (p : Pc) (x : Spinlock) : List LockAction → Option (Pc × Spinlock)
  | [] => some (p, x)
  | a :: as =>
    if p = .enterLock ∧ x.depth + 1 = 0 then none
    else (p.next a x).bind fun r => r.1.nexts r.2 as

theorem Pc.nexts_run {f : ι → Pc} {c : ι} {p q : Pc} {x y : Spinlock} {as : List LockAction}
    (h : p.nexts x as = some (q, y)) :
    ∃ l, Run LockStep ⟨x, Function.update f c p⟩ l ⟨y, Function.update f c q⟩ ∧
      ∀ st ∈ l, ¬ st.pre.shared.Wraps st.label.1 := by
  induction as generalizing p x with
  | nil =>
    cases h
    exact ⟨[], .nil _, fun st hst => absurd hst List.not_mem_nil⟩
  | cons a as ih =>
    by_cases hwrap : p = .enterLock ∧ x.depth + 1 = 0
    · rw [nexts, if_pos hwrap] at h
      cases h
    · rw [nexts, if_neg hwrap, Option.bind_eq_some_iff] at h
      obtain ⟨⟨r, z⟩, hr, hrest⟩ := h
      obtain ⟨l, hl, hno⟩ := ih hrest
      refine ⟨_, .cons (.of_next hr) hl, List.forall_mem_cons.2 ⟨?_, hno⟩⟩
      simp only [SharedLock.Wraps, LockSystem.shared, Function.update_self]
      exact hwrap

/-- One client is about to release the lock word when the other calls `is_locked_spinlock`. -/
theorem two_clients_abort {c d : ι} (h : c ≠ d) :
    ∃ l t, Run SharedStep (SharedLock.start ι) l t ∧
      (∀ st ∈ l, ¬ st.pre.Wraps st.label.1) ∧
      (t.client d).pc = .aborted (.assertion "spin->depth > 0") := by
  have hfirst : Pc.outside.nexts initSpinlock
      [.call .lock, .run, .run, .run, .call .unlock, .run, .run, .run, .run, .run] =
      some (.testDepth, { depth := 0, locked := 1 }) := rfl
  have hsecond : Pc.outside.nexts { depth := 0, locked := 1 } [.call .isLocked, .run, .run] =
      some (.aborted (.assertion "spin->depth > 0"), { depth := 0, locked := 1 }) := rfl
  obtain ⟨l, hl, hno⟩ := Pc.nexts_run (f := fun _ => .outside) (c := c) hfirst
  obtain ⟨l', hl', hno'⟩ := Pc.nexts_run
    (f := Function.update (fun _ => .outside) c .testDepth) (c := d) hsecond
  rw [Function.update_eq_self_iff.2 (by rw [Function.update_of_ne h.symm])] at hl'
  rw [Function.update_eq_self_iff.2 rfl] at hl
  refine ⟨_, _, lockRun_shared (hl.append hl'), ?_, ?_⟩
  · exact List.forall_mem_map.2 (List.forall_mem_append.2 ⟨hno, hno'⟩)
  · exact Function.update_self ..

/-! ### A client that nests too deep -/

def SharedLock.nested (c : ι) (k : Nat) : SharedLock ι where
  spin := { depth := BitVec.ofNat 32 (k + 1), locked := 1 }
  client := Function.update (fun _ => { pc := .outside, outer := 0 }) c
    { pc := .holder, outer := k }

theorem nested_run (c : ι) (k : Nat) :
    ∃ l, Run SharedStep (SharedLock.start ι) l (SharedLock.nested c k) ∧
      ∀ st ∈ l, st.label.1 = c := by
  induction k with
  | zero =>
    have hcall : LockClient.next { pc := .outside, outer := 0 } (.call .lock) initSpinlock =
        some ({ pc := .enterLock, outer := 0 }, initSpinlock) := rfl
    have hbump : LockClient.next { pc := .enterLock, outer := 0 } .run initSpinlock =
        some ({ pc := .spinning, outer := 0 }, { depth := 1, locked := 0 }) := rfl
    have hwait : LockClient.next { pc := .spinning, outer := 0 } .run
        { depth := 1, locked := 0 } =
        some ({ pc := .spinning, outer := 0 }, { depth := 1, locked := 1 }) := rfl
    have henter : LockClient.next { pc := .spinning, outer := 0 } .run
        { depth := 1, locked := 1 } =
        some ({ pc := .holder, outer := 0 }, { depth := 1, locked := 1 }) := rfl
    have hrun := Run.cons
      (SharedStep.of_next (f := fun _ => { pc := .outside, outer := 0 }) (k := c) hcall)
      (.cons (.of_next hbump) (.cons (.of_next hwait) (.cons (.of_next henter) (.nil _))))
    rw [Function.update_eq_self_iff.2 rfl] at hrun
    exact ⟨_, hrun, by simp⟩
  | succ k ih =>
    obtain ⟨l, hl, hc⟩ := ih
    have hdepth : BitVec.ofNat 32 (k + 1) + 1 = BitVec.ofNat 32 (k + 1 + 1) :=
      (BitVec.ofNat_add ..).symm
    have hcall : LockClient.next { pc := .holder, outer := k } (.call .lock)
        { depth := BitVec.ofNat 32 (k + 1), locked := 1 } =
        some ({ pc := .enterLock, outer := k + 1 },
          { depth := BitVec.ofNat 32 (k + 1), locked := 1 }) := rfl
    have hbump : LockClient.next { pc := .enterLock, outer := k + 1 } .run
        { depth := BitVec.ofNat 32 (k + 1), locked := 1 } =
        some ({ pc := .spinning, outer := k + 1 },
          { depth := BitVec.ofNat 32 (k + 1) + 1, locked := 1 }) := rfl
    have henter : LockClient.next { pc := .spinning, outer := k + 1 } .run
        { depth := BitVec.ofNat 32 (k + 1) + 1, locked := 1 } =
        some ({ pc := .holder, outer := k + 1 },
          { depth := BitVec.ofNat 32 (k + 1) + 1, locked := 1 }) := rfl
    have hmore := Run.cons
      (SharedStep.of_next (f := fun _ => { pc := .outside, outer := 0 }) (k := c) hcall)
      (.cons (.of_next hbump) (.cons (.of_next henter) (.nil _)))
    rw [hdepth] at hmore
    refine ⟨_, hl.append hmore, List.forall_mem_append.2 ⟨hc, ?_⟩⟩
    simp

/-- After 2³² locks the counter is back at zero. -/
theorem nested_abort (c : ι) :
    ∃ l t, Run SharedStep (SharedLock.start ι) l t ∧ (∀ st ∈ l, st.label.1 = c) ∧
      (t.client c).pc = .aborted (.assertion "spin->depth > 0") := by
  obtain ⟨l, hl, hc⟩ := nested_run c (2 ^ 32 - 1)
  have hzero : BitVec.ofNat 32 (2 ^ 32 - 1 + 1) = 0 := by decide
  rw [SharedLock.nested, hzero] at hl
  have hcall : LockClient.next { pc := .holder, outer := 2 ^ 32 - 1 } (.call .isLocked)
      { depth := 0, locked := 1 } =
      some ({ pc := .readLocked .holder, outer := 2 ^ 32 - 1 }, { depth := 0, locked := 1 }) := rfl
  have hread : LockClient.next { pc := .readLocked .holder, outer := 2 ^ 32 - 1 } .run
      { depth := 0, locked := 1 } =
      some ({ pc := .checkDepth .holder, outer := 2 ^ 32 - 1 }, { depth := 0, locked := 1 }) := rfl
  have hfails : LockClient.next { pc := .checkDepth .holder, outer := 2 ^ 32 - 1 } .run
      { depth := 0, locked := 1 } =
      some ({ pc := .aborted (.assertion "spin->depth > 0"), outer := 2 ^ 32 - 1 },
        { depth := 0, locked := 1 }) := rfl
  have hmore := Run.cons
    (SharedStep.of_next (f := fun _ => { pc := .outside, outer := 0 }) (k := c) hcall)
    (.cons (.of_next hread) (.cons (.of_next hfails) (.nil _)))
  refine ⟨_, _, hl.append hmore, ?_, ?_⟩
  · refine List.forall_mem_append.2 ⟨hc, ?_⟩
    simp
  · simp only [Function.update_self]

/-- Clients that never nest so deep that `++spin->depth` wraps keep the assertions and the lock word
right in all their runs only when there is at most one of them. With more of them, a run does so as
long as no client makes one of the steps that go wrong. Beyond that depth the assertion fails for a
client that is alone. -/
theorem spinlock_assertions_iff (ι : Type) [DecidableEq ι] :
    ((∀ l t, Run SharedStep (SharedLock.start ι) l t →
      (∀ st ∈ l, ¬ st.pre.Wraps st.label.1) → LockSafe t) ↔ Subsingleton ι) ∧
    (∀ l t, Run SharedStep (SharedLock.start ι) l t →
      (∀ st ∈ l, ¬ LockRace st.pre st.label.1) → LockSafe t ∧ ∀ st ∈ l, LockSafe st.post) ∧
    ∀ c : ι, ∃ l t, Run SharedStep (SharedLock.start ι) l t ∧ (∀ st ∈ l, st.label.1 = c) ∧
      ¬ LockSafe t := by
  refine ⟨⟨fun hall => ⟨?_⟩, ?_⟩, ?_, ?_⟩
  · intro c d
    by_contra hne
    obtain ⟨l, t, hrun, hwrap, habort⟩ := two_clients_abort hne
    exact (hall l t hrun hwrap).assertions d _ habort
  · intro hι l t h hwrap
    exact (lockRun_alone h lockAlone_start hwrap).inv.lockSafe
  · intro l t h hrace
    obtain ⟨ht, hl⟩ := lockRun_invariant h lockInvariant_start hrace
    exact ⟨ht.lockSafe, fun st hst => (hl st hst).2.lockSafe⟩
  · intro c
    obtain ⟨l, t, hrun, halone, habort⟩ := nested_abort c
    exact ⟨l, t, hrun, halone, fun hsafe => hsafe.assertions c _ habort⟩

theorem spinlock_assertion_fires :
    ∃ l t, Run SharedStep (SharedLock.start (Fin 2)) l t ∧
      (t.client 1).pc = .aborted (.assertion "spin->depth > 0") := by
  obtain ⟨l, t, hrun, -, habort⟩ := two_clients_abort (ι := Fin 2) Fin.zero_ne_one
  exact ⟨l, t, hrun, habort⟩

end BordOS
