import BordOS.Drivers.CmosSnapshot
import BordOS.Library.ProgramSpec

namespace BordOS
open Library
set_option autoImplicit true
set_option relaxedAutoImplicit false

/-- The machine `d` answers the register reads of `cmos.c` by a stream. `reading n` are its states
after `n` of them. -/
structure CmosReads (d : PortDevice σ) (reading : Nat → σ → Prop) (values : CmosStream) :
    Prop where
  read : ∀ {n s} (reg : BitVec 8), reading n s →
    ∃ t, (cmosReadRaw reg).run d s = .ok (values n reg) t ∧ reading (n + 1) t

def rtcAt (values : CmosStream) (p : Nat) : CmosRtc where
  seconds := values (p + 1) cmosRtcSec
  minuts := values (p + 2) cmosRtcMin
  hour := values (p + 3) cmosRtcHour
  day := values (p + 4) cmosRtcDateDay
  month := values (p + 5) cmosRtcDateMonth
  year := (values (p + 6) cmosRtcDateYear).setWidth 16
  century := 0

/-- What `cmos_RTC` stores if the last poll of its second pass is data read number `q`. -/
def rtcResult (values : CmosStream) (q : Nat) : CmosRtc :=
  (rtcAt values q).convert (values (q + 7) cmosStatRegB)

theorem cmosDevice_reads (values : CmosStream) :
    CmosReads (cmosDevice values) (fun n s => s.reads = n) values where
  read reg h := by
    subst h
    exact ⟨_, cmosReadRaw_run reg _, rfl⟩

theorem FirstClear.step {values : CmosStream} (h : FirstClear values n p) :
    n = p ∨ values n cmosStatRegA &&& 0x80 ≠ 0 ∧ FirstClear values (n + 1) p := by
  obtain ⟨hnp, hp, hm⟩ := h
  by_cases hne : n = p
  · exact .inl hne
  · exact .inr ⟨hm n (Nat.le_refl n) (by omega), by omega, hp, fun m hnm => hm m (by omega)⟩

namespace CmosReads

variable {d : PortDevice σ} {reading : Nat → σ → Prop} {values : CmosStream} {s t : σ}
  {fuel : Nat}

theorem getUpdate (hd : CmosReads d reading values) (h : reading n s) :
    ∃ t, cmosGetUpdate.run d s = .ok (values n cmosStatRegA &&& 0x80) t ∧ reading (n + 1) t := by
  obtain ⟨t, hrun, ht⟩ := hd.read cmosStatRegA h
  refine ⟨t, ?_, ht⟩
  simp only [cmosGetUpdate, Prog.run_bind, hrun, Prog.run_pure]

theorem fields (hd : CmosReads d reading values) (h : reading (p + 1) s) :
    ∃ t, (do
        let seconds ← cmosReadRaw cmosRtcSec
        let minuts ← cmosReadRaw cmosRtcMin
        let hour ← cmosReadRaw cmosRtcHour
        let day ← cmosReadRaw cmosRtcDateDay
        let month ← cmosReadRaw cmosRtcDateMonth
        let year ← cmosReadRaw cmosRtcDateYear
        return { seconds, minuts, hour, day, month, year := year.setWidth 16,
                 century := 0 } : PortM CmosRtc).run d s = .ok (rtcAt values p) t ∧
      reading (p + 7) t := by
  obtain ⟨s₁, h₁, r₁⟩ := hd.read cmosRtcSec h
  obtain ⟨s₂, h₂, r₂⟩ := hd.read cmosRtcMin r₁
  obtain ⟨s₃, h₃, r₃⟩ := hd.read cmosRtcHour r₂
  obtain ⟨s₄, h₄, r₄⟩ := hd.read cmosRtcDateDay r₃
  obtain ⟨s₅, h₅, r₅⟩ := hd.read cmosRtcDateMonth r₄
  obtain ⟨s₆, h₆, r₆⟩ := hd.read cmosRtcDateYear r₅
  refine ⟨s₆, ?_, r₆⟩
  simp only [Prog.run_bind, h₁, h₂, h₃, h₄, h₅, h₆, Prog.run_pure]
  rfl

theorem poll_returns (hd : CmosReads d reading values) (h : reading n s) {b : BitVec 8}
    (hrun : (Prog.loopWhile cmosGetUpdate (fun b => b != 0) .outOfFuel fuel).run d s = .ok b t) :
    ∃ p, FirstClear values n p ∧ reading (p + 1) t := by
  induction fuel generalizing s n with
  | zero => simp [Prog.loopWhile] at hrun
  | succ fuel ih =>
    obtain ⟨u, hget, hu⟩ := hd.getUpdate h
    simp only [Prog.loopWhile, Prog.run_bind, hget] at hrun
    by_cases hbusy : values n cmosStatRegA &&& 0x80 = 0
    · simp only [hbusy, bne_self_eq_false, Bool.false_eq_true, ↓reduceIte, Prog.run_pure,
        EStateM.Result.ok.injEq] at hrun
      rw [← hrun.2]
      exact ⟨n, ⟨Nat.le_refl n, hbusy, by omega⟩, hu⟩
    · rw [if_pos (bne_iff_ne.2 hbusy)] at hrun
      obtain ⟨p, hp, ht⟩ := ih hu hrun
      exact ⟨p, hp.later hbusy, ht⟩

theorem fillRtc_returns (hd : CmosReads d reading values) (h : reading n s) {data : CmosRtc}
    (hrun : (cmosFillRtc fuel).run d s = .ok data t) :
    ∃ p, FirstClear values n p ∧ data = rtcAt values p ∧ reading (p + 7) t := by
  rw [cmosFillRtc, Prog.run_bind] at hrun
  cases hpoll : (Prog.loopWhile cmosGetUpdate (fun b => b != 0) .outOfFuel fuel).run d s with
  | error e u => simp only [hpoll, reduceCtorEq] at hrun
  | ok b u =>
    obtain ⟨p, hp, hu⟩ := hd.poll_returns h hpoll
    obtain ⟨v, hfields, hv⟩ := hd.fields hu
    simp only [hpoll] at hrun
    rw [hfields] at hrun
    cases hrun
    exact ⟨p, hp, rfl, hv⟩

theorem settle_returns (hd : CmosReads d reading values) (h : reading n s) {last data : CmosRtc}
    (hl : last.century = 0) (hrun : (cmosSettle fuel m last).run d s = .ok data t) :
    ∃ q, FirstClear values n q ∧ data = rtcAt values q ∧ reading (q + 7) t := by
  cases m with
  | zero => simp [cmosSettle] at hrun
  | succ m =>
    rw [cmosSettle, Prog.run_bind] at hrun
    cases hfill : (cmosFillRtc fuel).run d s with
    | error e u => simp only [hfill, reduceCtorEq] at hrun
    | ok first u =>
      obtain ⟨q, hq, rfl, hu⟩ := hd.fillRtc_returns h hfill
      have hc : (rtcAt values q).century = 0 := rfl
      simp only [hfill, CmosRtc.differs_eq_false hl hc, Bool.false_eq_true, ↓reduceIte,
        Prog.run_pure] at hrun
      cases hrun
      exact ⟨q, hq, rfl, hu⟩

theorem rtc_returns (hd : CmosReads d reading values) (h : reading n s) {data : CmosRtc}
    (hrun : (cmosRTC fuel).run d s = .ok data t) :
    ∃ p q, FirstClear values n p ∧ FirstClear values (p + 7) q ∧ data = rtcResult values q ∧
      reading (q + 8) t := by
  rw [cmosRTC, Prog.run_bind] at hrun
  cases hfirst : (cmosFillRtc fuel).run d s with
  | error e u => simp only [hfirst, reduceCtorEq] at hrun
  | ok last u =>
    obtain ⟨p, hp, rfl, hu⟩ := hd.fillRtc_returns h hfirst
    simp only [hfirst, Prog.run_bind] at hrun
    cases hsettle : (cmosSettle fuel fuel (rtcAt values p)).run d u with
    | error e v => simp only [hsettle, reduceCtorEq] at hrun
    | ok second v =>
      obtain ⟨q, hq, rfl, hv⟩ := hd.settle_returns hu rfl hsettle
      obtain ⟨w, hread, hw⟩ := hd.read cmosStatRegB hv
      simp only [hsettle, hread, Prog.run_pure] at hrun
      cases hrun
      exact ⟨p, q, hp, hq, rfl, hw⟩

theorem poll_settles (hd : CmosReads d reading values) (h : reading n s)
    (hp : FirstClear values n p) :
    ∃ t tr, Prog.Settles d (Prog.loopWhile cmosGetUpdate (fun b => b != 0) .outOfFuel) s (.ok 0 t)
      tr ∧ reading (p + 1) t := by
  generalize hk : p - n = k
  induction k generalizing s n with
  | zero =>
    have heq : n = p := Nat.le_antisymm hp.1 (by omega)
    subst heq
    obtain ⟨t, hget, ht⟩ := hd.getUpdate h
    rw [hp.2.1] at hget
    exact ⟨t, _, .loopWhile_stop hget rfl, ht⟩
  | succ k ih =>
    rcases hp.step with heq | ⟨hbusy, hlater⟩
    · omega
    · obtain ⟨u, hget, hu⟩ := hd.getUpdate h
      obtain ⟨t, tr, hset, ht⟩ := ih hu hlater (by omega)
      exact ⟨t, _, .loopWhile_again hget (bne_iff_ne.2 hbusy) hset, ht⟩

theorem fillRtc_settles (hd : CmosReads d reading values) (h : reading n s)
    (hp : FirstClear values n p) :
    ∃ t tr, Prog.Settles d cmosFillRtc s (.ok (rtcAt values p) t) tr ∧ reading (p + 7) t := by
  obtain ⟨u, tr, hpoll, hu⟩ := hd.poll_settles h hp
  obtain ⟨t, hfields, ht⟩ := hd.fields hu
  exact ⟨t, _, hpoll.bind (.of_run hfields), ht⟩

theorem loop_settles (hd : CmosReads d reading values) (h : reading n s) (last : CmosRtc)
    (hl : last.century = 0) (hq : FirstClear values n q) :
    ∃ t tr, Prog.Settles d (fun k => cmosSettle k k last) s (.ok (rtcAt values q) t) tr ∧
      reading (q + 7) t := by
  obtain ⟨t, tr, ⟨N, hN⟩, ht⟩ := hd.fillRtc_settles h hq
  refine ⟨t, tr, ⟨N + 1, fun k hk => ?_⟩, ht⟩
  obtain ⟨m, rfl⟩ := Nat.exists_eq_add_of_le' (Nat.le_of_add_left_le hk)
  obtain ⟨hrun, hevents⟩ := hN (m + 1) (by omega)
  have hc : (rtcAt values q).century = 0 := rfl
  simp only [cmosSettle, Prog.run_bind, Prog.events_bind, hrun, hevents,
    CmosRtc.differs_eq_false hl hc, Bool.false_eq_true, ↓reduceIte, Prog.run_pure,
    Prog.events_pure, List.append_nil, and_self]

theorem rtc_settles (hd : CmosReads d reading values) (h : reading n s)
    (hp : FirstClear values n p) (hq : FirstClear values (p + 7) q) :
    ∃ t tr, Prog.Settles d cmosRTC s (.ok (rtcResult values q) t) tr ∧ reading (q + 8) t := by
  obtain ⟨u, tr, hfirst, hu⟩ := hd.fillRtc_settles h hp
  obtain ⟨v, tr', hsecond, hv⟩ := hd.loop_settles hu (rtcAt values p) rfl hq
  obtain ⟨t, hread, ht⟩ := hd.read cmosStatRegB hv
  refine ⟨t, _, hfirst.bind (hsecond.bind (.of_run ?_)), ht⟩
  simp only [Prog.run_bind, hread, Prog.run_pure]
  rfl

theorem rtc_converges (hd : CmosReads d reading values) (h : reading n s)
    (hp : FirstClear values n p) (hq : FirstClear values (p + 7) q) :
    ∃ t, Prog.Converges d cmosRTC s (rtcResult values q) t ∧ reading (q + 8) t := by
  obtain ⟨t, tr, hset, ht⟩ := hd.rtc_settles h hp hq
  exact ⟨t, hset.converges, ht⟩

end CmosReads

end BordOS
