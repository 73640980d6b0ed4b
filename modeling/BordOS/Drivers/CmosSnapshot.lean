import BordOS.Drivers.Cmos

namespace BordOS
open Library
set_option autoImplicit true
set_option relaxedAutoImplicit false

/-- The values that the chip returns: the data read number `n` returns `values n reg`, where `reg`
is the register selected by then. The clock may tick between any two reads. -/
abbrev CmosStream := Nat → BitVec 8 → BitVec 8

structure CmosChip where
  index : BitVec 8
  reads : Nat
deriving DecidableEq, Repr

def cmosDevice (values : CmosStream) : PortDevice CmosChip
  | .outb port val, s => ((), if port = cmosReg then { s with index := val } else s)
  | .inb port, s =>
    if port = cmosData then (values s.reads s.index, { s with reads := s.reads + 1 }) else (0, s)
  | .inw _, s => (0, s)
  | .outw _ _, s | .cli, s | .sti, s | .log _ _ _, s => ((), s)

def rtcRegs : List (BitVec 8) :=
  [cmosRtcSec, cmosRtcMin, cmosRtcHour, cmosRtcDateDay, cmosRtcDateMonth, cmosRtcDateYear]

def dataReads (trace : List (PortEvent CmosChip)) : List (BitVec 8 × BitVec 8) :=
  trace.filterMap fun
    | ⟨s, .inb port, val⟩ => if port = cmosData then some (s.index, val) else none
    | _ => none

/-- The values of each complete pass: six reads in a row of the registers of a pass. -/
def completePasses : List (BitVec 8 × BitVec 8) → List (List (BitVec 8))
  | [] => []
  | r :: rs =>
    if ((r :: rs).take 6).map Prod.fst = rtcRegs then
      ((r :: rs).take 6).map Prod.snd :: completePasses rs
    else completePasses rs

/-- The last two complete passes of a trace read the same values. -/
def SnapshotConsistent (trace : List (PortEvent CmosChip)) : Prop :=
  match (completePasses (dataReads trace)).reverse with
  | last :: before :: _ => before = last
  | _ => False

/-- The first data read from number `n` on that finds no update in progress. -/
def FirstClear (values : CmosStream) (n p : Nat) : Prop :=
  n ≤ p ∧ values p cmosStatRegA &&& 0x80 = 0 ∧
    ∀ m, n ≤ m → m < p → values m cmosStatRegA &&& 0x80 ≠ 0

def passAt (values : CmosStream) (p : Nat) : List (BitVec 8) :=
  rtcRegs.mapIdx fun k reg => values (p + 1 + k) reg

/-- The pass at the first free moment of the stream and the pass at the next one are the same. -/
def SteadyStream (values : CmosStream) : Prop :=
  ∃ p q, FirstClear values 0 p ∧ FirstClear values (p + 7) q ∧ passAt values p = passAt values q

variable {values : CmosStream}

theorem FirstClear.unique (hp : FirstClear values n p) (hq : FirstClear values n q) : p = q := by
  obtain ⟨hnp, hp, hpm⟩ := hp
  obtain ⟨hnq, hq, hqm⟩ := hq
  rcases Nat.lt_trichotomy p q with h | h | h
  · exact absurd hp (hqm p hnp h)
  · exact h
  · exact absurd hq (hpm q hnq h)

theorem FirstClear.later (h : values n cmosStatRegA &&& 0x80 ≠ 0)
    (hp : FirstClear values (n + 1) p) : FirstClear values n p := by
  obtain ⟨hn, hp, hm⟩ := hp
  refine ⟨by omega, hp, ?_⟩
  intro m hnm hmp
  by_cases hmn : m = n
  · rw [hmn]
    exact h
  · exact hm m (by omega) hmp

@[simp] theorem dataReads_append (tr tr' : List (PortEvent CmosChip)) :
    dataReads (tr ++ tr') = dataReads tr ++ dataReads tr' :=
  List.filterMap_append

theorem completePasses_skip {reg val : BitVec 8} (h : reg ≠ cmosRtcSec)
    (rs : List (BitVec 8 × BitVec 8)) :
    completePasses ((reg, val) :: rs) = completePasses rs := by
  rw [completePasses, if_neg]
  simp [rtcRegs, h]

theorem completePasses_pass (a b c d e f : BitVec 8) (rs : List (BitVec 8 × BitVec 8)) :
    completePasses ((cmosRtcSec, a) :: (cmosRtcMin, b) :: (cmosRtcHour, c) ::
      (cmosRtcDateDay, d) :: (cmosRtcDateMonth, e) :: (cmosRtcDateYear, f) :: rs) =
      [a, b, c, d, e, f] :: completePasses rs := by
  rw [completePasses, if_pos (by simp [rtcRegs])]
  iterate 5 rw [completePasses_skip (by decide)]
  rfl

theorem cmosReadRaw_run (reg : BitVec 8) (s : CmosChip) :
    (cmosReadRaw reg).run (cmosDevice values) s =
      .ok (values s.reads reg) { index := reg, reads := s.reads + 1 } := by
  simp [cmosReadRaw, outb, inb, cmosDevice]

theorem cmosReadRaw_dataReads (reg : BitVec 8) (s : CmosChip) :
    dataReads ((cmosReadRaw reg).events (cmosDevice values) s) = [(reg, values s.reads reg)] := by
  simp [cmosReadRaw, outb, inb, cmosDevice, dataReads]

theorem cmosPoll_returns {fuel : Nat} {s t : CmosChip} {b : BitVec 8}
    (h : (Prog.loopWhile cmosGetUpdate (fun b => b != 0) .outOfFuel fuel).run
      (cmosDevice values) s = .ok b t) :
    ∃ p, FirstClear values s.reads p ∧ t = { index := cmosStatRegA, reads := p + 1 } ∧
      ∀ rs, completePasses (dataReads ((Prog.loopWhile cmosGetUpdate (fun b => b != 0) .outOfFuel
        fuel).events (cmosDevice values) s) ++ rs) = completePasses rs := by
  induction fuel generalizing s with
  | zero => simp [Prog.loopWhile] at h
  | succ n ih =>
    have hrun : cmosGetUpdate.run (cmosDevice values) s =
        .ok (values s.reads cmosStatRegA &&& 0x80)
          { index := cmosStatRegA, reads := s.reads + 1 } := by
      simp only [cmosGetUpdate, Prog.run_bind, cmosReadRaw_run, Prog.run_pure]
    have hreads : dataReads (cmosGetUpdate.events (cmosDevice values) s) =
        [(cmosStatRegA, values s.reads cmosStatRegA)] := by
      simp only [cmosGetUpdate, Prog.events_bind, cmosReadRaw_run, Prog.events_pure,
        List.append_nil, cmosReadRaw_dataReads]
    simp only [Prog.loopWhile, Prog.run_bind, Prog.events_bind, hrun] at h ⊢
    by_cases hbusy : values s.reads cmosStatRegA &&& 0x80 = 0
    · simp only [hbusy, bne_self_eq_false, Bool.false_eq_true, ↓reduceIte, Prog.run_pure,
        EStateM.Result.ok.injEq, Prog.events_pure, List.append_nil] at h ⊢
      refine ⟨s.reads, ⟨Nat.le_refl _, hbusy, by omega⟩, h.2.symm, ?_⟩
      intro rs
      rw [hreads]
      exact completePasses_skip (by decide) rs
    · have hne : (values s.reads cmosStatRegA &&& 0x80 != 0) = true := bne_iff_ne.2 hbusy
      simp only [hne, ↓reduceIte] at h ⊢
      obtain ⟨p, hp, ht, hpass⟩ := ih h
      refine ⟨p, hp.later hbusy, ht, ?_⟩
      intro rs
      rw [dataReads_append, hreads, List.append_assoc]
      exact (completePasses_skip (by decide) _).trans (hpass rs)

theorem cmosFillRtc_returns {fuel : Nat} {s t : CmosChip} {data : CmosRtc}
    (h : (cmosFillRtc fuel).run (cmosDevice values) s = .ok data t) :
    ∃ p, FirstClear values s.reads p ∧ t = { index := cmosRtcDateYear, reads := p + 7 } ∧
      data.century = 0 ∧
      ∀ rs, completePasses (dataReads ((cmosFillRtc fuel).events (cmosDevice values) s) ++ rs) =
        passAt values p :: completePasses rs := by
  simp only [cmosFillRtc, Prog.run_bind, Prog.events_bind] at h ⊢
  cases hpoll : (Prog.loopWhile cmosGetUpdate (fun b => b != 0) .outOfFuel fuel).run
      (cmosDevice values) s with
  | error e u => simp only [hpoll, reduceCtorEq] at h
  | ok b u =>
    obtain ⟨p, hp, rfl, hpass⟩ := cmosPoll_returns hpoll
    simp only [hpoll, cmosReadRaw_run, Prog.run_pure, EStateM.Result.ok.injEq] at h ⊢
    refine ⟨p, hp, h.2.symm, by rw [← h.1], ?_⟩
    intro rs
    simp only [dataReads_append, cmosReadRaw_dataReads, Prog.events_pure, List.append_assoc,
      hpass, List.cons_append, List.nil_append, completePasses_pass]
    simp [passAt, rtcRegs, List.mapIdx_cons, dataReads]

/-- The loop compares the century, which each pass sets to zero: it ends after one round. -/
theorem CmosRtc.differs_eq_false {last data : CmosRtc} (hl : last.century = 0)
    (hd : data.century = 0) : last.differs data = false := by
  simp [CmosRtc.differs, hl, hd]

theorem cmosSettle_returns {fuel n : Nat} {last data : CmosRtc} {s t : CmosChip}
    (hl : last.century = 0)
    (h : (cmosSettle fuel n last).run (cmosDevice values) s = .ok data t) :
    (cmosFillRtc fuel).run (cmosDevice values) s = .ok data t ∧
      (cmosSettle fuel n last).events (cmosDevice values) s =
        (cmosFillRtc fuel).events (cmosDevice values) s := by
  cases n with
  | zero => simp [cmosSettle] at h
  | succ n =>
    simp only [cmosSettle, Prog.run_bind, Prog.events_bind] at h ⊢
    cases hfill : (cmosFillRtc fuel).run (cmosDevice values) s with
    | error e u => simp [hfill] at h
    | ok d u =>
      obtain ⟨p, -, -, hd, -⟩ := cmosFillRtc_returns hfill
      simp only [hfill, CmosRtc.differs_eq_false hl hd, Bool.false_eq_true, ↓reduceIte,
        Prog.run_pure, EStateM.Result.ok.injEq, Prog.events_pure, List.append_nil,
        and_true] at h ⊢
      exact h

/-- A run that returns makes two passes, at the first free moment and at the next one. -/
theorem cmosRTC_passes {fuel : Nat} {s t : CmosChip} {data : CmosRtc}
    (h : (cmosRTC fuel).run (cmosDevice values) s = .ok data t) :
    ∃ p q, FirstClear values s.reads p ∧ FirstClear values (p + 7) q ∧
      completePasses (dataReads ((cmosRTC fuel).events (cmosDevice values) s)) =
        [passAt values p, passAt values q] := by
  simp only [cmosRTC, Prog.run_bind, Prog.events_bind] at h ⊢
  cases hfirst : (cmosFillRtc fuel).run (cmosDevice values) s with
  | error e u => simp [hfirst] at h
  | ok last u =>
    obtain ⟨p, hp, rfl, hl, hpass⟩ := cmosFillRtc_returns hfirst
    simp only [hfirst] at h ⊢
    cases hsettle : (cmosSettle fuel fuel last).run (cmosDevice values)
        { index := cmosRtcDateYear, reads := p + 7 } with
    | error e u => simp [hsettle] at h
    | ok d u =>
      obtain ⟨hfill, hevents⟩ := cmosSettle_returns hl hsettle
      obtain ⟨q, hq, rfl, -, hpass'⟩ := cmosFillRtc_returns hfill
      refine ⟨p, q, hp, hq, ?_⟩
      simp only [hevents, dataReads_append, hpass, hpass', cmosReadRaw_run,
        cmosReadRaw_dataReads, Prog.events_pure, List.append_nil]
      rw [completePasses_skip (by decide)]
      rfl

/-- The snapshot that `cmos_RTC` returns is consistent exactly on steady streams: its loop never
makes the third pass that a torn one needs. -/
theorem cmos_snapshot_consistent_iff (values : CmosStream) (index : BitVec 8) (fuel : Nat)
    (data : CmosRtc) (t : CmosChip)
    (h : (cmosRTC fuel).run (cmosDevice values) { index := index, reads := 0 } = .ok data t) :
    SnapshotConsistent
        ((cmosRTC fuel).events (cmosDevice values) { index := index, reads := 0 }) ↔
      SteadyStream values := by
  obtain ⟨p, q, hp, hq, hpasses⟩ := cmosRTC_passes h
  simp only [SnapshotConsistent, hpasses, List.reverse_cons, List.reverse_nil, List.nil_append,
    List.cons_append]
  constructor
  · intro heq
    exact ⟨p, q, hp, hq, heq⟩
  · rintro ⟨p', q', hp', hq', heq⟩
    obtain rfl := hp'.unique hp
    obtain rfl := hq'.unique hq
    exact heq

/-- The clock goes from 00:59:59 to 01:00:00 between the second and the minute of the second
pass. -/
def tornStream : CmosStream := fun n reg =>
  if reg = cmosRtcSec then (if n < 9 then 0x59 else 0x00)
  else if reg = cmosRtcMin then (if n < 9 then 0x59 else 0x00)
  else if reg = cmosRtcHour then (if n < 9 then 0x00 else 0x01)
  else if reg = cmosRtcDateDay ∨ reg = cmosRtcDateMonth then 0x01
  else if reg = cmosRtcDateYear then 0x17
  else if reg = cmosStatRegB then 0x02
  else 0x26

/-- `cmos_RTC` returns 01:00:59 from this clock, the values of a pass that disagrees with the pass
before it. -/
theorem cmos_snapshot_torn :
    (∃ t, (cmosRTC 1).run (cmosDevice tornStream) { index := 0, reads := 0 } =
      .ok { seconds := 59, minuts := 0, hour := 1, day := 1, month := 1, year := 2017,
            century := 0 } t) ∧
    ¬ SnapshotConsistent
      ((cmosRTC 1).events (cmosDevice tornStream) { index := 0, reads := 0 }) := by
  refine ⟨⟨{ index := cmosStatRegB, reads := 15 }, rfl⟩, ?_⟩
  have hpasses : completePasses (dataReads
      ((cmosRTC 1).events (cmosDevice tornStream) { index := 0, reads := 0 })) =
      [[0x59, 0x59, 0x00, 0x01, 0x01, 0x17], [0x59, 0x00, 0x01, 0x01, 0x01, 0x17]] := by
    decide
  rw [SnapshotConsistent, hpasses]
  simp

/-- The same clock, which updates its second during the first poll and ends its hour after the
second pass. -/
def steadyTicks : CmosStream := fun n reg =>
  if n = 0 ∧ reg = cmosStatRegA then 0xA6
  else if n = 0 ∧ reg = cmosRtcSec then 0x58
  else tornStream (n - 6) reg

theorem cmos_snapshot_between_ticks :
    (∃ t, (cmosRTC 2).run (cmosDevice steadyTicks) { index := 0, reads := 0 } =
      .ok { seconds := 59, minuts := 59, hour := 0, day := 1, month := 1, year := 2017,
            century := 0 } t) ∧
    SnapshotConsistent
      ((cmosRTC 2).events (cmosDevice steadyTicks) { index := 0, reads := 0 }) := by
  have hrun : (cmosRTC 2).run (cmosDevice steadyTicks) { index := 0, reads := 0 } =
      .ok { seconds := 59, minuts := 59, hour := 0, day := 1, month := 1, year := 2017,
            century := 0 } { index := cmosStatRegB, reads := 16 } := rfl
  refine ⟨⟨_, hrun⟩, (cmos_snapshot_consistent_iff steadyTicks 0 2 _ _ hrun).mpr ?_⟩
  have hfirst : FirstClear steadyTicks 0 1 := by
    refine ⟨by decide, by decide, ?_⟩
    intro m _ hm
    obtain rfl := Nat.lt_one_iff.mp hm
    decide
  have hnext : FirstClear steadyTicks (1 + 7) 8 :=
    ⟨by decide, by decide, fun m hm hm' => absurd hm' (Nat.not_lt.mpr hm)⟩
  exact ⟨1, 8, hfirst, hnext, by decide⟩

end BordOS
