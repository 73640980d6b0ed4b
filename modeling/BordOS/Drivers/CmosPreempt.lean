import Mathlib.Logic.Function.Iterate
import BordOS.Drivers.CmosDecode

namespace BordOS
open Library
set_option autoImplicit true
set_option relaxedAutoImplicit false

/-- A handler that calls `cmos_RTC` runs to its end on a chip whose registers keep their contents. -/
def handlerRun (regs : BitVec 8 → BitVec 8) (s : CmosChip) : CmosChip :=
  match (cmosRTC 1).run (cmosDevice fun _ => regs) s with
  | .ok _ t => t
  | .error _ t => t

structure PreemptedChip where
  chip : CmosChip
  ops : Nat
  interruptFlag : Bool

def PreemptedChip.start (index : BitVec 8) : PreemptedChip where
  chip := { index := index, reads := 0 }
  ops := 0
  interruptFlag := true

/-- Operation number `k` comes after `handlers k` handler runs, if interrupts are enabled then. -/
def preemptedDevice (regs : BitVec 8 → BitVec 8) (handlers : Nat → Nat) :
    PortDevice PreemptedChip := fun op s =>
  let chip := if s.interruptFlag then (handlerRun regs)^[handlers s.ops] s.chip else s.chip
  let r := cmosDevice (fun _ => regs) op chip
  (r.1,
    { chip := r.2
      ops := s.ops + 1
      interruptFlag := if op = .cli then false else if op = .sti then true else s.interruptFlag })

/-- The two operations of data read number `n` are number `2 * n` and number `2 * n + 1`. A handler
that runs between them leaves status register B selected. -/
def preemptedStream (regs : BitVec 8 → BitVec 8) (handlers : Nat → Nat) : CmosStream := fun n reg =>
  if 0 < handlers (2 * n + 1) then regs cmosStatRegB else regs reg

def rtcStored (registerB reg val : BitVec 8) : BitVec 16 :=
  if reg = cmosRtcHour then (rtcHour24 registerB (rtcDecodeHour registerB val)).setWidth 16
  else if reg = cmosRtcDateYear then rtcFullYear (rtcDecode registerB (val.setWidth 16))
  else (rtcDecode registerB val).setWidth 16

/-- Each register of the pass after data read number `q` that a handler gets in the way of is
stored as status register B would be. -/
def Undisturbed (regs : BitVec 8 → BitVec 8) (handlers : Nat → Nat) (q : Nat) : Prop :=
  ∀ k reg, rtcRegs[k]? = some reg → 0 < handlers (2 * (q + 1 + k) + 1) →
    rtcStored (regs cmosStatRegB) reg (regs cmosStatRegB) =
      rtcStored (regs cmosStatRegB) reg (regs reg)

variable {regs : BitVec 8 → BitVec 8} {handlers : Nat → Nat}

theorem constant_clear (hclear : regs cmosStatRegA &&& 0x80 = 0) (n : Nat) :
    FirstClear (fun _ => regs) n n :=
  ⟨Nat.le_refl n, hclear, by omega⟩

theorem handlerRun_index (hclear : regs cmosStatRegA &&& 0x80 = 0) (s : CmosChip) :
    (handlerRun regs s).index = cmosStatRegB := by
  have hget (s : CmosChip) : cmosGetUpdate.run (cmosDevice fun _ => regs) s =
      .ok 0 { index := cmosStatRegA, reads := s.reads + 1 } := by
    simp only [cmosGetUpdate, Prog.run_bind, cmosReadRaw_run, Prog.run_pure, hclear]
  simp only [handlerRun, cmosRTC, cmosFillRtc, cmosSettle, Prog.loopWhile, Prog.run_bind, hget,
    cmosReadRaw_run, Prog.run_pure, bne_self_eq_false, Bool.false_eq_true, ↓reduceIte,
    CmosRtc.differs, Bool.and_false]

theorem handlerRuns_index (hclear : regs cmosStatRegA &&& 0x80 = 0) {n : Nat} (hn : 0 < n)
    (s : CmosChip) : ((handlerRun regs)^[n] s).index = cmosStatRegB := by
  obtain ⟨m, rfl⟩ := Nat.exists_eq_add_of_le' hn
  rw [Function.iterate_succ_apply']
  exact handlerRun_index hclear _

theorem preemptedDevice_reads (hclear : regs cmosStatRegA &&& 0x80 = 0) :
    CmosReads (preemptedDevice regs handlers)
      (fun n s => s.ops = 2 * n ∧ s.interruptFlag = true) (preemptedStream regs handlers) where
  read {n s} reg h := by
    obtain ⟨hops, hif⟩ := h
    obtain ⟨c, hrun⟩ : ∃ c, (cmosReadRaw reg).run (preemptedDevice regs handlers) s =
        .ok (preemptedStream regs handlers n reg)
          { chip := c, ops := 2 * (n + 1), interruptFlag := true } := by
      simp only [cmosReadRaw, outb, inb, Prog.run_bind, Prog.run_perform, preemptedDevice, hif,
        hops, cmosDevice, preemptedStream, ↓reduceIte, reduceCtorEq]
      by_cases hhit : 0 < handlers (2 * n + 1)
      · rw [if_pos hhit, handlerRuns_index hclear hhit]
        exact ⟨_, rfl⟩
      · rw [if_neg hhit, Nat.eq_zero_of_not_pos hhit]
        exact ⟨_, rfl⟩
    exact ⟨_, hrun, rfl, rfl⟩

theorem setWidth_8_16_inj {a b : BitVec 8} : a.setWidth 16 = b.setWidth 16 ↔ a = b := by
  constructor
  · intro h
    bv_omega
  · exact congrArg _

theorem forall_rtcRegs {P : Nat → BitVec 8 → Prop} :
    (∀ k reg, rtcRegs[k]? = some reg → P k reg) ↔
      P 0 cmosRtcSec ∧ P 1 cmosRtcMin ∧ P 2 cmosRtcHour ∧ P 3 cmosRtcDateDay ∧
        P 4 cmosRtcDateMonth ∧ P 5 cmosRtcDateYear := by
  constructor
  · intro h
    exact ⟨h 0 _ rfl, h 1 _ rfl, h 2 _ rfl, h 3 _ rfl, h 4 _ rfl, h 5 _ rfl⟩
  · rintro ⟨h0, h1, h2, h3, h4, h5⟩ k reg hk
    match k, hk with
    | 0, rfl => exact h0
    | 1, rfl => exact h1
    | 2, rfl => exact h2
    | 3, rfl => exact h3
    | 4, rfl => exact h4
    | 5, rfl => exact h5

/-- The stored result is that of an undisturbed pass exactly when each field is. -/
theorem rtcResult_preempted (q : Nat) :
    rtcResult (preemptedStream regs handlers) q = rtcResult (fun _ => regs) 0 ↔
      Undisturbed regs handlers q := by
  have hb (n : Nat) : preemptedStream regs handlers n cmosStatRegB = regs cmosStatRegB :=
    ite_self _
  have hfield (k : Nat) (reg : BitVec 8) :
      (0 < handlers (2 * (q + 1 + k) + 1) → rtcStored (regs cmosStatRegB) reg (regs cmosStatRegB) =
        rtcStored (regs cmosStatRegB) reg (regs reg)) ↔
      rtcStored (regs cmosStatRegB) reg (preemptedStream regs handlers (q + 1 + k) reg) =
        rtcStored (regs cmosStatRegB) reg (regs reg) := by
    by_cases hhit : 0 < handlers (2 * (q + 1 + k) + 1)
    · simp only [preemptedStream, hhit, ↓reduceIte, forall_const]
    · simp only [preemptedStream, hhit, ↓reduceIte, false_implies]
  have hregs : Undisturbed regs handlers q ↔ ∀ k reg, rtcRegs[k]? = some reg →
      rtcStored (regs cmosStatRegB) reg (preemptedStream regs handlers (q + 1 + k) reg) =
        rtcStored (regs cmosStatRegB) reg (regs reg) :=
    forall_congr' fun k => forall_congr' fun reg => imp_congr_right fun _ => hfield k reg
  rw [hregs, forall_rtcRegs, rtcResult, rtcResult, CmosRtc.convert_eq _ rfl,
    CmosRtc.convert_eq _ rfl, hb, CmosRtc.mk.injEq]
  simp only [rtcAt, rtcStored, cmosRtcSec, cmosRtcMin, cmosRtcHour, cmosRtcDateDay,
    cmosRtcDateMonth, cmosRtcDateYear, BitVec.reduceEq, ↓reduceIte, setWidth_8_16_inj, and_true,
    Nat.add_zero]

/-- `cmos_RTC` stores the same with and without interrupts exactly when it returns and no handler
lands between the two operations of a read of its second pass, except where the register is
stored as status register B would be. -/
theorem cmos_preempted_iff (regs : BitVec 8 → BitVec 8) (handlers : Nat → Nat) (index : BitVec 8)
    (hclear : regs cmosStatRegA &&& 0x80 = 0) :
    (∃ data t u,
        Prog.Converges (preemptedDevice regs handlers) cmosRTC (.start index) data t ∧
        Prog.Converges (cmosDevice fun _ => regs) cmosRTC { index := index, reads := 0 } data u) ↔
      ∃ p q, FirstClear (preemptedStream regs handlers) 0 p ∧
        FirstClear (preemptedStream regs handlers) (p + 7) q ∧ Undisturbed regs handlers q := by
  have hd : CmosReads (preemptedDevice regs handlers)
      (fun n s => s.ops = 2 * n ∧ s.interruptFlag = true) (preemptedStream regs handlers) :=
    preemptedDevice_reads hclear
  obtain ⟨u, hplain, -⟩ := (cmosDevice_reads fun _ => regs).rtc_converges
    (s := { index := index, reads := 0 }) rfl (constant_clear hclear 0) (constant_clear hclear 7)
  constructor
  · rintro ⟨data, t, u', ⟨N, hN⟩, hdata⟩
    obtain ⟨p, q, hp, hq, rfl, -⟩ := hd.rtc_returns (n := 0) ⟨rfl, rfl⟩ (hN N (Nat.le_refl N))
    refine ⟨p, q, hp, hq, (rtcResult_preempted q).1 ?_⟩
    exact hdata.unique hplain
  · rintro ⟨p, q, hp, hq, hclean⟩
    obtain ⟨t, hrun, -⟩ := hd.rtc_converges (n := 0) (s := .start index) ⟨rfl, rfl⟩ hp hq
    rw [(rtcResult_preempted q).2 hclean] at hrun
    exact ⟨_, t, u, hrun, hplain⟩

def eveningRegs : BitVec 8 → BitVec 8 := stoppedClock (timeRegs 0x02 ⟨23, 59, 58⟩) 0

/-- Handlers that run at every point of the first pass change nothing. -/
theorem cmos_preempted_first_pass :
    (∃ data t u,
        Prog.Converges (preemptedDevice eveningRegs fun k => if k < 14 then 1 else 0) cmosRTC
          (.start 0) data t ∧
        Prog.Converges (cmosDevice fun _ => eveningRegs) cmosRTC { index := 0, reads := 0 }
          data u) ↔
      ∃ p q, FirstClear (preemptedStream eveningRegs fun k => if k < 14 then 1 else 0) 0 p ∧
        FirstClear (preemptedStream eveningRegs fun k => if k < 14 then 1 else 0) (p + 7) q ∧
        Undisturbed eveningRegs (fun k => if k < 14 then 1 else 0) q :=
  cmos_preempted_iff eveningRegs (fun k => if k < 14 then 1 else 0) 0 (by decide)

/-- One handler run between the select and the read of the seconds in the second pass: `cmos_RTC`
stores the content of status register B. -/
theorem cmos_preempted_seconds :
    (∃ t, (cmosRTC 1).run (preemptedDevice eveningRegs fun k => if k = 17 then 1 else 0)
        (.start 0) =
      .ok { seconds := 2, minuts := 59, hour := 23, day := 1, month := 1, year := 2001,
            century := 0 } t) ∧
    ∃ t, (cmosRTC 1).run (cmosDevice fun _ => eveningRegs) { index := 0, reads := 0 } =
      .ok { seconds := 58, minuts := 59, hour := 23, day := 1, month := 1, year := 2001,
            century := 0 } t := by
  exact ⟨⟨_, rfl⟩, ⟨_, rfl⟩⟩

end BordOS
