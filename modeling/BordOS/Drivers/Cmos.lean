import BordOS.Arch.Ports

namespace BordOS
open Library
set_option autoImplicit true
set_option relaxedAutoImplicit false

def cmosReg : BitVec 16 := 0x70
def cmosData : BitVec 16 := 0x71
def currentYear : BitVec 16 := 2017

def cmosRtcSec : BitVec 8 := 0x00
def cmosRtcMin : BitVec 8 := 0x02
def cmosRtcHour : BitVec 8 := 0x04
def cmosRtcDateDay : BitVec 8 := 0x07
def cmosRtcDateMonth : BitVec 8 := 0x08
def cmosRtcDateYear : BitVec 8 := 0x09
def cmosStatRegA : BitVec 8 := 0x0A
def cmosStatRegB : BitVec 8 := 0x0B

/-- `cmos_rtc_t`, with the source's spelling of its fields. -/
structure CmosRtc where
  seconds : BitVec 8
  minuts : BitVec 8
  hour : BitVec 8
  day : BitVec 8
  month : BitVec 8
  year : BitVec 16
  century : BitVec 8
deriving DecidableEq, Repr

def cmosReadRaw (reg : BitVec 8) : PortM (BitVec 8) := do
  outb cmosReg reg
  inb cmosData

/-- `cmos_read`: the bytes that it stores in its array. -/
def cmosRead : PortM (List (BitVec 8)) :=
  (List.range 128).mapM fun i => do
    .perform PortOp.cli
    let val ← cmosReadRaw (BitVec.ofNat 8 i)
    .perform PortOp.sti
    return val

def cmosWriteRaw (reg val : BitVec 8) : PortM Unit := do
  outb cmosReg reg
  outb cmosData val

/-- `for (uint8_t i = 0; i < 128; ++i)` from `i` on, with the result of each round. -/
def cmosFor (body : BitVec 8 → PortM α) : Nat → BitVec 8 → PortM (List α)
  | 0, _ => .fail .outOfFuel
  | fuel + 1, i =>
    if i < 128 then do
      let a ← body i
      let rest ← cmosFor body fuel (i + 1)
      return a :: rest
    else pure []

def cmosWriteCell (arr : Nat → BitVec 8) (i : BitVec 8) : PortM Unit := do
  .perform PortOp.cli
  cmosWriteRaw i (arr i.toNat)
  .perform PortOp.sti

def cmosWrite (fuel : Nat) (arr : Nat → BitVec 8) : PortM Unit := do
  let _ ← cmosFor (cmosWriteCell arr) fuel 0

def cmosGetUpdate : PortM (BitVec 8) := do
  let a ← cmosReadRaw cmosStatRegA
  return a &&& 0x80

/-- `__cmos_fill_rtc`, with fuel for its polling loop. It assigns every field. -/
def cmosFillRtc (fuel : Nat) : PortM CmosRtc := do
  let _ ← Prog.loopWhile cmosGetUpdate (fun b => b != 0) .outOfFuel fuel
  let seconds ← cmosReadRaw cmosRtcSec
  let minuts ← cmosReadRaw cmosRtcMin
  let hour ← cmosReadRaw cmosRtcHour
  let day ← cmosReadRaw cmosRtcDateDay
  let month ← cmosReadRaw cmosRtcDateMonth
  let year ← cmosReadRaw cmosRtcDateYear
  return { seconds, minuts, hour, day, month, year := year.setWidth 16, century := 0 }

/-- The condition of the `do .. while` in `cmos_RTC`. -/
def CmosRtc.differs (last data : CmosRtc) : Bool :=
  last.seconds != data.seconds && last.minuts != data.minuts &&
    last.hour != data.hour && last.day != data.day &&
    last.month != data.month && last.year != data.year &&
    last.century != data.century

/-- The `do .. while` of `cmos_RTC`, entered with the pass before it. -/
def cmosSettle (fuel : Nat) : Nat → CmosRtc → PortM CmosRtc
  | 0, _ => .fail .outOfFuel
  | n + 1, last => do
    let data ← cmosFillRtc fuel
    if last.differs data then cmosSettle fuel n data else pure data

/-- `BCD2BIN` at the width of its field: the arithmetic is on `int` and the assignment truncates. -/
def bcd2bin (val : BitVec w) : BitVec w := (val &&& 0x0F) + (val / 16) * 10

def CmosRtc.ofBcd (data : CmosRtc) : CmosRtc where
  seconds := bcd2bin data.seconds
  minuts := bcd2bin data.minuts
  hour := ((data.hour &&& 0x0F) + ((data.hour &&& 0x70) / 16) * 10) ||| (data.hour &&& 0x80)
  day := bcd2bin data.day
  month := bcd2bin data.month
  year := bcd2bin data.year
  century := bcd2bin data.century

def CmosRtc.convert (registerB : BitVec 8) (data : CmosRtc) : CmosRtc :=
  let data := if registerB &&& 0x4 = 0 then data.ofBcd else data
  let data :=
    if registerB &&& 0x02 = 0 ∧ data.hour &&& 0x80 ≠ 0 then
      { data with hour := ((data.hour &&& 0x7F) + 12) % 24 }
    else data
  if data.century = 0 then
    let year := data.year + (currentYear / 100) * 100
    { data with year := if year > currentYear then year + 100 else year }
  else data

/-- `cmos_RTC`. `fuel` bounds the rounds of each of its loops. -/
def cmosRTC (fuel : Nat) : PortM CmosRtc := do
  let first ← cmosFillRtc fuel
  let data ← cmosSettle fuel fuel first
  let registerB ← cmosReadRaw cmosStatRegB
  return data.convert registerB

theorem cmosReadRaw_uses (reg : BitVec 8) : (cmosReadRaw reg).Uses PortOp.IsByte := by
  have hselect : (outb cmosReg reg).Uses PortOp.IsByte := .perform (.inr ⟨cmosReg, reg, rfl⟩)
  exact hselect.bind fun _ => .perform (.inl ⟨cmosData, rfl⟩)

section Reads

variable {ok : PortOp → Prop} (h : ∀ reg, (cmosReadRaw reg).Uses ok)
include h

theorem cmosFillRtc_uses (fuel : Nat) : (cmosFillRtc fuel).Uses ok := by
  have hpoll : cmosGetUpdate.Uses ok := (h cmosStatRegA).bind fun _ => .pure _
  apply (hpoll.loopWhile fuel).bind
  intro _
  exact (h _).bind fun _ => (h _).bind fun _ => (h _).bind fun _ => (h _).bind fun _ =>
    (h _).bind fun _ => (h _).bind fun _ => .pure _

theorem cmosSettle_uses (fuel n : Nat) (last : CmosRtc) : (cmosSettle fuel n last).Uses ok := by
  induction n generalizing last with
  | zero => exact .fail _
  | succ n ih =>
    apply (cmosFillRtc_uses h fuel).bind
    intro data
    split_ifs
    · exact ih data
    · exact .pure data

theorem cmosRTC_usesReads (fuel : Nat) : (cmosRTC fuel).Uses ok :=
  (cmosFillRtc_uses h fuel).bind fun first => (cmosSettle_uses h fuel fuel first).bind fun _ =>
    (h _).bind fun _ => .pure _

end Reads

theorem cmosRTC_uses (fuel : Nat) : (cmosRTC fuel).Uses PortOp.IsByte :=
  cmosRTC_usesReads cmosReadRaw_uses fuel

end BordOS
