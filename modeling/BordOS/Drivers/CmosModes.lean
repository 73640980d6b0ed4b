import BordOS.Drivers.CmosDecode

namespace BordOS
open Library
set_option autoImplicit true
set_option relaxedAutoImplicit false

/-- An hour as the chip counts it: 0 to 23, or 1 to 12 before and after noon. -/
inductive ChipHour where
  | of24 (hour : Fin 24)
  | of12 (hour : Nat) (pos : 1 ≤ hour) (le : hour ≤ 12) (pm : Bool)
deriving DecidableEq

def ChipHour.byte (registerB : BitVec 8) : ChipHour → BitVec 8
  | .of24 hour => rtcByte registerB hour
  | .of12 hour _ _ pm => rtcByte registerB hour ||| (if pm then 0x80 else 0)

structure ClockFields where
  seconds : Fin 60
  minuts : Fin 60
  hour : ChipHour
  day : Nat
  month : Nat
  year : Fin 100
  day_pos : 1 ≤ day
  day_le : day ≤ 31
  month_pos : 1 ≤ month
  month_le : month ≤ 12

/-- The registers hold these fields at every read, in the representation of register B. -/
structure ShowsFields (values : CmosStream) (registerB : BitVec 8) (fields : ClockFields) :
    Prop where
  mode : ∀ n, values n cmosStatRegB = registerB
  seconds : ∀ n, values n cmosRtcSec = rtcByte registerB fields.seconds
  minuts : ∀ n, values n cmosRtcMin = rtcByte registerB fields.minuts
  hour : ∀ n, values n cmosRtcHour = fields.hour.byte registerB
  day : ∀ n, values n cmosRtcDateDay = rtcByte registerB fields.day
  month : ∀ n, values n cmosRtcDateMonth = rtcByte registerB fields.month
  year : ∀ n, values n cmosRtcDateYear = rtcByte registerB fields.year

/-- The BCD conversion of an hour keeps its PM flag out of the digits. -/
theorem rtcDecodeHour_byte (registerB : BitVec 8) (hour : ChipHour) :
    rtcDecodeHour registerB (hour.byte registerB) =
      match hour with
      | .of24 hour => BitVec.ofNat 8 hour
      | .of12 hour _ _ pm => BitVec.ofNat 8 hour ||| (if pm then 0x80 else 0) := by
  cases hour with
  | of24 hour =>
    have hall : ∀ h : Fin 24, ((toBcd h &&& 0x0F) + ((toBcd h &&& 0x70) / 16) * 10) |||
        (toBcd h &&& 0x80) = BitVec.ofNat 8 h := by decide
    simp only [rtcDecodeHour, ChipHour.byte, rtcByte]
    split_ifs
    · exact hall hour
    · rfl
  | of12 hour pos le pm =>
    have hall : ∀ (h : Fin 13) (pm : Bool),
        (((toBcd h ||| (if pm then 0x80 else 0)) &&& 0x0F) +
          (((toBcd h ||| (if pm then 0x80 else 0)) &&& 0x70) / 16) * 10) |||
            ((toBcd h ||| (if pm then 0x80 else 0)) &&& 0x80) =
          BitVec.ofNat 8 h ||| (if pm then 0x80 else 0) := by decide
    simp only [rtcDecodeHour, ChipHour.byte, rtcByte]
    by_cases hbcd : registerB &&& 0x4 = 0
    · simp only [if_pos hbcd]
      exact hall ⟨hour, Nat.lt_succ_of_le le⟩ pm
    · simp only [if_neg hbcd]

theorem ShowsFields.rtcResult {values : CmosStream} {registerB : BitVec 8} {fields : ClockFields}
    (h : ShowsFields values registerB fields) (q : Nat) :
    rtcResult values q =
      { seconds := BitVec.ofNat 8 fields.seconds
        minuts := BitVec.ofNat 8 fields.minuts
        hour := rtcHour24 registerB (match fields.hour with
          | .of24 hour => BitVec.ofNat 8 hour
          | .of12 hour _ _ pm => BitVec.ofNat 8 hour ||| (if pm then 0x80 else 0))
        day := BitVec.ofNat 8 fields.day
        month := BitVec.ofNat 8 fields.month
        year := rtcFullYear (BitVec.ofNat 16 fields.year)
        century := 0 } := by
  have hday := fields.day_le
  have hmonth := fields.month_le
  rw [BordOS.rtcResult, CmosRtc.convert_eq _ rfl, h.mode]
  simp only [rtcAt, h.seconds, h.minuts, h.hour, h.day, h.month, h.year, rtcDecodeHour_byte]
  rw [rtcDecode_rtcByte _ (by omega), rtcDecode_rtcByte _ (by omega),
    rtcDecode_rtcByte _ (by omega), rtcDecode_rtcByte _ (by omega),
    rtcDecode_rtcByte_wide _ fields.year.isLt]

theorem rtcHour24_congr {registerB registerB' : BitVec 8}
    (h : registerB &&& 0x02 = registerB' &&& 0x02) (hour : BitVec 8) :
    rtcHour24 registerB hour = rtcHour24 registerB' hour := by
  rw [rtcHour24, rtcHour24, h]

/-- Two clocks in the same hour mode that show the same fields give the same result, also if one
keeps them in BCD and the other one in binary. -/
theorem cmos_representations_agree (values values' : CmosStream)
    (registerB registerB' index index' : BitVec 8) (fields : ClockFields)
    (hmode : registerB &&& 0x02 = registerB' &&& 0x02)
    (hclock : ShowsFields values registerB fields) (hclock' : ShowsFields values' registerB' fields)
    (hpolls : FinitePolls values) (hpolls' : FinitePolls values') :
    ∃ data t t',
      Prog.Converges (cmosDevice values) cmosRTC { index := index, reads := 0 } data t ∧
      Prog.Converges (cmosDevice values') cmosRTC { index := index', reads := 0 } data t' := by
  obtain ⟨p, q, hp, hq⟩ := hpolls
  obtain ⟨p', q', hp', hq'⟩ := hpolls'
  obtain ⟨t, hrun, -⟩ := (cmosDevice_reads values).rtc_converges (s := ⟨index, 0⟩) rfl hp hq
  obtain ⟨t', hrun', -⟩ := (cmosDevice_reads values').rtc_converges (s := ⟨index', 0⟩) rfl hp' hq'
  rw [hclock.rtcResult, rtcHour24_congr hmode] at hrun
  rw [hclock'.rtcResult] at hrun'
  exact ⟨_, t, t', hrun, hrun'⟩

def fieldRegs (registerB : BitVec 8) (fields : ClockFields) (reg : BitVec 8) : BitVec 8 :=
  if reg = cmosStatRegB then registerB
  else if reg = cmosRtcSec then rtcByte registerB fields.seconds
  else if reg = cmosRtcMin then rtcByte registerB fields.minuts
  else if reg = cmosRtcHour then fields.hour.byte registerB
  else if reg = cmosRtcDateDay then rtcByte registerB fields.day
  else if reg = cmosRtcDateMonth then rtcByte registerB fields.month
  else rtcByte registerB fields.year

def lateEvening : ClockFields where
  seconds := ⟨58, by decide⟩
  minuts := ⟨59, by decide⟩
  hour := .of12 11 (by decide) (by decide) true
  day := 30
  month := 11
  year := ⟨17, by decide⟩
  day_pos := by decide
  day_le := by decide
  month_pos := by decide
  month_le := by decide

theorem cmos_representations_evening :
    ∃ data t t',
      Prog.Converges (cmosDevice (stoppedClock (fieldRegs 0x00 lateEvening))) cmosRTC
        { index := 0, reads := 0 } data t ∧
      Prog.Converges (cmosDevice (stoppedClock (fieldRegs 0x04 lateEvening))) cmosRTC
        { index := 0, reads := 0 } data t' :=
  cmos_representations_agree _ _ 0x00 0x04 0 0 lateEvening (by decide)
    ⟨fun _ => rfl, fun _ => rfl, fun _ => rfl, fun _ => rfl, fun _ => rfl, fun _ => rfl,
      fun _ => rfl⟩
    ⟨fun _ => rfl, fun _ => rfl, fun _ => rfl, fun _ => rfl, fun _ => rfl, fun _ => rfl,
      fun _ => rfl⟩ (stoppedClock_polls _) (stoppedClock_polls _)

end BordOS
