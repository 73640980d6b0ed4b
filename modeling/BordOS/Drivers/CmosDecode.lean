import BordOS.Drivers.CmosReads

namespace BordOS
open Library
set_option autoImplicit true
set_option relaxedAutoImplicit false

def rtcDecode (registerB : BitVec 8) (val : BitVec w) : BitVec w :=
  if registerB &&& 0x4 = 0 then bcd2bin val else val

/-- The hour in its binary form. The flag in bit 7 is carried over. -/
def rtcDecodeHour (registerB hour : BitVec 8) : BitVec 8 :=
  if registerB &&& 0x4 = 0 then
    ((hour &&& 0x0F) + ((hour &&& 0x70) / 16) * 10) ||| (hour &&& 0x80)
  else hour

def rtcHour24 (registerB hour : BitVec 8) : BitVec 8 :=
  if registerB &&& 0x02 = 0 ∧ hour &&& 0x80 ≠ 0 then ((hour &&& 0x7F) + 12) % 24 else hour

def rtcFullYear (year : BitVec 16) : BitVec 16 :=
  if year + 2000 > currentYear then year + 2000 + 100 else year + 2000

theorem CmosRtc.convert_eq (registerB : BitVec 8) {data : CmosRtc} (h : data.century = 0) :
    data.convert registerB =
      { seconds := rtcDecode registerB data.seconds
        minuts := rtcDecode registerB data.minuts
        hour := rtcHour24 registerB (rtcDecodeHour registerB data.hour)
        day := rtcDecode registerB data.day
        month := rtcDecode registerB data.month
        year := rtcFullYear (rtcDecode registerB data.year)
        century := 0 } := by
  have hbcd : bcd2bin (0 : BitVec 8) = 0 := by decide
  have hbase : currentYear / 100 * 100 = 2000 := by decide
  by_cases hmode : registerB &&& 0x4 = 0
  · simp only [convert, rtcDecode, rtcDecodeHour, hmode, ↓reduceIte, ofBcd, h, hbcd, hbase]
    split <;> simp_all [rtcHour24, rtcFullYear]
  · simp only [convert, rtcDecode, rtcDecodeHour, hmode, ↓reduceIte, hbase]
    split <;> simp_all [rtcHour24, rtcFullYear]

def toBcd (n : Nat) : BitVec 8 := BitVec.ofNat 8 (n / 10 * 16 + n % 10)

/-- How the clock keeps a number: register B has bit 2 set in binary mode. -/
def rtcByte (registerB : BitVec 8) (n : Nat) : BitVec 8 :=
  if registerB &&& 0x4 = 0 then toBcd n else BitVec.ofNat 8 n

/-- How the clock keeps an hour: register B has bit 1 set in 24-hour mode. The other mode counts
1 to 12 twice, with bit 7 set in the afternoon. -/
def rtcHourByte (registerB : BitVec 8) (hour : Nat) : BitVec 8 :=
  if registerB &&& 0x02 = 0 then
    rtcByte registerB (if hour % 12 = 0 then 12 else hour % 12) |||
      (if 12 ≤ hour then 0x80 else 0)
  else rtcByte registerB hour

structure TimeOfDay where
  hour : Fin 24
  minute : Fin 60
  second : Fin 60
deriving DecidableEq

/-- A date in the hundred years from the current year of the source on. -/
structure CivilDate where
  year : Nat
  month : Nat
  day : Nat
  year_from : currentYear.toNat ≤ year
  year_before : year < currentYear.toNat + 100
  month_pos : 1 ≤ month
  month_le : month ≤ 12
  day_pos : 1 ≤ day
  day_le : day ≤ if month = 2 then (if year % 4 = 0 ∧ (year % 100 ≠ 0 ∨ year % 400 = 0) then 29
    else 28) else if month = 4 ∨ month = 6 ∨ month = 9 ∨ month = 11 then 30 else 31

structure ShowsTime (values : CmosStream) (registerB : BitVec 8) (time : TimeOfDay) : Prop where
  mode : ∀ n, values n cmosStatRegB = registerB
  seconds : ∀ n, values n cmosRtcSec = rtcByte registerB time.second
  minuts : ∀ n, values n cmosRtcMin = rtcByte registerB time.minute
  hour : ∀ n, values n cmosRtcHour = rtcHourByte registerB time.hour

structure ShowsDate (values : CmosStream) (registerB : BitVec 8) (date : CivilDate) : Prop where
  mode : ∀ n, values n cmosStatRegB = registerB
  day : ∀ n, values n cmosRtcDateDay = rtcByte registerB date.day
  month : ∀ n, values n cmosRtcDateMonth = rtcByte registerB date.month
  year : ∀ n, values n cmosRtcDateYear = rtcByte registerB (date.year % 100)

def FinitePolls (values : CmosStream) : Prop :=
  ∃ p q, FirstClear values 0 p ∧ FirstClear values (p + 7) q

theorem CivilDate.day_lt (date : CivilDate) : date.day < 100 := by
  have hday := date.day_le
  split_ifs at hday <;> omega

theorem bcd2bin_toBcd {n : Nat} (h : n < 100) : bcd2bin (toBcd n) = BitVec.ofNat 8 n := by
  have hall : ∀ n : Fin 100, bcd2bin (toBcd n) = BitVec.ofNat 8 n := by decide
  exact hall ⟨n, h⟩

theorem bcd2bin_toBcd_wide {n : Nat} (h : n < 100) :
    bcd2bin ((toBcd n).setWidth 16) = BitVec.ofNat 16 n := by
  have hall : ∀ n : Fin 100, bcd2bin ((toBcd n).setWidth 16) = BitVec.ofNat 16 n := by decide
  exact hall ⟨n, h⟩

theorem rtcDecode_rtcByte (registerB : BitVec 8) {n : Nat} (h : n < 100) :
    rtcDecode registerB (rtcByte registerB n) = BitVec.ofNat 8 n := by
  by_cases hmode : registerB &&& 0x4 = 0
  · rw [rtcDecode, if_pos hmode, rtcByte, if_pos hmode, bcd2bin_toBcd h]
  · rw [rtcDecode, if_neg hmode, rtcByte, if_neg hmode]

theorem rtcDecode_rtcByte_wide (registerB : BitVec 8) {n : Nat} (h : n < 100) :
    rtcDecode registerB ((rtcByte registerB n).setWidth 16) = BitVec.ofNat 16 n := by
  by_cases hmode : registerB &&& 0x4 = 0
  · rw [rtcDecode, if_pos hmode, rtcByte, if_pos hmode, bcd2bin_toBcd_wide h]
  · rw [rtcDecode, if_neg hmode, rtcByte, if_neg hmode]
    exact BitVec.setWidth_ofNat_of_le_of_lt (by decide) (by omega)

/-- The two hours that a 12-hour clock calls twelve come out as each other. All others come out
right. -/
theorem rtcHour24_rtcHourByte (registerB : BitVec 8) (hour : Fin 24) :
    rtcHour24 registerB (rtcDecodeHour registerB (rtcHourByte registerB hour)) =
        BitVec.ofNat 8 hour ↔
      registerB &&& 0x02 ≠ 0 ∨ (hour : Nat) % 12 ≠ 0 := by
  by_cases h12 : registerB &&& 0x02 = 0
  · simp only [rtcHour24, rtcHourByte, h12, ↓reduceIte, true_and, ne_eq, not_true_eq_false,
      false_or]
    by_cases hbcd : registerB &&& 0x4 = 0
    · simp only [rtcDecodeHour, rtcByte, hbcd, ↓reduceIte]
      clear h12 hbcd
      revert hour
      decide
    · simp only [rtcDecodeHour, rtcByte, hbcd, ↓reduceIte]
      clear h12 hbcd
      revert hour
      decide
  · simp only [rtcHour24, rtcHourByte, h12, ↓reduceIte, false_and, ne_eq, not_false_eq_true,
      true_or, iff_true]
    by_cases hbcd : registerB &&& 0x4 = 0
    · simp only [rtcDecodeHour, rtcByte, hbcd, ↓reduceIte]
      clear h12 hbcd
      revert hour
      decide
    · simp only [rtcDecodeHour, rtcByte, hbcd, ↓reduceIte]

/-- Two digits of a year after the current one get the extra hundred years, the earlier ones,
which would need it, do not. -/
theorem rtcFullYear_mod (date : CivilDate) :
    rtcFullYear (BitVec.ofNat 16 (date.year % 100)) = BitVec.ofNat 16 date.year ↔
      date.year = currentYear.toNat := by
  have hfrom := date.year_from
  have hbefore := date.year_before
  have hcur : currentYear.toNat = 2017 := rfl
  have hcur' : currentYear = 2017 := rfl
  rw [hcur] at hfrom hbefore ⊢
  rw [rtcFullYear, hcur']
  split
  · bv_omega
  · bv_omega

variable {values : CmosStream} {registerB : BitVec 8}

/-- `cmos_RTC` gives the time back exactly when the clock is in 24-hour mode or the hour is neither
midnight's nor noon's. -/
theorem cmos_time_of_day_iff (values : CmosStream) (registerB index : BitVec 8) (time : TimeOfDay)
    (hclock : ShowsTime values registerB time) (hpolls : FinitePolls values) :
    ∃ data t, Prog.Converges (cmosDevice values) cmosRTC { index := index, reads := 0 } data t ∧
      ((data.hour = BitVec.ofNat 8 time.hour ∧ data.minuts = BitVec.ofNat 8 time.minute ∧
          data.seconds = BitVec.ofNat 8 time.second) ↔
        registerB &&& 0x02 ≠ 0 ∨ (time.hour : Nat) % 12 ≠ 0) := by
  obtain ⟨p, q, hp, hq⟩ := hpolls
  obtain ⟨t, hrun, -⟩ := (cmosDevice_reads values).rtc_converges (s := ⟨index, 0⟩) rfl hp hq
  refine ⟨_, t, hrun, ?_⟩
  have hminute := time.minute.isLt
  have hsecond := time.second.isLt
  rw [rtcResult, CmosRtc.convert_eq _ rfl, hclock.mode]
  simp only [rtcAt, hclock.hour, hclock.minuts, hclock.seconds]
  rw [rtcHour24_rtcHourByte, rtcDecode_rtcByte _ (by omega), rtcDecode_rtcByte _ (by omega)]
  simp only [and_true]

def stoppedClock (regs : BitVec 8 → BitVec 8) : CmosStream := fun _ reg =>
  if reg = cmosStatRegA then 0x26 else regs reg

theorem stoppedClock_clear (regs : BitVec 8 → BitVec 8) (n : Nat) :
    FirstClear (stoppedClock regs) n n := by
  refine ⟨Nat.le_refl n, ?_, by omega⟩
  rw [stoppedClock, if_pos rfl]
  decide

theorem stoppedClock_polls (regs : BitVec 8 → BitVec 8) : FinitePolls (stoppedClock regs) :=
  ⟨0, 7, stoppedClock_clear regs 0, stoppedClock_clear regs 7⟩

def timeRegs (registerB : BitVec 8) (time : TimeOfDay) (reg : BitVec 8) : BitVec 8 :=
  if reg = cmosStatRegB then registerB
  else if reg = cmosRtcSec then rtcByte registerB time.second
  else if reg = cmosRtcMin then rtcByte registerB time.minute
  else if reg = cmosRtcHour then rtcHourByte registerB time.hour
  else 0x01

theorem cmos_time_of_day_evening :
    ∃ data t, Prog.Converges
        (cmosDevice (stoppedClock (timeRegs 0x00 { hour := 23, minute := 59, second := 58 })))
        cmosRTC { index := 0, reads := 0 } data t ∧
      ((data.hour = 23 ∧ data.minuts = 59 ∧ data.seconds = 58) ↔
        (0x00 : BitVec 8) &&& 0x02 ≠ 0 ∨ 23 % 12 ≠ 0) :=
  cmos_time_of_day_iff _ 0x00 0 { hour := 23, minute := 59, second := 58 }
    ⟨fun _ => rfl, fun _ => rfl, fun _ => rfl, fun _ => rfl⟩ (stoppedClock_polls _)

/-- Midnight on a 12-hour clock in BCD mode: `cmos_RTC` stores the hour 12. -/
theorem cmos_time_of_day_midnight :
    ShowsTime (stoppedClock (timeRegs 0x00 ⟨0, 0, 0⟩)) 0x00 ⟨0, 0, 0⟩ ∧
      FinitePolls (stoppedClock (timeRegs 0x00 ⟨0, 0, 0⟩)) ∧
      ∃ t, (cmosRTC 1).run (cmosDevice (stoppedClock (timeRegs 0x00 ⟨0, 0, 0⟩)))
          { index := 0, reads := 0 } =
        .ok { seconds := 0, minuts := 0, hour := 12, day := 1, month := 1, year := 2001,
              century := 0 } t :=
  ⟨⟨fun _ => rfl, fun _ => rfl, fun _ => rfl, fun _ => rfl⟩, stoppedClock_polls _,
    { index := cmosStatRegB, reads := 15 }, rfl⟩

/-- `cmos_RTC` gives the date back exactly when its year is the current year of the source. -/
theorem cmos_date_iff (values : CmosStream) (registerB index : BitVec 8) (date : CivilDate)
    (hclock : ShowsDate values registerB date) (hpolls : FinitePolls values) :
    ∃ data t, Prog.Converges (cmosDevice values) cmosRTC { index := index, reads := 0 } data t ∧
      ((data.day = BitVec.ofNat 8 date.day ∧ data.month = BitVec.ofNat 8 date.month ∧
          data.year = BitVec.ofNat 16 date.year) ↔
        date.year = currentYear.toNat) := by
  obtain ⟨p, q, hp, hq⟩ := hpolls
  obtain ⟨t, hrun, -⟩ := (cmosDevice_reads values).rtc_converges (s := ⟨index, 0⟩) rfl hp hq
  refine ⟨_, t, hrun, ?_⟩
  have hmonth := date.month_le
  rw [rtcResult, CmosRtc.convert_eq _ rfl, hclock.mode]
  simp only [rtcAt, hclock.day, hclock.month, hclock.year]
  rw [rtcDecode_rtcByte_wide _ (by omega), rtcFullYear_mod, rtcDecode_rtcByte _ date.day_lt,
    rtcDecode_rtcByte _ (by omega)]
  simp only [true_and]

def dateRegs (registerB : BitVec 8) (date : CivilDate) (reg : BitVec 8) : BitVec 8 :=
  if reg = cmosStatRegB then registerB
  else if reg = cmosRtcDateDay then rtcByte registerB date.day
  else if reg = cmosRtcDateMonth then rtcByte registerB date.month
  else if reg = cmosRtcDateYear then rtcByte registerB (date.year % 100)
  else 0x00

def lastOf2017 : CivilDate :=
  ⟨2017, 12, 31, by decide, by decide, by decide, by decide, by decide, by decide⟩

theorem cmos_date_build_year :
    ∃ data t, Prog.Converges (cmosDevice (stoppedClock (dateRegs 0x02 lastOf2017))) cmosRTC
        { index := 0, reads := 0 } data t ∧
      ((data.day = 31 ∧ data.month = 12 ∧ data.year = 2017) ↔ 2017 = currentYear.toNat) :=
  cmos_date_iff _ 0x02 0 lastOf2017 ⟨fun _ => rfl, fun _ => rfl, fun _ => rfl, fun _ => rfl⟩
    (stoppedClock_polls _)

def firstOf2018 : CivilDate :=
  ⟨2018, 1, 1, by decide, by decide, by decide, by decide, by decide, by decide⟩

/-- New Year's Day 2018 is stored as one of 2118. -/
theorem cmos_date_next_year :
    ShowsDate (stoppedClock (dateRegs 0x02 firstOf2018)) 0x02 firstOf2018 ∧
      FinitePolls (stoppedClock (dateRegs 0x02 firstOf2018)) ∧
      ∃ t, (cmosRTC 1).run (cmosDevice (stoppedClock (dateRegs 0x02 firstOf2018)))
          { index := 0, reads := 0 } =
        .ok { seconds := 0, minuts := 0, hour := 0, day := 1, month := 1, year := 2118,
              century := 0 } t :=
  ⟨⟨fun _ => rfl, fun _ => rfl, fun _ => rfl, fun _ => rfl⟩, stoppedClock_polls _,
    { index := cmosStatRegB, reads := 15 }, rfl⟩

end BordOS
