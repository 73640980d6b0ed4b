import BordOS.Drivers.CmosDecode
import BordOS.Kernel.Logger
import BordOS.Libc.PrintfGrammar

namespace BordOS
open Library
set_option autoImplicit true
set_option relaxedAutoImplicit false

variable {b : Beyond} {ports : PortDevice σ} {s t : σ}

def portEvent (e : PortEvent σ) : ConsoleEvent σ := ⟨e.before, .port e.op, e.reply⟩

theorem onPorts_run (p : PortM α) (s : σ) :
    (onPorts p).run (consoleDevice b ports) s = p.run ports s :=
  Prog.translate_run (fun _ _ => rfl) p s

theorem onPorts_events (p : PortM α) (s : σ) :
    (onPorts p).events (consoleDevice b ports) s = (p.events ports s).map portEvent := by
  induction p generalizing s with
  | ret a => rfl
  | fail e => rfl
  | call op next ih => exact congrArg (List.cons _) (ih _ _)

theorem shown_portEvent (tr : List (PortEvent σ)) : shown (tr.map portEvent) = [] := by
  induction tr with
  | nil => rfl
  | cons e tr ih => exact ih

theorem Prints.onPorts {p : Nat → PortM α} {r : EStateM.Result Fault σ α}
    {tr : List (PortEvent σ)} (h : Prog.Settles ports p s r tr) :
    Prints b ports (fun n => onPorts (p n)) s r [] := by
  obtain ⟨N, hN⟩ := h
  refine ⟨tr.map portEvent, ⟨N, ?_⟩, shown_portEvent tr, ?_⟩
  · intro n hn
    obtain ⟨hrun, hevents⟩ := hN n hn
    rw [onPorts_run, onPorts_events, hrun, hevents]
    exact ⟨rfl, rfl⟩
  · intro e he
    obtain ⟨e', -, rfl⟩ := List.mem_map.1 he
    trivial

def headerList (r : Rodata) (lvl : LogLevel) (date : CmosRtc) : VaList :=
  [.ofByte date.day, r.arg (months.getD date.month.toNat (.lit "")), .ofByte date.hour,
    .ofByte date.minuts, .ofByte date.seconds, r.arg (levelStr.getD lvl.toInt.toNat (.lit ""))]

theorem levelStr_inside (lvl : LogLevel) : lvl.toInt.toNat < levelStr.length := by
  cases lvl <;> decide

theorem tableAt_inside {table : List CString} {i : Nat} (h : i < table.length) :
    tableAt table i = pure (table.getD i (.lit "")) := by
  rw [tableAt, List.getElem?_eq_getElem h, List.getD_eq_getElem _ _ h]

theorem tableAt_outside {table : List CString} {i : Nat} (h : table.length ≤ i) :
    tableAt table i = .fail (.outOfBounds i) := by
  rw [tableAt, List.getElem?_eq_none h]

theorem headerArgs_inside (r : Rodata) (lvl : LogLevel) {date : CmosRtc}
    (h : date.month.toNat ≤ 12) : headerArgs r lvl date = pure (headerList r lvl date) := by
  rw [headerArgs, tableAt_inside (Nat.lt_succ_of_le h), tableAt_inside (levelStr_inside lvl)]
  rfl

theorem headerArgs_outside (r : Rodata) (lvl : LogLevel) {date : CmosRtc}
    (h : 12 < date.month.toNat) :
    headerArgs r lvl date = .fail (.outOfBounds date.month.toNat) := by
  rw [headerArgs, tableAt_outside h]
  rfl

/-- A printer accepts the format and its arguments. -/
def FormatAccepted (beyond : VaArg) (format : CString) (ap : VaList) : Prop :=
  (printfSyntax.read format.chars).2 ≠ .unsupported ∧
    StringsGiven beyond (printfSyntax.read format.chars).1 ap

theorem FormatAccepted.stop {beyond : VaArg} {format : CString} {ap : VaList}
    (h : FormatAccepted beyond format ap) : (formatSteps beyond format ap).2 = none := by
  rw [formatSteps, (printSteps_given h.2).1, if_neg h.1]

theorem headerFormat_accepted (beyond : VaArg) (r : Rodata) (lvl : LogLevel) (date : CmosRtc) :
    FormatAccepted beyond headerFormat (headerList r lvl date) := by
  have hread : printfSyntax.read headerFormat.chars =
      ([.literal 0x5B, .directive .d, .literal 0x20, .directive .s, .literal 0x20, .directive .d,
        .literal 0x3A, .directive .d, .literal 0x3A, .directive .d, .literal 0x5D, .literal 0x20,
        .literal 0x7B, .directive .s, .literal 0x7D, .literal 0x20], .done) := by
    decide
  have hnull (s : CString) : ¬ r.addr s = 0#32 := r.ne_null s
  rw [FormatAccepted, hread]
  simp [StringsGiven, headerList, Rodata.arg, hnull]

theorem FormatAccepted.prints {format : CString} {ap : VaList}
    (h : FormatAccepted b.arg format ap) (ports : PortDevice σ) (s : σ) :
    Prints b ports (fun n => serialVprintf n format ap) s
        (.ok (BitVec.ofNat 32 format.chars.length) s)
        ((formatSteps b.arg format ap).1.flatMap PrintStep.onSerial) ∧
      Prints b ports (fun n => vprintf n format ap) s
        (.ok (BitVec.ofNat 32 format.chars.length) s)
        ((formatSteps b.arg format ap).1.flatMap PrintStep.onVga) := by
  have hstop := h.stop
  rw [formatSteps] at hstop
  obtain ⟨hvga, hserial⟩ := printers_print b ports (printfSyntax.read_reads format.chars) ap s
  rw [hstop] at hvga hserial
  exact ⟨hserial, hvga⟩

/-- What the sinks of a mask show of the same steps. -/
def sentTo (output : BitVec 8) (steps : List PrintStep) : List Shown :=
  (if output &&& logSerial ≠ 0 then steps.flatMap PrintStep.onSerial else []) ++
    (if output &&& logGraphic ≠ 0 then steps.flatMap PrintStep.onVga else [])

def sentLength (output : BitVec 8) (format : CString) : BitVec 32 :=
  (if output &&& logSerial ≠ 0 then BitVec.ofNat 32 format.chars.length else 0) +
    (if output &&& logGraphic ≠ 0 then BitVec.ofNat 32 format.chars.length else 0)

theorem Prints.flagged {p : Nat → ConsoleM (BitVec 32)} {flag : Prop} [Decidable flag]
    {a : BitVec 32} {sh : List Shown} (h : flag → Prints b ports p s (.ok a s) sh) :
    Prints b ports (fun n => if flag then p n else Pure.pure 0) s
      (.ok (if flag then a else 0) s) (if flag then sh else []) := by
  by_cases hflag : flag
  · simp only [if_pos hflag]
    exact h hflag
  · simp only [if_neg hflag]
    exact .pure 0

/-- The month that `cmos_RTC` leaves, if its second pass ends at data read `q`. -/
def monthRead (values : CmosStream) (q : Nat) : Nat := (rtcResult values q).month.toNat

def headerSteps (b : Beyond) (r : Rodata) (lvl : LogLevel) (date : CmosRtc) : List PrintStep :=
  (formatSteps b.arg headerFormat (headerList r lvl date)).1

variable {reading : Nat → σ → Prop} {values : CmosStream} {output : BitVec 8}

theorem Prints.header {printer : Nat → CString → VaList → ConsoleM (BitVec 32)} {r : Rodata}
    {lvl : LogLevel} {date : CmosRtc} {a : BitVec 32} {sh : List Shown} {flag : Prop}
    [Decidable flag] (hmonth : flag → date.month.toNat ≤ 12)
    (h : Prints b ports (fun n => printer n headerFormat (headerList r lvl date)) s (.ok a s) sh) :
    Prints b ports (fun n => if flag then headerArgs r lvl date >>= printer n headerFormat
      else Pure.pure 0) s (.ok (if flag then a else 0) s) (if flag then sh else []) := by
  refine .flagged fun hflag => ?_
  simp only [headerArgs_inside r lvl (hmonth hflag), pure_bind]
  exact h

theorem kernelLoggerPrintHeader_at {date : CmosRtc} {tr : List (PortEvent σ)}
    (hrtc : Prog.Settles ports cmosRTC s (.ok date t) tr)
    (hmonth : output &&& logSerial ≠ 0 ∨ output &&& logGraphic ≠ 0 → date.month.toNat ≤ 12)
    (r : Rodata) (lvl : LogLevel) :
    Prints b ports (fun n => kernelLoggerPrintHeader n r output lvl) s
      (.ok (sentLength output headerFormat) t) (sentTo output (headerSteps b r lvl date)) := by
  obtain ⟨hserial, hscreen⟩ := (headerFormat_accepted b.arg r lvl date).prints ports t
  have hsent : sentTo output (headerSteps b r lvl date) =
      [] ++ ((if output &&& logSerial ≠ 0 then
        (headerSteps b r lvl date).flatMap PrintStep.onSerial else []) ++
      ((if output &&& logGraphic ≠ 0 then
        (headerSteps b r lvl date).flatMap PrintStep.onVga else []) ++ [])) := by
    rw [List.append_nil, List.nil_append, sentTo]
  rw [hsent]
  exact (Prints.onPorts hrtc).bind ((hserial.header fun hset => hmonth (.inl hset)).bind
    ((hscreen.header fun hset => hmonth (.inr hset)).bind (.pure _)))

theorem kernelLoggerPrintHeader_outside_at {date : CmosRtc} {tr : List (PortEvent σ)}
    (hrtc : Prog.Settles ports cmosRTC s (.ok date t) tr)
    (hsink : output &&& logSerial ≠ 0 ∨ output &&& logGraphic ≠ 0)
    (hmonth : 12 < date.month.toNat) (b : Beyond) (r : Rodata) (lvl : LogLevel) :
    Prints b ports (fun n => kernelLoggerPrintHeader n r output lvl) s
      (.error (.outOfBounds date.month.toNat) t) [] := by
  have hfail {p : Nat → VaList → ConsoleM (BitVec 32)} {flag : Prop} [Decidable flag]
      (hflag : flag) :
      Prints b ports (fun n => if flag then headerArgs r lvl date >>= p n
        else Pure.pure 0) t (.error (.outOfBounds date.month.toNat) t) [] := by
    simp only [if_pos hflag, headerArgs_outside r lvl hmonth]
    exact .fail _
  apply (Prints.onPorts hrtc).bind
  by_cases hserial : output &&& logSerial ≠ 0
  · exact (hfail hserial).bind_error
  · simp only [if_neg hserial]
    exact (Prints.pure 0).bind (hfail (hsink.resolve_left hserial)).bind_error

theorem kernelLoggerPrintHeader_prints (hd : CmosReads ports reading values) (h : reading n s)
    (hp : FirstClear values n p) (hq : FirstClear values (p + 7) q) (output : BitVec 8)
    (hmonth : output &&& logSerial ≠ 0 ∨ output &&& logGraphic ≠ 0 → monthRead values q ≤ 12)
    (r : Rodata) (lvl : LogLevel) :
    ∃ t, Prints b ports (fun n => kernelLoggerPrintHeader n r output lvl) s
      (.ok (sentLength output headerFormat) t)
      (sentTo output (headerSteps b r lvl (rtcResult values q))) ∧ reading (q + 8) t := by
  obtain ⟨t, tr, hrtc, ht⟩ := hd.rtc_settles h hp hq
  exact ⟨t, kernelLoggerPrintHeader_at hrtc hmonth r lvl, ht⟩

theorem kernelLoggerPrintHeader_outside (hd : CmosReads ports reading values) (h : reading n s)
    (hp : FirstClear values n p) (hq : FirstClear values (p + 7) q)
    (hsink : output &&& logSerial ≠ 0 ∨ output &&& logGraphic ≠ 0)
    (hmonth : 12 < monthRead values q) (b : Beyond) (r : Rodata) (lvl : LogLevel) :
    ∃ t, Prints b ports (fun n => kernelLoggerPrintHeader n r output lvl) s
      (.error (.outOfBounds (monthRead values q)) t) [] := by
  obtain ⟨t, tr, hrtc, -⟩ := hd.rtc_settles h hp hq
  exact ⟨t, kernelLoggerPrintHeader_outside_at hrtc hsink hmonth b r lvl⟩

/-- The bytes that name a month, zero included: up to twelve, and in BCD mode also ten to twelve
with a tens digit. -/
def MonthNamed (registerB month : BitVec 8) : Prop :=
  month.toNat ≤ 12 ∨ registerB &&& 0x4 = 0 ∧ 0x10 ≤ month.toNat ∧ month.toNat ≤ 0x12

theorem bcd2bin_le_twelve (month : BitVec 8) :
    (bcd2bin month).toNat ≤ 12 ↔ month.toNat ≤ 12 ∨ 0x10 ≤ month.toNat ∧ month.toNat ≤ 0x12 := by
  revert month
  decide

theorem monthRead_le_iff (values : CmosStream) (q : Nat) :
    monthRead values q ≤ 12 ↔
      MonthNamed (values (q + 7) cmosStatRegB) (values (q + 5) cmosRtcDateMonth) := by
  have hmonth : (rtcResult values q).month =
      rtcDecode (values (q + 7) cmosStatRegB) (values (q + 5) cmosRtcDateMonth) := by
    rw [rtcResult, CmosRtc.convert_eq _ rfl]
    rfl
  rw [monthRead, hmonth, rtcDecode, MonthNamed]
  by_cases hmode : values (q + 7) cmosStatRegB &&& 0x4 = 0
  · simp only [hmode, ↓reduceIte, true_and]
    exact bcd2bin_le_twelve _
  · simp only [hmode, ↓reduceIte, false_and, or_false]

/-- The header stays inside its tables exactly when no sink is set or the month register names a
month. The level is inside its table always. -/
theorem klogger_header_inside_iff (b : Beyond) (r : Rodata) (values : CmosStream) (s : CmosChip)
    (hp : FirstClear values s.reads p) (hq : FirstClear values (p + 7) q) (output : BitVec 8)
    (lvl : LogLevel) :
    lvl.toInt.toNat < levelStr.length ∧
      ((∃ res tr, Prog.Settles (consoleDevice b (cmosDevice values))
          (fun n => kernelLoggerPrintHeader n r output lvl) s res tr ∧
          ∀ i t, res ≠ .error (.outOfBounds i) t) ↔
        output &&& logSerial = 0 ∧ output &&& logGraphic = 0 ∨
          MonthNamed (values (q + 7) cmosStatRegB) (values (q + 5) cmosRtcDateMonth)) := by
  have hd := cmosDevice_reads values
  refine ⟨levelStr_inside lvl, ?_⟩
  rw [← monthRead_le_iff]
  constructor
  · rintro ⟨res, tr, hset, hres⟩
    by_contra hout
    obtain ⟨hsink, hmonth⟩ := not_or.1 hout
    obtain ⟨t, tr', hset', -⟩ := kernelLoggerPrintHeader_outside hd rfl hp hq
      (Classical.not_and_iff_not_or_not.1 hsink) (Nat.lt_of_not_le hmonth) b r lvl
    exact hres _ t (hset.unique hset').1
  · intro hin
    obtain ⟨t, ⟨tr, hset, -⟩, -⟩ := kernelLoggerPrintHeader_prints (b := b) hd rfl hp hq
      output (fun hsink => hin.resolve_left fun hnone => hsink.elim (· hnone.1) (· hnone.2)) r lvl
    exact ⟨_, tr, hset, fun i t h => by cases h⟩

def rodataAt : Rodata where
  addr _ := 0x100000
  ne_null _ := by decide

def zerosBeyond : Beyond where
  char _ _ := 0
  arg := .ofByte 0

def monthClock (month : BitVec 8) : CmosStream :=
  stoppedClock fun reg => if reg = cmosRtcDateMonth then month else 0x02

theorem klogger_header_inside_december :
    LogLevel.info.toInt.toNat < levelStr.length ∧
      ((∃ res tr, Prog.Settles (consoleDevice zerosBeyond (cmosDevice (monthClock 0x12)))
          (fun n => kernelLoggerPrintHeader n rodataAt logSerial .info)
          { index := 0, reads := 0 } res tr ∧ ∀ i t, res ≠ .error (.outOfBounds i) t) ↔
        logSerial &&& logSerial = 0 ∧ logSerial &&& logGraphic = 0 ∨ MonthNamed 0x02 0x12) :=
  klogger_header_inside_iff zerosBeyond rodataAt (monthClock 0x12) { index := 0, reads := 0 }
    (stoppedClock_clear _ 0) (stoppedClock_clear _ 7) logSerial .info

/-- A thirteenth month in the register is used as the index 13. -/
theorem klogger_header_month_thirteen :
    FirstClear (monthClock 0x13) 0 0 ∧ FirstClear (monthClock 0x13) (0 + 7) 7 ∧
      ∃ t tr, Prog.Settles (consoleDevice zerosBeyond (cmosDevice (monthClock 0x13)))
        (fun n => kernelLoggerPrintHeader n rodataAt logSerial .info) { index := 0, reads := 0 }
        (.error (.outOfBounds 13) t) tr := by
  refine ⟨stoppedClock_clear _ 0, stoppedClock_clear _ 7, ?_⟩
  have hsink : logSerial &&& logSerial ≠ 0 ∨ logSerial &&& logGraphic ≠ 0 := by decide
  obtain ⟨t, tr, hset, -⟩ := kernelLoggerPrintHeader_outside
    (n := 0) (p := 0) (q := 7) (s := { index := 0, reads := 0 })
    (cmosDevice_reads (monthClock 0x13)) rfl (stoppedClock_clear _ 0) (stoppedClock_clear _ 7)
    hsink (by decide) zerosBeyond rodataAt .info
  exact ⟨t, tr, hset⟩

end BordOS
