import BordOS.Drivers.Hardware

namespace BordOS
open Library Prog
set_option autoImplicit true
set_option relaxedAutoImplicit false

/-- A call of the logger that its level lets through, with the sinks it is for. -/
structure LogRecord where
  output : BitVec 8
  lvl : LogLevel
  fmt : CString
  args : VaList

def KloggerCall.set : KloggerCall → Klogger → Klogger
  | .setLevel level, k => kernelLoggerSetLevel level k
  | .setOutput output, k => kernelLoggerSetOutput output k
  | .log _ _ _, k => k

def KloggerCall.record? (k : Klogger) : KloggerCall → Option LogRecord
  | .log lvl fmt args => if k.level.toInt ≤ lvl.toInt then some ⟨k.output, lvl, fmt, args⟩ else none
  | _ => none

def logRecords : Klogger → List KloggerCall → List LogRecord
  | _, [] => []
  | k, c :: calls => (c.record? k).toList ++ logRecords (c.set k) calls

/-- The bytes of a record on the serial port: its header with the date, and its message. -/
def LogRecord.onSerial (b : Beyond) (r : Rodata) (rec : LogRecord) (date : CmosRtc) :
    List (BitVec 8) :=
  if rec.output &&& logSerial ≠ 0 then
    (loggedSteps b r rec.lvl date rec.fmt rec.args).flatMap PrintStep.bytesWithReturns else []

def LogRecord.onVga (b : Beyond) (r : Rodata) (rec : LogRecord) (date : CmosRtc) :
    List (BitVec 8) :=
  if rec.output &&& logGraphic ≠ 0 then
    (loggedSteps b r rec.lvl date rec.fmt rec.args).flatMap PrintStep.bytes else []

def KloggerCall.code (fuel : Nat) (r : Rodata) (k : Klogger) : KloggerCall → ScreenM Unit
  | .log lvl fmt args => do
    let _ ← onHardware fuel (kernelLoggerLog fuel r k lvl fmt args)
    return ()
  | _ => pure ()

variable {b : Beyond} {line : SerialLine} {other : PortDevice σ} {reading : Nat → σ → Prop}
  {values : CmosStream} {m : Hardware σ} {k : Klogger} {n p q : Nat}

/-- What a record has done to the hardware. -/
structure LogRecord.Shown (b : Beyond) (r : Rodata) (rec : LogRecord) (date : CmosRtc)
    (m t : Hardware σ) : Prop where
  setup : t.ports.1.setup = m.ports.1.setup
  sent : t.ports.1.output = m.ports.1.output ++ rec.onSerial b r date
  screen : t.vga = m.vga.after ((rec.onVga b r date).map .put)

theorem kernelLoggerLog_hardware (hline : line.Empties) (hopen : m.ports.1.setup.Open)
    (hd : CmosReads other reading values) (h : reading n m.ports.2)
    (hp : FirstClear values n p) (hq : FirstClear values (p + 7) q)
    (hmonth : monthRead values q ≤ 12) {lvl : LogLevel} (hlvl : k.level.toInt ≤ lvl.toInt)
    {fmt : CString} {args : VaList}
    (hfmt : k.output &&& logSerial ≠ 0 ∨ k.output &&& logGraphic ≠ 0 →
      FormatAccepted b.arg fmt args) (r : Rodata) :
    ∃ ret t, Converges (hardwareDevice b line other)
        (fun n => onHardware n (kernelLoggerLog n r k lvl fmt args)) m ret t ∧
      reading (q + 8) t.ports.2 ∧
      LogRecord.Shown b r ⟨k.output, lvl, fmt, args⟩ (rtcResult values q) m t := by
  obtain ⟨ret, s, ⟨tr, hset, hshown, -⟩, hreads⟩ :=
    kernelLoggerPrintMsg_prints hd h hp hq hmonth k.output hfmt r lvl
  have hlog : Settles (consoleDevice b other) (fun n => kernelLoggerLog n r k lvl fmt args)
      m.ports.2 (.ok ret s) tr := by
    simp only [kernelLoggerLog, ge_iff_le, if_pos hlvl]
    exact hset
  obtain ⟨t, hends, hdisplays⟩ := onHardware_displays hline hopen
    (fun n => kernelLoggerLog_uses onCom1_logs n r k lvl fmt args) hlog
  have hother : t.ports.2 = s := hdisplays.other
  refine ⟨ret, t, hends, hother ▸ hreads, hdisplays.serial.setup, ?_, ?_⟩
  · rw [hdisplays.serial.output, serialBytes, hshown, List.filterMap_append, sentTo_serialByte,
      sentTo_serialByte, LogRecord.onSerial, loggedSteps, List.flatMap_append]
    split_ifs <;> rfl
  · rw [hdisplays.screen, vgaBytes, hshown, List.filterMap_append, sentTo_vgaByte, sentTo_vgaByte,
      LogRecord.onVga, loggedSteps, List.flatMap_append]
    split_ifs <;> rfl

theorem kernelLoggerLog_hardware_below {lvl : LogLevel} (hlvl : ¬ k.level.toInt ≤ lvl.toInt)
    (fuel : Nat) (r : Rodata) (fmt : CString) (args : VaList) :
    onHardware fuel (kernelLoggerLog fuel r k lvl fmt args) = pure 0 := by
  rw [kernelLoggerLog, if_neg hlvl]
  rfl

end BordOS
