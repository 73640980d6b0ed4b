import BordOS.Drivers.AtaFailures
import BordOS.Drivers.AtaIdentify

namespace BordOS
open Library Prog
set_option autoImplicit true
set_option relaxedAutoImplicit false

variable {resp : Responses} {bus : BitVec 16} {other : PortDevice σ} {s : AtaStream σ} {w : Nat}

theorem ideReportCalls_eq_nil_iff :
    ideReportCalls (resp.identified w) = [] ↔ resp.data w = 0 := by
  by_cases hflags : resp.data w = 0
  · rw [ideReportCalls, identified_flags, if_neg (not_not.mpr hflags)]
    exact ⟨fun _ => hflags, fun _ => rfl⟩
  · rw [ideReportCalls_identified hflags]
    exact ⟨fun h => absurd h (List.cons_ne_nil _ _), fun h => absurd h hflags⟩

/-- `ide_init` looks at the first word of the block only: a drive that did not accept the command is
reported unless that word is zero. -/
theorem ide_reports_iff (resp : Responses) (bus : BitVec 16) (other : PortDevice σ)
    (s : AtaStream σ) (hready : ∃ p, s.polls < p ∧ resp.status p &&& ataSrBsy = 0) :
    ∃ p calls, FirstReady resp.status (s.polls + 1) p ∧
      Logs (responseDevice resp bus other) (fun n => ideInit n bus) s calls ∧
      ((calls ≠ [] → ¬ StatusFailed (resp.status p)) ↔
        ¬ StatusFailed (resp.status p) ∨ resp.data s.words = 0) := by
  obtain ⟨p, hp⟩ := FirstReady.of_ready hready
  refine ⟨p, _, hp, ideInit_logs s hready, ?_⟩
  rw [ne_eq, ideReportCalls_eq_nil_iff]
  constructor
  · intro h
    by_cases hflags : resp.data s.words = 0
    · exact .inr hflags
    · exact .inl (h hflags)
  · intro h hflags
    exact h.resolve_right hflags

theorem ide_reports_quiet :
    ∃ p calls, FirstReady drivesError.status 1 p ∧
      Logs (responseDevice drivesError 0x1F0 (cmosDevice (monthClock 0x12)))
        (fun n => ideInit n 0x1F0) quietStream calls ∧
      ((calls ≠ [] → ¬ StatusFailed 0x41) ↔ ¬ StatusFailed 0x41 ∨ (0xFFFF : BitVec 16) = 0) :=
  ide_reports_iff drivesError 0x1F0 (cmosDevice (monthClock 0x12)) quietStream
    ⟨1, by decide, (drivesError_ready 1).ready⟩

/-- A bus that answers with an error and ones on its data port is reported as a drive. -/
theorem ide_reports_failed :
    StatusFailed 0x41 ∧ FirstReady drivesError.status 1 1 ∧
      ∃ calls, Logs (responseDevice drivesError 0x1F0 (cmosDevice (monthClock 0x12)))
          (fun n => ideInit n 0x1F0) quietStream calls ∧ calls ≠ [] := by
  refine ⟨by decide, drivesError_ready 1, _,
    ideInit_logs quietStream ⟨1, by decide, (drivesError_ready 1).ready⟩, ?_⟩
  rw [ne_eq, ideReportCalls_eq_nil_iff]
  change ¬ (0xFFFF : BitVec 16) = 0
  decide

/-- A read that ends in an error returns exactly if the report has no sink: the format of the report
has a directive that the printers reject. -/
theorem ide_read_returns_iff (b : Beyond) (r : Rodata) (k : Klogger) (resp : Responses)
    (bus : BitVec 16) (other : PortDevice σ) (hbusy : resp.BusyClears)
    (hclock : ClockReads (responseDevice resp bus other))
    (hlevel : k.level.toInt ≤ LogLevel.error.toInt) (slave : BitVec 8) (lba : BitVec 32)
    (buf : Buffer) (s : AtaStream σ) :
    ∃ p p₁, FirstReady resp.status s.polls p ∧ FirstReady resp.status (p + 1) p₁ ∧
      ∃ res, Ends (consoleDevice b (responseDevice resp bus other))
          (fun n => withLogger n r k (ideReadSector n bus slave lba buf)) s res ∧
        ((∃ buf' t, res = .ok buf' t) ↔ ¬ StatusFailed (resp.status (p₁ + 1)) ∨
          k.output &&& logSerial = 0 ∧ k.output &&& logGraphic = 0) := by
  obtain ⟨p, hp⟩ := hbusy.first s.polls
  obtain ⟨p₁, hp₁⟩ := hbusy.first (p + 1)
  have hsink : ¬ k.Sends .error ↔ k.output &&& logSerial = 0 ∧ k.output &&& logGraphic = 0 := by
    rw [Klogger.Sends, not_and, not_or, not_not, not_not]
    exact ⟨fun h => h hlevel, fun h _ => h⟩
  obtain ⟨res, hends, hres⟩ := ideReadSector_ends hbusy hclock b r k slave lba buf hp hp₁
  refine ⟨p, p₁, hp, hp₁, res, hends, ?_⟩
  rw [← hsink]
  rcases hres with ⟨hfailed, hsend, f, t, rfl, -⟩ | ⟨hreturns, t, rfl⟩
  · constructor
    · rintro ⟨buf', t', h⟩
      cases h
    · intro h
      exact absurd hsend (h.resolve_left (not_not.mpr hfailed))
  · exact ⟨fun _ => hreturns, fun _ => ⟨_, t, rfl⟩⟩

theorem ide_read_returns_quiet :
    ∃ p p₁, FirstReady drivesError.status 0 p ∧ FirstReady drivesError.status (p + 1) p₁ ∧
      ∃ res, Ends (consoleDevice zerosBeyond
            (responseDevice drivesError 0x1F0 (cmosDevice (monthClock 0x12))))
          (fun n => withLogger n rodataAt gKlogger (ideReadSector n 0x1F0 0 7 fun _ => 0))
          quietStream res ∧
        ((∃ buf' t, res = .ok buf' t) ↔ ¬ StatusFailed 0x41 ∨
          logSerial &&& logSerial = 0 ∧ logSerial &&& logGraphic = 0) :=
  ide_read_returns_iff zerosBeyond rodataAt gKlogger drivesError 0x1F0
    (cmosDevice (monthClock 0x12)) drivesError_clears drivesError_clock (by decide) 0 7
    (fun _ => 0) quietStream

/-- With the logger as it is set at first, a drive that answers a read with an error stops the
kernel. -/
theorem ide_read_report_stops :
    StatusFailed 0x41 ∧ gKlogger.level.toInt ≤ LogLevel.error.toInt ∧
      ∃ f t, Ends (consoleDevice zerosBeyond
          (responseDevice drivesError 0x1F0 (cmosDevice (monthClock 0x12))))
        (fun n => withLogger n rodataAt gKlogger (ideReadSector n 0x1F0 0 7 fun _ => 0))
        quietStream (.error f t) := by
  refine ⟨by decide, by decide, ?_⟩
  have hsend : gKlogger.Sends .error := ⟨by decide, .inl (by decide)⟩
  obtain ⟨f, t, hends, -⟩ := ideReadSector_stops (b := zerosBeyond) (r := rodataAt)
    (s := quietStream) drivesError_clock 0 7 (fun _ => 0) (drivesError_ready 0)
    (drivesError_ready 1) (by decide) hsend
  exact ⟨f, t, hends⟩

end BordOS
