import BordOS.Kernel.LoggerBounds

namespace BordOS
open Library Prog
set_option autoImplicit true
set_option relaxedAutoImplicit false

/-- A number among the arguments. It is no address. -/
def VaArg.ofWord (v : BitVec 32) : VaArg where
  word := v
  str := .lit ""

def LogArg.vaArg (r : Rodata) : LogArg → VaArg
  | .num n => .ofWord n
  | .str s => r.arg (.lit s)
  | .chars data => r.arg (.ofChars data)

/-- Driver code whose `LOG` calls are carried out by `kernel_logger_log`. -/
def withLogger (fuel : Nat) (r : Rodata) (k : Klogger) (p : PortM α) : ConsoleM α :=
  p.translate fun
    | .log lvl fmt args => do
      let _ ← kernelLoggerLog fuel r k lvl (.lit fmt) (args.map (LogArg.vaArg r))
      return ()
    | op => .perform (ConsoleOp.port op)

theorem withLogger_bind (fuel : Nat) (r : Rodata) (k : Klogger) (p : PortM α) (f : α → PortM β) :
    withLogger fuel r k (p >>= f) =
      withLogger fuel r k p >>= fun a => withLogger fuel r k (f a) :=
  translate_bind p f

theorem withLogger_klog (fuel : Nat) (r : Rodata) (k : Klogger) (lvl : LogLevel) (fmt : String)
    (args : List LogArg) :
    withLogger fuel r k (klog lvl fmt args) = (do
      let _ ← kernelLoggerLog fuel r k lvl (.lit fmt) (args.map (LogArg.vaArg r))
      return ()) := by
  change (kernelLoggerLog fuel r k lvl (.lit fmt) (args.map (LogArg.vaArg r)) >>= fun _ =>
    pure ()) >>= pure = _
  rw [bind_pure]

theorem withLogger_eq_onPorts {p : PortM α} (hp : p.Uses PortOp.NotLog) (fuel : Nat) (r : Rodata)
    (k : Klogger) : withLogger fuel r k p = onPorts p := by
  apply hp.translate_eq
  intro op hop
  cases op with
  | log lvl fmt args => exact absurd rfl (hop lvl fmt args)
  | _ => rfl

variable {b : Beyond} {ports : PortDevice σ} {s t : σ}

theorem withLogger_converges {p : Nat → PortM α} {a : α} (hp : ∀ n, (p n).Uses PortOp.NotLog)
    (h : Converges ports p s a t) (r : Rodata) (k : Klogger) :
    Converges (consoleDevice b ports) (fun n => withLogger n r k (p n)) s a t := by
  obtain ⟨N, hN⟩ := h
  refine ⟨N, ?_⟩
  intro n hn
  simp only [withLogger_eq_onPorts (hp n), onPorts_run]
  exact hN n hn

/-- From every state the clock can be read: its updates end. -/
def ClockReads (ports : PortDevice σ) : Prop :=
  ∀ s, ∃ date t tr, Settles ports cmosRTC s (.ok date t) tr

def Klogger.Sends (k : Klogger) (lvl : LogLevel) : Prop :=
  k.level.toInt ≤ lvl.toInt ∧ (k.output &&& logSerial ≠ 0 ∨ k.output &&& logGraphic ≠ 0)

variable {r : Rodata} {k : Klogger} {lvl : LogLevel} {fmt : CString} {args : VaList}
  {date : CmosRtc} {tr : List (PortEvent σ)}

theorem kernelLoggerLog_below (h : ¬ k.level.toInt ≤ lvl.toInt) :
    Settles (consoleDevice b ports) (fun n => kernelLoggerLog n r k lvl fmt args) s (.ok 0 s)
      [] := by
  simp only [kernelLoggerLog, ge_iff_le, if_neg h]
  exact .const _ _ _

/-- Without a sink the clock is read in vain. -/
theorem kernelLoggerLog_silent (h : k.level.toInt ≤ lvl.toInt) (hsend : ¬ k.Sends lvl)
    (hrtc : Settles ports cmosRTC s (.ok date t) tr) :
    ∃ tr', Settles (consoleDevice b ports) (fun n => kernelLoggerLog n r k lvl fmt args) s
      (.ok 0 t) tr' := by
  obtain ⟨hserial, hscreen⟩ := not_or.1 fun hsink => hsend ⟨h, hsink⟩
  obtain ⟨tr', hset, -, -⟩ := Prints.onPorts (b := b) hrtc
  have hheader : Settles (consoleDevice b ports)
      (fun n => kernelLoggerPrintHeader n r k.output lvl) s (.ok 0 t) (tr' ++ []) := by
    simp only [kernelLoggerPrintHeader, if_neg hserial, if_neg hscreen]
    exact hset.bind (.const _ _ _)
  simp only [kernelLoggerLog, ge_iff_le, if_pos h, kernelLoggerPrintMsg, if_neg hserial,
    if_neg hscreen]
  exact ⟨_, hheader.bind (.const _ _ _)⟩

theorem printers_reject (b : Beyond) (ports : PortDevice σ) {ap : VaList}
    (hfmt : ¬ FormatAccepted b.arg fmt ap) (s : σ) :
    ∃ f, Ends (consoleDevice b ports) (fun n => serialVprintf n fmt ap) s (.error f s) ∧
      Ends (consoleDevice b ports) (fun n => vprintf n fmt ap) s (.error f s) := by
  obtain ⟨⟨tr, hvga, -⟩, ⟨tr', hserial, -⟩⟩ :=
    printers_print b ports (printfSyntax.read_reads fmt.chars) ap s
  by_cases hgiven : StringsGiven b.arg (printfSyntax.read fmt.chars).1 ap
  · have hend : (printfSyntax.read fmt.chars).2 = .unsupported :=
      not_not.mp fun hend => hfmt ⟨hend, hgiven⟩
    rw [(printSteps_given hgiven).1, if_pos hend] at hvga hserial
    exact ⟨_, hserial.ends, hvga.ends⟩
  · rw [printSteps_null hgiven] at hvga hserial
    exact ⟨_, hserial.ends, hvga.ends⟩

theorem kernelLoggerLog_stops (hsend : k.Sends lvl) (hfmt : ¬ FormatAccepted b.arg fmt args)
    (hrtc : Settles ports cmosRTC s (.ok date t) tr) :
    ∃ f, Ends (consoleDevice b ports) (fun n => kernelLoggerLog n r k lvl fmt args) s
      (.error f t) := by
  obtain ⟨hlvl, hsink⟩ := hsend
  simp only [kernelLoggerLog, ge_iff_le, if_pos hlvl, kernelLoggerPrintMsg]
  by_cases hmonth : date.month.toNat ≤ 12
  · obtain ⟨tr', hheader, -⟩ :=
      kernelLoggerPrintHeader_at (b := b) hrtc (fun _ => hmonth) r lvl
    obtain ⟨f, hserial, hvga⟩ := printers_reject b ports hfmt t
    refine ⟨f, .bind hheader.converges ?_⟩
    by_cases hset : k.output &&& logSerial ≠ 0
    · simp only [if_pos hset]
      exact hserial.bind_error
    · simp only [if_neg hset, if_pos (hsink.resolve_left hset)]
      exact .bind (.const rfl) hvga.bind_error
  · obtain ⟨tr', hheader, -⟩ :=
      kernelLoggerPrintHeader_outside_at hrtc hsink (Nat.lt_of_not_le hmonth) b r lvl
    exact ⟨_, hheader.ends.bind_error⟩

end BordOS
