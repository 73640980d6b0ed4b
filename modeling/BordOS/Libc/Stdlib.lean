import BordOS.Kernel.LoggerCalls
import BordOS.Kernel.System

namespace BordOS
open Library Prog
set_option autoImplicit true
set_option relaxedAutoImplicit false

structure AssertSite where
  file : CString
  line : BitVec 32

/-- The common body of the two: interrupts off, a critical message, and `hlt` for ever. `caught` is
where an `assert` of the logger leads to. -/
def stopSystem (caught : Fault → SystemM α) (fuel : Nat) (r : Rodata) (k : Klogger) (fmt : CString)
    (args : VaList) : SystemM α := do
  cli
  (do
    let _ ← onSystem (onHardware fuel (kernelLoggerLog fuel r k .critical fmt args))
    haltForever fuel : SystemM α).recover caught

def abortFormat : CString := .lit "System aborted: %s [%s:%d]\n\r"

def panicFormat : CString := .lit "Kenrel panic: %s\n\r"

/-- `abort_handler`. An `assert` that fails in its own `LOG` calls it again. -/
def abortHandler (sites : String → AssertSite) (r : Rodata) (k : Klogger) :
    Nat → CString → AssertSite → SystemM α
  | 0, _, _ => .fail .outOfFuel
  | fuel + 1, msg, site =>
    stopSystem
      (fun f =>
        match f with
        | .assertion cond => abortHandler sites r k fuel (.lit cond) (sites cond)
        | f => .fail f)
      fuel r k abortFormat [r.arg msg, r.arg site.file, .ofWord site.line]

/-- Where a fault of kernel code leads to: a failed `assert` to `abort_handler`. -/
def onAssert (sites : String → AssertSite) (r : Rodata) (k : Klogger) (fuel : Nat) :
    Fault → SystemM α
  | .assertion cond => abortHandler sites r k fuel (.lit cond) (sites cond)
  | f => .fail f

def panic (sites : String → AssertSite) (fuel : Nat) (r : Rodata) (k : Klogger) (str : CString) :
    SystemM α :=
  stopSystem (onAssert sites r k fuel) fuel r k panicFormat [r.arg str]

def withAsserts (sites : String → AssertSite) (r : Rodata) (k : Klogger) (fuel : Nat)
    (p : ScreenM α) : SystemM α :=
  (onSystem p).recover (onAssert sites r k fuel)

inductive StopMessage where
  | abort (msg : CString) (site : AssertSite)
  | panic (str : CString)

namespace StopMessage

def format : StopMessage → CString
  | .abort _ _ => abortFormat
  | .panic _ => panicFormat

def args (r : Rodata) : StopMessage → VaList
  | .abort msg site => [r.arg msg, r.arg site.file, .ofWord site.line]
  | .panic str => [r.arg str]

/-- What a message reads, on a sink that puts strings as `put` says. -/
def text (put : CString → List (BitVec 8)) : StopMessage → List (BitVec 8)
  | .abort msg site => (CString.lit "System aborted: ").chars ++ put msg ++
      (CString.lit " [").chars ++ put site.file ++ (CString.lit ":").chars ++
      writtenSigned site.line ++ (CString.lit "]\n\r").chars
  | .panic str => (CString.lit "Kenrel panic: ").chars ++ put str ++ (CString.lit "\n\r").chars

theorem read_format (msg : StopMessage) :
    printfSyntax.read msg.format.chars =
      (match msg with
      | .abort _ _ => (CString.lit "System aborted: ").chars.map .literal ++
          (.directive .s :: ((CString.lit " [").chars.map .literal ++
            (.directive .s :: ((CString.lit ":").chars.map .literal ++
              (.directive .d :: (CString.lit "]\n\r").chars.map .literal)))))
      | .panic _ => (CString.lit "Kenrel panic: ").chars.map .literal ++
          (.directive .s :: (CString.lit "\n\r").chars.map .literal), .done) := by
  cases msg with
  | abort msg site =>
    simp only [format]
    decide
  | panic str =>
    simp only [format]
    decide

end StopMessage

theorem printSteps_literals (beyond : VaArg) (e : FormatEnd) (cs : List (BitVec 8))
    (ps : List (FormatPiece (BitVec 8) FormatConv)) (ap : VaList) :
    printSteps beyond e (cs.map .literal ++ ps) ap =
      (cs.map .literal ++ (printSteps beyond e ps ap).1, (printSteps beyond e ps ap).2) := by
  induction cs with
  | nil => rfl
  | cons c cs ih => rw [List.map_cons, List.cons_append, printSteps, ih, List.map_cons,
      List.cons_append]

theorem stringsGiven_literals (beyond : VaArg) (cs : List (BitVec 8))
    (ps : List (FormatPiece (BitVec 8) FormatConv)) (ap : VaList) :
    StringsGiven beyond (cs.map .literal ++ ps) ap ↔ StringsGiven beyond ps ap := by
  induction cs with
  | nil => exact Iff.rfl
  | cons c cs ih => exact ih

theorem literals_bytes (cs : List (BitVec 8)) :
    (cs.map PrintStep.literal).flatMap PrintStep.bytes = cs ∧
      (cs.map PrintStep.literal).flatMap PrintStep.bytesWithReturns = cs := by
  induction cs with
  | nil => exact ⟨rfl, rfl⟩
  | cons c cs ih =>
    obtain ⟨hbytes, hreturns⟩ := ih
    simp only [List.map_cons, List.flatMap_cons, PrintStep.bytes, PrintStep.bytesWithReturns,
      hbytes, hreturns, List.singleton_append, and_self]

theorem Rodata.print_s (r : Rodata) (s : CString) :
    FormatConv.print (r.arg s) .s = .ok (.text s.chars) := if_neg (r.ne_null s)

namespace StopMessage

theorem accepted (beyond : VaArg) (r : Rodata) (msg : StopMessage) :
    FormatAccepted beyond msg.format (msg.args r) := by
  have hnull (s : CString) : ¬ (r.arg s).word = 0#32 := r.ne_null s
  have hlast (cs : List (BitVec 8)) (ap : VaList) :
      StringsGiven beyond (cs.map .literal) ap ↔ True := by
    rw [← List.append_nil (cs.map _), stringsGiven_literals]
    exact Iff.rfl
  rw [FormatAccepted, msg.read_format]
  cases msg with
  | abort msg site =>
    simp [stringsGiven_literals, StringsGiven, args, hlast, hnull]
  | panic str =>
    simp [stringsGiven_literals, StringsGiven, args, hlast, hnull]

theorem printed (beyond : VaArg) (r : Rodata) (msg : StopMessage) :
    (formatSteps beyond msg.format (msg.args r)).1.flatMap PrintStep.bytes =
        msg.text CString.chars ∧
      (formatSteps beyond msg.format (msg.args r)).1.flatMap PrintStep.bytesWithReturns =
        msg.text fun s => s.chars.flatMap withReturn := by
  have hlast (cs : List (BitVec 8)) (ap : VaList) :
      printSteps beyond .done (cs.map .literal) ap = (cs.map .literal, none) := by
    rw [← List.append_nil (cs.map _), printSteps_literals]
    exact congrArg (·, none) (List.append_nil _)
  have hd (w : VaArg) : FormatConv.print w .d = .ok (.number (writtenSigned w.word)) := rfl
  rw [formatSteps, msg.read_format]
  cases msg with
  | abort msg site =>
    simp only [printSteps_literals, printSteps, args, List.headD_cons, List.tail_cons, r.print_s,
      hd, hlast, List.flatMap_append, List.flatMap_cons, literals_bytes]
    constructor <;> simp [PrintStep.bytes, PrintStep.bytesWithReturns, text, VaArg.ofWord]
  | panic str =>
    simp only [printSteps_literals, printSteps, args, List.headD_cons, List.tail_cons, r.print_s,
      hlast, List.flatMap_append, List.flatMap_cons, literals_bytes]
    constructor <;> simp [PrintStep.bytes, PrintStep.bytesWithReturns, text]

end StopMessage

/-- How the system has stopped: interrupts are off, and each sink of the mask has the message, after
its header. -/
structure SystemStopped (b : Beyond) (r : Rodata) (k : Klogger) (msg : StopMessage)
    (date : CmosRtc) (m t : System σ) : Prop where
  interruptFlag : t.interruptFlag = false
  setup : t.ports.1.setup = m.ports.1.setup
  sent : t.ports.1.output = m.ports.1.output ++
    if k.output &&& logSerial ≠ 0 then
      (headerSteps b r .critical date).flatMap PrintStep.bytesWithReturns ++
        msg.text fun s => s.chars.flatMap withReturn
    else []
  screen : t.vga = m.vga.after
    ((if k.output &&& logGraphic ≠ 0 then
      (headerSteps b r .critical date).flatMap PrintStep.bytes ++ msg.text CString.chars
    else []).map .put)

theorem critical_passes (k : Klogger) : k.level.toInt ≤ LogLevel.critical.toInt := by
  cases k.level <;> decide

variable {b : Beyond} {line : SerialLine} {other : PortDevice σ} {reading : Nat → σ → Prop}
  {values : CmosStream} {m : System σ} {n : Nat}

theorem stopSystem_stops (hline : line.Empties) (hopen : m.ports.1.setup.Open)
    (hd : CmosReads other reading values) (h : reading n m.ports.2.2) (hclock : GivesMonths values)
    (caught : Nat → Fault → SystemM α) (hcaught : ∀ n, caught n .outOfFuel = .fail .outOfFuel)
    (r : Rodata) (k : Klogger) (msg : StopMessage) :
    ∃ q t, n ≤ q ∧ reading (q + 8) t.ports.2.2 ∧
      Idles (systemDevice b line other) (HaltsIn t) .outOfFuel
        (fun n => stopSystem (caught n) n r k msg.format (msg.args r)) m ∧
      SystemStopped b r k msg (rtcResult values q) m t := by
  obtain ⟨p, q, hp, hq, hmonth⟩ := hclock n
  obtain ⟨ret, t, hlog, ⟨hflag, hreads⟩, hshown⟩ := kernelLoggerLog_hardware (m := m.masked) (b := b)
    hline hopen (hd.withFlag false) ⟨rfl, h⟩ hp hq hmonth (critical_passes k)
    (fun _ => msg.accepted b.arg r) r
  have hlate : n ≤ q := by
    have := hp.1
    have := hq.1
    omega
  obtain ⟨hbytes, hreturns⟩ := msg.printed b.arg r
  refine ⟨q, t, hlate, hreads, ?_, hflag, hshown.setup, ?_, ?_⟩
  · apply Idles.after (.const (cli_run m))
    exact Idles.recover (.after (onSystem_converges hlog) (haltForever_idles t)) hcaught
  · rw [hshown.sent, LogRecord.onSerial, loggedSteps, List.flatMap_append, hreturns]
    rfl
  · rw [hshown.screen, LogRecord.onVga, loggedSteps, List.flatMap_append, hbytes]
    rfl

theorem panic_stops (hline : line.Empties) (hopen : m.ports.1.setup.Open)
    (hd : CmosReads other reading values) (h : reading n m.ports.2.2) (hclock : GivesMonths values)
    (sites : String → AssertSite) (r : Rodata) (k : Klogger) (str : CString) :
    ∃ q t, n ≤ q ∧ reading (q + 8) t.ports.2.2 ∧
      Idles (systemDevice b line other) (HaltsIn t) .outOfFuel
        (fun n => (panic sites n r k str : SystemM α)) m ∧
      SystemStopped b r k (.panic str) (rtcResult values q) m t :=
  stopSystem_stops hline hopen hd h hclock (fun n => onAssert sites r k n) (fun _ => rfl)
    r k (.panic str)

theorem onAssert_stops (hline : line.Empties) (hopen : m.ports.1.setup.Open)
    (hd : CmosReads other reading values) (h : reading n m.ports.2.2) (hclock : GivesMonths values)
    (sites : String → AssertSite) (r : Rodata) (k : Klogger) (cond : String) :
    ∃ q t, n ≤ q ∧ reading (q + 8) t.ports.2.2 ∧
      Idles (systemDevice b line other) (HaltsIn t) .outOfFuel
        (fun n => (onAssert sites r k n (.assertion cond) : SystemM α)) m ∧
      SystemStopped b r k (.abort (.lit cond) (sites cond)) (rtcResult values q) m t := by
  obtain ⟨q, t, hq, hreads, hidles, hstopped⟩ := stopSystem_stops (b := b) (α := α) hline hopen hd h
    hclock (fun n => onAssert sites r k n) (fun _ => rfl) r k
    (.abort (.lit cond) (sites cond))
  refine ⟨q, t, hq, hreads, .succ ?_, hstopped⟩
  exact hidles

/-- A failed `assert` of any printer ends the run of the kernel. What was printed before is out, the
message follows it, and from then on the processor only executes `hlt`, with its interrupts off; the
code after the `assert` is never reached. -/
theorem failed_assert_stops (b : Beyond) (line : SerialLine) (hline : line.Empties)
    (values : CmosStream) (hclock : GivesMonths values) (sites : String → AssertSite) (r : Rodata)
    (k : Klogger) (m : System CmosChip) (hopen : m.ports.1.setup.Open) (p : Nat → ConsoleM α)
    (hp : ∀ n, (p n).Uses ConsoleOp.OnCom1) (cond : String) (s : Bool × CmosChip)
    (tr : List (ConsoleEvent (Bool × CmosChip)))
    (h : Settles (consoleDevice b (withFlag (cmosDevice values))) p m.ports.2
      (.error (.assertion cond) s) tr) (f : Nat → α → SystemM β) :
    ∃ q t u, s.2.reads ≤ q ∧
      t.ports.1.output = m.ports.1.output ++ serialBytes tr ∧
      t.vga = m.vga.after ((vgaBytes tr).map .put) ∧
      SystemStopped b r k (.abort (.lit cond) (sites cond)) (rtcResult values q) t u ∧
      Idles (systemDevice b line (cmosDevice values)) (HaltsIn u) .outOfFuel
        (fun n => withAsserts sites r k n (onHardware n (p n)) >>= f n) m := by
  obtain ⟨t, hends, hshows⟩ := onHardware_displays hline hopen hp h
  have hopen' : t.ports.1.setup.Open := hshows.serial.setup ▸ hopen
  have hreads : s.2.reads = t.ports.2.2.reads := by rw [hshows.other, endState]
  obtain ⟨q, u, hq, -, hidles, hstopped⟩ := onAssert_stops (b := b) (α := α) hline hopen'
    (cmosDevice_reads values) hreads.symm hclock sites r k cond
  refine ⟨q, t, u, hq, hshows.serial.output, hshows.screen, hstopped, ?_⟩
  exact (Idles.of_fault (onSystem_ends hends) hidles).bind f

/-- A character, and a digit in base 17. -/
def badBase : ConsoleM Unit := do
  callSerialPut serialCom1 0x41
  serialWriteNb serialCom1 1 0 17

def badBaseSite : AssertSite where
  file := .lit "src/drivers/serial.c"
  line := 66

theorem failed_assert_stops_base :
    ∃ q t u, 0 ≤ q ∧ t.ports.1.output = [0x41] ∧ t.vga = (initialHardware (true, ())).vga ∧
      SystemStopped zerosBeyond rodataAt gKlogger
        (.abort (.lit "base <= 16 && \"Base should be <= 16\"") badBaseSite)
        (rtcResult (monthClock 0x12) q) t u ∧
      Idles (systemDevice zerosBeyond echoLine (cmosDevice (monthClock 0x12))) (HaltsIn u) .outOfFuel
        (fun n => withAsserts (fun _ => badBaseSite) rodataAt gKlogger n (onHardware n badBase) >>=
          fun _ => cli)
        (initialHardware (true, ⟨0, 0⟩)) := by
  apply failed_assert_stops zerosBeyond echoLine echoLine_ready.1 (monthClock 0x12)
    (monthClock_months (.inr (by decide))) (fun _ => badBaseSite) rodataAt gKlogger
    (initialHardware (true, ⟨0, 0⟩)) (serialSetup_open _) (fun _ => badBase) ?_
    "base <= 16 && \"Base should be <= 16\"" (true, ⟨0, 0⟩) _ (Settles.const _ _ _)
    fun _ _ => cli
  intro n
  have hput : (callSerialPut serialCom1 0x41).Uses ConsoleOp.OnCom1 := .perform rfl
  exact hput.bind fun _ => .fail _

end BordOS
