import BordOS.Kernel.LoggerSessions
import BordOS.Libc.Memory

namespace BordOS
open Library Prog
set_option autoImplicit true
set_option relaxedAutoImplicit false

/-! ### `UBSan.c` -/

/-- `struct source_location`. Its file name is a pointer that the compiler has put there. -/
structure SourceLocation where
  fileName : VaArg
  line : BitVec 32
  column : BitVec 32

def funcPrefix : CString := .lit "__ubsan_handle"

def CString.drop (s : CString) (i : Nat) : CString where
  chars := s.chars.drop i
  noNul c hc := s.noNul c (List.mem_of_mem_drop hc)

/-- `s + i`, which has no meaning behind the terminator. -/
def CString.advance (s : CString) (i : Nat) : ConsoleM CString :=
  if i ≤ s.chars.length then pure (s.drop i) else .fail (.outOfBounds i)

def locFormat : CString := .lit "Undefined behavior %s at %s:%d col %d"

def locArgs (r : Rodata) (f : CString) (loc : SourceLocation) : VaList :=
  [r.arg f, loc.fileName, .ofWord loc.line, .ofWord loc.column]

/-- `print_loc`. `sizeof(func_prefix)` counts the terminator, so the underscore behind the prefix is
skipped too. -/
def printLoc (fuel : Nat) (r : Rodata) (k : Klogger) (func : CString) (loc : SourceLocation) :
    ConsoleM Unit := do
  let differ ← memcmpLoop (charAt func) (charAt funcPrefix) 14 0
  let f ← (if differ = 0 then func.advance 15 else pure func)
  let _ ← kernelLoggerLog fuel r k .critical locFormat (locArgs r f loc)

section Handlers

variable (sites : String → AssertSite) (fuel : Nat) (r : Rodata) (k : Klogger) (ubsanPanic : Bool)
  (loc : SourceLocation)

/-- What the handlers share. They look at `loc` only, of all that they are given. -/
def ubsanHandle (func text : CString) : SystemM Unit := do
  withAsserts sites r k fuel (onHardware fuel (printLoc fuel r k func loc))
  if ubsanPanic then panic sites fuel r k text

def ubsanHandleTypeMismatch : SystemM Unit :=
  ubsanHandle sites fuel r k ubsanPanic loc
    (.lit "__ubsan_handle_type_mismatch") (.lit "UBSan type mismatch")

def ubsanHandleAddOverflow : SystemM Unit :=
  ubsanHandle sites fuel r k ubsanPanic loc
    (.lit "__ubsan_handle_add_overflow") (.lit "UBSan add overflow")

def ubsanHandleSubOverflow : SystemM Unit :=
  ubsanHandle sites fuel r k ubsanPanic loc
    (.lit "__ubsan_handle_sub_overflow") (.lit "UBSan sub overflow")

def ubsanHandleMulOverflow : SystemM Unit :=
  ubsanHandle sites fuel r k ubsanPanic loc
    (.lit "__ubsan_handle_mul_overflow") (.lit "UBSan mul overflow")

def ubsanHandleNegateOverflow : SystemM Unit :=
  ubsanHandle sites fuel r k ubsanPanic loc
    (.lit "__ubsan_handle_negate_overflow") (.lit "UBSan negate overflow")

def ubsanHandleDivremOverflow : SystemM Unit :=
  ubsanHandle sites fuel r k ubsanPanic loc
    (.lit "__ubsan_handle_divrem_overflow") (.lit "UBSan divrem overflow")

def ubsanHandleShiftOutOfBounds : SystemM Unit :=
  ubsanHandle sites fuel r k ubsanPanic loc
    (.lit "__ubsan_handle_shift_out_of_bounds") (.lit "UBSan shift out of bounds")

def ubsanHandleOutOfBounds : SystemM Unit :=
  ubsanHandle sites fuel r k ubsanPanic loc
    (.lit "__ubsan_handle_out_of_bounds") (.lit "UBSan out of bounds")

def ubsanHandleUnreachable : SystemM Unit :=
  ubsanHandle sites fuel r k ubsanPanic loc
    (.lit "__ubsan_handle_unreachable") (.lit "UBSan unreachable")

/-- The one that does not look at `ubsan_panic`. -/
def ubsanHandleMissingReturn : SystemM Unit := do
  withAsserts sites r k fuel
    (onHardware fuel (printLoc fuel r k (.lit "__ubsan_handle_missing_return") loc))
  panic sites fuel r k (.lit "UBSan missing return")

def ubsanHandleVlaBoundNotPositive : SystemM Unit :=
  ubsanHandle sites fuel r k ubsanPanic loc
    (.lit "__ubsan_handle_vla_bound_not_positive") (.lit "UBSan vla bound not positive")

def ubsanHandleLoadInvalidValue : SystemM Unit :=
  ubsanHandle sites fuel r k ubsanPanic loc
    (.lit "__ubsan_handle_load_invalid_value") (.lit "UBSan load invalid value")

def ubsanHandleNonnullArg : SystemM Unit :=
  ubsanHandle sites fuel r k ubsanPanic loc
    (.lit "__ubsan_handle_nonnull_arg") (.lit "UBSan non null argument")

end Handlers

inductive UbsanHandler where
  | typeMismatch
  | addOverflow
  | subOverflow
  | mulOverflow
  | negateOverflow
  | divremOverflow
  | shiftOutOfBounds
  | outOfBounds
  | unreachable
  | missingReturn
  | vlaBoundNotPositive
  | loadInvalidValue
  | nonnullArg
deriving DecidableEq, Repr

namespace UbsanHandler

/-- `__func__` -/
def func : UbsanHandler → CString
  | typeMismatch => .lit "__ubsan_handle_type_mismatch"
  | addOverflow => .lit "__ubsan_handle_add_overflow"
  | subOverflow => .lit "__ubsan_handle_sub_overflow"
  | mulOverflow => .lit "__ubsan_handle_mul_overflow"
  | negateOverflow => .lit "__ubsan_handle_negate_overflow"
  | divremOverflow => .lit "__ubsan_handle_divrem_overflow"
  | shiftOutOfBounds => .lit "__ubsan_handle_shift_out_of_bounds"
  | outOfBounds => .lit "__ubsan_handle_out_of_bounds"
  | unreachable => .lit "__ubsan_handle_unreachable"
  | missingReturn => .lit "__ubsan_handle_missing_return"
  | vlaBoundNotPositive => .lit "__ubsan_handle_vla_bound_not_positive"
  | loadInvalidValue => .lit "__ubsan_handle_load_invalid_value"
  | nonnullArg => .lit "__ubsan_handle_nonnull_arg"

def text : UbsanHandler → CString
  | typeMismatch => .lit "UBSan type mismatch"
  | addOverflow => .lit "UBSan add overflow"
  | subOverflow => .lit "UBSan sub overflow"
  | mulOverflow => .lit "UBSan mul overflow"
  | negateOverflow => .lit "UBSan negate overflow"
  | divremOverflow => .lit "UBSan divrem overflow"
  | shiftOutOfBounds => .lit "UBSan shift out of bounds"
  | outOfBounds => .lit "UBSan out of bounds"
  | unreachable => .lit "UBSan unreachable"
  | missingReturn => .lit "UBSan missing return"
  | vlaBoundNotPositive => .lit "UBSan vla bound not positive"
  | loadInvalidValue => .lit "UBSan load invalid value"
  | nonnullArg => .lit "UBSan non null argument"

def panics (ubsanPanic : Bool) : UbsanHandler → Bool
  | missingReturn => true
  | _ => ubsanPanic

def code (sites : String → AssertSite) (fuel : Nat) (r : Rodata) (k : Klogger) (ubsanPanic : Bool)
    (h : UbsanHandler) (loc : SourceLocation) : SystemM Unit :=
  match h with
  | typeMismatch => ubsanHandleTypeMismatch sites fuel r k ubsanPanic loc
  | addOverflow => ubsanHandleAddOverflow sites fuel r k ubsanPanic loc
  | subOverflow => ubsanHandleSubOverflow sites fuel r k ubsanPanic loc
  | mulOverflow => ubsanHandleMulOverflow sites fuel r k ubsanPanic loc
  | negateOverflow => ubsanHandleNegateOverflow sites fuel r k ubsanPanic loc
  | divremOverflow => ubsanHandleDivremOverflow sites fuel r k ubsanPanic loc
  | shiftOutOfBounds => ubsanHandleShiftOutOfBounds sites fuel r k ubsanPanic loc
  | outOfBounds => ubsanHandleOutOfBounds sites fuel r k ubsanPanic loc
  | unreachable => ubsanHandleUnreachable sites fuel r k ubsanPanic loc
  | missingReturn => ubsanHandleMissingReturn sites fuel r k loc
  | vlaBoundNotPositive => ubsanHandleVlaBoundNotPositive sites fuel r k ubsanPanic loc
  | loadInvalidValue => ubsanHandleLoadInvalidValue sites fuel r k ubsanPanic loc
  | nonnullArg => ubsanHandleNonnullArg sites fuel r k ubsanPanic loc

theorem code_eq (sites : String → AssertSite) (fuel : Nat) (r : Rodata) (k : Klogger)
    (ubsanPanic : Bool) (h : UbsanHandler) (loc : SourceLocation) :
    h.code sites fuel r k ubsanPanic loc =
      ubsanHandle sites fuel r k (h.panics ubsanPanic) loc h.func h.text := by
  cases h <;> rfl

end UbsanHandler

/-! ### The name of the behavior -/

theorem memcmpLoop_translate {ι κ : Type} {ρ : ι → Type} {τ : κ → Type} {ε : Type}
    (h : (op : ι) → Prog κ τ ε (ρ op)) (load1 load2 : Nat → Prog ι ρ ε (BitVec 8)) (n i : Nat) :
    (memcmpLoop load1 load2 n i).translate h =
      memcmpLoop (fun i => (load1 i).translate h) (fun i => (load2 i).translate h) n i := by
  induction n generalizing i with
  | zero => rfl
  | succ n ih =>
    simp only [memcmpLoop, translate_bind]
    congr 1
    funext x
    congr 1
    funext y
    split_ifs
    · simp only [translate_bind]
      rfl
    · exact ih (i + 1)

theorem byte_take (b : Beyond) (s : CString) {n : Nat} (hn : n ≤ s.chars.length) :
    (List.range' 0 n).map (s.byte b) = s.chars.take n := by
  apply List.ext_getElem
  · rw [List.length_map, List.length_range', List.length_take, Nat.min_eq_left hn]
  · intro i hi hi'
    rw [List.length_map, List.length_range'] at hi
    rw [List.getElem_map, List.getElem_range', List.getElem_take, Nat.zero_add, Nat.one_mul,
      CString.byte_of_lt b (Nat.lt_of_lt_of_le hi hn)]

theorem ubsan_prefix (h : UbsanHandler) :
    15 ≤ h.func.chars.length ∧ h.func.chars.take 14 = funcPrefix.chars := by
  cases h <;> decide

variable {b : Beyond} {line : SerialLine} {other : PortDevice σ}

theorem onHardware_charAt (fuel : Nat) (s : CString) (i : Nat) (m : Hardware σ) :
    (onHardware fuel (charAt s i)).run (hardwareDevice b line other) m = .ok (s.byte b i) m := rfl

/-- The name of a handler without its prefix, as `print_loc` prints it. -/
def UbsanHandler.name (h : UbsanHandler) : CString := h.func.drop 15

theorem printLoc_run (h : UbsanHandler) (fuel : Nat) (r : Rodata) (k : Klogger)
    (loc : SourceLocation) (m : Hardware σ) :
    (onHardware fuel (printLoc fuel r k h.func loc)).run (hardwareDevice b line other) m =
      (onHardware fuel (kernelLoggerLog fuel r k .critical locFormat (locArgs r h.name loc)) >>=
        fun _ => pure ()).run (hardwareDevice b line other) m := by
  obtain ⟨hlen, htake⟩ := ubsan_prefix h
  have hchar (s : CString) (i : Nat) :
      (onHardware fuel (charAt s i)).run (hardwareDevice b line other) m = .ok (s.byte b i) m :=
    onHardware_charAt fuel s i m
  obtain ⟨w, hrun, horders, -⟩ := memcmpLoop_orders (hchar h.func) (hchar funcPrefix) 14 0
  have hzero : w = 0 := by
    rw [horders.equal, byte_take b _ (by omega), byte_take b _ (by decide), htake]
    decide
  have hadvance : h.func.advance 15 = pure h.name := if_pos hlen
  rw [onHardware, printLoc, translate_bind, memcmpLoop_translate, run_bind]
  have hrun' := hrun
  simp only [onHardware] at hrun'
  rw [hrun', hzero]
  simp only [↓reduceIte, hadvance, translate_bind]
  rfl

/-! ### The location -/

/-- What `print_loc` prints, on a sink that puts strings as `put` says. -/
def locText (put : CString → List (BitVec 8)) (name : CString) (loc : SourceLocation) :
    List (BitVec 8) :=
  (CString.lit "Undefined behavior ").chars ++ put name ++ (CString.lit " at ").chars ++
    put loc.fileName.str ++ (CString.lit ":").chars ++ writtenSigned loc.line ++
    (CString.lit " col ").chars ++ writtenSigned loc.column

theorem locFormat_read :
    printfSyntax.read locFormat.chars =
      ((CString.lit "Undefined behavior ").chars.map .literal ++
        (.directive .s :: ((CString.lit " at ").chars.map .literal ++
          (.directive .s :: ((CString.lit ":").chars.map .literal ++
            (.directive .d :: ((CString.lit " col ").chars.map .literal ++ [.directive .d])))))),
        .done) := by
  decide

theorem locFormat_accepted (beyond : VaArg) (r : Rodata) (name : CString) {loc : SourceLocation}
    (hfile : loc.fileName.word ≠ 0) : FormatAccepted beyond locFormat (locArgs r name loc) := by
  have hnull (s : CString) : ¬ (r.arg s).word = 0#32 := r.ne_null s
  have hgiven : ¬ loc.fileName.word = 0#32 := hfile
  rw [FormatAccepted, locFormat_read]
  simp [stringsGiven_literals, StringsGiven, locArgs, hnull, hgiven]

theorem locFormat_refused (beyond : VaArg) (r : Rodata) (name : CString) {loc : SourceLocation}
    (hfile : loc.fileName.word = 0) :
    (formatSteps beyond locFormat (locArgs r name loc)).2 = some (.assertion "str") := by
  have hs : FormatConv.print loc.fileName .s = .error (.assertion "str") := if_pos hfile
  rw [formatSteps, locFormat_read]
  simp only [printSteps_literals, printSteps, locArgs, List.headD_cons, List.tail_cons, r.print_s, hs]

theorem locFormat_printed (beyond : VaArg) (r : Rodata) (name : CString) {loc : SourceLocation}
    (hfile : loc.fileName.word ≠ 0) :
    (formatSteps beyond locFormat (locArgs r name loc)).1.flatMap PrintStep.bytes =
        locText CString.chars name loc ∧
      (formatSteps beyond locFormat (locArgs r name loc)).1.flatMap PrintStep.bytesWithReturns =
        locText (fun s => s.chars.flatMap withReturn) name loc := by
  have hd (w : VaArg) : FormatConv.print w .d = .ok (.number (writtenSigned w.word)) := rfl
  have hs : FormatConv.print loc.fileName .s = .ok (.text loc.fileName.str.chars) := if_neg hfile
  rw [formatSteps, locFormat_read]
  simp only [printSteps_literals, printSteps, locArgs, List.headD_cons, List.tail_cons, r.print_s,
    hd, hs, List.flatMap_append, List.flatMap_cons, literals_bytes]
  constructor <;> simp [PrintStep.bytes, PrintStep.bytesWithReturns, locText, VaArg.ofWord]

structure LocShown (b : Beyond) (r : Rodata) (k : Klogger) (name : CString) (loc : SourceLocation)
    (date : CmosRtc) (m t : Hardware σ) : Prop where
  setup : t.ports.1.setup = m.ports.1.setup
  sent : t.ports.1.output = m.ports.1.output ++
    if k.output &&& logSerial ≠ 0 then
      (headerSteps b r .critical date).flatMap PrintStep.bytesWithReturns ++
        locText (fun s => s.chars.flatMap withReturn) name loc
    else []
  screen : t.vga = m.vga.after
    ((if k.output &&& logGraphic ≠ 0 then
      (headerSteps b r .critical date).flatMap PrintStep.bytes ++ locText CString.chars name loc
    else []).map .put)

/-- A sink gets the location, and its file name is null. -/
def LocRefused (k : Klogger) (loc : SourceLocation) : Prop :=
  loc.fileName.word = 0 ∧ k.Sends .critical

inductive UbsanOutcome (b : Beyond) (line : SerialLine) (values : CmosStream)
    (sites : String → AssertSite) (r : Rodata) (k : Klogger) (ubsanPanic : Bool) (h : UbsanHandler)
    (loc : SourceLocation) (m : System CmosChip) : Prop where
  | aborts (q q' : Nat) (u v : System CmosChip) : LocRefused k loc → m.ports.2.2.reads ≤ q → q < q' →
      RefusedShown b r k.output .critical locFormat (locArgs r h.name loc) (rtcResult values q) m u →
      SystemStopped b r k (.abort (.lit "str") (sites "str")) (rtcResult values q') u v →
      Idles (systemDevice b line (cmosDevice values)) (HaltsIn v) .outOfFuel
        (fun n => h.code sites n r k ubsanPanic loc) m →
      UbsanOutcome b line values sites r k ubsanPanic h loc m
  | panics (q q' : Nat) (u v : System CmosChip) : ¬ LocRefused k loc → h.panics ubsanPanic = true →
      m.ports.2.2.reads ≤ q → q < q' →
      LocShown b r k h.name loc (rtcResult values q) m u →
      SystemStopped b r k (.panic h.text) (rtcResult values q') u v →
      Idles (systemDevice b line (cmosDevice values)) (HaltsIn v) .outOfFuel
        (fun n => h.code sites n r k ubsanPanic loc) m →
      UbsanOutcome b line values sites r k ubsanPanic h loc m
  | returns (q : Nat) (u : System CmosChip) : ¬ LocRefused k loc → h.panics ubsanPanic = false →
      m.ports.2.2.reads ≤ q → LocShown b r k h.name loc (rtcResult values q) m u →
      Converges (systemDevice b line (cmosDevice values))
        (fun n => h.code sites n r k ubsanPanic loc) m () u →
      UbsanOutcome b line values sites r k ubsanPanic h loc m

variable {reading : Nat → σ → Prop} {values : CmosStream} {m : System σ} {n : Nat} {k : Klogger}
  {loc : SourceLocation}

theorem printLoc_shown (hline : line.Empties) (hopen : m.ports.1.setup.Open)
    (hd : CmosReads other reading values) (hn : reading n m.ports.2.2)
    (hclock : GivesMonths values) (r : Rodata) (h : UbsanHandler) (hloc : ¬ LocRefused k loc) :
    ∃ q u, n ≤ q ∧ reading (q + 8) u.ports.2.2 ∧
      Converges (hardwareDevice b line (withFlag other))
        (fun n => onHardware n (printLoc n r k h.func loc)) m () u ∧
      LocShown b r k h.name loc (rtcResult values q) m u := by
  obtain ⟨p, q, hp, hq, hmonth⟩ := hclock n
  have hfile (hsink : k.output &&& logSerial ≠ 0 ∨ k.output &&& logGraphic ≠ 0) :
      loc.fileName.word ≠ 0 := fun hnull => hloc ⟨hnull, critical_passes k, hsink⟩
  obtain ⟨ret, u, hlog, ⟨-, hreads⟩, hshown⟩ := kernelLoggerLog_hardware (b := b) hline hopen
    (hd.withFlag m.ports.2.1) ⟨rfl, hn⟩ hp hq hmonth (critical_passes k)
    (fun hsink => locFormat_accepted b.arg r h.name (hfile hsink)) r
  have hlate : n ≤ q := by
    have := hp.1
    have := hq.1
    omega
  refine ⟨q, u, hlate, hreads, ?_, hshown.setup, ?_, ?_⟩
  · obtain ⟨N, hN⟩ := hlog.bind (f := fun _ _ => pure ()) (.const rfl)
    exact ⟨N, fun n hn => (printLoc_run h n r k loc m).trans (hN n hn)⟩
  · rw [hshown.sent, LogRecord.onSerial, loggedSteps, List.flatMap_append]
    by_cases hset : k.output &&& logSerial ≠ 0
    · rw [if_pos hset, if_pos hset, (locFormat_printed b.arg r h.name (hfile (.inl hset))).2]
    · rw [if_neg hset, if_neg hset]
  · rw [hshown.screen, LogRecord.onVga, loggedSteps, List.flatMap_append]
    by_cases hset : k.output &&& logGraphic ≠ 0
    · rw [if_pos hset, if_pos hset, (locFormat_printed b.arg r h.name (hfile (.inr hset))).1]
    · rw [if_neg hset, if_neg hset]

theorem printLoc_refused (hline : line.Empties) (hopen : m.ports.1.setup.Open)
    (hd : CmosReads other reading values) (hn : reading n m.ports.2.2)
    (hclock : GivesMonths values) (r : Rodata) (h : UbsanHandler) (hloc : LocRefused k loc) :
    ∃ q u, n ≤ q ∧ reading (q + 8) u.ports.2.2 ∧
      Ends (hardwareDevice b line (withFlag other))
        (fun n => onHardware n (printLoc n r k h.func loc)) m (.error (.assertion "str") u) ∧
      RefusedShown b r k.output .critical locFormat (locArgs r h.name loc) (rtcResult values q) m
        u := by
  obtain ⟨p, q, hp, hq, hmonth⟩ := hclock n
  obtain ⟨u, hends, ⟨-, hreads⟩, hshown⟩ := kernelLoggerLog_hardware_refused hline hopen
    (hd.withFlag m.ports.2.1) ⟨rfl, hn⟩ hp hq hmonth hloc.2
    (locFormat_refused b.arg r h.name hloc.1) r
  have hlate : n ≤ q := by
    have := hp.1
    have := hq.1
    omega
  refine ⟨q, u, hlate, hreads, ?_, hshown⟩
  obtain ⟨N, hN⟩ := hends.bind_error (f := fun _ _ => pure ())
  exact ⟨N, fun n hn => (printLoc_run h n r k loc m).trans (hN n hn)⟩

/-- Every call of a handler reports the behavior and where it is, and then panics with the text of
the handler; only with the panics switched off does it return, and only a null file name makes it
abort before. -/
theorem ubsan_handlers_end (b : Beyond) (line : SerialLine) (hline : line.Empties)
    (values : CmosStream) (hclock : GivesMonths values) (sites : String → AssertSite) (r : Rodata)
    (k : Klogger) (m : System CmosChip) (hopen : m.ports.1.setup.Open) (ubsanPanic : Bool)
    (h : UbsanHandler) (loc : SourceLocation) :
    UbsanOutcome b line values sites r k ubsanPanic h loc m := by
  have hd := cmosDevice_reads values
  by_cases hloc : LocRefused k loc
  · obtain ⟨q, u, hq, hreads, hends, hshown⟩ :=
      printLoc_refused (b := b) hline hopen hd rfl hclock r h hloc
    have hopen' : u.ports.1.setup.Open := hshown.setup ▸ hopen
    obtain ⟨q', v, hq', -, hidles, hstopped⟩ := onAssert_stops (b := b) (α := Unit) hline hopen' hd
      hreads hclock sites r k "str"
    refine .aborts q q' u v hloc hq (by omega) hshown hstopped ?_
    simp only [UbsanHandler.code_eq]
    exact (Idles.of_fault (onSystem_ends hends) hidles).bind _
  · obtain ⟨q, u, hq, hreads, hrun, hshown⟩ :=
      printLoc_shown (b := b) hline hopen hd rfl hclock r h hloc
    have hopen' : u.ports.1.setup.Open := hshown.setup ▸ hopen
    have hreport := withAsserts_converges hrun sites r k
    cases hpanics : h.panics ubsanPanic with
    | true =>
      obtain ⟨q', v, hq', -, hidles, hstopped⟩ := panic_stops (b := b) (α := Unit) hline hopen' hd
        hreads hclock sites r k h.text
      refine .panics q q' u v hloc hpanics hq (by omega) hshown hstopped ?_
      simp only [UbsanHandler.code_eq, hpanics]
      exact .after hreport hidles
    | false =>
      refine .returns q u hloc hpanics hq hshown ?_
      simp only [UbsanHandler.code_eq, hpanics]
      exact hreport.bind (.const rfl)

def overflowLoc : SourceLocation where
  fileName := rodataAt.arg (.lit "src/pmm.c")
  line := 42
  column := 7

theorem ubsan_handlers_end_overflow :
    UbsanOutcome zerosBeyond echoLine (monthClock 0x12) (fun _ => badBaseSite) rodataAt gKlogger true
      .addOverflow overflowLoc (initialHardware (true, ⟨0, 0⟩)) :=
  ubsan_handlers_end zerosBeyond echoLine echoLine_ready.1 (monthClock 0x12)
    (monthClock_months (.inr (by decide))) (fun _ => badBaseSite) rodataAt gKlogger
    (initialHardware (true, ⟨0, 0⟩)) (serialSetup_open _) true .addOverflow overflowLoc

end BordOS
