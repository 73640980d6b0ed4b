import BordOS.Libc.Stdlib

namespace BordOS
open Library Prog
set_option autoImplicit true
set_option relaxedAutoImplicit false

/-! ### A call that the printers refuse -/

/-- What the first sink of a mask shows of a message: the other one is not reached. -/
def refusedTo (output : BitVec 8) (steps : List PrintStep) : List Shown :=
  if output &&& logSerial ≠ 0 then steps.flatMap PrintStep.onSerial
  else steps.flatMap PrintStep.onVga

/-- A sink gets the call, and its printer stops at the assert with this condition. -/
def KloggerCall.Refused (b : Beyond) (k : Klogger) (cond : String) : KloggerCall → Prop
  | .log lvl fmt args => k.Sends lvl ∧ (formatSteps b.arg fmt args).2 = some (.assertion cond)
  | _ => False

theorem formatSteps_stop (beyond : VaArg) (fmt : CString) (args : VaList) :
    FormatAccepted beyond fmt args ∨
      ∃ cond, (formatSteps beyond fmt args).2 = some (.assertion cond) := by
  by_cases hgiven : StringsGiven beyond (printfSyntax.read fmt.chars).1 args
  · by_cases hend : (printfSyntax.read fmt.chars).2 = .unsupported
    · rw [formatSteps, (printSteps_given hgiven).1, if_pos hend]
      exact .inr ⟨_, rfl⟩
    · exact .inl ⟨hend, hgiven⟩
  · rw [formatSteps, printSteps_null hgiven]
    exact .inr ⟨_, rfl⟩

section Console

variable {b : Beyond} {ports : PortDevice σ} {s : σ} {reading : Nat → σ → Prop}
  {values : CmosStream} {n p q : Nat}

theorem kernelLoggerPrintMsg_refused (hd : CmosReads ports reading values) (h : reading n s)
    (hp : FirstClear values n p) (hq : FirstClear values (p + 7) q)
    (hmonth : monthRead values q ≤ 12) {output : BitVec 8}
    (hsink : output &&& logSerial ≠ 0 ∨ output &&& logGraphic ≠ 0) {fmt : CString} {args : VaList}
    {f : Fault} (hfmt : (formatSteps b.arg fmt args).2 = some f) (r : Rodata) (lvl : LogLevel) :
    ∃ t, Prints b ports (fun n => kernelLoggerPrintMsg n r output lvl fmt args) s (.error f t)
      (sentTo output (headerSteps b r lvl (rtcResult values q)) ++
        refusedTo output (formatSteps b.arg fmt args).1) ∧ reading (q + 8) t := by
  obtain ⟨t, hheader, ht⟩ :=
    kernelLoggerPrintHeader_prints (b := b) hd h hp hq output (fun _ => hmonth) r lvl
  obtain ⟨hscreen, hserial⟩ :=
    printers_print b ports (printfSyntax.read_reads fmt.chars) args t
  rw [formatSteps] at hfmt
  rw [hfmt] at hscreen hserial
  refine ⟨t, hheader.bind ?_, ht⟩
  rw [refusedTo]
  by_cases hset : output &&& logSerial ≠ 0
  · simp only [if_pos hset]
    exact hserial.bind_error
  · simp only [if_neg hset, if_pos (hsink.resolve_left hset)]
    exact (Prints.pure 0).bind hscreen.bind_error

end Console

theorem refusedTo_serialByte (output : BitVec 8) (steps : List PrintStep) :
    (refusedTo output steps).filterMap Shown.serialByte? =
      if output &&& logSerial ≠ 0 then steps.flatMap PrintStep.bytesWithReturns else [] := by
  rw [refusedTo]
  split_ifs <;> simp [List.filterMap_flatMap, PrintStep.onSerial_serialByte,
    PrintStep.onVga_serialByte]

theorem refusedTo_vgaByte (output : BitVec 8) (steps : List PrintStep) :
    (refusedTo output steps).filterMap Shown.vgaByte? =
      if output &&& logSerial ≠ 0 then [] else steps.flatMap PrintStep.bytes := by
  rw [refusedTo]
  split_ifs <;> simp [List.filterMap_flatMap, PrintStep.onSerial_vgaByte, PrintStep.onVga_vgaByte]

/-- What a refused call has done to the hardware: the header is on every sink, and the message on the
first one up to the refusal. -/
structure RefusedShown (b : Beyond) (r : Rodata) (output : BitVec 8) (lvl : LogLevel)
    (fmt : CString) (args : VaList) (date : CmosRtc) (m t : Hardware σ) : Prop where
  setup : t.ports.1.setup = m.ports.1.setup
  sent : t.ports.1.output = m.ports.1.output ++
    if output &&& logSerial ≠ 0 then
      (headerSteps b r lvl date).flatMap PrintStep.bytesWithReturns ++
        (formatSteps b.arg fmt args).1.flatMap PrintStep.bytesWithReturns
    else []
  screen : t.vga = m.vga.after
    (((if output &&& logGraphic ≠ 0 then (headerSteps b r lvl date).flatMap PrintStep.bytes else []) ++
      if output &&& logSerial ≠ 0 then []
      else (formatSteps b.arg fmt args).1.flatMap PrintStep.bytes).map .put)

variable {b : Beyond} {line : SerialLine} {reading : Nat → σ → Prop} {values : CmosStream}

theorem kernelLoggerLog_hardware_refused {other : PortDevice σ} {m : Hardware σ} {k : Klogger}
    {n p q : Nat} (hline : line.Empties) (hopen : m.ports.1.setup.Open)
    (hd : CmosReads other reading values) (h : reading n m.ports.2)
    (hp : FirstClear values n p) (hq : FirstClear values (p + 7) q)
    (hmonth : monthRead values q ≤ 12) {lvl : LogLevel} (hsend : k.Sends lvl) {fmt : CString}
    {args : VaList} {f : Fault} (hfmt : (formatSteps b.arg fmt args).2 = some f) (r : Rodata) :
    ∃ t, Ends (hardwareDevice b line other)
        (fun n => onHardware n (kernelLoggerLog n r k lvl fmt args)) m (.error f t) ∧
      reading (q + 8) t.ports.2 ∧
      RefusedShown b r k.output lvl fmt args (rtcResult values q) m t := by
  obtain ⟨hlvl, hsink⟩ := hsend
  obtain ⟨s, ⟨tr, hset, hshown, -⟩, hreads⟩ :=
    kernelLoggerPrintMsg_refused hd h hp hq hmonth hsink hfmt r lvl
  have hlog : Settles (consoleDevice b other) (fun n => kernelLoggerLog n r k lvl fmt args)
      m.ports.2 (.error f s) tr := by
    simp only [kernelLoggerLog, ge_iff_le, if_pos hlvl]
    exact hset
  obtain ⟨t, hends, hdisplays⟩ := onHardware_displays hline hopen
    (fun n => kernelLoggerLog_uses onCom1_logs n r k lvl fmt args) hlog
  have hother : t.ports.2 = s := hdisplays.other
  refine ⟨t, hends, hother ▸ hreads, hdisplays.serial.setup, ?_, ?_⟩
  · rw [hdisplays.serial.output, serialBytes, hshown, List.filterMap_append, sentTo_serialByte,
      refusedTo_serialByte]
    split_ifs <;> rfl
  · rw [hdisplays.screen, vgaBytes, hshown, List.filterMap_append, sentTo_vgaByte,
      refusedTo_vgaByte]

/-! ### Sessions -/

/-- What records have done to the hardware, each with the clock's reading that ends at one of the
numbers. -/
structure SessionShown (b : Beyond) (r : Rodata) (values : CmosStream) (recs : List LogRecord)
    (qs : List Nat) (m t : Hardware σ) : Prop where
  length : qs.length = recs.length
  setup : t.ports.1.setup = m.ports.1.setup
  sent : t.ports.1.output = m.ports.1.output ++
    (List.zipWith (fun rec q => rec.onSerial b r (rtcResult values q)) recs qs).flatten
  screen : t.vga = m.vga.after
    ((List.zipWith (fun rec q => rec.onVga b r (rtcResult values q)) recs qs).flatten.map .put)

namespace SessionShown

variable {r : Rodata} {m t u : Hardware σ} {recs recs' : List LogRecord} {qs qs' : List Nat}

theorem nil (b : Beyond) (r : Rodata) (values : CmosStream) (m : Hardware σ) :
    SessionShown b r values [] [] m m where
  length := rfl
  setup := rfl
  sent := (List.append_nil _).symm
  screen := rfl

theorem single {rec : LogRecord} {q : Nat} (h : rec.Shown b r (rtcResult values q) m t) :
    SessionShown b r values [rec] [q] m t where
  length := rfl
  setup := h.setup
  sent := by
    rw [h.sent, List.zipWith_cons_cons, List.zipWith_nil_left, List.flatten_singleton]
  screen := by
    rw [h.screen, List.zipWith_cons_cons, List.zipWith_nil_left, List.flatten_singleton]

theorem append (h : SessionShown b r values recs qs m t)
    (h' : SessionShown b r values recs' qs' t u) :
    SessionShown b r values (recs ++ recs') (qs ++ qs') m u where
  length := by rw [List.length_append, List.length_append, h.length, h'.length]
  setup := h'.setup.trans h.setup
  sent := by
    rw [h'.sent, h.sent, List.zipWith_append h.length.symm, List.flatten_append, List.append_assoc]
  screen := by
    rw [h'.screen, h.screen, List.zipWith_append h.length.symm, List.flatten_append, List.map_append,
      VgaMachine.after_append]

end SessionShown

/-- Calls through `g_klogger` in a row, with their asserts. -/
def kloggerSession (sites : String → AssertSite) (r : Rodata) (fuel : Nat) :
    Klogger → List KloggerCall → SystemM Klogger
  | k, [] => pure k
  | k, c :: calls => do
    withAsserts sites r k fuel (c.code fuel r k)
    kloggerSession sites r fuel (c.set k) calls

def kloggerAfter (k : Klogger) (calls : List KloggerCall) : Klogger :=
  calls.foldl (fun k c => c.set k) k

/-- No call of a session is refused, at the level and the mask that it finds. -/
def NoneRefused (b : Beyond) (k : Klogger) (calls : List KloggerCall) : Prop :=
  ∀ done c rest cond, calls = done ++ c :: rest → ¬ c.Refused b (kloggerAfter k done) cond

theorem NoneRefused.nil (b : Beyond) (k : Klogger) : NoneRefused b k [] := by
  intro done c rest cond hcalls
  exact absurd hcalls.symm (List.append_ne_nil_of_right_ne_nil _ (List.cons_ne_nil _ _))

theorem NoneRefused.cons {k : Klogger} {c : KloggerCall} {calls : List KloggerCall}
    (hc : ∀ cond, ¬ c.Refused b k cond) (h : NoneRefused b (c.set k) calls) :
    NoneRefused b k (c :: calls) := by
  intro done c' rest cond hcalls
  cases done with
  | nil =>
    obtain ⟨rfl, -⟩ := List.cons.inj hcalls
    exact hc cond
  | cons d done =>
    obtain ⟨rfl, hrest⟩ := List.cons.inj hcalls
    exact h done c' rest cond hrest

structure SessionReturns (b : Beyond) (line : SerialLine) (other : PortDevice σ)
    (values : CmosStream) (sites : String → AssertSite) (r : Rodata) (k : Klogger)
    (calls : List KloggerCall) (qs : List Nat) (m t : System σ) : Prop where
  accepted : NoneRefused b k calls
  shown : SessionShown b r values (logRecords k calls) qs m t
  run : Converges (systemDevice b line other) (fun n => kloggerSession sites r n k calls) m
    (kloggerAfter k calls) t

/-- The call after `done` is the first one that is refused, and stops the system. -/
structure SessionStops (b : Beyond) (line : SerialLine) (other : PortDevice σ)
    (values : CmosStream) (sites : String → AssertSite) (r : Rodata) (k : Klogger)
    (calls done rest : List KloggerCall) (lvl : LogLevel) (fmt : CString) (args : VaList)
    (qs : List Nat) (q q' : Nat) (m v : System σ) : Prop where
  calls_eq : calls = done ++ .log lvl fmt args :: rest
  accepted : NoneRefused b k done
  stopped : ∃ cond t u,
    KloggerCall.Refused b (kloggerAfter k done) cond (.log lvl fmt args) ∧
    SessionShown b r values (logRecords k done) qs m t ∧
    RefusedShown b r (kloggerAfter k done).output lvl fmt args (rtcResult values q) t u ∧
    SystemStopped b r (kloggerAfter k done) (.abort (.lit cond) (sites cond))
      (rtcResult values q') u v
  run : Idles (systemDevice b line other) (HaltsIn v) .outOfFuel
    (fun n => kloggerSession sites r n k calls) m

variable {other : PortDevice σ} {m : System σ} {n : Nat}

theorem withAsserts_converges {p : Nat → ScreenM α} {a : α} {t : System σ}
    (h : Converges (hardwareDevice b line (withFlag other)) p m a t)
    (sites : String → AssertSite) (r : Rodata) (k : Klogger) :
    Converges (systemDevice b line other) (fun n => withAsserts sites r k n (p n)) m a t :=
  (onSystem_converges h).recover fun n => onAssert sites r k n

/-- The step lemma: a call that is not refused returns, after at most one reading of the clock. -/
theorem KloggerCall.returns (hline : line.Empties) (hopen : m.ports.1.setup.Open)
    (hd : CmosReads other reading values) (h : reading n m.ports.2.2) (hclock : GivesMonths values)
    (sites : String → AssertSite) (r : Rodata) (k : Klogger) (c : KloggerCall)
    (hc : ∀ cond, ¬ c.Refused b k cond) :
    ∃ qs n' t, Converges (systemDevice b line other)
        (fun n => withAsserts sites r k n (c.code n r k)) m () t ∧
      t.interruptFlag = m.interruptFlag ∧ reading n' t.ports.2.2 ∧ n ≤ n' ∧
      (∀ q ∈ qs, n ≤ q ∧ q < n') ∧ qs.Pairwise (· < ·) ∧
      SessionShown b r values (c.record? k).toList qs m t := by
  have hnone : ∃ qs n', m.interruptFlag = m.interruptFlag ∧ reading n' m.ports.2.2 ∧ n ≤ n' ∧
      (∀ q ∈ qs, n ≤ q ∧ q < n') ∧ qs.Pairwise (· < ·) ∧ SessionShown b r values [] qs m m :=
    ⟨[], n, rfl, h, Nat.le_refl n, fun q hq => absurd hq List.not_mem_nil, .nil,
      .nil b r values m⟩
  cases c with
  | setLevel level =>
    obtain ⟨qs, n', hnone⟩ := hnone
    exact ⟨qs, n', m, .const rfl, hnone⟩
  | setOutput output =>
    obtain ⟨qs, n', hnone⟩ := hnone
    exact ⟨qs, n', m, .const rfl, hnone⟩
  | log lvl fmt args =>
    by_cases hlvl : k.level.toInt ≤ lvl.toInt
    · have hfmt (hsink : k.output &&& logSerial ≠ 0 ∨ k.output &&& logGraphic ≠ 0) :
          FormatAccepted b.arg fmt args := by
        rcases formatSteps_stop b.arg fmt args with hfmt | ⟨cond, hstop⟩
        · exact hfmt
        · exact absurd ⟨⟨hlvl, hsink⟩, hstop⟩ (hc cond)
      obtain ⟨p, q, hp, hq, hmonth⟩ := hclock n
      obtain ⟨ret, t, hrun, ⟨hflag, hreads⟩, hshown⟩ := kernelLoggerLog_hardware (b := b) hline hopen
        (hd.withFlag m.ports.2.1) ⟨rfl, h⟩ hp hq hmonth hlvl hfmt r
      have hlate : n ≤ q := by
        have := hp.1
        have := hq.1
        omega
      refine ⟨[q], q + 8, t, withAsserts_converges (hrun.bind (.const rfl)) sites r k, hflag,
        hreads, by omega, ?_, List.pairwise_singleton _ _, ?_⟩
      · intro q' hq'
        obtain rfl := List.mem_singleton.1 hq'
        exact ⟨hlate, by omega⟩
      · rw [record?, if_pos hlvl]
        exact .single hshown
    · obtain ⟨qs, n', hnone⟩ := hnone
      refine ⟨qs, n', m, ?_, ?_⟩
      · simp only [code, kernelLoggerLog_hardware_below hlvl]
        exact .const rfl
      · rw [record?, if_neg hlvl]
        exact hnone

theorem KloggerCall.stops (hline : line.Empties) (hopen : m.ports.1.setup.Open)
    (hd : CmosReads other reading values) (h : reading n m.ports.2.2) (hclock : GivesMonths values)
    (sites : String → AssertSite) (r : Rodata) (k : Klogger) {lvl : LogLevel} {fmt : CString}
    {args : VaList} {cond : String} (hc : KloggerCall.Refused b k cond (.log lvl fmt args)) :
    ∃ q q' u v, n ≤ q ∧ q < q' ∧
      RefusedShown b r k.output lvl fmt args (rtcResult values q) m u ∧
      SystemStopped b r k (.abort (.lit cond) (sites cond)) (rtcResult values q') u v ∧
      Idles (systemDevice b line other) (HaltsIn v) .outOfFuel
        (fun n => withAsserts sites r k n (KloggerCall.code n r k (.log lvl fmt args))) m := by
  obtain ⟨p, q, hp, hq, hmonth⟩ := hclock n
  obtain ⟨u, hends, ⟨-, hreads⟩, hshown⟩ := kernelLoggerLog_hardware_refused hline hopen
    (hd.withFlag m.ports.2.1) ⟨rfl, h⟩ hp hq hmonth hc.1 hc.2 r
  have hopen' : u.ports.1.setup.Open := hshown.setup ▸ hopen
  obtain ⟨q', v, hq', -, hidles, hstopped⟩ := onAssert_stops (b := b) (α := Unit) hline hopen' hd
    hreads hclock sites r k cond
  have hlate : n ≤ q := by
    have := hp.1
    have := hq.1
    omega
  exact ⟨q, q', u, v, hlate, by omega, hshown, hstopped,
    .of_fault (onSystem_ends hends.bind_error) hidles⟩

theorem SessionReturns.cons {sites : String → AssertSite} {r : Rodata} {k : Klogger}
    {c : KloggerCall} {calls : List KloggerCall} {qs qs' : List Nat} {t u : System σ}
    (hc : ∀ cond, ¬ c.Refused b k cond)
    (hrun : Converges (systemDevice b line other)
      (fun n => withAsserts sites r k n (c.code n r k)) m () t)
    (hshown : SessionShown b r values (c.record? k).toList qs m t)
    (h : SessionReturns b line other values sites r (c.set k) calls qs' t u) :
    SessionReturns b line other values sites r k (c :: calls) (qs ++ qs') m u where
  accepted := h.accepted.cons hc
  shown := hshown.append h.shown
  run := hrun.bind h.run

theorem SessionStops.cons {sites : String → AssertSite} {r : Rodata} {k : Klogger}
    {c : KloggerCall} {calls done rest : List KloggerCall} {lvl : LogLevel} {fmt : CString}
    {args : VaList} {qs qs' : List Nat} {q q' : Nat} {t v : System σ}
    (hc : ∀ cond, ¬ c.Refused b k cond)
    (hrun : Converges (systemDevice b line other)
      (fun n => withAsserts sites r k n (c.code n r k)) m () t)
    (hshown : SessionShown b r values (c.record? k).toList qs m t)
    (h : SessionStops b line other values sites r (c.set k) calls done rest lvl fmt args qs' q q' t
      v) :
    SessionStops b line other values sites r k (c :: calls) (c :: done) rest lvl fmt args (qs ++ qs')
      q q' m v where
  calls_eq := congrArg (c :: ·) h.calls_eq
  accepted := h.accepted.cons hc
  stopped := by
    obtain ⟨cond, t', u, hrefused, hall, hrest⟩ := h.stopped
    exact ⟨cond, t', u, hrefused, hshown.append hall, hrest⟩
  run := .after hrun h.run

/-- The run lemma. -/
theorem kloggerSession_outcome (hline : line.Empties) (hopen : m.ports.1.setup.Open)
    (hd : CmosReads other reading values) (h : reading n m.ports.2.2) (hclock : GivesMonths values)
    (sites : String → AssertSite) (r : Rodata) (k : Klogger) (calls : List KloggerCall) :
    (∃ qs t, (∀ q ∈ qs, n ≤ q) ∧ qs.Pairwise (· < ·) ∧
        SessionReturns b line other values sites r k calls qs m t) ∨
      ∃ done rest lvl fmt args qs q q' v,
        (∀ x ∈ qs ++ [q, q'], n ≤ x) ∧ (qs ++ [q, q']).Pairwise (· < ·) ∧
        SessionStops b line other values sites r k calls done rest lvl fmt args qs q q' m v := by
  induction calls generalizing m k n with
  | nil =>
    refine .inl ⟨[], m, fun q hq => absurd hq List.not_mem_nil, .nil, .nil b k, .nil b r values m, ?_⟩
    exact .const rfl
  | cons c calls ih =>
    by_cases hrefused : ∃ cond, c.Refused b k cond
    · obtain ⟨cond, hc⟩ := hrefused
      cases c with
      | setLevel level => exact absurd hc not_false
      | setOutput output => exact absurd hc not_false
      | log lvl fmt args =>
        obtain ⟨q, q', u, v, hq, hq', hshown, hstopped, hidles⟩ :=
          KloggerCall.stops hline hopen hd h hclock sites r k hc
        refine .inr ⟨[], calls, lvl, fmt, args, [], q, q', v, ?_, ?_, rfl, .nil b k,
          ⟨cond, m, u, hc, .nil b r values m, hshown, hstopped⟩, hidles.bind _⟩
        · simp only [List.nil_append, List.forall_mem_cons]
          exact ⟨hq, by omega, fun x hx => absurd hx List.not_mem_nil⟩
        · exact List.pairwise_pair.2 hq'
    · have hc (cond : String) : ¬ c.Refused b k cond := fun hc => hrefused ⟨cond, hc⟩
      obtain ⟨qs, n', t, hrun, -, hreads, hn', hqs, hsorted, hshown⟩ :=
        c.returns hline hopen hd h hclock sites r k hc
      have hopen' : t.ports.1.setup.Open := hshown.setup ▸ hopen
      have hjoin {xs : List Nat} (hxs : ∀ x ∈ xs, n' ≤ x) (hpair : xs.Pairwise (· < ·)) :
          (∀ x ∈ qs ++ xs, n ≤ x) ∧ (qs ++ xs).Pairwise (· < ·) := by
        constructor
        · intro x hx
          rcases List.mem_append.1 hx with hx | hx
          · exact (hqs x hx).1
          · exact Nat.le_trans hn' (hxs x hx)
        · exact List.pairwise_append.2 ⟨hsorted, hpair, fun x hx y hy =>
            Nat.lt_of_lt_of_le (hqs x hx).2 (hxs y hy)⟩
      rcases ih hopen' hreads (c.set k) with ⟨qs', u, hall, hpair, hreturns⟩ |
        ⟨done, rest, lvl, fmt, args, qs', q, q', v, hall, hpair, hstops⟩
      · obtain ⟨hall', hpair'⟩ := hjoin hall hpair
        exact .inl ⟨qs ++ qs', u, hall', hpair', .cons hc hrun hshown hreturns⟩
      · obtain ⟨hall', hpair'⟩ := hjoin hall hpair
        rw [← List.append_assoc] at hall' hpair'
        exact .inr ⟨c :: done, rest, lvl, fmt, args, qs ++ qs', q, q', v, hall', hpair',
          .cons hc hrun hshown hstops⟩

/-- Every session of calls through `g_klogger`, whatever the formats and their arguments are, returns
or stops the system at the first call that a printer refuses. What the calls before it let through is
on their sinks, and the abort message comes last. -/
theorem klogger_sessions_outcome (b : Beyond) (line : SerialLine) (hline : line.Empties)
    (values : CmosStream) (hclock : GivesMonths values) (sites : String → AssertSite) (r : Rodata)
    (k : Klogger) (m : System CmosChip) (hopen : m.ports.1.setup.Open)
    (calls : List KloggerCall) :
    (NoneRefused b k calls ∧ ∃ qs t, qs.Pairwise (· < ·) ∧
        SessionReturns b line (cmosDevice values) values sites r k calls qs m t) ∨
      (¬ NoneRefused b k calls ∧ ∃ done rest lvl fmt args qs q q' v,
        (qs ++ [q, q']).Pairwise (· < ·) ∧
        SessionStops b line (cmosDevice values) values sites r k calls done rest lvl fmt args qs q q'
          m v) := by
  rcases kloggerSession_outcome (b := b) hline hopen (cmosDevice_reads values) rfl hclock sites r k
    calls with ⟨qs, t, -, hpair, h⟩ | ⟨done, rest, lvl, fmt, args, qs, q, q', v, -, hpair, h⟩
  · exact .inl ⟨h.accepted, qs, t, hpair, h⟩
  · refine .inr ⟨?_, done, rest, lvl, fmt, args, qs, q, q', v, hpair, h⟩
    obtain ⟨cond, t, u, hrefused, -⟩ := h.stopped
    exact fun hnone => hnone done _ rest cond h.calls_eq hrefused

def floatCalls : List KloggerCall :=
  [.log .info (.lit "up") [], .log .info (.lit "%f") [], .log .info (.lit "down") []]

theorem klogger_sessions_outcome_float :
    (NoneRefused zerosBeyond gKlogger floatCalls ∧ ∃ qs t, qs.Pairwise (· < ·) ∧
        SessionReturns zerosBeyond echoLine (cmosDevice (monthClock 0x12)) (monthClock 0x12)
          (fun _ => badBaseSite) rodataAt gKlogger floatCalls qs (initialHardware (true, ⟨0, 0⟩)) t) ∨
      (¬ NoneRefused zerosBeyond gKlogger floatCalls ∧ ∃ done rest lvl fmt args qs q q' v,
        (qs ++ [q, q']).Pairwise (· < ·) ∧
        SessionStops zerosBeyond echoLine (cmosDevice (monthClock 0x12)) (monthClock 0x12)
          (fun _ => badBaseSite) rodataAt gKlogger floatCalls done rest lvl fmt args qs q q'
          (initialHardware (true, ⟨0, 0⟩)) v) :=
  klogger_sessions_outcome zerosBeyond echoLine echoLine_ready.1 (monthClock 0x12)
    (monthClock_months (.inr (by decide))) (fun _ => badBaseSite) rodataAt gKlogger
    (initialHardware (true, ⟨0, 0⟩)) (serialSetup_open _) floatCalls

end BordOS
