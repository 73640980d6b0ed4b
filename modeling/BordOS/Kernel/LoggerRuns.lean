import BordOS.Kernel.LoggerBounds
import BordOS.Library.Transition

namespace BordOS
open Library
set_option autoImplicit true
set_option relaxedAutoImplicit false

inductive KloggerCall where
  | setLevel (level : LogLevel)
  | setOutput (output : BitVec 8)
  | log (lvl : LogLevel) (fmt : CString) (args : VaList)
deriving DecidableEq

def KloggerCall.level? : KloggerCall → Option LogLevel
  | .setLevel level => some level
  | _ => none

def KloggerCall.output? : KloggerCall → Option (BitVec 8)
  | .setOutput output => some output
  | _ => none

def lastSet (f : KloggerCall → Option α) (init : α) (calls : List KloggerCall) : α :=
  (calls.filterMap f).getLastD init

structure LoggerState where
  klogger : Klogger
  chip : CmosChip

structure LoggerRecord where
  call : KloggerCall
  ret : BitVec 32
  trace : List (ConsoleEvent CmosChip)

inductive LoggerNext (b : Beyond) (r : Rodata) (values : CmosStream) :
    LoggerState → LoggerRecord → LoggerState → Prop where
  | setLevel (k : Klogger) (c : CmosChip) (level : LogLevel) :
      LoggerNext b r values ⟨k, c⟩ ⟨.setLevel level, 0, []⟩ ⟨kernelLoggerSetLevel level k, c⟩
  | setOutput (k : Klogger) (c : CmosChip) (output : BitVec 8) :
      LoggerNext b r values ⟨k, c⟩ ⟨.setOutput output, 0, []⟩ ⟨kernelLoggerSetOutput output k, c⟩
  | log {k : Klogger} {c c' : CmosChip} {lvl : LogLevel} {fmt : CString} {args : VaList}
      {ret : BitVec 32} {tr : List (ConsoleEvent CmosChip)}
      (h : Prog.Settles (consoleDevice b (cmosDevice values))
        (fun n => kernelLoggerLog n r k lvl fmt args) c (.ok ret c') tr) :
      LoggerNext b r values ⟨k, c⟩ ⟨.log lvl fmt args, ret, tr⟩ ⟨k, c'⟩

/-- The clock ends its updates, and the month that it then gives has a name. -/
def GivesMonths (values : CmosStream) : Prop :=
  ∀ n, ∃ p q, FirstClear values n p ∧ FirstClear values (p + 7) q ∧ monthRead values q ≤ 12

def KloggerCall.Accepted (beyond : VaArg) : KloggerCall → Prop
  | .log _ fmt args => FormatAccepted beyond fmt args
  | _ => True

def loggedSteps (b : Beyond) (r : Rodata) (lvl : LogLevel) (date : CmosRtc) (fmt : CString)
    (args : VaList) : List PrintStep :=
  headerSteps b r lvl date ++ (formatSteps b.arg fmt args).1

/-- What a log call has to do under a level and a mask. One reading of the clock serves both
sinks. -/
structure LogServed (b : Beyond) (r : Rodata) (values : CmosStream) (level : LogLevel)
    (output : BitVec 8) (c : CmosChip) (lvl : LogLevel) (fmt : CString) (args : VaList)
    (ret : BitVec 32) (trace : List (ConsoleEvent CmosChip)) : Prop where
  emits : trace ≠ [] ↔ level.toInt ≤ lvl.toInt
  filtered : trace = [] → ret = 0
  sends : level.toInt ≤ lvl.toInt → ∃ p q,
    FirstClear values c.reads p ∧ FirstClear values (p + 7) q ∧
      shown trace = sentTo output (headerSteps b r lvl (rtcResult values q)) ++
        sentTo output (formatSteps b.arg fmt args).1 ∧
      serialBytes trace = (if output &&& logSerial ≠ 0 then
        (loggedSteps b r lvl (rtcResult values q) fmt args).flatMap PrintStep.bytesWithReturns
        else []) ∧
      vgaBytes trace = (if output &&& logGraphic ≠ 0 then
        (loggedSteps b r lvl (rtcResult values q) fmt args).flatMap PrintStep.bytes else [])

def LoggerRecord.Served (b : Beyond) (r : Rodata) (values : CmosStream) (level : LogLevel)
    (output : BitVec 8) (c : CmosChip) (rec : LoggerRecord) : Prop :=
  match rec.call with
  | .log lvl fmt args => LogServed b r values level output c lvl fmt args rec.ret rec.trace
  | _ => rec.trace = []

variable {b : Beyond} {ports : PortDevice σ} {reading : Nat → σ → Prop} {values : CmosStream}
  {s : σ} {r : Rodata}

theorem kernelLoggerPrintMsg_prints (hd : CmosReads ports reading values) (h : reading n s)
    (hp : FirstClear values n p) (hq : FirstClear values (p + 7) q)
    (hmonth : monthRead values q ≤ 12) (output : BitVec 8) {fmt : CString} {args : VaList}
    (hfmt : output &&& logSerial ≠ 0 ∨ output &&& logGraphic ≠ 0 → FormatAccepted b.arg fmt args)
    (r : Rodata) (lvl : LogLevel) :
    ∃ ret t, Prints b ports (fun n => kernelLoggerPrintMsg n r output lvl fmt args) s (.ok ret t)
      (sentTo output (headerSteps b r lvl (rtcResult values q)) ++
        sentTo output (formatSteps b.arg fmt args).1) ∧ reading (q + 8) t := by
  obtain ⟨t, hheader, ht⟩ :=
    kernelLoggerPrintHeader_prints (b := b) hd h hp hq output (fun _ => hmonth) r lvl
  have hsent : sentTo output (formatSteps b.arg fmt args).1 =
      (if output &&& logSerial ≠ 0 then
        (formatSteps b.arg fmt args).1.flatMap PrintStep.onSerial else []) ++
      ((if output &&& logGraphic ≠ 0 then
        (formatSteps b.arg fmt args).1.flatMap PrintStep.onVga else []) ++ []) := by
    rw [List.append_nil, sentTo]
  refine ⟨sentLength output headerFormat +
    (if output &&& logSerial ≠ 0 then BitVec.ofNat 32 fmt.chars.length else 0) +
    (if output &&& logGraphic ≠ 0 then BitVec.ofNat 32 fmt.chars.length else 0), t, ?_, ht⟩
  rw [hsent]
  exact hheader.bind ((Prints.flagged fun hset => ((hfmt (.inl hset)).prints ports t).1).bind
    ((Prints.flagged fun hset => ((hfmt (.inr hset)).prints ports t).2).bind (.pure _)))

theorem sentTo_serialByte (output : BitVec 8) (steps : List PrintStep) :
    (sentTo output steps).filterMap Shown.serialByte? =
      if output &&& logSerial ≠ 0 then steps.flatMap PrintStep.bytesWithReturns else [] := by
  rw [sentTo, List.filterMap_append]
  split_ifs <;> simp [List.filterMap_flatMap, PrintStep.onSerial_serialByte,
    PrintStep.onVga_serialByte]

theorem sentTo_vgaByte (output : BitVec 8) (steps : List PrintStep) :
    (sentTo output steps).filterMap Shown.vgaByte? =
      if output &&& logGraphic ≠ 0 then steps.flatMap PrintStep.bytes else [] := by
  rw [sentTo, List.filterMap_append]
  split_ifs <;> simp [List.filterMap_flatMap, PrintStep.onSerial_vgaByte, PrintStep.onVga_vgaByte]

theorem kernelLoggerLog_sends (hclock : GivesMonths values) {fmt : CString} {args : VaList}
    (hfmt : FormatAccepted b.arg fmt args) (r : Rodata) {k : Klogger} {lvl : LogLevel}
    (hlvl : k.level.toInt ≤ lvl.toInt) (c : CmosChip) :
    ∃ ret c' tr, Prog.Settles (consoleDevice b (cmosDevice values))
        (fun n => kernelLoggerLog n r k lvl fmt args) c (.ok ret c') tr ∧
      LogServed b r values k.level k.output c lvl fmt args ret tr := by
  obtain ⟨p, q, hp, hq, hmonth⟩ := hclock c.reads
  obtain ⟨ret, c', ⟨tr, hset, hshown, -⟩, hreads⟩ :=
    kernelLoggerPrintMsg_prints (cmosDevice_reads values) rfl hp hq hmonth k.output (fun _ => hfmt)
      r lvl
  have hne : tr ≠ [] := by
    -- the clock was read, so the chip has moved on
    rintro rfl
    obtain ⟨N, hN⟩ := hset
    obtain ⟨hrun, hevents⟩ := hN N (Nat.le_refl N)
    have hsame := Prog.run_of_events_nil hevents hrun
    rw [hsame] at hreads
    have := hp.1
    have := hq.1
    omega
  have hlog : Prog.Settles (consoleDevice b (cmosDevice values))
      (fun n => kernelLoggerLog n r k lvl fmt args) c (.ok ret c') tr := by
    simp only [kernelLoggerLog, ge_iff_le, if_pos hlvl]
    exact hset
  refine ⟨ret, c', tr, hlog, ⟨fun _ => hlvl, fun _ => hne⟩, fun h => absurd h hne, ?_⟩
  intro _
  refine ⟨p, q, hp, hq, hshown, ?_, ?_⟩
  · rw [serialBytes, hshown, List.filterMap_append, sentTo_serialByte, sentTo_serialByte,
      loggedSteps, List.flatMap_append]
    split_ifs <;> rfl
  · rw [vgaBytes, hshown, List.filterMap_append, sentTo_vgaByte, sentTo_vgaByte, loggedSteps,
      List.flatMap_append]
    split_ifs <;> rfl

theorem kernelLoggerLog_filtered (b : Beyond) (r : Rodata) (values : CmosStream) {k : Klogger}
    {lvl : LogLevel} (hlvl : ¬ k.level.toInt ≤ lvl.toInt) (c : CmosChip) (fmt : CString)
    (args : VaList) :
    Prog.Settles (consoleDevice b (cmosDevice values))
        (fun n => kernelLoggerLog n r k lvl fmt args) c (.ok 0 c) [] ∧
      LogServed b r values k.level k.output c lvl fmt args 0 [] := by
  refine ⟨?_, ⟨fun h => absurd rfl h, fun h => absurd h hlvl⟩, fun _ => rfl,
    fun h => absurd h hlvl⟩
  simp only [kernelLoggerLog, ge_iff_le, if_neg hlvl]
  exact .const _ _ _

theorem LoggerNext.returns (hclock : GivesMonths values) (r : Rodata) {call : KloggerCall}
    (hcall : call.Accepted b.arg) (st : LoggerState) :
    ∃ rec st', rec.call = call ∧ LoggerNext b r values st rec st' := by
  obtain ⟨k, c⟩ := st
  cases call with
  | setLevel level => exact ⟨_, _, rfl, .setLevel k c level⟩
  | setOutput output => exact ⟨_, _, rfl, .setOutput k c output⟩
  | log lvl fmt args =>
    by_cases hlvl : k.level.toInt ≤ lvl.toInt
    · obtain ⟨ret, c', tr, hset, -⟩ := kernelLoggerLog_sends hclock hcall r hlvl c
      exact ⟨_, _, rfl, .log hset⟩
    · exact ⟨_, _, rfl, .log (kernelLoggerLog_filtered b r values hlvl c fmt args).1⟩

/-- The step lemma. -/
theorem LoggerNext.served (hclock : GivesMonths values) {rec : LoggerRecord} {st st' : LoggerState}
    (h : LoggerNext b r values st rec st') (hcall : rec.call.Accepted b.arg) :
    rec.Served b r values st.klogger.level st.klogger.output st.chip := by
  cases h with
  | setLevel k c level => rfl
  | setOutput k c output => rfl
  | @log k c c' lvl fmt args ret tr hset =>
    by_cases hlvl : k.level.toInt ≤ lvl.toInt
    · obtain ⟨ret', c'', tr', hset', hserved⟩ := kernelLoggerLog_sends hclock hcall r hlvl c
      obtain ⟨hret, rfl⟩ := hset.unique hset'
      cases hret
      exact hserved
    · obtain ⟨hset', hserved⟩ := kernelLoggerLog_filtered b r values hlvl c fmt args
      obtain ⟨hret, rfl⟩ := hset.unique hset'
      cases hret
      exact hserved

def callsOf (l : List (Step LoggerState LoggerRecord)) : List KloggerCall :=
  (labels l).map LoggerRecord.call

theorem lastSet_cons (f : KloggerCall → Option α) (init : α) (call : KloggerCall)
    (calls : List KloggerCall) :
    lastSet f init (call :: calls) = lastSet f ((f call).getD init) calls := by
  rw [lastSet, lastSet]
  cases hf : f call with
  | none => rw [List.filterMap_cons_none hf, Option.getD_none]
  | some a => rw [List.filterMap_cons_some hf, List.getLastD_cons, Option.getD_some]

/-- After a run the logger holds what its calls set last. -/
theorem logger_run_lastSet {st st' : LoggerState} {l : List (Step LoggerState LoggerRecord)}
    (h : Run (LoggerNext b r values) st l st') :
    st'.klogger.level = lastSet KloggerCall.level? st.klogger.level (callsOf l) ∧
      st'.klogger.output = lastSet KloggerCall.output? st.klogger.output (callsOf l) := by
  induction h with
  | nil => exact ⟨rfl, rfl⟩
  | cons hn _ ih =>
    rw [ih.1, ih.2, callsOf, callsOf, labels_cons, List.map_cons, lastSet_cons, lastSet_cons]
    cases hn <;> exact ⟨rfl, rfl⟩

theorem logger_run_exists (hclock : GivesMonths values) (r : Rodata) (st : LoggerState)
    {calls : List KloggerCall} (hcalls : ∀ call ∈ calls, call.Accepted b.arg) :
    ∃ l st', Run (LoggerNext b r values) st l st' ∧ callsOf l = calls := by
  induction calls generalizing st with
  | nil => exact ⟨[], st, .nil st, rfl⟩
  | cons call calls ih =>
    obtain ⟨rec, u, hrec, hn⟩ := LoggerNext.returns hclock r (hcalls call (.head _)) st
    obtain ⟨l, st', hl, hcl⟩ := ih u fun c hc => hcalls c (.tail _ hc)
    refine ⟨_, st', .cons hn hl, ?_⟩
    rw [callsOf, labels_cons, List.map_cons, hrec, ← hcl]
    rfl

/-- Over every run of calls, each log call is served under the level and the mask set last. -/
theorem klogger_run_served (b : Beyond) (r : Rodata) (values : CmosStream)
    (hclock : GivesMonths values) (st : LoggerState) (calls : List KloggerCall)
    (hcalls : ∀ call ∈ calls, call.Accepted b.arg) :
    (∃ l st', Run (LoggerNext b r values) st l st' ∧ callsOf l = calls) ∧
      ∀ l st', Run (LoggerNext b r values) st l st' → callsOf l = calls →
        ∀ before step after, l = before ++ step :: after →
          step.label.Served b r values
            (lastSet KloggerCall.level? st.klogger.level (callsOf before))
            (lastSet KloggerCall.output? st.klogger.output (callsOf before)) step.pre.chip := by
  refine ⟨logger_run_exists hclock r st hcalls, ?_⟩
  rintro l st' hrun rfl before step after rfl
  obtain ⟨hbefore, hstep, -⟩ := hrun.split
  obtain ⟨hlevel, houtput⟩ := logger_run_lastSet hbefore
  rw [← hlevel, ← houtput]
  apply hstep.served hclock
  apply hcalls
  simp [callsOf, labels]

theorem monthClock_months {month : BitVec 8} (h : MonthNamed 0x02 month) :
    GivesMonths (monthClock month) :=
  fun n => ⟨n, n + 7, stoppedClock_clear _ n, stoppedClock_clear _ (n + 7),
    (monthRead_le_iff _ _).2 h⟩

def raisedLevel : List KloggerCall :=
  [.setOutput (logSerial ||| logGraphic), .log .info (.lit "up %u") [.ofByte 1],
    .setLevel .error, .log .info (.lit "down") []]

theorem klogger_run_served_raised :
    (∃ l st', Run (LoggerNext zerosBeyond rodataAt (monthClock 0x12))
        ⟨gKlogger, { index := 0, reads := 0 }⟩ l st' ∧ callsOf l = raisedLevel) ∧
      ∀ l st', Run (LoggerNext zerosBeyond rodataAt (monthClock 0x12))
          ⟨gKlogger, { index := 0, reads := 0 }⟩ l st' → callsOf l = raisedLevel →
        ∀ before step after, l = before ++ step :: after →
          step.label.Served zerosBeyond rodataAt (monthClock 0x12)
            (lastSet KloggerCall.level? .debug (callsOf before))
            (lastSet KloggerCall.output? logSerial (callsOf before)) step.pre.chip := by
  have hup : FormatAccepted zerosBeyond.arg (.lit "up %u") [.ofByte 1] :=
    ⟨by decide, nofun, trivial⟩
  have hdown : FormatAccepted zerosBeyond.arg (.lit "down") [] := ⟨by decide, trivial⟩
  apply klogger_run_served zerosBeyond rodataAt (monthClock 0x12)
    (monthClock_months (.inr (by decide))) ⟨gKlogger, { index := 0, reads := 0 }⟩ raisedLevel
  simp only [raisedLevel, List.forall_mem_cons]
  exact ⟨trivial, hup, trivial, hdown, fun _ h => absurd h List.not_mem_nil⟩

end BordOS
