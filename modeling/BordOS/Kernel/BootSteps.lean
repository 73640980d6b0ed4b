import BordOS.Kernel.Platform
import BordOS.Kernel.PmmInit

namespace BordOS
open Library Prog
set_option autoImplicit true
set_option relaxedAutoImplicit false

/-- What the compiler and the linker fix: the places of the asserts, of the strings and of the stubs,
and the end of the kernel. -/
structure KernelImage where
  sites : String → AssertSite
  rodata : Rodata
  symbols : Symbols
  kernelEnd : PhysAddr

def kernelLog (img : KernelImage) (fuel : Nat) (k : Klogger) (lvl : LogLevel) (fmt : CString)
    (args : VaList) : SystemM Unit :=
  withAsserts img.sites img.rodata k fuel (KloggerCall.code fuel img.rodata k (.log lvl fmt args))

def onMachine (p : PortM α) : SystemM α := onSystem (besideScreen p)

/-- Driver code with its calls of `LOG`. -/
def onKernel (img : KernelImage) (fuel : Nat) (k : Klogger) (p : PortM α) : SystemM α :=
  p.translate fun
    | .log lvl fmt args =>
      kernelLog img fuel k lvl (.lit fmt) (args.map (LogArg.vaArg img.rodata))
    | op => onMachine (.perform op)

theorem onKernel_bind (img : KernelImage) (fuel : Nat) (k : Klogger) (p : PortM α)
    (f : α → PortM β) :
    onKernel img fuel k (p >>= f) = onKernel img fuel k p >>= fun a => onKernel img fuel k (f a) :=
  translate_bind p f

theorem onMachine_bind (p : PortM α) (f : α → PortM β) :
    onMachine (p >>= f) = onMachine p >>= fun a => onMachine (f a) := by
  rw [onMachine, besideScreen, translate_bind, onSystem, translate_bind]
  rfl

theorem onKernel_notLog {p : PortM α} (hp : p.Uses PortOp.NotLog) (img : KernelImage) (fuel : Nat)
    (k : Klogger) : onKernel img fuel k p = onMachine p := by
  induction hp with
  | pure a => rfl
  | fail e => rfl
  | @call op next hop _ ih =>
    have hfirst : onKernel img fuel k (Prog.perform op : PortM _) = onMachine (.perform op) := by
      cases op with
      | log lvl fmt args => exact absurd rfl (hop lvl fmt args)
      | _ => rfl
    calc onKernel img fuel k (Prog.call op next)
        = onKernel img fuel k (Prog.perform op) >>= fun r => onKernel img fuel k (next r) :=
          onKernel_bind img fuel k (.perform op) next
      _ = onMachine (.perform op) >>= fun r => onMachine (next r) := by simp only [hfirst, ih]
      _ = onMachine (Prog.call op next) := (onMachine_bind (.perform op) next).symm

theorem onKernel_klog (img : KernelImage) (fuel : Nat) (k : Klogger) (lvl : LogLevel)
    (fmt : String) (args : List LogArg) :
    onKernel img fuel k (klog lvl fmt args) =
      kernelLog img fuel k lvl (.lit fmt) (args.map (LogArg.vaArg img.rodata)) :=
  translate_perform (PortOp.log lvl fmt args)

section Machine

variable {b : Beyond} {line : SerialLine} {other : PortDevice σ} {m : System σ}

theorem onMachine_converges {p : Nat → PortM α} {a : α} {u : Uart16550 × Bool × σ}
    (h : Converges (serialDevice serialCom1 line (withFlag other)) p m.ports a u) :
    Converges (systemDevice b line other) (fun n => onMachine (p n)) m a { m with ports := u } :=
  onSystem_converges (besideScreen_converges h)

theorem onMachine_idles {p : Nat → PortM α} {f : Fault}
    {E : PortEvent (Uart16550 × Bool × σ) → Prop} {E' : SystemEvent (System σ) → Prop}
    (hE : ∀ x, E x → E' ⟨{ m with ports := x.before }, .screen (.console (.port x.op)), x.reply⟩)
    (h : Idles (serialDevice serialCom1 line (withFlag other)) E f p m.ports) :
    Idles (systemDevice b line other) E' f (fun n => onMachine (p n)) m := by
  have hscreen : Idles (hardwareDevice b line (withFlag other))
      (fun x : ScreenEvent (System σ) => E' ⟨x.before, .screen x.op, x.reply⟩) f
      (fun n => besideScreen (p n)) m := by
    apply Idles.translate (R := fun u s => s = { m with ports := u }) ?_ rfl h
    rintro op u _ rfl
    refine ⟨_, rfl, rfl, ?_⟩
    intro hx
    refine ⟨List.cons_ne_nil _ _, ?_⟩
    intro x hmem
    obtain rfl := List.mem_singleton.1 hmem
    exact hE _ hx
  apply Idles.translate (R := fun s t => t = s) ?_ rfl hscreen
  rintro op s _ rfl
  refine ⟨_, rfl, rfl, ?_⟩
  intro hx
  refine ⟨List.cons_ne_nil _ _, ?_⟩
  intro x hmem
  obtain rfl := List.mem_singleton.1 hmem
  exact hx

theorem machine_actsOn (line : SerialLine) {e : PortDevice τ} {lift : τ → σ} {ok : PortOp → Prop}
    (hok : ∀ op, ok op → op.Elsewhere ∧ op.KeepsFlag) (h : ActsOn other e lift ok) (u : Uart16550)
    (f : Bool) :
    ActsOn (serialDevice serialCom1 line (withFlag other)) e (fun s => (u, f, lift s)) ok := by
  intro op s hop
  obtain ⟨helse, hkeeps⟩ := hok op hop
  rw [serialDevice_elsewhere line _ helse, withFlag_actsOn other f op _ hkeeps, h op s hop]

end Machine

theorem logRecords_append (k : Klogger) (calls calls' : List KloggerCall) :
    logRecords k (calls ++ calls') =
      logRecords k calls ++ logRecords (kloggerAfter k calls) calls' := by
  induction calls generalizing k with
  | nil => rfl
  | cons c calls ih =>
    rw [List.cons_append, logRecords, logRecords, ih, List.append_assoc]
    rfl

def KloggerCall.IsLog : KloggerCall → Prop
  | .log _ _ _ => True
  | _ => False

theorem kloggerAfter_logs {calls : List KloggerCall} (h : ∀ c ∈ calls, c.IsLog) (k : Klogger) :
    kloggerAfter k calls = k := by
  induction calls with
  | nil => rfl
  | cons c calls ih =>
    have hrest : kloggerAfter k calls = k := ih fun c hc => h c (.tail _ hc)
    cases c with
    | log lvl fmt args => exact hrest
    | setLevel level => exact absurd (h _ (.head _)) not_false
    | setOutput output => exact absurd (h _ (.head _)) not_false

def System.clock (m : System Platform) : Nat := m.ports.2.2.clock.reads

/-- From `m` to `t` these calls were logged, with these readings of the clock, while the interrupt
flag and the controllers stayed as they were. -/
structure Transcript (b : Beyond) (r : Rodata) (values : CmosStream) (k : Klogger)
    (calls : List KloggerCall) (qs : List Nat) (m t : System Platform) : Prop where
  shown : SessionShown b r values (logRecords k calls) qs m t
  interruptFlag : t.interruptFlag = m.interruptFlag
  pics : t.ports.2.2.1 = m.ports.2.2.1
  clock : m.clock ≤ t.clock
  times : ∀ q ∈ qs, m.clock ≤ q ∧ q < t.clock
  sorted : qs.Pairwise (· < ·)

namespace Transcript

variable {b : Beyond} {r : Rodata} {values : CmosStream} {k : Klogger}
  {calls calls' : List KloggerCall} {qs qs' : List Nat} {m t u : System Platform}

theorem silent (q : Platform) (hpics : q.1 = m.ports.2.2.1) (hclock : q.clock = m.ports.2.2.clock) :
    Transcript b r values k [] [] m { m with ports := (m.ports.1, m.ports.2.1, q) } where
  shown := {
    length := rfl
    setup := rfl
    sent := (List.append_nil _).symm
    screen := rfl }
  interruptFlag := rfl
  pics := hpics
  clock := Nat.le_of_eq (congrArg CmosChip.reads hclock).symm
  times _ hq := absurd hq List.not_mem_nil
  sorted := .nil

theorem setOutput (output : BitVec 8) (m : System Platform) :
    Transcript b r values k [.setOutput output] [] m m where
  shown := .nil b r values m
  interruptFlag := rfl
  pics := rfl
  clock := Nat.le_refl _
  times _ hq := absurd hq List.not_mem_nil
  sorted := .nil

theorem append (h : Transcript b r values k calls qs m t)
    (h' : Transcript b r values (kloggerAfter k calls) calls' qs' t u) :
    Transcript b r values k (calls ++ calls') (qs ++ qs') m u where
  shown := by
    rw [logRecords_append]
    exact h.shown.append h'.shown
  interruptFlag := h'.interruptFlag.trans h.interruptFlag
  pics := h'.pics.trans h.pics
  clock := Nat.le_trans h.clock h'.clock
  times := by
    intro q hq
    rcases List.mem_append.1 hq with hq | hq
    · exact ⟨(h.times q hq).1, Nat.lt_of_lt_of_le (h.times q hq).2 h'.clock⟩
    · exact ⟨Nat.le_trans h.clock (h'.times q hq).1, (h'.times q hq).2⟩
  sorted := List.pairwise_append.2 ⟨h.sorted, h'.sorted, fun x hx y hy =>
    Nat.lt_of_lt_of_le (h.times x hx).2 (h'.times y hy).1⟩

end Transcript

theorem KloggerCall.not_refused {b : Beyond} {k : Klogger} {lvl : LogLevel} {fmt : CString}
    {args : VaList} (h : FormatAccepted b.arg fmt args) (cond : String) :
    ¬ KloggerCall.Refused b k cond (.log lvl fmt args) := by
  rintro ⟨-, hstop⟩
  rw [h.stop] at hstop
  cases hstop

/-- A program that logs these calls, reads the clock for them, and leaves the rest of the machine
as it is. -/
structure LogStep (b : Beyond) (line : SerialLine) (disks : Disks) (values : CmosStream)
    (img : KernelImage) (k : Klogger) (p : Nat → SystemM α) (calls : List KloggerCall)
    (qs : List Nat) (m : System Platform) (a : α) (t : System Platform) : Prop where
  run : Converges (systemDevice b line (platformDevice disks values)) p m a t
  transcript : Transcript b img.rodata values k calls qs m t
  platform : ∃ c, t.ports.2.2 = m.ports.2.2.setClock c

section Steps

variable {b : Beyond} {line : SerialLine} {disks : Disks} {values : CmosStream}
  {img : KernelImage} {k : Klogger} {m t u : System Platform}

theorem System.setClock_trans (hmt : ∃ c, t.ports.2.2 = m.ports.2.2.setClock c)
    (htu : ∃ c, u.ports.2.2 = t.ports.2.2.setClock c) :
    ∃ c, u.ports.2.2 = m.ports.2.2.setClock c := by
  obtain ⟨x, hx⟩ := hmt
  obtain ⟨y, hy⟩ := htu
  refine ⟨y, ?_⟩
  rw [hy, hx]
  rfl

theorem LogStep.pure (a : α) (m : System Platform) :
    LogStep b line disks values img k (fun _ => (Pure.pure a : SystemM α)) [] [] m a m where
  run := .const rfl
  transcript := .silent m.ports.2.2 rfl rfl
  platform := ⟨m.ports.2.2.clock, rfl⟩

theorem LogStep.bind {p : Nat → SystemM α} {f : Nat → α → SystemM β}
    {calls calls' : List KloggerCall} {qs qs' : List Nat} {a : α} {c : β}
    (h : LogStep b line disks values img k p calls qs m a t) (hk : kloggerAfter k calls = k)
    (h' : LogStep b line disks values img k (fun n => f n a) calls' qs' t c u) :
    LogStep b line disks values img k (fun n => p n >>= f n) (calls ++ calls') (qs ++ qs') m c
      u where
  run := h.run.bind h'.run
  transcript := h.transcript.append (hk.symm ▸ h'.transcript)
  platform := System.setClock_trans h.platform h'.platform

theorem LogStep.andReturn {p : Nat → SystemM α} {calls : List KloggerCall} {qs : List Nat} {a : α}
    (h : LogStep b line disks values img k p calls qs m a t) (hk : kloggerAfter k calls = k)
    (c : β) :
    LogStep b line disks values img k (fun n => p n >>= fun _ => Pure.pure c) calls qs m c t := by
  have hpure : LogStep b line disks values img k (fun _ => (Pure.pure c : SystemM β)) [] [] t c t :=
    .pure c t
  have hall := h.bind (f := fun _ _ => Pure.pure c) hk hpure
  rw [List.append_nil, List.append_nil] at hall
  exact hall

theorem kernelLog_step (disks : Disks) (hline : line.Empties) (hopen : m.ports.1.setup.Open)
    (hclock : GivesMonths values) (img : KernelImage) (k : Klogger) (lvl : LogLevel)
    {fmt : CString} {args : VaList} (hfmt : FormatAccepted b.arg fmt args) :
    ∃ qs t, LogStep b line disks values img k (fun n => kernelLog img n k lvl fmt args)
      [.log lvl fmt args] qs m () t := by
  obtain ⟨qs, n', t, hrun, hflag, ⟨c, hplatform, rfl⟩, hle, htimes, hsorted, hshown⟩ :=
    KloggerCall.returns (b := b) hline hopen (platformDevice_reads m.ports.2.2)
      ⟨m.ports.2.2.clock, rfl, rfl⟩ hclock img.sites img.rodata k (.log lvl fmt args)
      (KloggerCall.not_refused hfmt)
  have ht : t.clock = c.reads := by
    rw [System.clock, hplatform]
    rfl
  have hpics : t.ports.2.2.1 = m.ports.2.2.1 := by rw [hplatform, Platform.setClock]
  refine ⟨qs, t, hrun, ⟨?_, hflag, hpics, ht ▸ hle, ht ▸ htimes, hsorted⟩, c, hplatform⟩
  rw [logRecords, logRecords, List.append_nil]
  exact hshown

end Steps

end BordOS
