import BordOS.Arch.Pic
import BordOS.Kernel.KernelMain

namespace BordOS
open Library Prog
set_option autoImplicit true
set_option relaxedAutoImplicit false

/-- The empty bodies of `ata_primary_irq` and `ata_secondary_irq`. -/
def IrqRoutine.effect : IrqRoutine → SRegs → SRegs
  | .ataPrimaryIrq, frame => frame
  | .ataSecondaryIrq, frame => frame

/-- What an interrupt finds beside the static data: the processor with the memory, and the
controllers. -/
structure Interruptible where
  machine : Machine
  pics : Pics

structure Interruption where
  delivery : Delivery
  trace : List (IrqAction IrqRoutine)

/-- With interrupts on, the controllers give a vector, the loaded table gives its gate, and the stub
at the address in the gate runs to its `iret`. -/
def InterruptStep (symbols : Symbols) (idt : Interrupts IrqRoutine) (s : Interruptible)
    (a : Interruption) (t : Interruptible) : Prop :=
  s.machine.cpu.eflags.getLsbD 9 = true ∧
  ∃ g k, idt.gate (s.pics.vector a.delivery) = some g ∧ g.offset = symbols.irq k ∧
    (irqImage symbols IrqRoutine.effect idt.irqRoutines).Returns (irqStubs k)
      (s.machine.interrupt g) a.trace t.machine ∧
    t.pics = (s.pics.deliver a.delivery).acts a.trace

def IrqAction.called? : IrqAction ρ → Option ρ
  | .call r _ => some r
  | .enter _ | .outb _ _ => none

def Interruption.calls (a : Interruption) : List IrqRoutine := a.trace.filterMap IrqAction.called?

def ataRoutine (k : Fin 16) : Option IrqRoutine :=
  if (k : Nat) = 14 then some .ataPrimaryIrq
  else if (k : Nat) = 15 then some .ataSecondaryIrq else none

section Steps

variable {symbols : Symbols} {idt : Interrupts IrqRoutine} {s t : Interruptible} {a : Interruption}

/-- The gates of `init_idt` for the interrupts of the controllers. -/
def Gated (symbols : Symbols) (idt : Interrupts IrqRoutine) : Prop :=
  ∀ n : Fin 16, idt.gate (BitVec.ofNat 8 (32 + n)) =
    some { offset := symbols.irq n, selector := 0x08 }

theorem IrqRoutine.map_effect (routine : Option IrqRoutine) (frame : SRegs) :
    (routine.map (IrqRoutine.effect · frame)).getD frame = frame := by
  cases routine with
  | none => rfl
  | some r => cases r <;> rfl

/-- The number of a line is in the frame, so the routines of `ata.c` answer the slave. -/
theorem IrqRoutine.keepsSlave (a : Serviced IrqRoutine) : a.KeepsSlave IrqRoutine.effect := by
  intro k r frame _ hslave _ hint
  cases r with
  | ataPrimaryIrq =>
    rw [IrqRoutine.effect]
    bv_omega
  | ataSecondaryIrq =>
    rw [IrqRoutine.effect]
    bv_omega

theorem called_endOfInterrupt (x : BitVec 32) :
    ((if 40 ≤ x then [IrqAction.outb 0xA0 0x20] else []) ++
      ([.outb 0x20 0x20] : List (IrqAction ρ))).filterMap IrqAction.called? = [] := by
  split <;> rfl

theorem InterruptStep.stub (h : InterruptStep symbols idt s a t) (hgates : Gated symbols idt)
    (hsymbols : Function.Injective symbols.irq) (hs : s.pics.Idle) :
    ∃ g, (irqImage symbols IrqRoutine.effect idt.irqRoutines).Returns
        (irqStubs a.delivery.number) (s.machine.interrupt g) a.trace t.machine ∧
      t.pics = (s.pics.deliver a.delivery).acts a.trace := by
  obtain ⟨-, g, k, hgate, hoffset, hreturns, hpics⟩ := h
  rw [hs.vector_eq, hgates] at hgate
  have hk : k = a.delivery.number := by
    apply hsymbols
    rw [← hoffset, ← Option.some.inj hgate]
  rw [hk] at hreturns
  exact ⟨g, hreturns, hpics⟩

/-- An interrupt gives the processor back as it was, leaves the controllers ready for the next one,
and calls the routine of its line once. -/
theorem InterruptStep.transparent (h : InterruptStep symbols idt s a t)
    (hgates : Gated symbols idt) (hsymbols : Function.Injective symbols.irq) (hs : s.pics.Idle) :
    t.machine.cpu = s.machine.cpu ∧ t.pics = s.pics ∧
      a.calls = (idt.irqRoutines a.delivery.number).toList := by
  obtain ⟨g, hreturns, hpics⟩ := h.stub hgates hsymbols hs
  have hstep : PicStep symbols IrqRoutine.effect s.pics ⟨a.delivery, idt.irqRoutines, s.machine⟩
      t.pics := ⟨_, g, a.trace, t.machine, hs.vector_eq _, hreturns, hpics⟩
  obtain ⟨frame, after, -, -, hafter, htrace, -, hcpu⟩ := irqStubs_served hreturns
  rw [IrqRoutine.map_effect] at hafter
  refine ⟨hcpu hafter, hstep.eq hs (IrqRoutine.keepsSlave _), ?_⟩
  rw [Interruption.calls, htrace, List.filterMap_append, called_endOfInterrupt, List.append_nil]
  cases idt.irqRoutines a.delivery.number <;> rfl

theorem InterruptStep.exists (hgates : Gated symbols idt) (hs : s.pics.Idle)
    (hflag : s.machine.cpu.eflags.getLsbD 9 = true) (d : Delivery) :
    ∃ trace t, InterruptStep symbols idt s ⟨d, trace⟩ t := by
  obtain ⟨trace, m, hreturns⟩ := irqStub_exists symbols IrqRoutine.effect idt.irqRoutines
    { offset := symbols.irq d.number, selector := 0x08 } d.number s.machine
  rw [← irqStubs_eq] at hreturns
  refine ⟨trace, ⟨m, (s.pics.deliver d).acts trace⟩, hflag, _, d.number, ?_, rfl, hreturns, rfl⟩
  rw [hs.vector_eq, hgates]

theorem interrupts_run (hgates : Gated symbols idt) (hsymbols : Function.Injective symbols.irq)
    (hs : s.pics.Idle) (hflag : s.machine.cpu.eflags.getLsbD 9 = true) (ds : List Delivery) :
    ∃ l t, Run (InterruptStep symbols idt) s l t ∧ (labels l).map Interruption.delivery = ds := by
  induction ds generalizing s with
  | nil => exact ⟨[], s, .nil s, rfl⟩
  | cons d ds ih =>
    obtain ⟨trace, t, hstep⟩ := InterruptStep.exists hgates hs hflag d
    obtain ⟨hcpu, hpics, -⟩ := hstep.transparent hgates hsymbols hs
    rw [← hpics] at hs
    rw [← hcpu] at hflag
    obtain ⟨l, u, hrun, hlabels⟩ := ih hs hflag
    exact ⟨_, u, .cons hstep hrun, congrArg (d :: ·) hlabels⟩

theorem interrupts_transparent {l : List (Step Interruptible Interruption)}
    (h : Run (InterruptStep symbols idt) s l t) (hgates : Gated symbols idt)
    (hsymbols : Function.Injective symbols.irq) (hs : s.pics.Idle) :
    ∀ st ∈ l, st.post.machine.cpu = s.machine.cpu ∧ st.post.pics = s.pics ∧
      st.label.calls = (idt.irqRoutines st.label.delivery.number).toList := by
  induction h with
  | nil => exact fun st hst => absurd hst List.not_mem_nil
  | @cons s u t a l hstep hrun ih =>
    have hfirst := hstep.transparent hgates hsymbols hs
    obtain ⟨hcpu, hpics, -⟩ := id hfirst
    rw [← hpics] at hs
    intro st hst
    rcases List.mem_cons.1 hst with rfl | hst
    · exact hfirst
    · obtain ⟨hcpu', hpics', hcalls⟩ := ih hs st hst
      exact ⟨hcpu'.trans hcpu, hpics'.trans hpics, hcalls⟩

end Steps

theorem initSystem_converges {b : Beyond} {line : SerialLine} {values : CmosStream}
    {img : KernelImage} {level : LogLevel} {s s' : KernelState} {m u : System Platform}
    (disks : Disks) (hline : line.Empties) (hclock : GivesMonths values)
    (hend : KernelEndOk img.kernelEnd)
    (h : Converges (systemDevice b line (platformDevice disks values))
      (fun n => initSystem img n ⟨logSerial, level⟩ s) m s' u) :
    KernelState.Initialized img s s' ∧ u.interruptFlag = true ∧
      u.ports.2.2.1 = m.ports.2.2.1.remapped := by
  by_cases hready : disks.primary.GetsReady m.ports.2.2.2.polls
  · by_cases hready' : disks.secondary.GetsReady m.ports.2.2.2.world.polls
    · obtain ⟨v, w, hinit, hrun, hshown⟩ :=
        initSystem_ready disks hline hclock hend level s m hready hready'
      obtain rfl := h.unique hrun
      obtain rfl := h.unique_state hrun
      exact ⟨hinit, hshown.machine⟩
    · obtain ⟨t, -, hidles⟩ :=
        initSystem_secondary_waits disks hline hclock hend level s m hready hready'
      exact absurd h (hidles.not_converges s' u)
  · obtain ⟨t, -, hidles⟩ := initSystem_primary_waits disks hline hclock hend level s m hready
    exact absurd h (hidles.not_converges s' u)

theorem KernelState.Initialized.routine {img : KernelImage} {s s' : KernelState}
    (h : KernelState.Initialized img s s') (hnone : s.interrupts.irqRoutines = fun _ => none)
    (k : Fin 16) : s'.interrupts.irqRoutines k = ataRoutine k := by
  rw [h.irqRoutines, hnone]
  revert k
  decide

/-- Once `init_system` has returned, every sequence of interrupts is served, spurious ones too. Each
gives the processor back as it was and leaves the controllers without a line in service; the
routines of `ata.c` are called for their lines, once, and nothing else is. -/
theorem booted_serves_interrupts (b : Beyond) (line : SerialLine) (hline : line.Empties)
    (disks : Disks) (values : CmosStream) (hclock : GivesMonths values) (img : KernelImage)
    (hend : KernelEndOk img.kernelEnd) (hsymbols : Function.Injective img.symbols.irq)
    (level : LogLevel) (s : KernelState) (hnone : s.interrupts.irqRoutines = fun _ => none)
    (m : System Platform) (s' : KernelState) (u : System Platform)
    (h : Converges (systemDevice b line (platformDevice disks values))
      (fun n => initSystem img n ⟨logSerial, level⟩ s) m s' u)
    (machine : Machine) (hflag : machine.cpu.eflags.getLsbD 9 = u.interruptFlag) :
    (∀ ds, ∃ l t, Run (InterruptStep img.symbols s'.interrupts) ⟨machine, u.ports.2.2.1⟩ l t ∧
      (labels l).map Interruption.delivery = ds) ∧
    ∀ l t, Run (InterruptStep img.symbols s'.interrupts) ⟨machine, u.ports.2.2.1⟩ l t →
      ∀ st ∈ l, st.post.machine.cpu = machine.cpu ∧ st.post.pics = u.ports.2.2.1 ∧
        st.post.pics.AllClear ∧ st.label.calls = (ataRoutine st.label.delivery.number).toList := by
  obtain ⟨hinit, hon, hpics⟩ := initSystem_converges disks hline hclock hend h
  have hidle : u.ports.2.2.1.Idle := hpics ▸ Pics.remapped_idle _
  refine ⟨interrupts_run hinit.irqGates hsymbols hidle (hflag.trans hon), ?_⟩
  intro l t hrun st hst
  obtain ⟨hcpu, hsame, hcalls⟩ :=
    interrupts_transparent hrun hinit.irqGates hsymbols hidle st hst
  rw [hinit.routine hnone] at hcalls
  exact ⟨hcpu, hsame, hsame ▸ hidle.clear, hcalls⟩

def stubsInRow : KernelImage :=
  { smallImage with symbols := { smallImage.symbols with
      irq := fun k => 0x100000 + 16 * BitVec.ofNat 32 k } }

def openMachine : Machine :=
  { quietMachine with cpu := { quietMachine.cpu with eflags := 0x202 } }

theorem booted_serves_interrupts_disks :
    ∃ s' u, Converges
        (systemDevice zerosBeyond echoLine (platformDevice twoDrives (monthClock 0x12)))
        (fun n => initSystem stubsInRow n ⟨logSerial, .debug⟩ emptyState) resetSystem s' u ∧
      (∃ l t, Run (InterruptStep stubsInRow.symbols s'.interrupts)
          ⟨openMachine, u.ports.2.2.1⟩ l t ∧
        (labels l).map Interruption.delivery = [.line 14, .spurious15, .line 0]) ∧
      ∀ l t, Run (InterruptStep stubsInRow.symbols s'.interrupts)
          ⟨openMachine, u.ports.2.2.1⟩ l t →
        ∀ st ∈ l, st.post.machine.cpu = openMachine.cpu ∧ st.post.pics = u.ports.2.2.1 ∧
          st.post.pics.AllClear ∧
          st.label.calls = (ataRoutine st.label.delivery.number).toList := by
  have hend : KernelEndOk stubsInRow.kernelEnd := ⟨by decide, by decide⟩
  have hclock : GivesMonths (monthClock 0x12) := monthClock_months (.inr (by decide))
  have hsymbols : Function.Injective stubsInRow.symbols.irq := by
    have hall : ∀ k l : Fin 16, stubsInRow.symbols.irq k = stubsInRow.symbols.irq l → k = l := by
      decide
    exact fun k l => hall k l
  obtain ⟨s', u, -, hrun, hshown⟩ := initSystem_ready (b := zerosBeyond) twoDrives echoLine_ready.1
    hclock hend .debug emptyState resetSystem ⟨1, by decide, by decide⟩ ⟨1, by decide, by decide⟩
  obtain ⟨hserved, htransparent⟩ := booted_serves_interrupts zerosBeyond echoLine echoLine_ready.1
    twoDrives (monthClock 0x12) hclock stubsInRow hend hsymbols .debug emptyState rfl resetSystem
    s' u hrun openMachine hshown.machine.1.symm
  exact ⟨s', u, hrun, hserved _, htransparent⟩

end BordOS
