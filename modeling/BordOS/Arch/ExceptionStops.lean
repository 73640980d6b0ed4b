import BordOS.Arch.Isr
import BordOS.Libc.Stdlib
import BordOS.Library.X86Calls

namespace BordOS
open Library Prog
set_option autoImplicit true
set_option relaxedAutoImplicit false

def exceptionMessage : List CString :=
  [.lit "Division By Zero",
   .lit "Debug",
   .lit "Non Maskable Interrupt Exception",
   .lit "Breakpoint Exception",
   .lit "Into Detected Overflow Exception",
   .lit "Out of Bounds Exception",
   .lit "Invalid Opcode Exception",
   .lit "No Coprocessor Exception",
   .lit "Double Fault Exception",
   .lit "Coprocessor Segment Overrun Exception",
   .lit "Bad TSS Exception",
   .lit "Segment Not Present Exception",
   .lit "Stack Fault Exception",
   .lit "General Protection Fault Exception",
   .lit "Page Fault Exception",
   .lit "Unknown Interrupt Exception",
   .lit "Coprocessor Fault Exception",
   .lit "Alignment Check Exception (486+)",
   .lit "Machine Check Exception (Pentium/586+)",
   .lit "Reserved Exceptions",
   .lit "Reserved Exceptions",
   .lit "Reserved Exceptions",
   .lit "Reserved Exceptions",
   .lit "Reserved Exceptions",
   .lit "Reserved Exceptions",
   .lit "Reserved Exceptions",
   .lit "Reserved Exceptions",
   .lit "Reserved Exceptions",
   .lit "Reserved Exceptions",
   .lit "Reserved Exceptions",
   .lit "Reserved Exceptions",
   .lit "Reserved Exceptions"]

def isrDefaultInt (sites : String → AssertSite) (fuel : Nat) (r : Rodata) (k : Klogger)
    (frame : SRegs) : SystemM Unit :=
  if frame.intNo < 32 then
    match exceptionMessage[frame.intNo.toNat]? with
    | some str => panic sites fuel r k str
    | none => .fail (.outOfBounds frame.intNo.toNat)
  else pure ()

theorem exceptionMessage_inside (v : Fin 32) : ∃ str, exceptionMessage[v.val]? = some str :=
  ⟨_, List.getElem?_eq_getElem v.isLt⟩

variable {symbols : IsrSymbols} {m called : Machine} {a : BitVec 32}

theorem commonStub_calls {τ : Type} {p : Image ι τ} {handler : ι} :
    p.Calls (commonStub handler) m a called ↔
      ∃ ret, a = p.addr handler ∧ called = irqCalled (p.addr handler) ret (irqPushRegs m) := by
  have hsel (x : BitVec 16) : (x ++ (0x10 : BitVec 16)).setWidth 16 = 0x10 :=
    BitVec.setWidth_append_eq_right
  have hesp (a : BitVec 32) : a - 4 - 4 = a - 8 := by bv_omega
  rw [commonStub, Image.calls_exec rfl, Image.calls_exec rfl, Image.calls_exec rfl,
    Image.calls_exec rfl, Image.calls_exec rfl, Image.calls_exec rfl, Image.calls_exec rfl,
    Image.calls_exec rfl, Image.calls_exec rfl, Image.calls_exec rfl, Image.calls_exec rfl,
    Image.calls_exec rfl, Image.calls_exec rfl, Image.calls_callReg]
  simp only [Cpu.getSeg, Cpu.setSeg, Cpu.get, Cpu.set, Machine.pushSel_cpu, Machine.pusha_cpu, hsel,
    Machine.push, Machine.jump, hesp, irqCalled, irqPushRegs]

theorem isrStubs_shape (v : Fin 32) :
    isrStubs v = isrStub (BitVec.ofNat 8 v) ∨ isrStubs v = isrErrorStub (BitVec.ofNat 8 v) := by
  revert v
  decide

def isrCalled (p : Image IsrLabel τ) (v : Fin 32) (ret : BitVec 32) (prepared : Machine) : Machine :=
  irqCalled (p.addr .isrDefaultInt) ret
    (irqPushRegs ((prepared.push ((BitVec.ofNat 8 v).signExtend 32)).jump (p.addr .isrCommonStub)))

/-- Every stub calls `isr_default_int` with its number on top of what it found, and ends only if that
call returns. -/
theorem isrStubs_calls {p : Image IsrLabel τ} (hcode : p.code .isrCommonStub = isrCommonStub)
    (v : Fin 32) (m : Machine) :
    ∃ prepared,
      (∀ a called, p.Calls (isrStubs v) m a called ↔
        ∃ ret, a = p.addr .isrDefaultInt ∧ called = isrCalled p v ret prepared) ∧
      ∀ trace m', p.Returns (isrStubs v) m trace m' →
        ∃ ret m₁, p.call (p.addr .isrDefaultInt) (isrCalled p v ret prepared) trace m₁ := by
  have hreturns {n : Machine} {trace : List τ} {m' : Machine}
      (h : p.Returns (commonStub IsrLabel.isrDefaultInt) n trace m') :
      ∃ ret m₁, p.call (p.addr .isrDefaultInt)
        (irqCalled (p.addr .isrDefaultInt) ret (irqPushRegs n)) trace m₁ := by
    obtain ⟨ret, m₁, -, hcall, -⟩ := commonStub_returns.1 h
    exact ⟨ret, m₁, hcall⟩
  rcases isrStubs_shape v with hstub | hstub
  · refine ⟨m.cli.push 0, fun a called => ?_, fun trace m' h => ?_⟩
    · rw [hstub, isrStub, Image.calls_exec rfl, Image.calls_exec rfl, Image.calls_exec rfl,
        Image.calls_jmp, hcode]
      exact commonStub_calls
    · rw [hstub, isrStub, Image.returns_exec rfl, Image.returns_exec rfl, Image.returns_exec rfl,
        Image.returns_jmp, hcode] at h
      exact hreturns h
  · refine ⟨m.cli, fun a called => ?_, fun trace m' h => ?_⟩
    · rw [hstub, isrErrorStub, Image.calls_exec rfl, Image.calls_exec rfl, Image.calls_jmp, hcode]
      exact commonStub_calls
    · rw [hstub, isrErrorStub, Image.returns_exec rfl, Image.returns_exec rfl, Image.returns_jmp,
        hcode] at h
      exact hreturns h

def handlerFrame (called : Machine) : SRegs :=
  .read called.mem (called.mem.load32 (called.cpu.esp + 4))

theorem handlerFrame_intNo (m : Machine) (intNo common handler ret : BitVec 32) :
    (handlerFrame (irqCalled handler ret (irqPushRegs ((m.push intNo).jump common)))).intNo =
      intNo := by
  have h0 : SlotsAt m.mem m.cpu.esp [] := trivial
  have h1 := Machine.push_slots intNo h0 (by decide)
  rw [← Machine.jump_mem _ common] at h1
  have h2 := irqPushRegs_slots (m := (m.push intNo).jump common) h1 (by simp)
  generalize irqPushRegs ((m.push intNo).jump common) = saved at h2 ⊢
  have h3 := irqCalled_slots handler ret h2 (by simp [regSlots])
  have hesp : (irqCalled handler ret saved).cpu.esp + 4 + 4 = saved.cpu.esp := by
    rw [irqCalled]
    bv_omega
  obtain ⟨-, harg, hslots⟩ := h3
  have harg' : (irqCalled handler ret saved).mem.load32 ((irqCalled handler ret saved).cpu.esp + 4) =
      saved.cpu.esp := harg
  rw [hesp] at hslots
  simp only [regSlots, List.cons_append, List.nil_append, SlotsAt, Slot.Fits, BitVec.add_assoc,
    BitVec.reduceAdd] at hslots
  obtain ⟨-, -, -, -, -, -, -, -, -, -, -, -, hint, -⟩ := hslots
  rw [handlerFrame, harg']
  exact hint

variable {b : Beyond} {line : SerialLine} {values : CmosStream}

/-- A compiled `isr_default_int` has returned, with the system in `s` when it was entered. -/
structure IsrDefaultIntReturns (b : Beyond) (line : SerialLine) (values : CmosStream)
    (sites : String → AssertSite) (r : Rodata) (k : Klogger) (s : System CmosChip) (m : Machine)
    (frames : List SRegs) (m' : Machine) : Prop where
  cdecl : CdeclReturn m m'
  entered : frames = [handlerFrame m]
  source : ∃ s', Converges (systemDevice b line (cmosDevice values))
    (fun n => isrDefaultInt sites n r k (handlerFrame m)) s () s'

/-- The stubs of `isr.s` linked with `isr_default_int`. -/
def kernelIsrImage (symbols : IsrSymbols) (b : Beyond) (line : SerialLine) (values : CmosStream)
    (sites : String → AssertSite) (r : Rodata) (k : Klogger) (s : System CmosChip) :
    Image IsrLabel SRegs where
  code := (isrImage symbols).code
  addr := (isrImage symbols).addr
  call a m frames m' := a = symbols.isrDefaultInt ∧
    IsrDefaultIntReturns b line values sites r k s m frames m'

theorem isrDefaultInt_stops {m : System CmosChip} (hline : line.Empties)
    (hopen : m.ports.1.setup.Open) (hclock : GivesMonths values) (sites : String → AssertSite)
    (r : Rodata) (k : Klogger) (frame : SRegs) (v : Fin 32) (hv : frame.intNo.toNat = v) :
    ∃ str q t, exceptionMessage[v.val]? = some str ∧ m.ports.2.2.reads ≤ q ∧
      SystemStopped b r k (.panic str) (rtcResult values q) m t ∧
      Idles (systemDevice b line (cmosDevice values)) (HaltsIn t) .outOfFuel
        (fun n => isrDefaultInt sites n r k frame) m := by
  obtain ⟨str, hstr⟩ := exceptionMessage_inside v
  have hlt : frame.intNo < 32 := by
    have := v.isLt
    bv_omega
  obtain ⟨q, t, hq, -, hidles, hstopped⟩ := panic_stops (b := b) (α := Unit) hline hopen
    (cmosDevice_reads values) rfl hclock sites r k str
  refine ⟨str, q, t, hstr, hq, hstopped, ?_⟩
  simp only [isrDefaultInt, if_pos hlt, hv, hstr]
  exact hidles

theorem isrNumber_signExtend (v : Fin 32) :
    (BitVec.ofNat 8 v).signExtend 32 = BitVec.ofNat 32 v := by
  revert v
  decide

/-- An exception stops the system `s`: its stub calls `isr_default_int` with the number of the
vector, which panics with the message and never returns, so that the stub does not get to its
`iret`. -/
structure ExceptionStops (b : Beyond) (line : SerialLine) (values : CmosStream)
    (sites : String → AssertSite) (r : Rodata) (k : Klogger) (s : System CmosChip)
    (symbols : IsrSymbols) (v : Fin 32) (str : CString) (entered : Machine) : Prop where
  calls : ∃ called, (kernelIsrImage symbols b line values sites r k s).Calls (isrStubs v) entered
    symbols.isrDefaultInt called
  panics : ∀ a called,
    (kernelIsrImage symbols b line values sites r k s).Calls (isrStubs v) entered a called →
      a = symbols.isrDefaultInt ∧ (handlerFrame called).intNo = BitVec.ofNat 32 v ∧
        ∃ q t, s.ports.2.2.reads ≤ q ∧
          SystemStopped b r k (.panic str) (rtcResult values q) s t ∧
          Idles (systemDevice b line (cmosDevice values)) (HaltsIn t) .outOfFuel
            (fun n => isrDefaultInt sites n r k (handlerFrame called)) s
  never : ∀ frames m',
    ¬ (kernelIsrImage symbols b line values sites r k s).Returns (isrStubs v) entered frames m'

/-- Exceptions end to end: the gate of each of the 32 vectors leads to its stub, and however the
processor enters it, with an error code on the stack or without, the system stops with the message
of the vector. -/
theorem exceptions_stop (b : Beyond) (line : SerialLine) (hline : line.Empties)
    (values : CmosStream) (hclock : GivesMonths values) (sites : String → AssertSite) (r : Rodata)
    (k : Klogger) (s : System CmosChip) (hopen : s.ports.1.setup.Open) (symbols : IsrSymbols)
    (idt : Interrupts ρ) (v : Fin 32) (entered : Machine) :
    ∃ g str, (initIdt symbols.toSymbols idt).gate (BitVec.ofNat 8 v) = some g ∧
      g.offset = symbols.isr v ∧ exceptionMessage[v.val]? = some str ∧
      ExceptionStops b line values sites r k s symbols v str entered := by
  obtain ⟨prepared, hcalls, hreturns⟩ :=
    isrStubs_calls (p := kernelIsrImage symbols b line values sites r k s) rfl v entered
  obtain ⟨str, hstr⟩ := exceptionMessage_inside v
  have hint (ret : BitVec 32) : (handlerFrame (isrCalled
      (kernelIsrImage symbols b line values sites r k s) v ret prepared)).intNo =
        BitVec.ofNat 32 v := by
    rw [isrCalled, handlerFrame_intNo, isrNumber_signExtend]
  have hstops (ret : BitVec 32) := isrDefaultInt_stops (b := b) hline hopen hclock sites r k
    (handlerFrame (isrCalled (kernelIsrImage symbols b line values sites r k s) v ret prepared)) v
    (by rw [hint, BitVec.toNat_ofNat]; omega)
  refine ⟨_, str, initIdt_isrGate symbols.toSymbols idt v, rfl, hstr,
    ⟨_, (hcalls _ _).2 ⟨0, rfl, rfl⟩⟩, ?_, ?_⟩
  · intro a called h
    obtain ⟨ret, rfl, rfl⟩ := (hcalls a called).1 h
    obtain ⟨str', q, t, hstr', hq, hstopped, hidles⟩ := hstops ret
    obtain rfl : str = str' := Option.some.inj (hstr.symm.trans hstr')
    exact ⟨rfl, hint ret, q, t, hq, hstopped, hidles⟩
  · intro frames m' h
    obtain ⟨ret, m₁, -, hreturn⟩ := hreturns frames m' h
    obtain ⟨str', q, t, -, -, -, hidles⟩ := hstops ret
    obtain ⟨s', hconv⟩ := hreturn.source
    exact hidles.not_converges () s' hconv

def symbolsAtZero : IsrSymbols where
  isr _ := 0
  irq _ := 0
  irqCommonStub := 0
  irqHandler := 0
  idt := 0
  isrCommonStub := 0
  isrDefaultInt := 0

/-- Kernel selectors and an empty stack. -/
def bareMachine : Machine where
  cpu := { eax := 0, ecx := 0, edx := 0, ebx := 0, esp := 0, ebp := 0, esi := 0, edi := 0, eip := 0,
           eflags := 0, cs := 8, ds := 16, es := 16, fs := 16, gs := 16, ss := 16 }
  mem _ := 0
  selectorPush := .extended

theorem exceptions_stop_divide :
    ∃ g str, (initIdt symbolsAtZero.toSymbols (Interrupts.start : Interrupts Unit)).gate 0 = some g ∧
      g.offset = 0 ∧ exceptionMessage[0]? = some str ∧
      ExceptionStops zerosBeyond echoLine (monthClock 0x12) (fun _ => badBaseSite) rodataAt gKlogger
        (initialHardware (true, ⟨0, 0⟩)) symbolsAtZero 0 str bareMachine :=
  exceptions_stop zerosBeyond echoLine echoLine_ready.1 (monthClock 0x12)
    (monthClock_months (.inr (by decide))) (fun _ => badBaseSite) rodataAt gKlogger
    (initialHardware (true, ⟨0, 0⟩)) (serialSetup_open _) symbolsAtZero Interrupts.start 0
    bareMachine

end BordOS
