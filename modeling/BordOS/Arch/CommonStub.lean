import BordOS.Arch.Interrupts

namespace BordOS
open Library
set_option autoImplicit true
set_option relaxedAutoImplicit false

/-- The common stubs of `irq.s` and `isr.s`. They differ in the handler. -/
def commonStub (handler : ι) : List (Instr ι) :=
  [.pusha, .pushSeg .ds, .pushSeg .es, .pushSeg .fs, .pushSeg .gs,
   .movImm16 .eax 0x10, .movSeg .ds .eax, .movSeg .es .eax, .movSeg .fs .eax, .movSeg .gs .eax,
   .movReg .eax .esp, .pushReg .eax,
   .movLabel .eax handler, .callReg .eax,
   .popReg .eax, .popSeg .gs, .popSeg .fs, .popSeg .es, .popSeg .ds, .popa, .addEsp 8, .iret]

def irqPushRegs (m : Machine) : Machine :=
  m.pusha.pushSel m.cpu.ds |>.pushSel m.cpu.es |>.pushSel m.cpu.fs |>.pushSel m.cpu.gs

/-- The registers on a stack that a stub has prepared with an error code and a number. -/
def stubSaved (intNo errCode common : BitVec 32) (m : Machine) : Machine :=
  irqPushRegs (((m.cli.push errCode).push intNo).jump common)

/-- What the stub pushes from the registers, from the top of the stack on. -/
def regSlots (c : Cpu) (p : SelectorPush) : List Slot :=
  [.selector p c.gs, .selector p c.fs, .selector p c.es, .selector p c.ds,
   .word c.edi, .word c.esi, .word c.ebp, .word c.esp, .word c.ebx, .word c.edx,
   .word c.ecx, .word c.eax]

/-- What the interrupt, the processor or the stub, and the common stub push, from the top of the
stack on. -/
def frameSlots (c : Cpu) (p : SelectorPush) (intNo errCode : BitVec 32) : List Slot :=
  regSlots { c with esp := c.esp - 20 } p ++
    [.word intNo, .word errCode, .word c.eip, .selector p c.cs, .word c.eflags]

theorem irqPushRegs_slots {m : Machine} {ws : List Slot} (h : SlotsAt m.mem m.cpu.esp ws)
    (hlen : ws.length ≤ 5) :
    SlotsAt (irqPushRegs m).mem (irqPushRegs m).cpu.esp
      (regSlots m.cpu m.selectorPush ++ ws) := by
  have h1 := Machine.pusha_slots h (by omega)
  have h2 := Machine.pushSel_slots m.cpu.ds h1 (by simp only [List.length_cons]; omega)
  have h3 := Machine.pushSel_slots m.cpu.es h2 (by simp only [List.length_cons]; omega)
  have h4 := Machine.pushSel_slots m.cpu.fs h3 (by simp only [List.length_cons]; omega)
  have h5 := Machine.pushSel_slots m.cpu.gs h4 (by simp only [List.length_cons]; omega)
  simp only [Machine.pusha_selectorPush, Machine.pushSel_selectorPush] at h5
  exact h5

theorem irqPushRegs_cpu (m : Machine) :
    (irqPushRegs m).cpu = { m.cpu with esp := m.cpu.esp - 48 } := by
  have hesp (a : BitVec 32) : a - 32 - 4 - 4 - 4 - 4 = a - 48 := by bv_omega
  simp only [irqPushRegs, Machine.pushSel_cpu, Machine.pusha_cpu, hesp]

theorem stubSaved_slots (g : Machine.Gate) (intNo errCode common : BitVec 32) (m : Machine) :
    SlotsAt (stubSaved intNo errCode common (m.interrupt g)).mem
      (stubSaved intNo errCode common (m.interrupt g)).cpu.esp
      (frameSlots m.cpu m.selectorPush intNo errCode) := by
  have hesp (a : BitVec 32) : a - 12 - 4 - 4 = a - 20 := by bv_omega
  have h0 : SlotsAt (m.interrupt g).cli.mem (m.interrupt g).cli.cpu.esp
      [.word m.cpu.eip, .selector m.selectorPush m.cpu.cs, .word m.cpu.eflags] := by
    rw [Machine.cli_mem, Machine.cli_cpu]
    exact m.interrupt_slots g
  have h1 := Machine.push_slots intNo (Machine.push_slots errCode h0 (by simp)) (by simp)
  rw [← Machine.jump_mem _ common] at h1
  have h2 := irqPushRegs_slots (m := ((m.interrupt g).cli.push errCode |>.push intNo).jump
    common) h1 (by simp)
  simp only [regSlots, Machine.jump_cpu, Machine.push_cpu, Machine.cli_cpu, Machine.interrupt_cpu,
    Machine.jump_selectorPush, Machine.push_selectorPush, Machine.cli_selectorPush,
    Machine.interrupt_selectorPush, hesp] at h2
  exact h2

theorem stubSaved_cpu (intNo errCode common : BitVec 32) (m : Machine) :
    (stubSaved intNo errCode common m).cpu.esp = m.cpu.esp - 56 ∧
      (stubSaved intNo errCode common m).cpu.ss = m.cpu.ss := by
  simp only [stubSaved, irqPushRegs_cpu, Machine.jump_cpu, Machine.push_cpu, Machine.cli_cpu,
    and_true]
  bv_omega

def irqCalled (handler ret : BitVec 32) (m : Machine) : Machine where
  cpu := { m.cpu with
    eax := handler, esp := m.cpu.esp - 8, eip := handler
    ds := 0x10, es := 0x10, fs := 0x10, gs := 0x10 }
  mem := (m.mem.store32 (m.cpu.esp - 4) m.cpu.esp).store32 (m.cpu.esp - 8) ret
  selectorPush := m.selectorPush

theorem irqCalled_slots {m : Machine} {ws : List Slot} (handler ret : BitVec 32)
    (h : SlotsAt m.mem m.cpu.esp ws) (hlen : 4 * ws.length + 8 ≤ 2 ^ 32) :
    SlotsAt (irqCalled handler ret m).mem (irqCalled handler ret m).cpu.esp
      (.word ret :: .word m.cpu.esp :: ws) := by
  have h1 := Machine.push_slots m.cpu.esp h (by omega)
  have h2 := Machine.push_slots ret h1 (by rw [List.length_cons]; omega)
  have hesp : m.cpu.esp - 8 = m.cpu.esp - 4 - 4 := by bv_omega
  rw [irqCalled, hesp]
  exact h2

/-- The machine after the `iret`, from the one that the handler returned in. -/
def irqRestored (flags : BitVec 32) (m : Machine) : Machine :=
  let m := m.pop .eax |>.popSel .gs |>.popSel .fs |>.popSel .es |>.popSel .ds |>.popa
  { m with cpu := { m.cpu with esp := m.cpu.esp + 8, eflags := flags } }.iret

variable {τ : Type} {p : Image ι τ} {trace : List τ} {m m' : Machine}

theorem irqPushRegs_returns {rest : List (Instr ι)} :
    p.Returns (.pusha :: .pushSeg .ds :: .pushSeg .es :: .pushSeg .fs :: .pushSeg .gs :: rest)
      m trace m' ↔ p.Returns rest (irqPushRegs m) trace m' := by
  rw [Image.returns_exec rfl, Image.returns_exec rfl, Image.returns_exec rfl,
    Image.returns_exec rfl, Image.returns_exec rfl, irqPushRegs]
  simp only [Cpu.getSeg, Machine.pushSel_cpu, Machine.pusha_cpu]

theorem irqCall_returns {handler : ι} {rest : List (Instr ι)} :
    p.Returns
      (.movImm16 .eax 0x10 :: .movSeg .ds .eax :: .movSeg .es .eax :: .movSeg .fs .eax ::
        .movSeg .gs .eax :: .movReg .eax .esp :: .pushReg .eax ::
        .movLabel .eax handler :: .callReg .eax :: rest) m trace m' ↔
    ∃ ret trace₁ trace₂ m₁, p.call (p.addr handler) (irqCalled (p.addr handler) ret m) trace₁ m₁ ∧
      p.Returns rest m₁ trace₂ m' ∧ trace = trace₁ ++ trace₂ := by
  have hsel (x : BitVec 16) : (x ++ (0x10 : BitVec 16)).setWidth 16 = 0x10 :=
    BitVec.setWidth_append_eq_right
  have hesp (a : BitVec 32) : a - 4 - 4 = a - 8 := by bv_omega
  rw [Image.returns_exec rfl, Image.returns_exec rfl, Image.returns_exec rfl,
    Image.returns_exec rfl, Image.returns_exec rfl, Image.returns_exec rfl,
    Image.returns_exec rfl, Image.returns_exec rfl, Image.returns_callReg]
  simp only [Cpu.setSeg, Cpu.get, Cpu.set, hsel, Machine.push, Machine.jump, hesp, irqCalled]

theorem irqRestore_returns :
    p.Returns
      [.popReg .eax, .popSeg .gs, .popSeg .fs, .popSeg .es, .popSeg .ds, .popa, .addEsp 8, .iret]
      m trace m' ↔ trace = [] ∧ ∃ flags, m' = irqRestored flags m := by
  rw [Image.returns_exec rfl, Image.returns_exec rfl, Image.returns_exec rfl,
    Image.returns_exec rfl, Image.returns_exec rfl, Image.returns_exec rfl, Image.returns_addEsp]
  simp only [Image.returns_iret, exists_and_left]
  rfl

theorem commonStub_returns {handler : ι} :
    p.Returns (commonStub handler) m trace m' ↔
      ∃ ret m₁ flags, p.call (p.addr handler) (irqCalled (p.addr handler) ret (irqPushRegs m))
        trace m₁ ∧ m' = irqRestored flags m₁ := by
  rw [commonStub, irqPushRegs_returns, irqCall_returns]
  simp only [irqRestore_returns]
  constructor
  · rintro ⟨ret, trace₁, trace₂, m₁, hrun, ⟨rfl, flags, rfl⟩, rfl⟩
    rw [List.append_nil]
    exact ⟨ret, m₁, flags, hrun, rfl⟩
  · rintro ⟨ret, m₁, flags, hrun, rfl⟩
    exact ⟨ret, trace, [], m₁, hrun, ⟨rfl, flags, rfl⟩, (List.append_nil _).symm⟩

/-- A frame holds the registers `c`, each selector as the processor pushes it. -/
structure SRegs.Holds (f : SRegs) (p : SelectorPush) (c : Cpu) : Prop where
  gs : p.Holds c.gs f.gs
  fs : p.Holds c.fs f.fs
  es : p.Holds c.es f.es
  ds : p.Holds c.ds f.ds
  edi : f.edi = c.edi
  esi : f.esi = c.esi
  ebp : f.ebp = c.ebp
  ebx : f.ebx = c.ebx
  edx : f.edx = c.edx
  ecx : f.ecx = c.ecx
  eax : f.eax = c.eax
  eip : f.eip = c.eip
  cs : p.Holds c.cs f.cs
  eflags : f.eflags = c.eflags

def SRegs.toCpu (f : SRegs) (esp : BitVec 32) (ss : BitVec 16) : Cpu where
  eax := f.eax
  ecx := f.ecx
  edx := f.edx
  ebx := f.ebx
  esp := esp
  ebp := f.ebp
  esi := f.esi
  edi := f.edi
  eip := f.eip
  eflags := f.eflags
  cs := f.cs.setWidth 16
  ds := f.ds.setWidth 16
  es := f.es.setWidth 16
  fs := f.fs.setWidth 16
  gs := f.gs.setWidth 16
  ss := ss

theorem SRegs.Holds.toCpu {f : SRegs} {p : SelectorPush} {c : Cpu} (h : f.Holds p c) :
    f.toCpu c.esp c.ss = c := by
  rw [SRegs.toCpu, h.eax, h.ecx, h.edx, h.ebx, h.ebp, h.esi, h.edi, h.eip, h.eflags, h.cs.low,
    h.ds.low, h.es.low, h.fs.low, h.gs.low]

theorem frameSlots_read {mem : Memory} {reg intNo errCode : BitVec 32} {c : Cpu}
    {p : SelectorPush} (h : SlotsAt mem reg (frameSlots c p intNo errCode)) :
    (SRegs.read mem reg).Holds p c ∧ (SRegs.read mem reg).intNo = intNo ∧
      (SRegs.read mem reg).errCode = errCode ∧ (SRegs.read mem reg).esp = c.esp - 20 := by
  simp only [frameSlots, regSlots, List.cons_append, List.nil_append, SlotsAt, Slot.Fits,
    BitVec.add_assoc, BitVec.reduceAdd] at h
  obtain ⟨gs, fs, es, ds, edi, esi, ebp, esp, ebx, edx, ecx, eax, hint, herr, eip, cs, eflags, -⟩ :=
    h
  exact ⟨⟨gs, fs, es, ds, edi, esi, ebp, ebx, edx, ecx, eax, eip, cs, eflags⟩, hint, herr, esp⟩

theorem irqRestored_cpu (flags : BitVec 32) (m : Machine) :
    (irqRestored flags m).cpu =
      (SRegs.read m.mem (m.cpu.esp + 4)).toCpu (m.cpu.esp + 72) m.cpu.ss := by
  simp only [irqRestored, Machine.iret, Machine.popa, Machine.pop, Machine.popSel, Machine.drop,
    Machine.top, Cpu.set, Cpu.setSeg, SRegs.toCpu, SRegs.read, BitVec.add_assoc,
    BitVec.reduceAdd]
  rfl

theorem stubCalled_frame (g : Machine.Gate) (intNo errCode common handler ret : BitVec 32)
    (m : Machine) {saved called : Machine}
    (hsaved : saved = stubSaved intNo errCode common (m.interrupt g))
    (hcalled : called = irqCalled handler ret saved) :
    called.mem.load32 (called.cpu.esp + 4) = saved.cpu.esp ∧
      (SRegs.read called.mem saved.cpu.esp).Holds m.selectorPush m.cpu ∧
      (SRegs.read called.mem saved.cpu.esp).intNo = intNo ∧
      (SRegs.read called.mem saved.cpu.esp).errCode = errCode ∧
      (SRegs.read called.mem saved.cpu.esp).esp = m.cpu.esp - 20 := by
  have h0 := stubSaved_slots g intNo errCode common m
  rw [← hsaved] at h0
  have h1 := irqCalled_slots handler ret h0 (by simp [frameSlots, regSlots])
  rw [← hcalled] at h1
  have hesp : called.cpu.esp + 4 + 4 = saved.cpu.esp := by
    rw [hcalled, irqCalled]
    bv_omega
  have h2 := h1.2.2
  rw [hesp] at h2
  exact ⟨h1.2.1, frameSlots_read h2⟩

theorem stubRestored_cpu {saved m₁ : Machine} {handler ret : BitVec 32} (flags : BitVec 32)
    (hcdecl : CdeclReturn (irqCalled handler ret saved) m₁) :
    (irqRestored flags m₁).cpu =
      (SRegs.read m₁.mem saved.cpu.esp).toCpu (saved.cpu.esp + 68) saved.cpu.ss := by
  have hreg : m₁.cpu.esp + 4 = saved.cpu.esp := by
    rw [hcdecl.esp, irqCalled]
    bv_omega
  have hend : m₁.cpu.esp + 72 = saved.cpu.esp + 68 := by
    rw [hcdecl.esp, irqCalled]
    bv_omega
  rw [irqRestored_cpu, hreg, hend, hcdecl.ss, irqCalled]

end BordOS
