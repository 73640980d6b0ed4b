import Mathlib.Data.Fin.VecNotation
import BordOS.Kernel.Fault
import BordOS.Library.X86

namespace BordOS
open Library
set_option autoImplicit true
set_option relaxedAutoImplicit false

/-- `struct s_regs` -/
@[ext]
structure SRegs where
  gs : BitVec 32
  fs : BitVec 32
  es : BitVec 32
  ds : BitVec 32
  edi : BitVec 32
  esi : BitVec 32
  ebp : BitVec 32
  esp : BitVec 32
  ebx : BitVec 32
  edx : BitVec 32
  ecx : BitVec 32
  eax : BitVec 32
  intNo : BitVec 32
  errCode : BitVec 32
  eip : BitVec 32
  cs : BitVec 32
  eflags : BitVec 32
  useresp : BitVec 32
  ss : BitVec 32
deriving DecidableEq, Repr

/-- The `s_regs` at an address: its fields follow each other without padding. -/
def SRegs.read (mem : Memory) (reg : BitVec 32) : SRegs where
  gs := mem.load32 reg
  fs := mem.load32 (reg + 4)
  es := mem.load32 (reg + 8)
  ds := mem.load32 (reg + 12)
  edi := mem.load32 (reg + 16)
  esi := mem.load32 (reg + 20)
  ebp := mem.load32 (reg + 24)
  esp := mem.load32 (reg + 28)
  ebx := mem.load32 (reg + 32)
  edx := mem.load32 (reg + 36)
  ecx := mem.load32 (reg + 40)
  eax := mem.load32 (reg + 44)
  intNo := mem.load32 (reg + 48)
  errCode := mem.load32 (reg + 52)
  eip := mem.load32 (reg + 56)
  cs := mem.load32 (reg + 60)
  eflags := mem.load32 (reg + 64)
  useresp := mem.load32 (reg + 68)
  ss := mem.load32 (reg + 72)

/-- `struct idt_entry` -/
structure IdtEntry where
  baseLow : BitVec 16
  sel : BitVec 16
  always0 : BitVec 8
  flags : BitVec 8
  baseHigh : BitVec 16
deriving DecidableEq, Repr

def IdtEntry.pack (e : IdtEntry) : BitVec 64 :=
  e.baseHigh ++ e.flags ++ e.always0 ++ e.sel ++ e.baseLow

/-- `struct idt_reg` -/
structure IdtReg where
  limit : BitVec 16
  base : BitVec 32
deriving DecidableEq, Repr

/-- The static data of `interrupts.c`, and what its code did to the processor and its ports. The
routines are of type `ρ`, a missing one is the null pointer. -/
structure Interrupts (ρ : Type) where
  irqRoutines : Fin 16 → Option ρ
  idt : BitVec 8 → IdtEntry
  idtr : IdtReg
  /-- the operand of the last `lidt` -/
  loaded : IdtReg
  interruptFlag : Bool
  outs : List (BitVec 16 × BitVec 8)

def Interrupts.start : Interrupts ρ where
  irqRoutines _ := none
  idt _ := { baseLow := 0, sel := 0, always0 := 0, flags := 0, baseHigh := 0 }
  idtr := { limit := 0, base := 0 }
  loaded := { limit := 0, base := 0 }
  interruptFlag := false
  outs := []

/-- The addresses that the linker gives to the stubs, to `irq_handler` and to `idt`. -/
structure Symbols where
  isr : Fin 32 → BitVec 32
  irq : Fin 16 → BitVec 32
  irqCommonStub : BitVec 32
  irqHandler : BitVec 32
  idt : BitVec 32

def irqSetRoutine (irq : BitVec 32) (handler : Option ρ) : KernelM (Interrupts ρ) Unit :=
  if h : irq.toNat < 16 then
    modify fun s => { s with irqRoutines := Function.update s.irqRoutines ⟨irq.toNat, h⟩ handler }
  else throw (.outOfBounds irq.toNat)

def irqRemap (s : Interrupts ρ) : Interrupts ρ :=
  { s with outs := s.outs ++
    [(0x20, 0x11), (0xA0, 0x11),
     (0x21, 0x20), (0xA1, 0x28),
     (0x21, 0x04), (0xA1, 0x02),
     (0x21, 0x01), (0xA1, 0x01),
     (0x21, 0x00), (0xA1, 0x00)] }

def idtSetGate (num : BitVec 8) (base : BitVec 64) (sel : BitVec 16) (flags : BitVec 8)
    (s : Interrupts ρ) : Interrupts ρ :=
  { s with
    idt := Function.update s.idt num
      { baseLow := (base &&& 0xFFFF).setWidth 16
        baseHigh := ((base >>> 16) &&& 0xFFFF).setWidth 16
        sel := sel
        always0 := 0
        flags := flags } }

/-- The calls of `idt_set_gate` in a row: the gate and the stub of each. All have the same selector
and flags. -/
def idtSetGates (stub : Fin n → BitVec 32) (gates : List (BitVec 8 × Fin n)) (s : Interrupts ρ) :
    Interrupts ρ :=
  gates.foldl (fun s g => idtSetGate g.1 ((stub g.2).setWidth 64) 0x08 0x8E s) s

def irqGates : List (BitVec 8 × Fin 16) :=
  [(32, 0), (33, 1), (34, 2), (35, 3), (36, 4), (37, 5), (38, 6), (39, 7),
   (40, 8), (41, 9), (42, 10), (43, 11), (44, 12), (45, 13), (46, 14), (47, 15)]

def isrGates : List (BitVec 8 × Fin 32) :=
  [(0, 0), (1, 1), (2, 2), (3, 3), (4, 4), (5, 5), (6, 6), (7, 7),
   (8, 8), (9, 9), (10, 10), (11, 11), (12, 12), (13, 13), (14, 14), (15, 15),
   (16, 16), (17, 17), (18, 18), (19, 19), (20, 20), (21, 21), (22, 22), (23, 23),
   (24, 24), (25, 25), (26, 26), (27, 27), (28, 28), (29, 29), (30, 30), (31, 31)]

def initIrq (symbols : Symbols) (s : Interrupts ρ) : Interrupts ρ :=
  idtSetGates symbols.irq irqGates (irqRemap s)

def initIdt (symbols : Symbols) (s : Interrupts ρ) : Interrupts ρ :=
  let s := { s with
    idtr := { limit := 8 * 256 - 1, base := symbols.idt }
    idt := fun _ => { baseLow := 0, sel := 0, always0 := 0, flags := 0, baseHigh := 0 } }
  let s := idtSetGates symbols.isr isrGates s
  let s := { s with loaded := s.idtr }
  let s := initIrq symbols s
  { s with interruptFlag := true }

/-- The processor's lookup of a gate: its descriptor must lie within the loaded limit. -/
def Interrupts.gate (s : Interrupts ρ) (vector : BitVec 8) : Option Machine.Gate :=
  if vector.toNat * 8 + 7 ≤ s.loaded.limit.toNat then Machine.decodeGate (s.idt vector).pack
  else none

/-- What `irq_handler` does that others see. A routine gets the address of the frame, which holds
these registers then. -/
inductive IrqAction (ρ : Type) where
  | enter (frame : SRegs)
  | call (routine : ρ) (frame : SRegs)
  | outb (port : BitVec 16) (val : BitVec 8)
deriving DecidableEq

/-- The frame that `reg` points to, and the actions so far. -/
structure IrqState (ρ : Type) where
  frame : SRegs
  actions : List (IrqAction ρ)

def IrqState.outb (port : BitVec 16) (val : BitVec 8) (s : IrqState ρ) : IrqState ρ :=
  { s with actions := s.actions ++ [.outb port val] }

/-- `handler(reg)` unless it is null. `effect` is what each routine does to the frame. -/
def IrqState.callHandler (effect : ρ → SRegs → SRegs) (handler : Option ρ) (s : IrqState ρ) :
    IrqState ρ :=
  match handler with
  | some r => { frame := effect r s.frame, actions := s.actions ++ [.call r s.frame] }
  | none => s

/-- The two writes at the end: the number is read again, after the routine. -/
def IrqState.endOfInterrupt (s : IrqState ρ) : IrqState ρ :=
  (if 40 ≤ s.frame.intNo then s.outb 0xA0 0x20 else s).outb 0x20 0x20

def irqHandler (effect : ρ → SRegs → SRegs) (irqRoutines : Fin 16 → Option ρ) :
    KernelM (IrqState ρ) Unit := do
  modify fun s => { s with actions := s.actions ++ [.enter s.frame] }
  let s ← get
  let index := s.frame.intNo - 32
  if h : index.toNat < 16 then
    set (s.callHandler effect (irqRoutines ⟨index.toNat, h⟩)).endOfInterrupt
  else throw (.outOfBounds index.toNat)

inductive IrqLabel where
  | irq (k : Fin 16)
  | irqCommonStub
  | irqHandler
deriving DecidableEq

def irqStub (n : BitVec 8) : List (Instr IrqLabel) :=
  [.cli, .pushImm8 0, .pushImm8 n, .jmp .irqCommonStub]

def irq0 := irqStub 32
def irq1 := irqStub 33
def irq2 := irqStub 34
def irq3 := irqStub 35
def irq4 := irqStub 36
def irq5 := irqStub 37
def irq6 := irqStub 38
def irq7 := irqStub 39
def irq8 := irqStub 40
def irq9 := irqStub 41
def irq10 := irqStub 42
def irq11 := irqStub 43
def irq12 := irqStub 44
def irq13 := irqStub 45
def irq14 := irqStub 46
def irq15 := irqStub 47

def irqStubs : Fin 16 → List (Instr IrqLabel) :=
  ![irq0, irq1, irq2, irq3, irq4, irq5, irq6, irq7,
    irq8, irq9, irq10, irq11, irq12, irq13, irq14, irq15]

def irqCommonStub : List (Instr IrqLabel) :=
  [.pusha, .pushSeg .ds, .pushSeg .es, .pushSeg .fs, .pushSeg .gs,
   .movImm16 .eax 0x10, .movSeg .ds .eax, .movSeg .es .eax, .movSeg .fs .eax, .movSeg .gs .eax,
   .movReg .eax .esp, .pushReg .eax,
   .movLabel .eax .irqHandler, .callReg .eax,
   .popReg .eax, .popSeg .gs, .popSeg .fs, .popSeg .es, .popSeg .ds, .popa, .addEsp 8, .iret]

/-- A function compiled for the C calling convention was entered in `m` and has returned in `m'`:
it popped the return address and kept the registers that it must save. It may leave any values
in `eax`, `ecx`, `edx` and the flags. -/
structure CdeclReturn (m m' : Machine) : Prop where
  eip : m'.cpu.eip = m.top
  esp : m'.cpu.esp = m.cpu.esp + 4
  ebx : m'.cpu.ebx = m.cpu.ebx
  ebp : m'.cpu.ebp = m.cpu.ebp
  esi : m'.cpu.esi = m.cpu.esi
  edi : m'.cpu.edi = m.cpu.edi
  cs : m'.cpu.cs = m.cpu.cs
  ss : m'.cpu.ss = m.cpu.ss
  ds : m'.cpu.ds = m.cpu.ds
  es : m'.cpu.es = m.cpu.es
  fs : m'.cpu.fs = m.cpu.fs
  gs : m'.cpu.gs = m.cpu.gs

/-- `irq_handler` compiled: its argument is above the return address. The frame ends up as the
source leaves it; other memory, its own stack and argument included, may change. -/
structure IrqHandlerReturns (effect : ρ → SRegs → SRegs) (irqRoutines : Fin 16 → Option ρ)
    (m : Machine) (actions : List (IrqAction ρ)) (m' : Machine) : Prop where
  cdecl : CdeclReturn m m'
  source : (irqHandler effect irqRoutines).run
      { frame := .read m.mem (m.mem.load32 (m.cpu.esp + 4)), actions := [] } =
    .ok () { frame := .read m'.mem (m.mem.load32 (m.cpu.esp + 4)), actions }

def irqImage (symbols : Symbols) (effect : ρ → SRegs → SRegs) (irqRoutines : Fin 16 → Option ρ) :
    Image IrqLabel (IrqAction ρ) where
  code
    | .irq k => irqStubs k
    | .irqCommonStub => irqCommonStub
    | .irqHandler => []
  addr
    | .irq k => symbols.irq k
    | .irqCommonStub => symbols.irqCommonStub
    | .irqHandler => symbols.irqHandler
  call a m actions m' :=
    a = symbols.irqHandler ∧ IrqHandlerReturns effect irqRoutines m actions m'

end BordOS
