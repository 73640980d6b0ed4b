import BordOS.Arch.CommonStub
import BordOS.Arch.IrqSetup

namespace BordOS
open Library
set_option autoImplicit true
set_option relaxedAutoImplicit false

inductive IsrLabel where
  | isr (k : Fin 32)
  | isrCommonStub
  | isrDefaultInt
deriving DecidableEq

def isrStub (n : BitVec 8) : List (Instr IsrLabel) :=
  [.cli, .pushImm8 0, .pushImm8 n, .jmp .isrCommonStub]

def isrErrorStub (n : BitVec 8) : List (Instr IsrLabel) :=
  [.cli, .pushImm8 n, .jmp .isrCommonStub]

def isr0 := isrStub 0
def isr1 := isrStub 1
def isr2 := isrStub 2
def isr3 := isrStub 3
def isr4 := isrStub 4
def isr5 := isrStub 5
def isr6 := isrStub 6
def isr7 := isrStub 7
def isr8 := isrErrorStub 8
def isr9 := isrStub 9
def isr10 := isrErrorStub 10
def isr11 := isrErrorStub 11
def isr12 := isrErrorStub 12
def isr13 := isrErrorStub 13
def isr14 := isrErrorStub 14
def isr15 := isrStub 15
def isr16 := isrStub 16
def isr17 := isrStub 17
def isr18 := isrStub 18
def isr19 := isrStub 19
def isr20 := isrStub 20
def isr21 := isrStub 21
def isr22 := isrStub 22
def isr23 := isrStub 23
def isr24 := isrStub 24
def isr25 := isrStub 25
def isr26 := isrStub 26
def isr27 := isrStub 27
def isr28 := isrStub 28
def isr29 := isrStub 29
def isr30 := isrStub 30
def isr31 := isrStub 31

def isrStubs : Fin 32 → List (Instr IsrLabel) :=
  ![isr0, isr1, isr2, isr3, isr4, isr5, isr6, isr7,
    isr8, isr9, isr10, isr11, isr12, isr13, isr14, isr15,
    isr16, isr17, isr18, isr19, isr20, isr21, isr22, isr23,
    isr24, isr25, isr26, isr27, isr28, isr29, isr30, isr31]

def isrCommonStub : List (Instr IsrLabel) :=
  [.pusha, .pushSeg .ds, .pushSeg .es, .pushSeg .fs, .pushSeg .gs,
   .movImm16 .eax 0x10, .movSeg .ds .eax, .movSeg .es .eax, .movSeg .fs .eax, .movSeg .gs .eax,
   .movReg .eax .esp, .pushReg .eax,
   .movLabel .eax .isrDefaultInt, .callReg .eax,
   .popReg .eax, .popSeg .gs, .popSeg .fs, .popSeg .es, .popSeg .ds, .popa, .addEsp 8, .iret]

/-- `isr_default_int` panics on the number of every exception. This is a handler in its place that
returns: it looks at the frame and leaves it. -/
structure IsrHandlerReturns (m : Machine) (frames : List SRegs) (m' : Machine) : Prop where
  cdecl : CdeclReturn m m'
  entered : frames = [.read m.mem (m.mem.load32 (m.cpu.esp + 4))]
  kept : SRegs.read m'.mem (m.mem.load32 (m.cpu.esp + 4)) =
    .read m.mem (m.mem.load32 (m.cpu.esp + 4))

structure IsrSymbols extends Symbols where
  isrCommonStub : BitVec 32
  isrDefaultInt : BitVec 32

def isrImage (symbols : IsrSymbols) : Image IsrLabel SRegs where
  code
    | .isr k => isrStubs k
    | .isrCommonStub => isrCommonStub
    | .isrDefaultInt => []
  addr
    | .isr k => symbols.isr k
    | .isrCommonStub => symbols.isrCommonStub
    | .isrDefaultInt => symbols.isrDefaultInt
  call a m frames m' := a = symbols.isrDefaultInt ∧ IsrHandlerReturns m frames m'

end BordOS
