import BordOS.Kernel.Fault
import BordOS.Library.Program

namespace BordOS
open Library
set_option autoImplicit true
set_option relaxedAutoImplicit false

inductive LogLevel where
  | debug
  | info
  | warning
  | error
  | critical
deriving DecidableEq, Repr

inductive LogArg where
  | num (n : BitVec 32)
  | str (s : String)
  /-- A `char` array of the caller. -/
  | chars (data : List (BitVec 8))
deriving DecidableEq, Repr

/-- What a driver does to the world outside its own memory. `log` is the call through `g_klogger`,
which a device may take as one step or the logger's own code carries out. -/
inductive PortOp where
  | inb (port : BitVec 16)
  | inw (port : BitVec 16)
  | outb (port : BitVec 16) (val : BitVec 8)
  | outw (port : BitVec 16) (val : BitVec 16)
  | cli
  | sti
  | log (lvl : LogLevel) (fmt : String) (args : List LogArg)
deriving DecidableEq, Repr

abbrev PortOp.Reply : PortOp → Type
  | .inb _ => BitVec 8
  | .inw _ => BitVec 16
  | _ => Unit

abbrev PortM := Prog PortOp PortOp.Reply Fault

abbrev PortDevice (σ : Type) := Device PortOp PortOp.Reply σ

abbrev PortEvent (σ : Type) := Event PortOp PortOp.Reply σ

def inb (port : BitVec 16) : PortM (BitVec 8) := .perform (PortOp.inb port)

def inw (port : BitVec 16) : PortM (BitVec 16) := .perform (PortOp.inw port)

def outb (port : BitVec 16) (val : BitVec 8) : PortM Unit := .perform (PortOp.outb port val)

def outw (port : BitVec 16) (val : BitVec 16) : PortM Unit := .perform (PortOp.outw port val)

def klog (lvl : LogLevel) (fmt : String) (args : List LogArg) : PortM Unit :=
  .perform (PortOp.log lvl fmt args)

def emptyBus : PortDevice Unit
  | .inb _, s => (0xFF, s)
  | .inw _, s => (0xFFFF, s)
  | .outb _ _, s | .outw _ _, s | .cli, s | .sti, s | .log _ _ _, s => ((), s)

def PortOp.IsInb (op : PortOp) : Prop := ∃ port, op = .inb port

def PortOp.IsByte (op : PortOp) : Prop := (∃ port, op = .inb port) ∨ ∃ port val, op = .outb port val

def PortOp.NotLog (op : PortOp) : Prop := ∀ lvl fmt args, op ≠ .log lvl fmt args

theorem inb_uses (port : BitVec 16) : (inb port).Uses PortOp.IsInb := .perform ⟨port, rfl⟩

theorem outb_uses (port : BitVec 16) (val : BitVec 8) : (outb port val).Uses PortOp.NotLog :=
  .perform nofun

theorem notLog_of_inb {p : PortM α} (h : p.Uses PortOp.IsInb) : p.Uses PortOp.NotLog := by
  apply h.mono
  rintro _ ⟨port, rfl⟩
  nofun

end BordOS
