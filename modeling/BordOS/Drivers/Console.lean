import Mathlib.Data.List.GetD
import BordOS.Arch.Ports

namespace BordOS
open Library
set_option autoImplicit true
set_option relaxedAutoImplicit false

/-- A NUL-terminated string: the bytes before its terminator. -/
structure CString where
  chars : List (BitVec 8)
  noNul : ∀ c ∈ chars, c ≠ 0
deriving DecidableEq

def CString.lit (s : String) : CString where
  chars := (s.toList.map fun c => BitVec.ofNat 8 c.toNat).filter (· ≠ 0)
  noNul _ hc := of_decide_eq_true (List.mem_filter.1 hc).2

def CString.ofChars (data : List (BitVec 8)) : CString where
  chars := data.takeWhile (· ≠ 0)
  noNul c hc := by
    have hne : decide (c ≠ 0) = true := List.all_eq_true.1 List.all_takeWhile c hc
    exact of_decide_eq_true hne

/-- A variadic argument: its word on the stack, and the string at the address that the word is
when it is read as a `char *`. -/
structure VaArg where
  word : BitVec 32
  str : CString
deriving DecidableEq

/-- The arguments from the next one on. It is a value: a callee that walks it leaves the caller's
as it is. -/
abbrev VaList := List VaArg

/-- What a printer does: it reads a character of a string or an argument, calls `serial_put` or
`vga_put`, waits for the serial port to drain, or operates on a port. -/
inductive ConsoleOp where
  | charAt (s : CString) (i : Nat)
  | vaArg (ap : VaList)
  | serialPut (port : BitVec 16) (a : BitVec 8)
  | serialDrain (port : BitVec 16)
  | vgaPut (c : BitVec 8)
  | port (op : PortOp)

abbrev ConsoleOp.Reply : ConsoleOp → Type
  | .charAt _ _ => BitVec 8
  | .vaArg _ => VaArg
  | .serialPut _ _ | .serialDrain _ | .vgaPut _ => Unit
  | .port op => op.Reply

abbrev ConsoleM := Prog ConsoleOp ConsoleOp.Reply Fault

abbrev ConsoleEvent (σ : Type) := Event ConsoleOp ConsoleOp.Reply σ

def charAt (s : CString) (i : Nat) : ConsoleM (BitVec 8) := .perform (ConsoleOp.charAt s i)

/-- The argument that `va_arg` reads. The caller goes on with the tail of the list. -/
def vaArg (ap : VaList) : ConsoleM VaArg := .perform (ConsoleOp.vaArg ap)

def callSerialPut (port : BitVec 16) (a : BitVec 8) : ConsoleM Unit :=
  .perform (ConsoleOp.serialPut port a)

def callVgaPut (c : BitVec 8) : ConsoleM Unit := .perform (ConsoleOp.vgaPut c)

/-- A failed `assert` ends in `abort_handler`, which does not return. -/
def consoleAssert (cond : Bool) (text : String) : ConsoleM Unit :=
  if cond then pure () else .fail (.assertion text)

def onPorts (p : PortM α) : ConsoleM α :=
  p.translate fun op => .perform (ConsoleOp.port op)

/-- What lies in memory after the terminator of a string and after the last argument. -/
structure Beyond where
  char : CString → Nat → BitVec 8
  arg : VaArg

def CString.byte (b : Beyond) (s : CString) (i : Nat) : BitVec 8 :=
  if i ≤ s.chars.length then s.chars.getD i 0 else b.char s i

/-- Reads come from memory, and calls of the two drivers are left to the trace. -/
def consoleDevice (b : Beyond) (ports : PortDevice σ) : Device ConsoleOp ConsoleOp.Reply σ
  | .charAt s i, st => (s.byte b i, st)
  | .vaArg ap, st => (ap.headD b.arg, st)
  | .serialPut _ _, st | .serialDrain _, st | .vgaPut _, st => ((), st)
  | .port op, st => ports op st

inductive Shown where
  | arg (a : VaArg)
  | serial (port : BitVec 16) (c : BitVec 8)
  | drain (port : BitVec 16)
  | vga (c : BitVec 8)
deriving DecidableEq

def shownOf (e : ConsoleEvent σ) : Option Shown :=
  match e with
  | ⟨_, .vaArg _, a⟩ => some (.arg a)
  | ⟨_, .serialPut port c, _⟩ => some (.serial port c)
  | ⟨_, .serialDrain port, _⟩ => some (.drain port)
  | ⟨_, .vgaPut c, _⟩ => some (.vga c)
  | ⟨_, .charAt _ _, _⟩ | ⟨_, .port _, _⟩ => none

def shown (tr : List (ConsoleEvent σ)) : List Shown := tr.filterMap shownOf

/-- A read of a string stays within it, its terminator included. -/
def ReadsWithin (e : ConsoleEvent σ) : Prop :=
  match e.op with
  | .charAt s i => i ≤ s.chars.length
  | _ => True

@[simp] theorem shown_append (tr tr' : List (ConsoleEvent σ)) :
    shown (tr ++ tr') = shown tr ++ shown tr' :=
  List.filterMap_append

theorem CString.byte_of_lt (b : Beyond) {s : CString} {i : Nat} (hi : i < s.chars.length) :
    s.byte b i = s.chars[i] := by
  rw [byte, if_pos (Nat.le_of_lt hi), List.getD_eq_getElem _ _ hi]

theorem CString.byte_length (b : Beyond) (s : CString) : s.byte b s.chars.length = 0 := by
  rw [byte, if_pos (Nat.le_refl _), List.getD_eq_default _ _ (Nat.le_refl _)]

end BordOS
