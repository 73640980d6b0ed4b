import BordOS.Drivers.Console
import BordOS.Library.ProgramSpec

namespace BordOS
open Library
set_option autoImplicit true
set_option relaxedAutoImplicit false

def serialCom1 : BitVec 16 := 0x3F8

def serialIsTransmitEmpty (port : BitVec 16) : PortM (BitVec 8) := do
  let status ← inb (port + 5)
  return status &&& 0x20

/-- `while (!serial_is_transmit_empty(port));` -/
def serialDrain (fuel : Nat) (port : BitVec 16) : PortM Unit := do
  let _ ← Prog.loopWhile (serialIsTransmitEmpty port) (fun b => b == 0) .outOfFuel fuel

def serialPut (fuel : Nat) (port : BitVec 16) (a : BitVec 8) : PortM Unit := do
  serialDrain fuel port
  outb port a

def serialDigits : CString := .lit "0123456789ABCDEF"

/-- `serial_write_nb`. The division by base 0 is the processor's fault. -/
def serialWriteNb (port : BitVec 16) : Nat → BitVec 32 → BitVec 8 → ConsoleM Unit
  | 0, _, _ => .fail .outOfFuel
  | fuel + 1, nb, base => do
    consoleAssert (base ≤ 16) "base <= 16 && \"Base should be <= 16\""
    if base = 0 then .fail .divideError
    if nb > base.setWidth 32 then serialWriteNb port fuel (nb / base.setWidth 32) base
    let digit ← charAt serialDigits (nb % base.setWidth 32).toNat
    callSerialPut port digit

def serialWriteNbSigned (fuel : Nat) (port : BitVec 16) (nb : BitVec 32) (base : BitVec 8) :
    ConsoleM Unit := do
  consoleAssert (base = 10) "base == 10"
  if nb.slt 0 then
    callSerialPut port 0x2D
    serialWriteNb port fuel (-nb) base
  else serialWriteNb port fuel nb base

def serialWriteChars (port : BitVec 16) (str : CString) : Nat → Nat → ConsoleM Unit
  | 0, _ => .fail .outOfFuel
  | fuel + 1, i => do
    if (← charAt str i) ≠ 0 then
      callSerialPut port (← charAt str i)
      if (← charAt str i) = 0x0A then callSerialPut port 0x0D
      serialWriteChars port str fuel (i + 1)

/-- `serial_write_str` of a pointer, with the string there. -/
def serialWriteStr (fuel : Nat) (port : BitVec 16) (str : VaArg) : ConsoleM Unit := do
  consoleAssert (str.word ≠ 0) "str"
  serialWriteChars port str.str fuel 0
  .perform (ConsoleOp.serialDrain port)

def serialVprintfLoop (format : CString) : Nat → Nat → VaList → ConsoleM (BitVec 32)
  | 0, _, _ => .fail .outOfFuel
  | fuel + 1, ite, ap => do
    if (← charAt format ite) = 0 then return BitVec.ofNat 32 ite
    if (← charAt format ite) = 0x25 then
      if (← charAt format (ite + 1)) ≠ 0 then
        let c ← charAt format (ite + 1)
        if c = 0x73 then
          let tmp ← vaArg ap
          serialWriteStr fuel serialCom1 tmp
          serialVprintfLoop format fuel (ite + 2) ap.tail
        else if c = 0x64 then
          let nb ← vaArg ap
          serialWriteNbSigned fuel serialCom1 nb.word 10
          serialVprintfLoop format fuel (ite + 2) ap.tail
        else if c = 0x75 then
          let nbu ← vaArg ap
          serialWriteNb serialCom1 fuel nbu.word 10
          serialVprintfLoop format fuel (ite + 2) ap.tail
        else if c = 0x78 then
          let nbX ← vaArg ap
          serialWriteNb serialCom1 fuel nbX.word 16
          serialVprintfLoop format fuel (ite + 2) ap.tail
        else .fail (.assertion "0 && \"Not supported format string option\"")
      else
        callSerialPut serialCom1 (← charAt format ite)
        serialVprintfLoop format fuel (ite + 1) ap
    else
      callSerialPut serialCom1 (← charAt format ite)
      serialVprintfLoop format fuel (ite + 1) ap

/-- `serial_vprintf`. Its assertion holds of every string. -/
def serialVprintf (fuel : Nat) (format : CString) (ap : VaList) : ConsoleM (BitVec 32) :=
  serialVprintfLoop format fuel 0 ap

def serialPrintf (fuel : Nat) (format : CString) (args : VaList) : ConsoleM (BitVec 32) :=
  serialVprintf fuel format args

end BordOS
