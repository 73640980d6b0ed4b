import BordOS.Drivers.Console

namespace BordOS
open Library
set_option autoImplicit true
set_option relaxedAutoImplicit false

def vgaDigits : CString := .lit "0123456789ABCDEF"

/-- `vga_write_nb`. The division by base 0 is the processor's fault. -/
def vgaWriteNb : Nat → BitVec 32 → BitVec 8 → ConsoleM Unit
  | 0, _, _ => .fail .outOfFuel
  | fuel + 1, nb, base => do
    consoleAssert (base ≤ 16) "base <= 16 && \"Base should be <= 16\""
    if base = 0 then .fail .divideError
    if nb > base.setWidth 32 then vgaWriteNb fuel (nb / base.setWidth 32) base
    let digit ← charAt vgaDigits (nb % base.setWidth 32).toNat
    callVgaPut digit

def vgaWriteNbSigned (fuel : Nat) (nb : BitVec 32) (base : BitVec 8) : ConsoleM Unit := do
  consoleAssert (base = 10) "base == 10"
  if nb.slt 0 then
    callVgaPut 0x2D
    vgaWriteNb fuel (-nb) base
  else vgaWriteNb fuel nb base

def vgaWriteChars (str : CString) : Nat → Nat → ConsoleM Unit
  | 0, _ => .fail .outOfFuel
  | fuel + 1, i => do
    if (← charAt str i) ≠ 0 then
      callVgaPut (← charAt str i)
      vgaWriteChars str fuel (i + 1)

def vgaWriteStr (fuel : Nat) (str : VaArg) : ConsoleM Unit := do
  consoleAssert (str.word ≠ 0) "str"
  vgaWriteChars str.str fuel 0

end BordOS
