import BordOS.Drivers.VgaText

namespace BordOS
open Library
set_option autoImplicit true
set_option relaxedAutoImplicit false

def vprintfLoop (format : CString) : Nat → Nat → VaList → ConsoleM (BitVec 32)
  | 0, _, _ => .fail .outOfFuel
  | fuel + 1, ite, ap => do
    if (← charAt format ite) = 0 then return BitVec.ofNat 32 ite
    if (← charAt format ite) = 0x25 then
      if (← charAt format (ite + 1)) ≠ 0 then
        let c ← charAt format (ite + 1)
        if c = 0x73 then
          let tmp ← vaArg ap
          vgaWriteStr fuel tmp
          vprintfLoop format fuel (ite + 2) ap.tail
        else if c = 0x64 then
          let nb ← vaArg ap
          vgaWriteNbSigned fuel nb.word 10
          vprintfLoop format fuel (ite + 2) ap.tail
        else if c = 0x75 then
          let nbu ← vaArg ap
          vgaWriteNb fuel nbu.word 10
          vprintfLoop format fuel (ite + 2) ap.tail
        else if c = 0x78 then
          let nbX ← vaArg ap
          vgaWriteNb fuel nbX.word 16
          vprintfLoop format fuel (ite + 2) ap.tail
        else .fail (.assertion "0 && \"Not supported format string option\"")
      else
        callVgaPut (← charAt format ite)
        vprintfLoop format fuel (ite + 1) ap
    else
      callVgaPut (← charAt format ite)
      vprintfLoop format fuel (ite + 1) ap

def vprintf (fuel : Nat) (format : CString) (ap : VaList) : ConsoleM (BitVec 32) :=
  vprintfLoop format fuel 0 ap

def printf (fuel : Nat) (format : CString) (args : VaList) : ConsoleM (BitVec 32) :=
  vprintf fuel format args

end BordOS
