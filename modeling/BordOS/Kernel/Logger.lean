import BordOS.Drivers.Cmos
import BordOS.Drivers.Serial
import BordOS.Libc.Stdio

namespace BordOS
open Library
set_option autoImplicit true
set_option relaxedAutoImplicit false

def LogLevel.toInt : LogLevel → BitVec 32
  | .debug => 0
  | .info => 1
  | .warning => 2
  | .error => 3
  | .critical => 4

def logSerial : BitVec 8 := 0x1
def logGraphic : BitVec 8 := 0x2

/-- `g_klogger`, without its function pointers. -/
structure Klogger where
  output : BitVec 8
  level : LogLevel
deriving DecidableEq, Repr

/-- `g_klogger` as a build with `DEBUG` starts it. -/
def gKlogger : Klogger where
  output := logSerial
  level := .debug

def kernelLoggerSetLevel (level : LogLevel) (k : Klogger) : Klogger := { k with level }

def kernelLoggerSetOutput (output : BitVec 8) (k : Klogger) : Klogger := { k with output }

/-- Where the linker puts the strings of the name tables. -/
structure Rodata where
  addr : CString → BitVec 32
  ne_null : ∀ s, addr s ≠ 0

def Rodata.arg (r : Rodata) (s : CString) : VaArg where
  word := r.addr s
  str := s

/-- A `uint8_t` argument, promoted to `int`. It is no address. -/
def VaArg.ofByte (v : BitVec 8) : VaArg where
  word := v.setWidth 32
  str := .lit ""

def levelStr : List CString :=
  [.lit "DEBUG", .lit "INFO", .lit "WARNING", .lit "ERROR", .lit "CRITICAL"]

def months : List CString :=
  [.lit "", .lit "Jan.", .lit "Fev.", .lit "Mar.", .lit "Apr.", .lit "May.", .lit "Jun.",
    .lit "Jul.", .lit "Aug.", .lit "Sep.", .lit "Oct.", .lit "Nov.", .lit "Dec."]

/-- `table[i]` has no meaning beyond the end of the table. -/
def tableAt (table : List CString) (i : Nat) : ConsoleM CString :=
  match table[i]? with
  | some s => pure s
  | none => .fail (.outOfBounds i)

def headerFormat : CString := .lit "[%d %s %d:%d:%d] \x7b%s\x7d "

def headerArgs (r : Rodata) (lvl : LogLevel) (date : CmosRtc) : ConsoleM VaList := do
  let month ← tableAt months date.month.toNat
  let level ← tableAt levelStr lvl.toInt.toNat
  return [.ofByte date.day, r.arg month, .ofByte date.hour, .ofByte date.minuts,
    .ofByte date.seconds, r.arg level]

def kernelLoggerPrintHeader (fuel : Nat) (r : Rodata) (output : BitVec 8) (lvl : LogLevel) :
    ConsoleM (BitVec 32) := do
  let date ← onPorts (cmosRTC fuel)
  let onSerial ← (if output &&& logSerial ≠ 0 then
    headerArgs r lvl date >>= serialPrintf fuel headerFormat else pure 0)
  let onScreen ← (if output &&& logGraphic ≠ 0 then
    headerArgs r lvl date >>= printf fuel headerFormat else pure 0)
  return onSerial + onScreen

def kernelLoggerPrintMsg (fuel : Nat) (r : Rodata) (output : BitVec 8) (lvl : LogLevel)
    (fmt : CString) (ap : VaList) : ConsoleM (BitVec 32) := do
  let header ← kernelLoggerPrintHeader fuel r output lvl
  let onSerial ← (if output &&& logSerial ≠ 0 then serialVprintf fuel fmt ap else pure 0)
  let onScreen ← (if output &&& logGraphic ≠ 0 then vprintf fuel fmt ap else pure 0)
  return header + onSerial + onScreen

def kernelLoggerLog (fuel : Nat) (r : Rodata) (k : Klogger) (lvl : LogLevel) (fmt : CString)
    (args : VaList) : ConsoleM (BitVec 32) :=
  if lvl.toInt ≥ k.level.toInt then kernelLoggerPrintMsg fuel r k.output lvl fmt args else pure 0

end BordOS
