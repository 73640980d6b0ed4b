import BordOS.Kernel.LoggerCalls
import BordOS.Kernel.LoggerRuns
import BordOS.Libc.String

namespace BordOS
open Library
set_option autoImplicit true
set_option relaxedAutoImplicit false

def Library.Memory.chars (m : Memory) (a : BitVec 32) : Nat → List (BitVec 8)
  | 0 => []
  | n + 1 => if m a = 0 then [] else m a :: m.chars (a + 1) n

theorem Library.Memory.chars_ne_zero {m : Memory} {a : BitVec 32} {n : Nat} :
    ∀ c ∈ m.chars a n, c ≠ 0 := by
  induction n generalizing a with
  | zero => exact fun _ hc => absurd hc List.not_mem_nil
  | succ n ih =>
    by_cases hnul : m a = 0
    · rw [Memory.chars, if_pos hnul]
      exact fun _ hc => absurd hc List.not_mem_nil
    · rw [Memory.chars, if_neg hnul, List.forall_mem_cons]
      exact ⟨hnul, ih⟩

/-- A word that is passed as an argument, with the string that it points to. -/
def VaArg.inMemory (m : Memory) (word : BitVec 32) : VaArg where
  word := word
  str := { chars := m.chars word (2 ^ 32), noNul := Memory.chars_ne_zero }

def maxDevice : Nat := 64

/-- `sizeof(struct device_t)`: seven words, of which the first is the name. -/
def deviceSize : BitVec 32 := 28

/-- The addresses that the linker gives to `devices` and to `device_last_id`. -/
structure DeviceSymbols where
  devices : BitVec 32
  deviceLastId : BitVec 32
  table_fits : devices.toNat + 28 * maxDevice ≤ 2 ^ 32
  apart : 28 * maxDevice ≤ (deviceLastId - devices).toNat
  apart' : 4 ≤ (devices - deviceLastId).toNat

def deviceAddFormat : CString := .lit "Adding device[%s] %d\r\n"

variable (symbols : DeviceSymbols)

/-- `&devices[device_last_id]` -/
def deviceSlot (m : Memory) : BitVec 32 :=
  symbols.devices + deviceSize * m.load32 symbols.deviceLastId

def deviceAdd (fuel : Nat) (r : Rodata) (k : Klogger) (m : Memory) (dev : BitVec 32) :
    ConsoleM (BitVec 32 × Memory) := do
  consoleAssert (dev ≠ 0) "dev"
  let _ ← kernelLoggerLog fuel r k .info deviceAddFormat
    [.inMemory m (m.load32 dev), .inMemory m (m.load32 symbols.deviceLastId)]
  let m := (memcpy m (deviceSlot symbols m) dev deviceSize).2
  let m := m.store32 symbols.deviceLastId (m.load32 symbols.deviceLastId + 1)
  return (m.load32 symbols.deviceLastId - 1, m)

def deviceGetNb (m : Memory) : BitVec 32 := m.load32 symbols.deviceLastId

def deviceGet (id : BitVec 32) : BitVec 32 := symbols.devices + deviceSize * id

structure DeviceState (σ : Type) where
  mem : Memory
  klogger : Klogger
  world : σ

inductive DeviceCall where
  | add (dev id : BitVec 32)
  | getNb (nb : BitVec 32)
  | get (id addr : BitVec 32)
  /-- Any other code of the kernel. -/
  | other
deriving DecidableEq

variable {symbols}

def DeviceSymbols.InTable (symbols : DeviceSymbols) (a : BitVec 32) : Prop :=
  (a - symbols.devices).toNat < 28 * maxDevice

def DeviceSymbols.InCounter (symbols : DeviceSymbols) (a : BitVec 32) : Prop :=
  (a - symbols.deviceLastId).toNat < 4

/-- The calls of the device layer, between which other code does not write to its data. -/
inductive DeviceNext (b : Beyond) (r : Rodata) (ports : PortDevice σ) (symbols : DeviceSymbols) :
    DeviceState σ → DeviceCall → DeviceState σ → Prop where
  | add {st : DeviceState σ} {dev id : BitVec 32} {m : Memory} {w : σ}
      {tr : List (ConsoleEvent σ)}
      (h : Prog.Settles (consoleDevice b ports)
        (fun n => deviceAdd symbols n r st.klogger st.mem dev) st.world (.ok (id, m) w) tr) :
      DeviceNext b r ports symbols st (.add dev id) ⟨m, st.klogger, w⟩
  | getNb (st : DeviceState σ) :
      DeviceNext b r ports symbols st (.getNb (deviceGetNb symbols st.mem)) st
  | get (st : DeviceState σ) (id : BitVec 32) :
      DeviceNext b r ports symbols st (.get id (deviceGet symbols id)) st
  | other {st st' : DeviceState σ}
      (h : ∀ a, symbols.InTable a ∨ symbols.InCounter a → st'.mem a = st.mem a) :
      DeviceNext b r ports symbols st .other st'

def deviceAdded (symbols : DeviceSymbols) (m : Memory) (dev : BitVec 32) : Memory :=
  let m := m.copyUp (deviceSlot symbols m) dev 28
  m.store32 symbols.deviceLastId (m.load32 symbols.deviceLastId + 1)

variable {b : Beyond} {r : Rodata} {ports : PortDevice σ} {k : Klogger}

theorem deviceAdd_run {m m' : Memory} {dev id : BitVec 32} {w w' : σ}
    {tr : List (ConsoleEvent σ)}
    (h : Prog.Settles (consoleDevice b ports) (fun n => deviceAdd symbols n r k m dev) w
      (.ok (id, m') w') tr) :
    m' = deviceAdded symbols m dev ∧ id = deviceGetNb symbols m' - 1 := by
  obtain ⟨N, hN⟩ := h
  have hrun := (hN N (Nat.le_refl N)).1
  simp only [deviceAdd, Prog.run_bind] at hrun
  split at hrun
  · split at hrun
    · cases hrun
      exact ⟨rfl, rfl⟩
    · cases hrun
  · cases hrun

theorem deviceAddFormat_accepted_iff (beyond : VaArg) (m : Memory) (name word : BitVec 32) :
    FormatAccepted beyond deviceAddFormat [.inMemory m name, .inMemory m word] ↔ name ≠ 0 := by
  have hread : printfSyntax.read deviceAddFormat.chars =
      ((CString.lit "Adding device[").chars.map .literal ++
        [.directive .s, .literal 0x5D, .literal 0x20, .directive .d, .literal 0x0D,
          .literal 0x0A], .done) := by
    decide
  have hdone : FormatEnd.done ≠ FormatEnd.unsupported := by decide
  have hnumber : FormatConv.d ≠ FormatConv.s := by decide
  rw [FormatAccepted, hread]
  constructor
  · intro h
    exact h.2.1 rfl
  · intro hname
    exact ⟨hdone, fun _ => hname, fun h => absurd h hnumber, trivial⟩

theorem GivesMonths.rtc_settles {values : CmosStream} (hclock : GivesMonths values)
    (c : CmosChip) : ∃ date c' tr, Prog.Settles (cmosDevice values) cmosRTC c (.ok date c') tr := by
  obtain ⟨p, q, hp, hq, -⟩ := hclock c.reads
  obtain ⟨c', tr, hrtc, -⟩ := (cmosDevice_reads values).rtc_settles rfl hp hq
  exact ⟨_, c', tr, hrtc⟩

/-- `device_add` returns for every descriptor with a name, and for every other one that the logger
sends nowhere. -/
theorem deviceAdd_returns {values : CmosStream} (hclock : GivesMonths values) (r : Rodata)
    (k : Klogger) {m : Memory} {dev : BitVec 32} (hdev : dev ≠ 0)
    (hname : m.load32 dev ≠ 0 ∨ ¬ k.Sends .info) (c : CmosChip) :
    ∃ c' tr, Prog.Settles (consoleDevice b (cmosDevice values))
      (fun n => deviceAdd symbols n r k m dev) c
      (.ok (deviceGetNb symbols (deviceAdded symbols m dev) - 1, deviceAdded symbols m dev) c')
      tr := by
  have hassert : Prog.Settles (consoleDevice b (cmosDevice values))
      (fun _ => consoleAssert (dev ≠ 0) "dev") c (.ok () c) [] := by
    rw [consoleAssert, decide_eq_true hdev]
    exact .const _ _ _
  by_cases hlvl : k.level.toInt ≤ LogLevel.info.toInt
  · rcases hname with hname | hsend
    · obtain ⟨ret, c', tr, hlog, -⟩ := kernelLoggerLog_sends hclock
        ((deviceAddFormat_accepted_iff b.arg m _ (m.load32 symbols.deviceLastId)).mpr hname)
        r hlvl c
      exact ⟨c', _, hassert.bind (hlog.bind (.const _ _ _))⟩
    · obtain ⟨date, c', tr, hrtc⟩ := hclock.rtc_settles c
      obtain ⟨tr', hlog⟩ := @kernelLoggerLog_silent _ b _ c c' r k .info deviceAddFormat
        [.inMemory m (m.load32 dev), .inMemory m (m.load32 symbols.deviceLastId)] date tr
        hlvl hsend hrtc
      exact ⟨c', _, hassert.bind (hlog.bind (.const _ _ _))⟩
  · have hlog := @kernelLoggerLog_below _ b (cmosDevice values) c r k .info deviceAddFormat
      [.inMemory m (m.load32 dev), .inMemory m (m.load32 symbols.deviceLastId)] hlvl
    exact ⟨c, _, hassert.bind (hlog.bind (.const _ _ _))⟩

/-- The name is printed as a string, and a null string fails the assertion of its writer. -/
theorem deviceAdd_stops {values : CmosStream} (hclock : GivesMonths values) (r : Rodata)
    {k : Klogger} (hsend : k.Sends .info) {m : Memory} {dev : BitVec 32} (hdev : dev ≠ 0)
    (hname : m.load32 dev = 0) (c : CmosChip) :
    ∃ f c', Prog.Ends (consoleDevice b (cmosDevice values))
      (fun n => deviceAdd symbols n r k m dev) c (.error f c') := by
  have hassert : Prog.Converges (consoleDevice b (cmosDevice values))
      (fun _ => consoleAssert (dev ≠ 0) "dev") c () c := by
    rw [consoleAssert, decide_eq_true hdev]
    exact .const rfl
  obtain ⟨date, c', tr, hrtc⟩ := hclock.rtc_settles c
  obtain ⟨f, hlog⟩ := kernelLoggerLog_stops (b := b) (r := r) hsend
    (fun h => (deviceAddFormat_accepted_iff b.arg m (m.load32 dev)
      (m.load32 symbols.deviceLastId)).mp h hname) hrtc
  exact ⟨f, c', .bind hassert hlog.bind_error⟩

end BordOS
