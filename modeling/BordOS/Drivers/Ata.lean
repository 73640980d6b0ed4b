import BordOS.Arch.Ports
import BordOS.Library.ByteMemory

namespace BordOS
open Library
set_option autoImplicit true
set_option relaxedAutoImplicit false

def ataSrErr : BitVec 8 := 1
def ataSrDrq : BitVec 8 := 1 <<< 3
def ataSrDf : BitVec 8 := 1 <<< 5
def ataSrBsy : BitVec 8 := 1 <<< 7

def ataCmdReadPio : BitVec 8 := 0x20
def ataCmdWritePio : BitVec 8 := 0x30
def ataCmdCacheFlush : BitVec 8 := 0xE7

def ataRegFeatures : BitVec 16 := 0x01
def ataRegSeccount0 : BitVec 16 := 0x02
def ataRegLba0 : BitVec 16 := 0x03
def ataRegLba1 : BitVec 16 := 0x04
def ataRegLba2 : BitVec 16 := 0x05
def ataRegHddevsel : BitVec 16 := 0x06
def ataRegCommand : BitVec 16 := 0x07
def ataRegStatus : BitVec 16 := 0x07
def ataRegControl : BitVec 16 := 0x0C
def ataRegAltstatus : BitVec 16 := 0x0C

inductive AtaDrive where
  | master
  | slave
deriving DecidableEq, Repr

def AtaDrive.toByte : AtaDrive → BitVec 8
  | .master => 0x00
  | .slave => 0x01

abbrev Buffer := Nat → BitVec 8

def Buffer.word (data : Buffer) (n : Nat) : BitVec 16 := data (2 * n + 1) ++ data (2 * n)

def Buffer.setWord (data : Buffer) (n : Nat) (w : BitVec 16) : Buffer := fun i =>
  if i = 2 * n then w.setWidth 8 else if i = 2 * n + 1 then (w >>> 8).setWidth 8 else data i

/-- `rep insw`: the buffer after `size` words were read into it. -/
def repinsw (port : BitVec 16) (data : Buffer) : Nat → PortM Buffer
  | 0 => pure data
  | n + 1 => do
    let data ← repinsw port data n
    let w ← inw port
    return data.setWord n w

def repoutsw (port : BitVec 16) (data : Buffer) : Nat → PortM Unit
  | 0 => pure ()
  | n + 1 => do
    repoutsw port data n
    outw port (data.word n)

def delay400ns (bus : BitVec 16) : PortM Unit := do
  let _ ← inb (bus + ataRegAltstatus)
  let _ ← inb (bus + ataRegAltstatus)
  let _ ← inb (bus + ataRegAltstatus)
  let _ ← inb (bus + ataRegAltstatus)
  return ()

/-- The result of `ata_wait` with `advanced` set, from its second status read. -/
def ataWaitResult (status : BitVec 8) : BitVec 32 :=
  if status &&& ataSrErr ≠ 0 then 1
  else if status &&& ataSrDf ≠ 0 then 1
  else if status &&& ataSrDrq = 0 then 1
  else 0

/-- ERR or DF is set, or DRQ is clear. -/
def StatusFailed (status : BitVec 8) : Prop :=
  status &&& ataSrErr ≠ 0 ∨ status &&& ataSrDf ≠ 0 ∨ status &&& ataSrDrq = 0

instance (status : BitVec 8) : Decidable (StatusFailed status) :=
  inferInstanceAs (Decidable (_ ∨ _ ∨ _))

theorem ataWaitResult_eq_zero_iff (status : BitVec 8) :
    ataWaitResult status = 0 ↔ ¬ StatusFailed status := by
  revert status
  decide

theorem ataWaitResult_notBusy (status : BitVec 8) :
    ataWaitResult (status &&& 0x7f) = ataWaitResult status := by
  revert status
  decide

def ataWaitReady (fuel : Nat) (bus : BitVec 16) : PortM Unit := do
  let _ ← Prog.loopWhile (inb (bus + ataRegStatus)) (fun status => status &&& ataSrBsy != 0)
    .outOfFuel fuel
  return ()

def ataWait (fuel : Nat) (bus : BitVec 16) (advanced : BitVec 32) : PortM (BitVec 32) := do
  delay400ns bus
  let _ ← Prog.loopWhile (inb (bus + ataRegStatus)) (fun status => status &&& ataSrBsy != 0)
    .outOfFuel fuel
  if advanced ≠ 0 then
    let status ← inb (bus + ataRegStatus)
    return ataWaitResult status
  else return 0

/-- The value that both sector routines write to HDDEVSEL. -/
def hddevselByte (slave : BitVec 8) (lba : BitVec 32) : BitVec 8 :=
  ((0xe0 ||| slave <<< 4).setWidth 32 ||| (lba &&& 0x0f000000) >>> 24).setWidth 8

def lba0Byte (lba : BitVec 32) : BitVec 8 := ((lba &&& 0x000000ff) >>> 0).setWidth 8

def lba1Byte (lba : BitVec 32) : BitVec 8 := ((lba &&& 0x0000ff00) >>> 8).setWidth 8

def lba2Byte (lba : BitVec 32) : BitVec 8 := ((lba &&& 0x00ff0000) >>> 16).setWidth 8

def ataLogError (error : BitVec 32) (bus : BitVec 16) (slave : BitVec 8) (lba : BitVec 32) :
    PortM Unit :=
  if error ≠ 0 then
    klog .error "Error ATA reading bus=0x%03x, %s, lba=%d"
      [.num (bus.setWidth 32), .str (if slave ≠ 0 then "slave" else "master"), .num lba]
  else pure ()

/-- `ide_read_sector`. It returns the content of `buf` afterwards. -/
def ideReadSector (fuel : Nat) (bus : BitVec 16) (slave : BitVec 8) (lba : BitVec 32)
    (buf : Buffer) : PortM Buffer := do
  outb (bus + ataRegControl) 0x02
  ataWaitReady fuel bus
  outb (bus + ataRegHddevsel) (hddevselByte slave lba)
  outb (bus + ataRegFeatures) 0x00
  outb (bus + ataRegSeccount0) 1
  outb (bus + ataRegLba0) (lba0Byte lba)
  outb (bus + ataRegLba1) (lba1Byte lba)
  outb (bus + ataRegLba2) (lba2Byte lba)
  outb (bus + ataRegCommand) ataCmdReadPio
  let error ← ataWait fuel bus 1
  ataLogError error bus slave lba
  let buf ← repinsw bus buf 256
  let _ ← ataWait fuel bus 0
  return buf

def ideWriteSector (fuel : Nat) (bus : BitVec 16) (slave : BitVec 8) (lba : BitVec 32)
    (buf : Buffer) : PortM Unit := do
  outb (bus + ataRegControl) 0x02
  ataWaitReady fuel bus
  outb (bus + ataRegHddevsel) (hddevselByte slave lba)
  let _ ← ataWait fuel bus 0
  outb (bus + ataRegFeatures) 0x00
  outb (bus + ataRegSeccount0) 0x01
  outb (bus + ataRegLba0) (lba0Byte lba)
  outb (bus + ataRegLba1) (lba1Byte lba)
  outb (bus + ataRegLba2) (lba2Byte lba)
  outb (bus + ataRegCommand) ataCmdWritePio
  let _ ← ataWait fuel bus 0
  repoutsw bus buf 256
  outb (bus + ataRegCommand) ataCmdCacheFlush
  let _ ← ataWait fuel bus 0
  return ()

theorem setWidth_append_high (hi lo : BitVec 8) : ((hi ++ lo) >>> 8).setWidth 8 = hi := by
  rw [BitVec.setWidth_ushiftRight_eq_extractLsb, BitVec.extractLsb'_append_eq_left]

theorem Buffer.setWord_word (buf : Buffer) (k : Nat) : buf.setWord k (buf.word k) = buf := by
  funext i
  simp only [Buffer.setWord, Buffer.word, BitVec.setWidth_append_eq_right, setWidth_append_high]
  split_ifs with hlow hhigh
  · rw [hlow]
  · rw [hhigh]
  · rfl

theorem Buffer.word_setWord (buf : Buffer) (k : Nat) (x : BitVec 16) :
    (buf.setWord k x).word k = x := by
  rw [Buffer.word, Buffer.setWord, Buffer.setWord, if_neg (by omega), if_pos rfl, if_pos rfl]
  exact @Memory.append_low_high 8 8 x

theorem Buffer.word_setWord_of_ne (buf : Buffer) {j k : Nat} (h : j ≠ k) (x : BitVec 16) :
    (buf.setWord k x).word j = buf.word j := by
  rw [Buffer.word, Buffer.setWord, Buffer.setWord, if_neg (by omega), if_neg (by omega),
    if_neg (by omega), if_neg (by omega)]
  rfl

theorem delay400ns_uses (bus : BitVec 16) : (delay400ns bus).Uses PortOp.IsInb :=
  (inb_uses _).bind fun _ => (inb_uses _).bind fun _ => (inb_uses _).bind fun _ =>
    (inb_uses _).bind fun _ => .pure ()

theorem ataWaitReady_uses (fuel : Nat) (bus : BitVec 16) :
    (ataWaitReady fuel bus).Uses PortOp.IsInb :=
  ((inb_uses _).loopWhile fuel).bind fun _ => .pure ()

theorem ataWait_uses (fuel : Nat) (bus : BitVec 16) (advanced : BitVec 32) :
    (ataWait fuel bus advanced).Uses PortOp.IsInb := by
  apply (delay400ns_uses bus).bind
  intro _
  apply ((inb_uses _).loopWhile fuel).bind
  intro _
  split_ifs
  · exact (inb_uses _).bind fun status => .pure (ataWaitResult status)
  · exact .pure 0

theorem repinsw_uses (port : BitVec 16) (data : Buffer) (n : Nat) :
    (repinsw port data n).Uses (· = .inw port) := by
  have hword : (inw port).Uses (· = .inw port) := .perform rfl
  induction n with
  | zero => exact .pure data
  | succ n ih => exact ih.bind fun data => hword.bind fun w => .pure (data.setWord n w)

theorem repinsw_notLog (port : BitVec 16) (data : Buffer) (n : Nat) :
    (repinsw port data n).Uses PortOp.NotLog := by
  apply (repinsw_uses port data n).mono
  rintro _ rfl
  nofun

theorem repoutsw_uses (port : BitVec 16) (data : Buffer) (n : Nat) :
    (repoutsw port data n).Uses (∃ w, · = .outw port w) := by
  induction n with
  | zero => exact .pure ()
  | succ n ih => exact ih.bind fun _ => .perform ⟨data.word n, rfl⟩

theorem repoutsw_notLog (port : BitVec 16) (data : Buffer) (n : Nat) :
    (repoutsw port data n).Uses PortOp.NotLog := by
  apply (repoutsw_uses port data n).mono
  rintro _ ⟨w, rfl⟩
  nofun

end BordOS
