import Mathlib.Logic.Function.Basic
import BordOS.Drivers.Ata

namespace BordOS
open Library
set_option autoImplicit true
set_option relaxedAutoImplicit false

abbrev Sector := Fin 512 → BitVec 8

def Sector.word (data : Sector) (n : Fin 256) : BitVec 16 :=
  data ⟨2 * n + 1, by omega⟩ ++ data ⟨2 * n, by omega⟩

def Sector.setWord (data : Sector) (n : Nat) (w : BitVec 16) : Sector := fun i =>
  if i.val = 2 * n then w.setWidth 8 else if i.val = 2 * n + 1 then (w >>> 8).setWidth 8 else data i

/-- What a drive does besides counting down its busy time. `left` counts the sectors that the
command still has to transfer, this one included, and `word` the words of it that passed. -/
inductive DrivePhase where
  | idle
  | dataIn (lba : BitVec 28) (left word : Nat)
  | dataOut (lba : BitVec 28) (left word : Nat) (data : Sector)
  /-- The last word of a sector has come. The sector is stored when BSY falls. -/
  | storing (lba : BitVec 28) (left : Nat) (data : Sector)

/-- DRDY, and DRQ while the drive has data to pass. -/
def DrivePhase.goodStatus : DrivePhase → BitVec 8
  | .dataIn _ _ _ | .dataOut _ _ _ _ => 0x58
  | _ => 0x50

/-- BSY is set while `busy` is positive: it counts the status reads that still find it so. -/
structure Drive where
  sectors : BitVec 28 → Sector
  busy : Nat
  phase : DrivePhase

structure AtaRegs where
  seccount0 : BitVec 8
  lba0 : BitVec 8
  lba1 : BitVec 8
  lba2 : BitVec 8
  hddevsel : BitVec 8

structure AtaBus where
  regs : AtaRegs
  drive : AtaDrive → Drive
  /-- how many commands and sector transfers made a drive busy so far, and how often the status
  was read -/
  commands : Nat
  transfers : Nat
  polls : Nat

/-- How long each command and each sector transfer keeps a drive busy, and what the status bits
other than BSY are at each status read, in each phase of the drive. -/
structure AtaTiming where
  commandDelay : Nat → Nat
  transferDelay : Nat → Nat
  statusBits : Nat → DrivePhase → BitVec 8

/-- A drive that offers data reports no error with it. -/
def AtaTiming.ReadsClean (timing : AtaTiming) : Prop :=
  ∀ n lba left word, ¬ StatusFailed (timing.statusBits n (.dataIn lba left word))

def AtaRegs.write (r : AtaRegs) (offset : BitVec 16) (val : BitVec 8) : AtaRegs :=
  if offset = 2 then { r with seccount0 := val }
  else if offset = 3 then { r with lba0 := val }
  else if offset = 4 then { r with lba1 := val }
  else if offset = 5 then { r with lba2 := val }
  else if offset = 6 then { r with hddevsel := val }
  else r

/-- Bit 4 of HDDEVSEL selects the drive. -/
def AtaRegs.selected (r : AtaRegs) : AtaDrive :=
  if r.hddevsel.getLsbD 4 then .slave else .master

/-- Bit 6 of HDDEVSEL asks for LBA instead of CHS. -/
def AtaRegs.lbaMode (r : AtaRegs) : Bool := r.hddevsel.getLsbD 6

/-- The four low bits of HDDEVSEL are the high bits of the address. -/
def AtaRegs.lba (r : AtaRegs) : BitVec 28 := r.hddevsel.setWidth 4 ++ r.lba2 ++ r.lba1 ++ r.lba0

/-- A count of zero stands for 256 sectors. -/
def AtaRegs.count (r : AtaRegs) : Nat := if r.seccount0 = 0 then 256 else r.seccount0.toNat

/-- A sector whose transfer is over is stored as soon as the drive is not busy. -/
def Drive.settle (d : Drive) : Drive :=
  match d.phase with
  | .storing lba left data =>
    if d.busy = 0 then
      { d with
        sectors := Function.update d.sectors lba data
        phase := if 1 < left then .dataOut (lba + 1) (left - 1) 0 data else .idle }
    else d
  | _ => d

def Drive.poll (d : Drive) : Drive := { d with busy := d.busy - 1 }.settle

def Drive.ready (d : Drive) : Drive := { d with busy := 0 }.settle

/-- A command: other commands than the two transfers, and transfers without LBA, keep the drive
busy for a while and do no more. -/
def Drive.command (d : Drive) (delay : Nat) (r : AtaRegs) (cmd : BitVec 8) : Drive :=
  { d with
    busy := delay
    phase :=
      if cmd = 0x20 ∧ r.lbaMode then .dataIn r.lba r.count 0
      else if cmd = 0x30 ∧ r.lbaMode then .dataOut r.lba r.count 0 fun _ => 0
      else .idle }

/-- The host reads a word: the word, the drive, and whether it made the drive busy. The last word
of a sector does when another sector follows. -/
def Drive.readWord (d : Drive) (delay : Nat) : BitVec 16 × Drive × Bool :=
  match d.phase with
  | .dataIn lba left n =>
    if h : d.busy = 0 ∧ n < 256 then
      let w := (d.sectors lba).word ⟨n, h.2⟩
      if n = 255 then
        if 1 < left then (w, { d with busy := delay, phase := .dataIn (lba + 1) (left - 1) 0 }, true)
        else (w, { d with phase := .idle }, false)
      else (w, { d with phase := .dataIn lba left (n + 1) }, false)
    else (0xffff, d, false)
  | _ => (0xffff, d, false)

/-- The host writes a word: the drive, and whether it made the drive busy. The last word of a
sector does. -/
def Drive.writeWord (d : Drive) (delay : Nat) (w : BitVec 16) : Drive × Bool :=
  match d.phase with
  | .dataOut lba left n data =>
    if d.busy = 0 then
      if n = 255 then
        ({ d with busy := delay, phase := .storing lba left (data.setWord n w) }.settle, true)
      else ({ d with phase := .dataOut lba left (n + 1) (data.setWord n w) }, false)
    else (d, false)
  | _ => (d, false)

def AtaBus.selectedDrive (s : AtaBus) : Drive := s.drive s.regs.selected

def AtaBus.setSelected (s : AtaBus) (d : Drive) : AtaBus :=
  { s with drive := Function.update s.drive s.regs.selected d }

/-- A write to the command block. The selected drive ignores it while it is busy. -/
def AtaBus.writeReg (s : AtaBus) (timing : AtaTiming) (offset : BitVec 16) (val : BitVec 8) :
    AtaBus :=
  if s.selectedDrive.busy ≠ 0 then s
  else if offset = 7 then
    { s.setSelected (s.selectedDrive.command (timing.commandDelay s.commands) s.regs val) with
      commands := s.commands + 1 }
  else { s with regs := s.regs.write offset val }

def AtaBus.readStatus (s : AtaBus) (timing : AtaTiming) : BitVec 8 × AtaBus :=
  let bits := timing.statusBits s.polls s.selectedDrive.phase
  (if s.selectedDrive.busy = 0 then bits &&& 0x7f else bits ||| 0x80,
    { s.setSelected s.selectedDrive.poll with polls := s.polls + 1 })

def AtaBus.readData (s : AtaBus) (timing : AtaTiming) : BitVec 16 × AtaBus :=
  let (w, d, raised) := s.selectedDrive.readWord (timing.transferDelay s.transfers)
  (w, { s.setSelected d with transfers := if raised then s.transfers + 1 else s.transfers })

def AtaBus.writeData (s : AtaBus) (timing : AtaTiming) (w : BitVec 16) : AtaBus :=
  let (d, raised) := s.selectedDrive.writeWord (timing.transferDelay s.transfers) w
  { s.setSelected d with transfers := if raised then s.transfers + 1 else s.transfers }

def AtaBus.start : AtaBus where
  regs := { seccount0 := 0, lba0 := 0, lba1 := 0, lba2 := 0, hddevsel := 0 }
  drive _ := { sectors := fun _ _ => 0, busy := 0, phase := .idle }
  commands := 0
  transfers := 0
  polls := 0

/-- Two drives at the ports `bus + 0 .. bus + 7`. They ignore every other port. -/
def ataDevice (timing : AtaTiming) (bus : BitVec 16) : PortDevice AtaBus
  | .outb port val, s => ((), s.writeReg timing (port - bus) val)
  | .outw port val, s => ((), if port = bus then s.writeData timing val else s)
  | .inb port, s => if port = bus + 7 then s.readStatus timing else (0xff, s)
  | .inw port, s => if port = bus then s.readData timing else (0xffff, s)
  | .cli, s | .sti, s | .log _ _ _, s => ((), s)

end BordOS
