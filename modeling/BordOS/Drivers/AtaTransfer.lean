import BordOS.Drivers.AtaSpec

namespace BordOS
open Library Prog
set_option autoImplicit true
set_option relaxedAutoImplicit false

def Buffer.sector (data : Buffer) : Sector := fun i => data i

def Buffer.onto (data : Buffer) (n : Nat) (old : Sector) : Sector := fun i =>
  if i.val < 2 * n then data i else old i

def Sector.onto (data : Sector) (n : Nat) (buf : Buffer) : Buffer := fun i =>
  if h : i < 2 * n ∧ i < 512 then data ⟨i, h.2⟩ else buf i

theorem Buffer.onto_setWord (data : Buffer) (n : Nat) (old : Sector) :
    (data.onto n old).setWord n (data.word n) = data.onto (n + 1) old := by
  funext i
  simp only [Sector.setWord, Buffer.onto, Buffer.word, BitVec.setWidth_append_eq_right,
    setWidth_append_high]
  by_cases h0 : i.val = 2 * n
  · rw [if_pos h0, if_pos (by omega), h0]
  · by_cases h1 : i.val = 2 * n + 1
    · rw [if_neg h0, if_pos h1, if_pos (by omega), h1]
    · rw [if_neg h0, if_neg h1]
      by_cases h2 : i.val < 2 * n
      · rw [if_pos h2, if_pos (by omega)]
      · rw [if_neg h2, if_neg (by omega)]

theorem Sector.onto_setWord (data : Sector) (n : Fin 256) (buf : Buffer) :
    (data.onto n buf).setWord n (data.word n) = data.onto (n + 1) buf := by
  funext i
  simp only [Buffer.setWord, Sector.onto, Sector.word, BitVec.setWidth_append_eq_right,
    setWidth_append_high]
  by_cases h0 : i = 2 * n
  · subst h0
    rw [if_pos rfl, dif_pos ⟨by omega, by omega⟩]
  · by_cases h1 : i = 2 * n + 1
    · subst h1
      rw [if_neg h0, if_pos rfl, dif_pos ⟨by omega, by omega⟩]
    · rw [if_neg h0, if_neg h1]
      by_cases h2 : i < 2 * n.val
      · rw [dif_pos ⟨h2, by omega⟩, dif_pos ⟨by omega, by omega⟩]
      · rw [dif_neg (by omega), dif_neg (by omega)]

@[simp] theorem Buffer.onto_zero (data : Buffer) (old : Sector) : data.onto 0 old = old := by
  funext i
  simp [Buffer.onto]

theorem Buffer.onto_all (data : Buffer) (old : Sector) : data.onto 256 old = data.sector := by
  funext i
  exact if_pos i.isLt

@[simp] theorem Sector.onto_zero (data : Sector) (buf : Buffer) : data.onto 0 buf = buf := by
  funext i
  simp [Sector.onto]

def Drive.receiving (d : Drive) (lba : BitVec 28) (n : Nat) (data : Sector) : Drive :=
  { d with busy := 0, phase := .dataOut lba 1 n data }

def Drive.sending (d : Drive) (lba : BitVec 28) (n : Nat) : Drive :=
  { d with busy := 0, phase := .dataIn lba 1 n }

def Drive.received (d : Drive) (delay : Nat) (lba : BitVec 28) (data : Sector) : Drive :=
  { d with busy := delay, phase := .storing lba 1 data : Drive }.settle

def Drive.idle (d : Drive) : Drive := { d with busy := 0, phase := .idle }

def Drive.stored (d : Drive) (lba : BitVec 28) (data : Sector) : Drive :=
  { sectors := Function.update d.sectors lba data, busy := 0, phase := .idle }

theorem Drive.command_read (d : Drive) (drive : AtaDrive) (lba : BitVec 32) :
    d.command 0 (sectorRegs drive lba) ataCmdReadPio = d.sending (lba.setWidth 28) 0 := by
  simp [Drive.command, Drive.sending, ataCmdReadPio]

theorem Drive.command_write (d : Drive) (drive : AtaDrive) (lba : BitVec 32) :
    d.command 0 (sectorRegs drive lba) ataCmdWritePio =
      d.receiving (lba.setWidth 28) 0 fun _ => 0 := by
  simp [Drive.command, Drive.receiving, ataCmdWritePio]

theorem Drive.command_flush (d : Drive) (r : AtaRegs) :
    d.command 0 r ataCmdCacheFlush = d.idle := by
  simp [Drive.command, Drive.idle, ataCmdCacheFlush]

@[simp] theorem Drive.received_busy (d : Drive) (delay : Nat) (lba : BitVec 28) (data : Sector) :
    (d.received delay lba data).busy = delay :=
  Drive.settle_busy _

theorem Drive.received_zero (d : Drive) (lba : BitVec 28) (data : Sector) :
    d.received 0 lba data = d.stored lba data := rfl

theorem Drive.received_ready (d : Drive) (delay : Nat) (lba : BitVec 28) (data : Sector) :
    (d.received delay lba data).ready = d.stored lba data := by
  cases delay with
  | zero => rfl
  | succ n => rfl

variable {timing : AtaTiming} {bus : BitVec 16} {W : Prop} {r : AtaRegs} {ds : AtaDrive → Drive}
  {k : Nat} {d : Drive} {lba : BitVec 28}

theorem outw_spec {n : Nat} {data : Sector} (w : BitVec 16) (hn : n < 255) :
    Spec (ataDevice timing bus) (Guarded timing bus W)
      (AtaBus.At r (Function.update ds r.selected (d.receiving lba n data)) k)
      (fun _ => outw bus w)
      (fun _ => AtaBus.At r
        (Function.update ds r.selected (d.receiving lba (n + 1) (data.setWord n w))) k) := by
  refine .perform fun s hs => ⟨guarded_read (by simp) nofun, ?_⟩
  have hsel : s.selectedDrive = d.receiving lba n data := by
    rw [AtaBus.selectedDrive, hs.drive, hs.regs, Function.update_self]
  have hword (delay : Nat) : (d.receiving lba n data).writeWord delay w =
      (d.receiving lba (n + 1) (data.setWord n w), false) := by
    have hlast : n ≠ 255 := by omega
    simp only [Drive.writeWord, Drive.receiving, ↓reduceIte, if_neg hlast]
  simp only [ataDevice, ↓reduceIte, AtaBus.writeData, hsel, hword]
  refine ⟨hs.regs, ?_, hs.transfers⟩
  simp [AtaBus.setSelected, hs.regs, hs.drive]

theorem outw_last_spec {data : Sector} (w : BitVec 16) :
    Spec (ataDevice timing bus) (Guarded timing bus W)
      (AtaBus.At r (Function.update ds r.selected (d.receiving lba 255 data)) k)
      (fun _ => outw bus w)
      (fun _ => AtaBus.At r
        (Function.update ds r.selected
          (d.received (timing.transferDelay k) lba (data.setWord 255 w))) (k + 1)) := by
  refine .perform fun s hs => ⟨guarded_read (by simp) nofun, ?_⟩
  have hsel : s.selectedDrive = d.receiving lba 255 data := by
    rw [AtaBus.selectedDrive, hs.drive, hs.regs, Function.update_self]
  have hword (delay : Nat) : (d.receiving lba 255 data).writeWord delay w =
      (d.received delay lba (data.setWord 255 w), true) := by
    simp only [Drive.writeWord, Drive.receiving, ↓reduceIte, Drive.received]
  simp only [ataDevice, ↓reduceIte, AtaBus.writeData, hsel, hword]
  refine ⟨hs.regs, ?_, by rw [hs.transfers]⟩
  simp [AtaBus.setSelected, hs.regs, hs.drive, hs.transfers]

theorem repoutsw_partial_spec (data : Buffer) (old : Sector) (n : Nat) (hn : n ≤ 255) :
    Spec (ataDevice timing bus) (Guarded timing bus W)
      (AtaBus.At r (Function.update ds r.selected (d.receiving lba 0 old)) k)
      (fun _ => repoutsw bus data n)
      (fun _ => AtaBus.At r
        (Function.update ds r.selected (d.receiving lba n (data.onto n old))) k) := by
  induction n with
  | zero => exact .pure fun s hs => by rwa [Buffer.onto_zero]
  | succ n ih =>
    apply (ih (by omega)).bind
    intro _
    rw [← Buffer.onto_setWord]
    exact outw_spec _ (by omega)

theorem repoutsw_spec (data : Buffer) (old : Sector) :
    Spec (ataDevice timing bus) (Guarded timing bus W)
      (AtaBus.At r (Function.update ds r.selected (d.receiving lba 0 old)) k)
      (fun _ => repoutsw bus data 256)
      (fun _ => AtaBus.At r
        (Function.update ds r.selected (d.received (timing.transferDelay k) lba data.sector))
        (k + 1)) := by
  rw [← data.onto_all old, ← data.onto_setWord 255 old]
  exact (repoutsw_partial_spec data old 255 (by omega)).bind fun _ => outw_last_spec _

theorem inw_spec (n : Fin 256) :
    Spec (ataDevice timing bus) (Guarded timing bus W)
      (AtaBus.At r (Function.update ds r.selected (d.sending lba n)) k)
      (fun _ => inw bus)
      (fun w s => w = (d.sectors lba).word n ∧ s.At r
        (Function.update ds r.selected
          (if n.val = 255 then d.idle else d.sending lba (n + 1))) k) := by
  refine .perform fun s hs => ⟨guarded_read (by simp) nofun, ?_⟩
  have hsel : s.selectedDrive = d.sending lba n := by
    rw [AtaBus.selectedDrive, hs.drive, hs.regs, Function.update_self]
  have hword (delay : Nat) : (d.sending lba n).readWord delay =
      ((d.sectors lba).word n, if n.val = 255 then d.idle else d.sending lba (n + 1), false) := by
    simp only [Drive.readWord, Drive.sending, n.isLt, and_self, ↓reduceDIte, Fin.eta,
      Nat.lt_irrefl, ↓reduceIte]
    split
    · rfl
    · rfl
  simp only [ataDevice, ↓reduceIte, AtaBus.readData, hsel, hword, true_and]
  refine ⟨hs.regs, ?_, hs.transfers⟩
  simp [AtaBus.setSelected, hs.regs, hs.drive]

theorem repinsw_partial_spec (buf : Buffer) (n : Nat) (hn : n ≤ 256) :
    Spec (ataDevice timing bus) (Guarded timing bus W)
      (AtaBus.At r (Function.update ds r.selected (d.sending lba 0)) k)
      (fun _ => repinsw bus buf n)
      (fun buf' s => buf' = (d.sectors lba).onto n buf ∧ s.At r
        (Function.update ds r.selected (if n = 256 then d.idle else d.sending lba n)) k) := by
  induction n with
  | zero => exact .pure fun s hs => ⟨by simp, hs⟩
  | succ n ih =>
    apply (ih (by omega)).bind
    intro buf'
    rw [if_neg (by omega)]
    refine .bind (R := fun w s => buf' = (d.sectors lba).onto n buf ∧
      w = (d.sectors lba).word ⟨n, by omega⟩ ∧ s.At r (Function.update ds r.selected
        (if n + 1 = 256 then d.idle else d.sending lba (n + 1))) k) ?_ fun w => .pure ?_
    · refine .assume fun ⟨s, hbuf, hs⟩ => ?_
      refine (inw_spec ⟨n, by omega⟩).weaken (fun s hs => hs.2) fun w t ht => ⟨hbuf, ht.1, ?_⟩
      simpa using ht.2
    · rintro s ⟨rfl, rfl, hs⟩
      exact ⟨(d.sectors lba).onto_setWord ⟨n, by omega⟩ buf, hs⟩

theorem repinsw_spec (buf : Buffer) :
    Spec (ataDevice timing bus) (Guarded timing bus W)
      (AtaBus.At r (Function.update ds r.selected (d.sending lba 0)) k)
      (fun _ => repinsw bus buf 256)
      (fun buf' s => buf' = (d.sectors lba).onto 256 buf ∧
        s.At r (Function.update ds r.selected d.idle) k) :=
  repinsw_partial_spec buf 256 (Nat.le_refl _)

def ideWriteTransfer (fuel : Nat) (bus : BitVec 16) (slave : BitVec 8) (lba : BitVec 32)
    (buf : Buffer) : PortM Unit := do
  outb (bus + ataRegControl) 0x02
  ataWaitReady fuel bus
  outb (bus + ataRegHddevsel) (hddevselByte slave lba)
  let _ ← ataWait fuel bus 0
  outb (bus + ataRegFeatures) 0x00
  outb (bus + ataRegSeccount0) 0x01
  outb (bus + ataRegLba0) (lba0Byte lba)
  outb (bus + ataRegLba1) (lba1Byte lba)
  outb (bus + ataRegLba2) (lba2Byte lba)
  outb (bus + ataRegCommand) ataCmdWritePio
  let _ ← ataWait fuel bus 0
  repoutsw bus buf 256

theorem ideWriteSector_eq (fuel : Nat) (slave : BitVec 8) (lba : BitVec 32) (buf : Buffer) :
    ideWriteSector fuel bus slave lba buf = do
      ideWriteTransfer fuel bus slave lba buf
      outb (bus + ataRegCommand) ataCmdCacheFlush
      let _ ← ataWait fuel bus 0
      return () := by
  simp only [ideWriteSector, ideWriteTransfer, bind_assoc]

/-- The drive `b` once both the selected drive and then `b` itself were waited for. -/
def readyBoth (ds : AtaDrive → Drive) (a b : AtaDrive) : AtaDrive → Drive :=
  readyAt (readyAt ds a) b

theorem ideWriteTransfer_spec (drive : AtaDrive) (lba : BitVec 32) (data : Buffer) :
    Spec (ataDevice timing bus) (Guarded timing bus W) (AtaBus.At r ds k)
      (fun n => ideWriteTransfer n bus drive.toByte lba data)
      (fun _ => AtaBus.At (sectorRegs drive lba)
        (Function.update (readyBoth ds r.selected drive) drive
          ((readyBoth ds r.selected drive drive).received (timing.transferDelay k)
            (lba.setWidth 28) data.sector)) (k + 1)) := by
  refine .bind (outb_control_spec _) fun _ => ?_
  refine .bind (ataWaitReady_spec.weaken (fun s hs => hs.readies) fun _ _ h => h) fun _ => ?_
  refine .bind (outb_register_spec ataRegHddevsel _ (by decide) (by simp [readyAt])) fun _ => ?_
  refine .bind ((ataWait_spec 0).weaken (fun s hs => hs.readies) fun _ _ h => h) fun _ => ?_
  have hsel : (r.write ataRegHddevsel (hddevselByte drive.toByte lba)).selected = drive :=
    selected_hddevselByte rfl
  rw [hsel, ← readyBoth]
  have hbusy : (readyBoth ds r.selected drive drive).busy = 0 := by
    simp [readyBoth, readyAt]
  refine sectorRegs_spec rfl hbusy (.bind (outb_command_spec _ (by simpa using hbusy)) fun _ => ?_)
  refine .bind (ataWait_spec 0) fun _ => ?_
  rw [Drive.command_write]
  simpa only [sectorRegs_selected] using
    repoutsw_spec (r := sectorRegs drive lba) (d := readyBoth ds r.selected drive drive) data _

/-- The flush is lost if the drive is still busy with the sector, and in each case the sector is
stored once the drive is ready. -/
theorem flush_spec {drive : AtaDrive} {addr : BitVec 32} {delay : Nat} {data : Sector}
    (hW : W → delay = 0) :
    Spec (ataDevice timing bus) (Guarded timing bus W)
      (AtaBus.At (sectorRegs drive addr) (Function.update ds drive (d.received delay lba data)) k)
      (fun _ => outb (bus + ataRegCommand) ataCmdCacheFlush)
      (fun _ => AtaBus.Readies (sectorRegs drive addr)
        (Function.update ds drive (d.stored lba data)) k) := by
  by_cases hd : delay = 0
  · subst hd
    refine (outb_command_spec (r := sectorRegs drive addr) ataCmdCacheFlush ?_).weaken
      (fun _ h => h) fun _ s hs => ?_
    · simp
    · simpa [Drive.command_flush, Drive.received_zero, Drive.stored, Drive.idle] using hs
  · refine .perform fun s hs => ⟨⟨fun w => absurd (hW w) hd, fun _ => nofun⟩, ?_⟩
    have hb : s.selectedDrive.busy ≠ 0 := by
      simpa [AtaBus.selectedDrive, hs.drive, hs.regs] using hd
    simp only [ataDevice, AtaBus.writeReg, hb, ne_eq, not_false_eq_true, ↓reduceIte]
    have hr := hs.readies
    simpa [readyAt, Drive.received_ready] using hr

theorem ideWriteSector_spec (drive : AtaDrive) (lba : BitVec 32) (data : Buffer)
    (hW : W → timing.transferDelay k = 0) :
    Spec (ataDevice timing bus) (Guarded timing bus W) (AtaBus.At r ds k)
      (fun n => ideWriteSector n bus drive.toByte lba data)
      (fun _ => AtaBus.At (sectorRegs drive lba)
        (Function.update (readyBoth ds r.selected drive) drive
          ((readyBoth ds r.selected drive drive).stored (lba.setWidth 28) data.sector))
        (k + 1)) := by
  simp only [ideWriteSector_eq]
  refine .bind (ideWriteTransfer_spec drive lba data) fun _ => ?_
  refine .bind (flush_spec hW) fun _ => ?_
  exact .bind (ataWait_spec 0) fun _ => .pure fun _ hs => hs

theorem ataLogError_spec {P : AtaBus → Prop} {error : BitVec 32} (slave : BitVec 8)
    (addr : BitVec 32) (h : timing.ReadsClean → error = 0) :
    Spec (ataDevice timing bus) (Guarded timing bus W) P
      (fun _ => ataLogError error bus slave addr) (fun _ => P) := by
  by_cases he : error ≠ 0
  · simp only [ataLogError, he, ne_eq, not_false_eq_true, ↓reduceIte]
    exact .perform fun _ hs =>
      ⟨⟨fun _ _ _ hop => (by cases hop), fun hclean => absurd (h hclean) he⟩, hs⟩
  · simp only [ataLogError, he, ↓reduceIte]
    exact .pure fun _ hs => hs

theorem ideReadSector_spec (drive : AtaDrive) (lba : BitVec 32) (buf : Buffer)
    (hb : (ds drive).busy = 0) :
    Spec (ataDevice timing bus) (Guarded timing bus W) (AtaBus.At r ds k)
      (fun n => ideReadSector n bus drive.toByte lba buf)
      (fun buf' s => buf' = ((readyAt ds r.selected drive).sectors (lba.setWidth 28)).onto 256 buf ∧
        s.At (sectorRegs drive lba)
          (Function.update (readyAt ds r.selected) drive (readyAt ds r.selected drive).idle) k) := by
  refine .bind (outb_control_spec _) fun _ => ?_
  refine .bind (ataWaitReady_spec.weaken (fun s hs => hs.readies) fun _ _ h => h) fun _ => ?_
  refine .bind (outb_register_spec ataRegHddevsel _ (by decide) (by simp [readyAt])) fun _ => ?_
  have hbusy : (readyAt ds r.selected drive).busy = 0 := by
    by_cases h : drive = r.selected
    · simp [readyAt, h]
    · simp [readyAt, h, hb]
  refine sectorRegs_spec rfl hbusy (.bind (outb_command_spec _ (by simpa using hbusy)) fun _ => ?_)
  rw [Drive.command_read]
  refine .bind (ataWait_error_spec 1) fun error => .assume fun hwait => ?_
  obtain ⟨-, herr, -⟩ := hwait
  have hclean (h : timing.ReadsClean) : error = 0 := by
    obtain ⟨n, rfl⟩ := herr (by decide)
    rw [Function.update_self, ataWaitResult_eq_zero_iff]
    exact h n (lba.setWidth 28) 1 0
  refine .bind ((ataLogError_spec _ lba hclean).weaken (fun _ hs => hs.2) fun _ _ h => h)
    fun _ => ?_
  refine .bind (repinsw_spec buf) fun buf' => .assume fun hread => ?_
  obtain ⟨-, hbuf, -⟩ := hread
  refine .bind ((ataWait_spec 0).weaken (fun s hs => hs.2.of_ready ?_) fun _ _ h => h) fun _ => ?_
  · rw [Function.update_self]
    rfl
  exact .pure fun s hs => ⟨by simpa using hbuf, by simpa using hs⟩

end BordOS
