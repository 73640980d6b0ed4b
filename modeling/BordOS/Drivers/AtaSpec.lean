import BordOS.Drivers.AtaBus
import BordOS.Library.ByteMemory
import BordOS.Library.ProgramSpec

namespace BordOS
open Library Prog
set_option autoImplicit true
set_option relaxedAutoImplicit false

def sectorRegs (drive : AtaDrive) (lba : BitVec 32) : AtaRegs where
  seccount0 := 1
  lba0 := lba0Byte lba
  lba1 := lba1Byte lba
  lba2 := lba2Byte lba
  hddevsel := hddevselByte drive.toByte lba

theorem hddevselByte_selects (drive : AtaDrive) (lba : BitVec 32) :
    (hddevselByte drive.toByte lba).getLsbD 4 = decide (drive = .slave) := by
  cases drive <;> simp [hddevselByte, AtaDrive.toByte, -BitVec.getLsbD_eq_getElem]

theorem hddevselByte_high (drive : AtaDrive) (lba : BitVec 32) :
    (hddevselByte drive.toByte lba).setWidth 4 = lba.extractLsb' 24 4 := by
  have hdrive : ((0xe0 ||| drive.toByte <<< 4 : BitVec 8).setWidth 32).setWidth 4 = 0#4 := by
    cases drive <;> decide
  rw [hddevselByte, BitVec.setWidth_setWidth_of_le _ (by decide), BitVec.setWidth_or, hdrive,
    BitVec.zero_or, BitVec.ushiftRight_and_distrib, Memory.setWidth_mask (by decide),
    BitVec.setWidth_ushiftRight_eq_extractLsb]

theorem selected_hddevselByte {r : AtaRegs} {drive : AtaDrive} {lba : BitVec 32}
    (h : r.hddevsel = hddevselByte drive.toByte lba) : r.selected = drive := by
  cases drive <;> simp only [AtaRegs.selected, h, hddevselByte_selects] <;> rfl

@[simp] theorem sectorRegs_selected (drive : AtaDrive) (lba : BitVec 32) :
    (sectorRegs drive lba).selected = drive :=
  selected_hddevselByte rfl

@[simp] theorem sectorRegs_lbaMode (drive : AtaDrive) (lba : BitVec 32) :
    (sectorRegs drive lba).lbaMode = true := by
  cases drive <;> simp [AtaRegs.lbaMode, sectorRegs, hddevselByte, AtaDrive.toByte]

@[simp] theorem sectorRegs_count (drive : AtaDrive) (lba : BitVec 32) :
    (sectorRegs drive lba).count = 1 := rfl

@[simp] theorem sectorRegs_lba (drive : AtaDrive) (lba : BitVec 32) :
    (sectorRegs drive lba).lba = lba.setWidth 28 := by
  -- the four fields follow each other
  have hjoin (start hi lo : Nat) : lba.extractLsb' (start + lo) hi ++ lba.extractLsb' start lo =
      lba.extractLsb' start (hi + lo) :=
    BitVec.extractLsb'_append_extractLsb'_eq_extractLsb' rfl
  simp only [sectorRegs, AtaRegs.lba, lba0Byte, lba1Byte, lba2Byte, hddevselByte_high,
    BitVec.ushiftRight_and_distrib]
  rw [Memory.setWidth_mask (by decide), Memory.setWidth_mask (by decide),
    Memory.setWidth_mask (by decide)]
  simp only [BitVec.setWidth_ushiftRight_eq_extractLsb]
  rw [hjoin 16 4 8, hjoin 8 12 8, hjoin 0 20 8, BitVec.setWidth_eq_extractLsb' (by decide)]

@[simp] theorem Drive.settle_busy (d : Drive) : d.settle.busy = d.busy := by
  simp only [Drive.settle]
  split
  · split <;> rfl
  · rfl

@[simp] theorem Drive.ready_busy (d : Drive) : d.ready.busy = 0 := Drive.settle_busy _

@[simp] theorem Drive.poll_busy (d : Drive) : d.poll.busy = d.busy - 1 := Drive.settle_busy _

theorem Drive.settle_settle (d : Drive) : d.settle.settle = d.settle := by
  cases d with
  | mk sectors busy phase =>
    cases phase with
    | storing lba left data =>
      by_cases hb : busy = 0
      · by_cases hl : 1 < left <;> simp [Drive.settle, hb, hl]
      · simp [Drive.settle, hb]
    | _ => rfl

theorem Drive.ready_ready (d : Drive) : d.ready.ready = d.ready := by
  have hbusy : { d.ready with busy := 0 } = d.ready := by
    rw [← d.ready_busy]
  rw [Drive.ready, hbusy]
  exact Drive.settle_settle _

theorem Drive.ready_poll (d : Drive) : d.poll.ready = d.ready := by
  by_cases hb : d.busy - 1 = 0
  · have hpoll : d.poll = d.ready := by rw [Drive.poll, Drive.ready, hb]
    rw [hpoll, Drive.ready_ready]
  · have hpoll : d.poll = { d with busy := d.busy - 1 } := by
      cases d with
      | mk sectors busy phase =>
        cases phase with
        | storing lba left data => simp only [Drive.poll, Drive.settle, hb, ↓reduceIte]
        | _ => rfl
    rw [hpoll]
    rfl

theorem Drive.poll_of_busy_eq_zero {d : Drive} (h : d.busy = 0) : d.poll = d.ready := by
  rw [Drive.poll, Drive.ready, h]

theorem Drive.ready_command (d : Drive) (delay : Nat) (r : AtaRegs) (cmd : BitVec 8) :
    (d.command delay r cmd).ready = d.command 0 r cmd := by
  simp only [Drive.command, Drive.ready, Drive.settle]
  split_ifs <;> rfl

def Drive.Settled (d : Drive) : Prop := ∀ lba left data, d.phase ≠ .storing lba left data

theorem Drive.Settled.ready {d : Drive} (h : d.Settled) : d.ready = { d with busy := 0 } := by
  cases d with
  | mk sectors busy phase =>
    cases phase with
    | storing lba left data => exact absurd rfl (h lba left data)
    | _ => rfl

theorem Drive.Settled.ready_of_busy_eq_zero {d : Drive} (h : d.Settled) (hb : d.busy = 0) :
    d.ready = d := by
  rw [h.ready, ← hb]

/-- A write to one of the registers `bus + 1 .. bus + 7` finds the selected drive not busy. -/
def NoWriteWhileBusy (bus : BitVec 16) (e : PortEvent AtaBus) : Prop :=
  ∀ port val, e.op = .outb port val → 1 ≤ port - bus → port - bus ≤ 7 →
    e.before.selectedDrive.busy = 0

/-- The event keeps the protocol under the condition `W`, and is no report of an error where the
drives have none. -/
def Guarded (timing : AtaTiming) (bus : BitVec 16) (W : Prop) (e : PortEvent AtaBus) : Prop :=
  (W → NoWriteWhileBusy bus e) ∧ (timing.ReadsClean → e.op.NotLog)

structure AtaBus.At (r : AtaRegs) (ds : AtaDrive → Drive) (k : Nat) (s : AtaBus) : Prop where
  regs : s.regs = r
  drive : s.drive = ds
  transfers : s.transfers = k

def readyAt (ds : AtaDrive → Drive) (b : AtaDrive) : AtaDrive → Drive :=
  Function.update ds b (ds b).ready

/-- The bus is in this state once the selected drive is not busy any more. -/
structure AtaBus.Readies (r : AtaRegs) (ds : AtaDrive → Drive) (k : Nat) (s : AtaBus) : Prop where
  regs : s.regs = r
  drive : readyAt s.drive r.selected = ds
  transfers : s.transfers = k

variable {timing : AtaTiming} {bus : BitVec 16} {W : Prop} {r : AtaRegs} {ds : AtaDrive → Drive}
  {k : Nat}

theorem AtaBus.At.readies {s : AtaBus} (h : s.At r ds k) :
    s.Readies r (readyAt ds r.selected) k :=
  ⟨h.regs, by rw [h.drive], h.transfers⟩

theorem AtaBus.Readies.poll {s : AtaBus} (h : s.Readies r ds k) :
    (s.readStatus timing).2.Readies r ds k := by
  refine ⟨h.regs, ?_, h.transfers⟩
  rw [← h.drive, ← h.regs]
  simp [AtaBus.readStatus, AtaBus.setSelected, AtaBus.selectedDrive, readyAt, Drive.ready_poll]

theorem AtaBus.Readies.poll_at {s : AtaBus} (h : s.Readies r ds k)
    (hb : s.selectedDrive.busy = 0) : (s.readStatus timing).2.At r ds k := by
  refine ⟨h.regs, ?_, h.transfers⟩
  rw [← h.drive, ← h.regs]
  exact congrArg (Function.update s.drive s.regs.selected) (Drive.poll_of_busy_eq_zero hb)

theorem AtaBus.Readies.ready_selected {s : AtaBus} (h : s.Readies r ds k) :
    (ds r.selected).ready = ds r.selected := by
  rw [← h.drive, readyAt, Function.update_self, Drive.ready_ready]

theorem AtaBus.At.of_ready {s : AtaBus} (h : s.At r ds k)
    (hr : (ds r.selected).ready = ds r.selected) : s.Readies r ds k := by
  have h' := h.readies
  rwa [readyAt, hr, Function.update_eq_self] at h'

theorem AtaBus.readStatus_bsy (s : AtaBus) :
    ((s.readStatus timing).1 &&& ataSrBsy != 0) = decide (s.selectedDrive.busy ≠ 0) := by
  have hclear (x : BitVec 8) : x &&& 0x7f &&& ataSrBsy = 0 := by
    rw [BitVec.and_assoc]
    exact BitVec.and_zero
  have hset (x : BitVec 8) : (x ||| 0x80) &&& ataSrBsy = ataSrBsy := by
    apply BitVec.eq_of_getLsbD_eq
    intro i hi
    simpa [ataSrBsy] using Or.inr
  by_cases hb : s.selectedDrive.busy = 0
  · simp only [AtaBus.readStatus, hb, ↓reduceIte, hclear]
    rfl
  · simp only [AtaBus.readStatus, hb, ↓reduceIte, hset, ne_eq, not_false_eq_true, decide_true]
    rfl

theorem spec_of_at {P : AtaBus → Prop} {p : Nat → PortM α} {Q : α → AtaBus → Prop}
    (h : ∀ s, P s → Spec (ataDevice timing bus) (Guarded timing bus W)
      (AtaBus.At s.regs s.drive s.transfers) p Q) :
    Spec (ataDevice timing bus) (Guarded timing bus W) P p Q where
  triple n s hs := (h s hs).triple n s ⟨rfl, rfl, rfl⟩
  returns s hs := (h s hs).returns s ⟨rfl, rfl, rfl⟩

theorem guarded_read {op : PortOp} {s : AtaBus} (h : ∀ port val, op ≠ .outb port val)
    (hlog : op.NotLog) : Guarded timing bus W ⟨s, op, (ataDevice timing bus op s).1⟩ :=
  ⟨fun _ port val hop => absurd hop (h port val), fun _ => hlog⟩

theorem pollStatus_spec :
    Spec (ataDevice timing bus) (Guarded timing bus W) (AtaBus.Readies r ds k)
      (Prog.loopWhile (inb (bus + ataRegStatus)) (fun status => status &&& ataSrBsy != 0)
        Fault.outOfFuel)
      (fun _ => AtaBus.At r ds k) := by
  apply Spec.loopWhile (fun s => s.selectedDrive.busy)
  intro s hs
  have hdev : ataDevice timing bus (.inb (bus + ataRegStatus)) s = s.readStatus timing :=
    if_pos rfl
  refine ⟨?_, (s.readStatus timing).1, (s.readStatus timing).2, ?_, ?_⟩
  · intro e he
    simp only [inb, events_perform, List.mem_singleton] at he
    rw [he]
    exact guarded_read (by simp) nofun
  · rw [inb, run_perform, hdev]
  · simp only [AtaBus.readStatus_bsy]
    by_cases hb : s.selectedDrive.busy = 0
    · simpa [hb] using hs.poll_at hb
    · simp only [hb, ne_eq, not_false_eq_true, decide_true, ↓reduceIte]
      refine ⟨hs.poll, ?_⟩
      simp only [AtaBus.readStatus, AtaBus.selectedDrive, AtaBus.setSelected,
        Function.update_self, Drive.poll_busy]
      exact Nat.sub_lt (Nat.pos_of_ne_zero hb) Nat.one_pos

theorem ataWaitReady_spec :
    Spec (ataDevice timing bus) (Guarded timing bus W) (AtaBus.Readies r ds k)
      (fun n => ataWaitReady n bus) (fun _ => AtaBus.At r ds k) :=
  pollStatus_spec.bind fun _ => .pure fun _ hs => hs

@[simp] theorem port_sub (bus offset : BitVec 16) : bus + offset - bus = offset := by
  rw [BitVec.add_comm, BitVec.add_sub_cancel]

theorem altstatus_spec :
    Spec (ataDevice timing bus) (Guarded timing bus W) (AtaBus.Readies r ds k)
      (fun _ => inb (bus + ataRegAltstatus)) (fun _ => AtaBus.Readies r ds k) := by
  refine .perform fun s hs => ⟨guarded_read (by simp) nofun, ?_⟩
  have hport : bus + ataRegAltstatus ≠ bus + 7 := by
    simp [ataRegAltstatus]
  simp only [ataDevice, hport, ↓reduceIte]
  exact hs

theorem ataWait_error_spec (advanced : BitVec 32) :
    Spec (ataDevice timing bus) (Guarded timing bus W) (AtaBus.Readies r ds k)
      (fun n => ataWait n bus advanced)
      (fun error s => (advanced ≠ 0 →
        ∃ n, error = ataWaitResult (timing.statusBits n (ds r.selected).phase)) ∧ s.At r ds k) := by
  have hdelay : Spec (ataDevice timing bus) (Guarded timing bus W) (AtaBus.Readies r ds k)
      (fun _ => delay400ns bus) (fun _ => AtaBus.Readies r ds k) :=
    altstatus_spec.bind fun _ => altstatus_spec.bind fun _ => altstatus_spec.bind fun _ =>
      altstatus_spec.bind fun _ => .pure fun _ hs => hs
  refine .assume fun ⟨s, hs⟩ => hdelay.bind fun _ => pollStatus_spec.bind fun _ => ?_
  have hready := hs.ready_selected
  by_cases ha : advanced ≠ 0
  · simp only [ha, ne_eq, not_false_eq_true, ↓reduceIte, true_imp_iff]
    refine .bind (R := fun status s =>
      (∃ n, status = timing.statusBits n (ds r.selected).phase &&& 0x7f) ∧ s.At r ds k) ?_
      fun status => .pure fun s hs => ?_
    · refine .perform fun s hs => ⟨guarded_read (by simp) nofun, ?_⟩
      have hsel : s.selectedDrive = ds r.selected := by
        rw [AtaBus.selectedDrive, hs.drive, hs.regs]
      have hbusy : (ds r.selected).busy = 0 := by
        rw [← hready, Drive.ready_busy]
      simp only [ataDevice, ataRegStatus, ↓reduceIte]
      refine ⟨⟨s.polls, ?_⟩, (hs.of_ready hready).poll_at (hsel ▸ hbusy)⟩
      simp only [AtaBus.readStatus, hsel, if_pos hbusy]
    · obtain ⟨⟨n, rfl⟩, hs⟩ := hs
      exact ⟨⟨n, ataWaitResult_notBusy _⟩, hs⟩
  · simp only [ha, ↓reduceIte]
    exact .pure fun _ hs => ⟨False.elim, hs⟩

theorem ataWait_spec (advanced : BitVec 32) :
    Spec (ataDevice timing bus) (Guarded timing bus W) (AtaBus.Readies r ds k)
      (fun n => ataWait n bus advanced) (fun _ => AtaBus.At r ds k) :=
  (ataWait_error_spec advanced).weaken (fun _ h => h) fun _ _ h => h.2

theorem outb_control_spec (val : BitVec 8) :
    Spec (ataDevice timing bus) (Guarded timing bus W) (AtaBus.At r ds k)
      (fun _ => outb (bus + ataRegControl) val) (fun _ => AtaBus.At r ds k) := by
  refine .perform fun s hs => ⟨⟨fun _ port val' hop h1 h7 => ?_, fun _ => nofun⟩, ?_⟩
  · simp only [PortOp.outb.injEq] at hop
    rw [← hop.1, port_sub] at h7
    exact absurd h7 (by decide)
  · simp only [ataDevice, AtaBus.writeReg, port_sub, ataRegControl]
    split
    · exact hs
    · exact hs

theorem outb_register_spec (offset : BitVec 16) (val : BitVec 8) (ho : offset ≠ 7)
    (hb : (ds r.selected).busy = 0) :
    Spec (ataDevice timing bus) (Guarded timing bus W) (AtaBus.At r ds k)
      (fun _ => outb (bus + offset) val) (fun _ => AtaBus.At (r.write offset val) ds k) := by
  have hbusy (s : AtaBus) (hs : s.At r ds k) : s.selectedDrive.busy = 0 := by
    rw [AtaBus.selectedDrive, hs.drive, hs.regs, hb]
  refine .perform fun s hs => ⟨⟨fun _ _ _ _ _ _ => hbusy s hs, fun _ => nofun⟩, ?_⟩
  simp only [ataDevice, AtaBus.writeReg, port_sub, hbusy s hs, ne_eq, not_true_eq_false,
    ↓reduceIte, ho]
  exact ⟨by rw [hs.regs], hs.drive, hs.transfers⟩

theorem outb_command_spec (cmd : BitVec 8) (hb : (ds r.selected).busy = 0) :
    Spec (ataDevice timing bus) (Guarded timing bus W) (AtaBus.At r ds k)
      (fun _ => outb (bus + ataRegCommand) cmd)
      (fun _ => AtaBus.Readies r
        (Function.update ds r.selected ((ds r.selected).command 0 r cmd)) k) := by
  have hbusy (s : AtaBus) (hs : s.At r ds k) : s.selectedDrive.busy = 0 := by
    rw [AtaBus.selectedDrive, hs.drive, hs.regs, hb]
  refine .perform fun s hs => ⟨⟨fun _ _ _ _ _ _ => hbusy s hs, fun _ => nofun⟩, ?_⟩
  simp only [ataDevice, AtaBus.writeReg, port_sub, hbusy s hs, ataRegCommand, ne_eq,
    not_true_eq_false, ↓reduceIte]
  refine ⟨hs.regs, ?_, hs.transfers⟩
  simp only [AtaBus.setSelected, AtaBus.selectedDrive, hs.regs, hs.drive, readyAt,
    Function.update_self, Function.update_idem, Drive.ready_command]

theorem sectorRegs_spec {drive : AtaDrive} {lba : BitVec 32} {p : Nat → PortM α}
    {Q : α → AtaBus → Prop} (hr : r.hddevsel = hddevselByte drive.toByte lba)
    (hb : (ds drive).busy = 0)
    (hp : Spec (ataDevice timing bus) (Guarded timing bus W)
      (AtaBus.At (sectorRegs drive lba) ds k) p Q) :
    Spec (ataDevice timing bus) (Guarded timing bus W) (AtaBus.At r ds k)
      (fun n => do
        outb (bus + ataRegFeatures) 0x00
        outb (bus + ataRegSeccount0) 0x01
        outb (bus + ataRegLba0) (lba0Byte lba)
        outb (bus + ataRegLba1) (lba1Byte lba)
        outb (bus + ataRegLba2) (lba2Byte lba)
        p n)
      Q := by
  have hsel (r' : AtaRegs) (h : r'.hddevsel = r.hddevsel) : (ds r'.selected).busy = 0 := by
    rw [selected_hddevselByte (h.trans hr), hb]
  refine .bind (outb_register_spec ataRegFeatures _ (by decide) (hsel _ rfl)) fun _ => ?_
  refine .bind (outb_register_spec ataRegSeccount0 _ (by decide) (hsel _ rfl)) fun _ => ?_
  refine .bind (outb_register_spec ataRegLba0 _ (by decide) (hsel _ rfl)) fun _ => ?_
  refine .bind (outb_register_spec ataRegLba1 _ (by decide) (hsel _ rfl)) fun _ => ?_
  refine .bind (outb_register_spec ataRegLba2 _ (by decide) (hsel _ rfl)) fun _ => ?_
  refine hp.weaken (fun s hs => ?_) fun _ _ h => h
  refine ⟨?_, hs.drive, hs.transfers⟩
  rw [hs.regs, sectorRegs, ← hr]
  rfl

end BordOS
