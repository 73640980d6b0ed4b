import BordOS.Drivers.AtaTransfer

namespace BordOS
open Library Prog
set_option autoImplicit true
set_option relaxedAutoImplicit false

inductive IdeCall where
  | read (drive : AtaDrive) (lba : BitVec 32) (buf : Buffer)
  | write (drive : AtaDrive) (lba : BitVec 32) (data : Buffer)

def IdeCall.run (fuel : Nat) (bus : BitVec 16) : IdeCall → PortM Unit
  | .read drive lba buf => do
    let _ ← ideReadSector fuel bus drive.toByte lba buf
    return ()
  | .write drive lba data => ideWriteSector fuel bus drive.toByte lba data

def ideCalls (fuel : Nat) (bus : BitVec 16) : List IdeCall → PortM Unit
  | [] => pure ()
  | c :: cs => do
    c.run fuel bus
    ideCalls fuel bus cs

def writeCount : List IdeCall → Nat
  | [] => 0
  | .read _ _ _ :: cs => writeCount cs
  | .write _ _ _ :: cs => writeCount cs + 1

def AtaBus.Idle (s : AtaBus) : Prop := ∀ b, (s.drive b).busy = 0 ∧ (s.drive b).phase = .idle

def AtaBus.IdleAt (k : Nat) (s : AtaBus) : Prop := s.Idle ∧ s.transfers = k

variable {timing : AtaTiming} {bus : BitVec 16} {W : Prop} {k : Nat}

theorem Drive.ready_of_idle {d : Drive} (h : d.busy = 0 ∧ d.phase = .idle) : d.ready = d := by
  refine Drive.Settled.ready_of_busy_eq_zero (fun lba left data hd => ?_) h.1
  rw [h.2] at hd
  cases hd

theorem readyAt_of_idle {ds : AtaDrive → Drive} (h : ∀ b, (ds b).busy = 0 ∧ (ds b).phase = .idle)
    (a : AtaDrive) : readyAt ds a = ds := by
  rw [readyAt, Drive.ready_of_idle (h a), Function.update_eq_self]

theorem idle_update {ds : AtaDrive → Drive} (h : ∀ b, (ds b).busy = 0 ∧ (ds b).phase = .idle)
    (a : AtaDrive) {d : Drive} (hd : d.busy = 0 ∧ d.phase = .idle) (b : AtaDrive) :
    (Function.update ds a d b).busy = 0 ∧ (Function.update ds a d b).phase = .idle := by
  by_cases hb : b = a
  · rw [hb, Function.update_self]
    exact hd
  · rw [Function.update_of_ne hb]
    exact h b

theorem ideReadSector_idle (drive : AtaDrive) (lba : BitVec 32) (buf : Buffer) :
    Spec (ataDevice timing bus) (Guarded timing bus W) (AtaBus.IdleAt k)
      (fun n => (IdeCall.read drive lba buf).run n bus) (fun _ => AtaBus.IdleAt k) := by
  apply spec_of_at
  intro s hs
  refine (ideReadSector_spec drive lba buf (hs.1 drive).1).bind fun _ => .pure fun t ht => ?_
  have ht := ht.2
  rw [readyAt_of_idle hs.1] at ht
  refine ⟨fun b => ?_, ht.transfers.trans hs.2⟩
  rw [ht.drive]
  exact idle_update hs.1 drive ⟨rfl, rfl⟩ b

theorem ideWriteSector_idle (drive : AtaDrive) (lba : BitVec 32) (data : Buffer)
    (hW : W → timing.transferDelay k = 0) :
    Spec (ataDevice timing bus) (Guarded timing bus W) (AtaBus.IdleAt k)
      (fun n => (IdeCall.write drive lba data).run n bus) (fun _ => AtaBus.IdleAt (k + 1)) := by
  apply spec_of_at
  intro s hs
  apply (ideWriteSector_spec drive lba data (hs.2 ▸ hW)).weaken (fun _ h => h)
  intro _ t ht
  rw [readyBoth, readyAt_of_idle hs.1, readyAt_of_idle hs.1] at ht
  refine ⟨fun b => ?_, ht.transfers.trans (congrArg (· + 1) hs.2)⟩
  rw [ht.drive]
  exact idle_update hs.1 drive ⟨rfl, rfl⟩ b

theorem ideCalls_idle (calls : List IdeCall)
    (hW : W → ∀ i, i < writeCount calls → timing.transferDelay (k + i) = 0) :
    Spec (ataDevice timing bus) (Guarded timing bus W) (AtaBus.IdleAt k)
      (fun n => ideCalls n bus calls) (fun _ => AtaBus.IdleAt (k + writeCount calls)) := by
  induction calls generalizing k with
  | nil => exact .pure fun s hs => hs
  | cons c cs ih =>
    cases c with
    | read drive lba buf =>
      exact (ideReadSector_idle drive lba buf).bind fun _ => ih hW
    | write drive lba data =>
      refine (ideWriteSector_idle drive lba data fun w => hW w 0 (Nat.succ_pos _)).bind
        fun _ => ?_
      have hrest := ih (k := k + 1) fun w i hi => by
        rw [Nat.add_right_comm]
        exact hW w (i + 1) (Nat.succ_lt_succ hi)
      rwa [Nat.add_right_comm] at hrest

def FlushWhileBusy (bus : BitVec 16) (e : PortEvent AtaBus) : Prop :=
  e.op = .outb (bus + ataRegCommand) ataCmdCacheFlush ∧ e.before.selectedDrive.busy ≠ 0

theorem FlushWhileBusy.not_safe {e : PortEvent AtaBus} (h : FlushWhileBusy bus e) :
    ¬ NoWriteWhileBusy bus e := by
  intro hsafe
  exact h.2 (hsafe _ _ h.1 (by simp [ataRegCommand]) (by simp [ataRegCommand]))

theorem ideWriteSector_violates (drive : AtaDrive) (lba : BitVec 32) (data : Buffer)
    (hk : timing.transferDelay k ≠ 0) :
    Performs (ataDevice timing bus) (FlushWhileBusy bus) (AtaBus.IdleAt k)
      (fun n => (IdeCall.write drive lba data).run n bus) := by
  intro s hs
  simp only [IdeCall.run, ideWriteSector_eq]
  refine Performs.right (@ideWriteTransfer_spec timing bus True s.regs s.drive s.transfers drive
    lba data) (fun _ => Performs.here fun t ht => ⟨rfl, ?_⟩) s ⟨rfl, rfl, rfl⟩
  simpa only [AtaBus.selectedDrive, ht.drive, ht.regs, sectorRegs_selected, Function.update_self,
    Drive.received_busy, hs.2] using hk

theorem ideCalls_violates (calls : List IdeCall)
    (h : ∃ i, i < writeCount calls ∧ timing.transferDelay (k + i) ≠ 0) :
    Performs (ataDevice timing bus) (FlushWhileBusy bus) (AtaBus.IdleAt k)
      (fun n => ideCalls n bus calls) := by
  induction calls generalizing k with
  | nil =>
    obtain ⟨i, hi, -⟩ := h
    cases hi
  | cons c cs ih =>
    cases c with
    | read drive lba buf =>
      exact .right (@ideReadSector_idle timing bus True k drive lba buf) fun _ => ih h
    | write drive lba data =>
      by_cases hk : timing.transferDelay k = 0
      · refine .right (@ideWriteSector_idle timing bus True k drive lba data fun _ => hk)
          fun _ => ih ?_
        obtain ⟨i, hi, hd⟩ := h
        cases i with
        | zero => exact absurd hk hd
        | succ i => exact ⟨i, Nat.lt_of_succ_lt_succ hi, by rwa [Nat.add_right_comm]⟩
      · exact (ideWriteSector_violates drive lba data hk).left

def NoTransferDelay (timing : AtaTiming) (k : Nat) (calls : List IdeCall) : Prop :=
  ∀ i, i < writeCount calls → timing.transferDelay (k + i) = 0

/-- A sequence of calls on an idle bus writes no register of a busy drive exactly if no sector
transfer of its writes keeps the drive busy: the flush comes right after the last word. At every
fuel the condition is enough, and with enough fuel, when every call returns, it is needed. The drives
report no error on a read, so that none is logged. -/
theorem ide_no_write_while_busy_iff (timing : AtaTiming) (hclean : timing.ReadsClean)
    (bus : BitVec 16) (calls : List IdeCall) (s : AtaBus) (hs : s.Idle) :
    (∀ fuel, ∀ e ∈ (ideCalls fuel bus calls).events (ataDevice timing bus) s, e.op.NotLog) ∧
    (∀ fuel, NoTransferDelay timing s.transfers calls →
      ∀ e ∈ (ideCalls fuel bus calls).events (ataDevice timing bus) s, NoWriteWhileBusy bus e) ∧
    ∃ N, ∀ fuel, N ≤ fuel →
      (∃ t, (ideCalls fuel bus calls).run (ataDevice timing bus) s = .ok () t) ∧
      ((∀ e ∈ (ideCalls fuel bus calls).events (ataDevice timing bus) s,
          NoWriteWhileBusy bus e) ↔
        NoTransferDelay timing s.transfers calls) := by
  have hspec := @ideCalls_idle timing bus (NoTransferDelay timing s.transfers calls) s.transfers
    calls fun h => h
  have hguarded (fuel : Nat) := (hspec.triple fuel s ⟨hs, rfl⟩).1
  have hsafe (fuel : Nat) (h : NoTransferDelay timing s.transfers calls) :
      ∀ e ∈ (ideCalls fuel bus calls).events (ataDevice timing bus) s, NoWriteWhileBusy bus e :=
    fun e he => (hguarded fuel e he).1 h
  refine ⟨fun fuel e he => (hguarded fuel e he).2 hclean, hsafe, ?_⟩
  obtain ⟨⟨⟩, t, ⟨N, hN⟩, -⟩ := hspec.post ⟨hs, rfl⟩
  by_cases h : NoTransferDelay timing s.transfers calls
  · exact ⟨N, fun fuel hf => ⟨⟨t, hN fuel hf⟩, fun _ => h, hsafe fuel⟩⟩
  · simp only [NoTransferDelay, not_forall, exists_prop] at h
    obtain ⟨M, hM⟩ := ideCalls_violates calls h s ⟨hs, rfl⟩
    refine ⟨max N M, fun fuel hf => ⟨⟨t, hN fuel (by omega)⟩, fun hall => ?_, hsafe fuel⟩⟩
    obtain ⟨e, he, hflush⟩ := hM fuel (by omega)
    exact absurd (hall e he) hflush.not_safe

/-- Drives that answer every command at once, and are busy for `n` status reads after each sector
that they receive. -/
def storeTiming (n : Nat) : AtaTiming where
  commandDelay _ := 0
  transferDelay _ := n
  statusBits _ := DrivePhase.goodStatus

theorem storeTiming_clean (n : Nat) : (storeTiming n).ReadsClean := by
  intro _ _ _ _
  change ¬ StatusFailed 0x58
  decide

theorem AtaBus.start_idle : AtaBus.start.Idle := fun _ => ⟨rfl, rfl⟩

theorem ide_no_write_while_busy_instant :
    ∃ N, ∀ fuel, N ≤ fuel → ∀ e ∈ (ideCalls fuel 0x1F0
      [.write .slave 5 fun _ => 0x55, .read .slave 5 fun _ => 0]).events
      (ataDevice (storeTiming 0) 0x1F0) AtaBus.start, NoWriteWhileBusy 0x1F0 e := by
  obtain ⟨N, hN⟩ := (ide_no_write_while_busy_iff (storeTiming 0) (storeTiming_clean 0) 0x1F0
    [.write .slave 5 fun _ => 0x55, .read .slave 5 fun _ => 0] AtaBus.start
    AtaBus.start_idle).2.2
  exact ⟨N, fun fuel hf => (hN fuel hf).2.2 fun _ _ => rfl⟩

/-- Writing one sector of zeros writes the flush command while BSY is set. -/
theorem ide_flush_while_busy :
    ∃ fuel, ∃ e ∈ (ideCalls fuel 0x1F0 [.write .master 0 fun _ => 0]).events
      (ataDevice (storeTiming 1) 0x1F0) AtaBus.start,
      FlushWhileBusy 0x1F0 e ∧ ¬ NoWriteWhileBusy 0x1F0 e := by
  obtain ⟨N, hN⟩ := @ideCalls_violates (storeTiming 1) 0x1F0 0 [.write .master 0 fun _ => 0]
    ⟨0, Nat.one_pos, Nat.one_ne_zero⟩ AtaBus.start ⟨AtaBus.start_idle, rfl⟩
  obtain ⟨e, he, hflush⟩ := hN N (Nat.le_refl N)
  exact ⟨N, e, he, hflush, hflush.not_safe⟩

end BordOS
