import BordOS.Drivers.AtaTransfer

namespace BordOS
open Library Prog
set_option autoImplicit true
set_option relaxedAutoImplicit false

def AtaBus.sectors (s : AtaBus) (p : AtaDrive × BitVec 28) : Sector := (s.drive p.1).sectors p.2

def AtaBus.Settled (s : AtaBus) : Prop := ∀ b, (s.drive b).Settled

theorem readyAt_of_settled {ds : AtaDrive → Drive} (h : ∀ b, (ds b).Settled) (a b : AtaDrive) :
    (readyAt ds a b).sectors = (ds b).sectors ∧ (readyAt ds a b).Settled := by
  by_cases hb : b = a
  · subst hb
    rw [readyAt, Function.update_self, (h b).ready]
    exact ⟨rfl, h b⟩
  · rw [readyAt, Function.update_of_ne hb]
    exact ⟨rfl, h b⟩

theorem readyBoth_sectors {ds : AtaDrive → Drive} (h : ∀ b, (ds b).Settled) (a c b : AtaDrive) :
    (readyBoth ds a c b).sectors = (ds b).sectors :=
  ((readyAt_of_settled (fun b => (readyAt_of_settled h a b).2) c b).1).trans
    (readyAt_of_settled h a b).1

theorem Drive.stored_ready (d : Drive) (lba : BitVec 28) (data : Sector) :
    (d.stored lba data).ready = d.stored lba data := rfl

theorem sectors_stored {s t : AtaBus} {ds : AtaDrive → Drive} {drive : AtaDrive} {lba : BitVec 28}
    {data : Sector} (hds : ∀ b, (ds b).sectors = (s.drive b).sectors)
    (ht : t.drive = Function.update ds drive ((ds drive).stored lba data)) :
    t.sectors = Function.update s.sectors (drive, lba) data := by
  funext ⟨b, l⟩
  simp only [AtaBus.sectors, ht]
  by_cases hb : b = drive
  · subst hb
    simp only [Function.update_self, Drive.stored, hds]
    by_cases hl : l = lba
    · subst hl
      rw [Function.update_self, Function.update_self]
    · rw [Function.update_of_ne hl, Function.update_of_ne (by simp [hl])]
      rfl
  · rw [Function.update_of_ne hb, Function.update_of_ne (by simp [hb]), hds]
    rfl

/-- A written sector is read back: the write changes exactly the addressed sector of the selected
drive, and a read after it returns its data and changes no sector. Each drive may be busy for any
finite time at each step, and may be in the middle of another transfer at the start. -/
theorem ide_write_read_round_trip (timing : AtaTiming) (bus : BitVec 16) (drive : AtaDrive)
    (lba : BitVec 28) (data buf : Buffer) (s : AtaBus) (hs : s.Settled) :
    ∃ s₁, Converges (ataDevice timing bus)
        (fun n => ideWriteSector n bus drive.toByte (lba.setWidth 32) data) s () s₁ ∧
      s₁.sectors = Function.update s.sectors (drive, lba) data.sector ∧
      ∃ buf' s₂, Converges (ataDevice timing bus)
          (fun n => ideReadSector n bus drive.toByte (lba.setWidth 32) buf) s₁ buf' s₂ ∧
        (∀ i, buf' i = if i < 512 then data i else buf i) ∧
        s₂.sectors = s₁.sectors := by
  have hlba : (lba.setWidth 32).setWidth 28 = lba := by simp
  obtain ⟨⟨⟩, s₁, hc₁, h₁⟩ := (@ideWriteSector_spec timing bus False s.regs s.drive s.transfers
    drive (lba.setWidth 32) data False.elim).post ⟨rfl, rfl, rfl⟩
  rw [hlba] at h₁
  refine ⟨s₁, hc₁, sectors_stored (readyBoth_sectors hs _ _) h₁.drive, ?_⟩
  have hd : s₁.drive drive = (readyBoth s.drive s.regs.selected drive drive).stored lba
      data.sector := by
    rw [h₁.drive, Function.update_self]
  obtain ⟨buf', s₂, hc₂, hbuf, h₂⟩ := (@ideReadSector_spec timing bus False s₁.regs s₁.drive
    s₁.transfers drive (lba.setWidth 32) buf (by rw [hd]; rfl)).post ⟨rfl, rfl, rfl⟩
  -- the drive that was written is still selected, and idle
  have hready : readyAt s₁.drive s₁.regs.selected = s₁.drive := by
    rw [h₁.regs, sectorRegs_selected, readyAt, hd, Drive.stored_ready, ← hd,
      Function.update_eq_self]
  have hidle : (s₁.drive drive).idle = s₁.drive drive := by
    rw [hd]
    rfl
  rw [hready, hidle, Function.update_eq_self] at h₂
  rw [hready, hlba, hd] at hbuf
  refine ⟨buf', s₂, hc₂, ?_, ?_⟩
  · intro i
    simp only [hbuf, Sector.onto, Drive.stored, Function.update_self, Buffer.sector]
    by_cases hi : i < 512
    · rw [if_pos hi, dif_pos ⟨by omega, hi⟩]
    · rw [if_neg hi, dif_neg (by omega)]
  · funext p
    rw [AtaBus.sectors, AtaBus.sectors, h₂.drive]

theorem AtaBus.start_settled : AtaBus.start.Settled := fun _ _ _ _ h => by cases h

theorem ide_write_read_round_trip_quiet :
    ∃ s₁, Converges
        (ataDevice { commandDelay := id, transferDelay := id, statusBits := fun _ _ => 0x48 } 0x1F0)
        (fun n => ideWriteSector n 0x1F0 (AtaDrive.toByte .slave) ((7 : BitVec 28).setWidth 32)
          fun i => BitVec.ofNat 8 i) AtaBus.start () s₁ ∧
      s₁.sectors = Function.update AtaBus.start.sectors (.slave, 7)
        (Buffer.sector fun i => BitVec.ofNat 8 i) := by
  obtain ⟨s₁, hc, hsectors, -⟩ := ide_write_read_round_trip
    { commandDelay := id, transferDelay := id, statusBits := fun _ _ => 0x48 } 0x1F0 .slave 7
    (fun i => BitVec.ofNat 8 i) (fun _ => 0) AtaBus.start AtaBus.start_settled
  exact ⟨s₁, hc, hsectors⟩

end BordOS
