import BordOS.Drivers.AtaBusySafety

namespace BordOS
open Library Prog
set_option autoImplicit true
set_option relaxedAutoImplicit false

inductive AtaDir where
  | read
  | write
deriving DecidableEq, Repr

def AtaDir.call : AtaDir → AtaDrive → BitVec 32 → Buffer → IdeCall
  | .read => .read
  | .write => .write

def AtaRegs.driveLba (r : AtaRegs) : BitVec 8 × BitVec 8 × BitVec 8 × BitVec 8 :=
  (r.hddevsel, r.lba2, r.lba1, r.lba0)

/-- A device whose command block at `bus` latches what the host writes. -/
def latching (bus : BitVec 16) (ports : PortDevice σ) : PortDevice (σ × AtaRegs)
  | .outb port val, (s, r) => ((), (ports (.outb port val) s).2, r.write (port - bus) val)
  | op, (s, r) => ((ports op s).1, (ports op s).2, r)

def WritesCommand (bus : BitVec 16) (e : PortEvent (σ × AtaRegs)) : Prop :=
  ∃ cmd, e.op = .outb (bus + ataRegCommand) cmd

/-- Wherever a command is written, the registers select this drive and sector. -/
def Addresses (bus : BitVec 16) (drive : AtaDrive) (lba : BitVec 32)
    (e : PortEvent (σ × AtaRegs)) : Prop :=
  WritesCommand bus e → e.before.2.driveLba = (sectorRegs drive lba).driveLba

theorem low_bits (lba : BitVec 32) : lba &&& 0x0fffffff = (lba.setWidth 28).setWidth 32 := by
  apply BitVec.eq_of_toNat_eq
  rw [BitVec.toNat_and, BitVec.toNat_setWidth_of_le (by decide), BitVec.toNat_setWidth]
  exact Nat.and_two_pow_sub_one_eq_mod lba.toNat 28

theorem sectorRegs_low (drive : AtaDrive) (lba : BitVec 32) :
    sectorRegs drive lba = sectorRegs drive (lba &&& 0x0fffffff) := by
  have hmask (m : BitVec 32) (hm : 0x0fffffff &&& m = m) :
      lba &&& 0x0fffffff &&& m = lba &&& m := by
    rw [BitVec.and_assoc, hm]
  simp only [sectorRegs, lba0Byte, lba1Byte, lba2Byte, hddevselByte]
  rw [hmask 0xff (by decide), hmask 0xff00 (by decide), hmask 0xff0000 (by decide),
    hmask 0xf000000 (by decide)]

theorem lba_eq_of_driveLba {r r' : AtaRegs} (h : r.driveLba = r'.driveLba) : r.lba = r'.lba := by
  simp only [AtaRegs.driveLba, Prod.mk.injEq] at h
  rw [AtaRegs.lba, AtaRegs.lba, h.1, h.2.1, h.2.2.1, h.2.2.2]

theorem driveLba_eq_iff (drive : AtaDrive) (lba lba' : BitVec 32) :
    (sectorRegs drive lba).driveLba = (sectorRegs drive lba').driveLba ↔
      lba.setWidth 28 = lba'.setWidth 28 := by
  constructor
  · intro h
    rw [← sectorRegs_lba drive lba, ← sectorRegs_lba drive lba', lba_eq_of_driveLba h]
  · intro h
    rw [sectorRegs_low drive lba, sectorRegs_low drive lba', low_bits, low_bits, h]

theorem setWidth_toNat_eq_iff (lba : BitVec 32) :
    (lba.setWidth 28).toNat = lba.toNat ↔ lba.toNat < 2 ^ 28 := by
  rw [BitVec.toNat_setWidth]
  omega

variable {ports : PortDevice σ} {bus : BitVec 16} {drive : AtaDrive} {lba : BitVec 32}
  {r : AtaRegs}

def Latched (r : AtaRegs) (s : σ × AtaRegs) : Prop := s.2 = r

theorem latched_outb {offset : BitVec 16} (ho : offset ≠ ataRegCommand) (val : BitVec 8) :
    Triple (latching bus ports) (Addresses bus drive lba) (Latched r)
      (outb (bus + offset) val) (fun _ => Latched (r.write offset val)) := by
  apply Triple.perform
  intro s hs
  refine ⟨?_, ?_⟩
  · rintro ⟨cmd, hcmd⟩
    simp only [PortOp.outb.injEq, BitVec.add_right_inj] at hcmd
    exact absurd hcmd.1 ho
  · simp only [latching, port_sub, Latched]
    rw [hs]

theorem latched_command (cmd : BitVec 8) :
    Triple (latching bus ports) (Addresses bus drive lba) (Latched (sectorRegs drive lba))
      (outb (bus + ataRegCommand) cmd) (fun _ => Latched (sectorRegs drive lba)) := by
  apply Triple.perform
  intro s hs
  refine ⟨fun _ => congrArg AtaRegs.driveLba hs, ?_⟩
  simp only [latching, port_sub, Latched]
  rw [hs]
  rfl

theorem latched_uses {p : PortM α} (hp : p.Uses fun op => ∀ port val, op ≠ .outb port val) :
    Triple (latching bus ports) (Addresses bus drive lba) (Latched r) p
      (fun _ => Latched r) := by
  apply hp.triple
  intro op s hop hs
  refine ⟨fun ⟨cmd, h⟩ => absurd h (hop _ cmd), ?_⟩
  cases op with
  | outb port val => exact absurd rfl (hop port val)
  | _ => exact hs

theorem latched_inb {p : PortM α} (hp : p.Uses PortOp.IsInb) :
    Triple (latching bus ports) (Addresses bus drive lba) (Latched r) p
      (fun _ => Latched r) := by
  apply latched_uses
  apply hp.mono
  rintro _ ⟨port, rfl⟩
  nofun

theorem latched_repinsw (buf : Buffer) (n : Nat) :
    Triple (latching bus ports) (Addresses bus drive lba) (Latched r)
      (repinsw bus buf n) (fun _ => Latched r) := by
  apply latched_uses
  apply (repinsw_uses bus buf n).mono
  rintro _ rfl
  nofun

theorem latched_repoutsw (buf : Buffer) (n : Nat) :
    Triple (latching bus ports) (Addresses bus drive lba) (Latched r)
      (repoutsw bus buf n) (fun _ => Latched r) := by
  apply latched_uses
  apply (repoutsw_uses bus buf n).mono
  rintro _ ⟨w, rfl⟩
  nofun

theorem latched_ataLogError (error : BitVec 32) (slave : BitVec 8) :
    Triple (latching bus ports) (Addresses bus drive lba) (Latched r)
      (ataLogError error bus slave lba) (fun _ => Latched r) := by
  by_cases herr : error ≠ 0
  · rw [ataLogError, if_pos herr]
    apply latched_uses
    apply Uses.perform
    intro port val h
    cases h
  · rw [ataLogError, if_neg herr]
    exact .pure fun _ h => h

theorem latched_sector {p : PortM α} {Q : α → σ × AtaRegs → Prop}
    (hp : Triple (latching bus ports) (Addresses bus drive lba)
      (Latched (sectorRegs drive lba)) p Q) :
    Triple (latching bus ports) (Addresses bus drive lba)
      (Latched (r.write ataRegHddevsel (hddevselByte drive.toByte lba)))
      (do
        outb (bus + ataRegFeatures) 0x00
        outb (bus + ataRegSeccount0) 0x01
        outb (bus + ataRegLba0) (lba0Byte lba)
        outb (bus + ataRegLba1) (lba1Byte lba)
        outb (bus + ataRegLba2) (lba2Byte lba)
        p) Q := by
  apply (latched_outb (by decide) _).bind
  intro _
  apply (latched_outb (by decide) _).bind
  intro _
  apply (latched_outb (by decide) _).bind
  intro _
  apply (latched_outb (by decide) _).bind
  intro _
  apply (latched_outb (by decide) _).bind
  intro _
  exact hp

theorem ideReadSector_addresses (n : Nat) (buf : Buffer) :
    Triple (latching bus ports) (Addresses bus drive lba) (Latched r)
      ((IdeCall.read drive lba buf).run n bus) (fun _ => Latched (sectorRegs drive lba)) := by
  refine Triple.bind (R := fun _ => Latched (sectorRegs drive lba)) ?_
    fun _ => .pure fun _ h => h
  apply (latched_outb (by decide) _).bind
  intro _
  apply (latched_inb (ataWaitReady_uses n bus)).bind
  intro _
  apply (latched_outb (by decide) _).bind
  intro _
  apply latched_sector
  apply (latched_command _).bind
  intro _
  apply (latched_inb (ataWait_uses n bus 1)).bind
  intro error
  apply (latched_ataLogError error _).bind
  intro _
  apply (latched_repinsw buf 256).bind
  intro buf'
  apply (latched_inb (ataWait_uses n bus 0)).bind
  intro _
  exact .pure fun _ h => h

theorem ideWriteSector_addresses (n : Nat) (buf : Buffer) :
    Triple (latching bus ports) (Addresses bus drive lba) (Latched r)
      ((IdeCall.write drive lba buf).run n bus) (fun _ => Latched (sectorRegs drive lba)) := by
  apply (latched_outb (by decide) _).bind
  intro _
  apply (latched_inb (ataWaitReady_uses n bus)).bind
  intro _
  apply (latched_outb (by decide) _).bind
  intro _
  apply (latched_inb (ataWait_uses n bus 0)).bind
  intro _
  apply latched_sector
  apply (latched_command _).bind
  intro _
  apply (latched_inb (ataWait_uses n bus 0)).bind
  intro _
  apply (latched_repoutsw buf 256).bind
  intro _
  apply (latched_command _).bind
  intro _
  apply (latched_inb (ataWait_uses n bus 0)).bind
  intro _
  exact .pure fun _ h => h

theorem AtaDir.call_addresses (dir : AtaDir) (n : Nat) (buf : Buffer) :
    Triple (latching bus ports) (Addresses bus drive lba) (Latched r)
      ((dir.call drive lba buf).run n bus) (fun _ => Latched (sectorRegs drive lba)) := by
  cases dir with
  | read => exact ideReadSector_addresses n buf
  | write => exact ideWriteSector_addresses n buf

theorem visits_command (cmd : BitVec 8) {f : Unit → PortM α} :
    Visits (latching bus ports) (WritesCommand bus) (outb (bus + ataRegCommand) cmd >>= f) :=
  .left (.perform fun _ => ⟨cmd, rfl⟩)

theorem AtaDir.call_visits (dir : AtaDir) (n : Nat) (buf : Buffer) :
    Visits (latching bus ports) (WritesCommand bus) ((dir.call drive lba buf).run n bus) := by
  cases dir with
  | read =>
    exact .left <| .right fun _ => .right fun _ => .right fun _ => .right fun _ => .right fun _ =>
      .right fun _ => .right fun _ => .right fun _ => visits_command _
  | write =>
    exact .right fun _ => .right fun _ => .right fun _ => .right fun _ => .right fun _ =>
      .right fun _ => .right fun _ => .right fun _ => .right fun _ => visits_command _

/-- The registers in front of two commands are the same exactly when the addresses agree in their
low 28 bits. The bits above these are lost: a command goes to the caller's sector exactly when there
are none. -/
theorem ide_address_distinct_iff (ports : PortDevice σ) (bus : BitVec 16) (drive : AtaDrive)
    (dir dir' : AtaDir) (lba lba' : BitVec 32) (buf buf' : Buffer) (n n' : Nat)
    (s s' : σ × AtaRegs) :
    (∀ t, ((dir.call drive lba buf).run n bus).run (latching bus ports) s = .ok () t →
        ∃ e ∈ ((dir.call drive lba buf).run n bus).events (latching bus ports) s,
          WritesCommand bus e) ∧
      ∀ e ∈ ((dir.call drive lba buf).run n bus).events (latching bus ports) s,
        WritesCommand bus e →
          (e.before.2.lba.toNat = lba.toNat ↔ lba.toNat < 2 ^ 28) ∧
          ∀ e' ∈ ((dir'.call drive lba' buf').run n' bus).events (latching bus ports) s',
            WritesCommand bus e' →
              (e.before.2.driveLba ≠ e'.before.2.driveLba ↔
                lba.toNat % 2 ^ 28 ≠ lba'.toNat % 2 ^ 28) := by
  refine ⟨fun t => dir.call_visits n buf s () t, ?_⟩
  intro e he hcommand
  have hregs := (dir.call_addresses n buf s rfl).1 e he hcommand
  have hsector : e.before.2.lba = lba.setWidth 28 := by
    rw [← sectorRegs_lba drive lba, lba_eq_of_driveLba hregs]
  refine ⟨?_, ?_⟩
  · rw [hsector, setWidth_toNat_eq_iff]
  · intro e' he' hcommand'
    have hregs' := (dir'.call_addresses n' buf' s' rfl).1 e' he' hcommand'
    rw [hregs, hregs', ne_eq, driveLba_eq_iff, ← BitVec.toNat_inj, BitVec.toNat_setWidth,
      BitVec.toNat_setWidth]

theorem latching_run {p : PortM α} {s t : σ} {a : α} (h : p.run ports s = .ok a t) (r : AtaRegs) :
    ∃ u, p.run (latching bus ports) (s, r) = .ok a u := by
  refine ⟨_, run_replay (R := fun s u => u.1 = s) ?_ p rfl h⟩
  rintro op s ⟨s', r⟩ rfl
  cases op <;> exact ⟨rfl, rfl⟩

/-- A write to the first sector that 28 bits cannot express goes where a write to sector 0 goes. -/
theorem ide_address_wraps :
    ∃ n, ∃ e ∈ ((AtaDir.write.call .master 0x10000000 fun _ => 0).run n 0x1F0).events
        (latching 0x1F0 (ataDevice ⟨id, id, fun _ _ => 0x48⟩ 0x1F0)) (.start, AtaBus.start.regs),
      ∃ e' ∈ ((AtaDir.write.call .master 0 fun _ => 0).run n 0x1F0).events
        (latching 0x1F0 (ataDevice ⟨id, id, fun _ _ => 0x48⟩ 0x1F0)) (.start, AtaBus.start.regs),
      WritesCommand 0x1F0 e ∧ WritesCommand 0x1F0 e' ∧
        e.before.2.driveLba = e'.before.2.driveLba := by
  have hreturns (lba : BitVec 32) := (@ideWriteSector_spec ⟨id, id, fun _ _ => 0x48⟩ 0x1F0 False
    AtaBus.start.regs AtaBus.start.drive 0 .master lba (fun _ => 0) False.elim).returns
      AtaBus.start ⟨rfl, rfl, rfl⟩
  obtain ⟨⟨⟩, t, N, hN⟩ := hreturns 0x10000000
  obtain ⟨⟨⟩, t', N', hN'⟩ := hreturns 0
  obtain ⟨u, hu⟩ := latching_run (hN (max N N') (by omega)) AtaBus.start.regs
  obtain ⟨u', hu'⟩ := latching_run (hN' (max N N') (by omega)) AtaBus.start.regs
  obtain ⟨e, he, hcommand⟩ := AtaDir.write.call_visits (max N N') (fun _ => 0) _ () u hu
  obtain ⟨e', he', hcommand'⟩ := AtaDir.write.call_visits (max N N') (fun _ => 0) _ () u' hu'
  refine ⟨max N N', e, he, e', he', hcommand, hcommand', ?_⟩
  rw [(AtaDir.write.call_addresses _ _ _ rfl).1 e he hcommand,
    (AtaDir.write.call_addresses _ _ _ rfl).1 e' he' hcommand']
  rfl

end BordOS
