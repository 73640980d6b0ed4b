import BordOS.Arch.Pic
import BordOS.Drivers.AtaIdentify
import BordOS.Kernel.LoggerSessions

namespace BordOS
open Library Prog
set_option autoImplicit true
set_option relaxedAutoImplicit false

def ataPrimaryIo : BitVec 16 := 0x1F0
def ataSecondaryIo : BitVec 16 := 0x170

def picsDevice (other : PortDevice σ) : PortDevice (Pics × σ)
  | .outb port val, s => ((), s.1.outb port val, (other (.outb port val) s.2).2)
  | op, s => ((other op s.2).1, s.1, (other op s.2).2)

structure Disks where
  primary : Responses
  secondary : Responses

abbrev Platform := Pics × AtaStream (AtaStream CmosChip)

def platformDevice (disks : Disks) (values : CmosStream) : PortDevice Platform :=
  picsDevice (responseDevice disks.primary ataPrimaryIo
    (responseDevice disks.secondary ataSecondaryIo (cmosDevice values)))

def Platform.clock (p : Platform) : CmosChip := p.2.world.world

def Platform.setClock (p : Platform) (c : CmosChip) : Platform :=
  (p.1, { p.2 with world := { p.2.world with world := c } })

def Platform.setSecondary (p : Platform) (s : AtaStream CmosChip) : Platform :=
  (p.1, { p.2 with world := s })

inductive PortOp.OnClock : PortOp → Prop
  | select (reg : BitVec 8) : OnClock (.outb cmosReg reg)
  | read : OnClock (.inb cmosData)

/-- The offsets from the base of a channel that `ide_init` reads and writes. -/
def AtaRegister (k : BitVec 16) : Prop := k = 0x01 ∨ k = 0x06 ∨ k = 0x07 ∨ k = 0x0C ∨ k = 0x306

inductive PortOp.OnAta (bus : BitVec 16) : PortOp → Prop
  | read {k : BitVec 16} (hk : AtaRegister k) : OnAta bus (.inb (bus + k))
  | word : OnAta bus (.inw bus)
  | write {k : BitVec 16} (hk : AtaRegister k) (val : BitVec 8) : OnAta bus (.outb (bus + k) val)

theorem cmosReadRaw_onClock (reg : BitVec 8) : (cmosReadRaw reg).Uses PortOp.OnClock := by
  have hselect : (outb cmosReg reg).Uses PortOp.OnClock := .perform (.select reg)
  exact hselect.bind fun _ => .perform .read

theorem CmosReads.part {d : PortDevice υ} {e : PortDevice σ} {lift : σ → υ}
    {reading : Nat → σ → Prop} {values : CmosStream} (hpart : ActsOn d e lift PortOp.OnClock)
    (he : CmosReads e reading values) :
    CmosReads d (fun n s => ∃ t, s = lift t ∧ reading n t) values where
  read := by
    rintro n s reg ⟨t, rfl, ht⟩
    obtain ⟨u, hrun, hu⟩ := he.read reg ht
    refine ⟨lift u, ?_, u, rfl, hu⟩
    rw [(hpart.run (cmosReadRaw_onClock reg) t).1, hrun]
    rfl

theorem Pics.outb_elsewhere (p : Pics) {port : BitVec 16}
    (hport : port ∉ [(0x20 : BitVec 16), 0x21, 0xA0, 0xA1]) (val : BitVec 8) :
    p.outb port val = p := by
  simp only [List.mem_cons, List.not_mem_nil, or_false, not_or] at hport
  obtain ⟨h20, h21, hA0, hA1⟩ := hport
  rw [outb, if_neg h20, if_neg h21, if_neg hA0, if_neg hA1]

variable {disks : Disks} {values : CmosStream}

theorem platform_clock (p : Platform) :
    ActsOn (platformDevice disks values) (cmosDevice values) p.setClock PortOp.OnClock := by
  rintro op c (reg | -)
  · have hport : cmosReg ∉ [(0x20 : BitVec 16), 0x21, 0xA0, 0xA1] := by decide
    have hpics := p.1.outb_elsewhere hport reg
    simp only [platformDevice, picsDevice, Platform.setClock, hpics]
    rfl
  · rfl

theorem platformDevice_reads (p : Platform) :
    CmosReads (platformDevice disks values)
      (fun n s => ∃ c, s = p.setClock c ∧ c.reads = n) values :=
  (cmosDevice_reads values).part (platform_clock p)

theorem onAta_port {bus : BitVec 16} (hbus : bus = ataPrimaryIo ∨ bus = ataSecondaryIo)
    {k : BitVec 16} (hk : AtaRegister k) :
    bus + k ∉ [(0x20 : BitVec 16), 0x21, 0xA0, 0xA1] ∧ bus + k ∉ [cmosReg, cmosData] ∧
      ¬ InUart serialCom1 (bus + k) := by
  rcases hbus with rfl | rfl <;> rcases hk with rfl | rfl | rfl | rfl | rfl <;> decide

theorem PortOp.OnAta.elsewhere {bus : BitVec 16}
    (hbus : bus = ataPrimaryIo ∨ bus = ataSecondaryIo) {op : PortOp} (h : op.OnAta bus) :
    op.Elsewhere ∧ op.KeepsFlag := by
  cases h with
  | read hk => exact ⟨(onAta_port hbus hk).2.2, nofun, nofun⟩
  | word => exact ⟨trivial, nofun, nofun⟩
  | write hk val => exact ⟨(onAta_port hbus hk).2.2, nofun, nofun⟩

theorem picsDevice_actsOn (other : PortDevice σ) (pics : Pics) {bus : BitVec 16}
    (hbus : bus = ataPrimaryIo ∨ bus = ataSecondaryIo) :
    ActsOn (picsDevice other) other (fun s => (pics, s)) (PortOp.OnAta bus) := by
  intro op s hop
  cases hop with
  | read hk => rfl
  | word => rfl
  | write hk val =>
    have hpics := pics.outb_elsewhere (onAta_port hbus hk).1 val
    simp only [picsDevice, hpics]

theorem platform_primary (pics : Pics) :
    ActsOn (platformDevice disks values)
      (responseDevice disks.primary ataPrimaryIo
        (responseDevice disks.secondary ataSecondaryIo (cmosDevice values)))
      (fun s => (pics, s)) (PortOp.OnAta ataPrimaryIo) :=
  picsDevice_actsOn _ pics (.inl rfl)

theorem platform_secondary (p : Platform) :
    ActsOn (platformDevice disks values)
      (responseDevice disks.secondary ataSecondaryIo (cmosDevice values)) p.setSecondary
      (PortOp.OnAta ataSecondaryIo) := by
  have hfirst : ActsOn
      (responseDevice disks.primary ataPrimaryIo
        (responseDevice disks.secondary ataSecondaryIo (cmosDevice values)))
      (responseDevice disks.secondary ataSecondaryIo (cmosDevice values))
      (fun s => { p.2 with world := s }) (PortOp.OnAta ataSecondaryIo) := by
    intro op s hop
    cases hop with
    | read hk =>
      have hport {k : BitVec 16} (hk : AtaRegister k) : ataSecondaryIo + k ≠ ataPrimaryIo + 7 := by
        rcases hk with rfl | rfl | rfl | rfl | rfl <;> decide
      exact if_neg (hport hk)
    | word => rfl
    | write hk val => rfl
  exact (picsDevice_actsOn _ p.1 (.inr rfl)).comp hfirst

/-- `ide_init` up to its report, which is about the block that it returns. -/
def ideBlock (fuel : Nat) (bus : BitVec 16) : PortM Buffer := do
  let device ← ideIdentify fuel bus
  outb (bus + ataRegControl) 0x02
  return identifySwap device

def ideLog (device : Buffer) : PortM Unit :=
  if identifyFlags device ≠ 0 then klog .info identifyFormat (identifyArgs device) else pure ()

theorem ideInit_block (fuel : Nat) (bus : BitVec 16) :
    ideInit fuel bus = ideBlock fuel bus >>= ideLog := by
  simp only [ideInit_eq, ideBlock, ideReport, ideLog, bind_assoc, pure_bind]

variable {bus : BitVec 16}

theorem ataStatus_onAta : (inb (bus + ataRegStatus)).Uses (PortOp.OnAta bus) :=
  .perform (.read (.inr (.inr (.inl rfl))))

theorem delay400ns_onAta : (delay400ns bus).Uses (PortOp.OnAta bus) := by
  have hread : (inb (bus + ataRegAltstatus)).Uses (PortOp.OnAta bus) :=
    .perform (.read (.inr (.inr (.inr (.inl rfl)))))
  exact hread.bind fun _ => hread.bind fun _ => hread.bind fun _ => hread.bind fun _ => .pure ()

theorem ataWaitReady_onAta (fuel : Nat) : (ataWaitReady fuel bus).Uses (PortOp.OnAta bus) :=
  (ataStatus_onAta.loopWhile fuel).bind fun _ => .pure ()

theorem repinsw_onAta (buf : Buffer) (n : Nat) : (repinsw bus buf n).Uses (PortOp.OnAta bus) := by
  apply (repinsw_uses bus buf n).mono
  rintro _ rfl
  exact .word

def ideCommand (bus : BitVec 16) : PortM Unit := do
  outb (bus + 1) 1
  outb (bus + 0x306) 0
  ataSelect bus
  delay400ns bus
  outb (bus + ataRegCommand) ataCmdIdentify
  delay400ns bus
  let _ ← inb (bus + ataRegCommand)

theorem ideCommand_onAta : (ideCommand bus).Uses (PortOp.OnAta bus) := by
  have hwrite {k : BitVec 16} (hk : AtaRegister k) (val : BitVec 8) :
      (outb (bus + k) val).Uses (PortOp.OnAta bus) := .perform (.write hk val)
  apply (hwrite (.inl rfl) 1).bind
  intro _
  apply (hwrite (.inr (.inr (.inr (.inr rfl)))) 0).bind
  intro _
  apply (hwrite (.inr (.inl rfl)) 0xA0).bind
  intro _
  apply delay400ns_onAta.bind
  intro _
  apply (hwrite (.inr (.inr (.inl rfl))) ataCmdIdentify).bind
  intro _
  apply delay400ns_onAta.bind
  intro _
  exact ataStatus_onAta.bind fun _ => .pure ()

theorem ideBlock_eq (fuel : Nat) (bus : BitVec 16) :
    ideBlock fuel bus = (do
      ideCommand bus
      ataWaitReady fuel bus
      let device ← identifyWords bus clearedIdentify
      outb (bus + ataRegControl) 0x02
      return identifySwap device) := by
  simp only [ideBlock, ideIdentify, ideCommand, bind_assoc, pure_bind]

theorem ideBlock_onAta (fuel : Nat) : (ideBlock fuel bus).Uses (PortOp.OnAta bus) := by
  rw [ideBlock_eq]
  apply ideCommand_onAta.bind
  intro _
  apply (ataWaitReady_onAta fuel).bind
  intro _
  rw [identifyWords_eq]
  apply (repinsw_onAta clearedIdentify 256).bind
  intro device
  have hcontrol : (outb (bus + ataRegControl) 0x02).Uses (PortOp.OnAta bus) :=
    .perform (.write (.inr (.inr (.inr (.inl rfl)))) 0x02)
  exact hcontrol.bind fun _ => .pure (identifySwap device)

variable {resp : Responses} {other : PortDevice σ} {s : AtaStream σ} {n p w : Nat}
  {sent : List (BitVec 16)}

theorem ideCommand_responds :
    Spec (responseDevice resp bus other) Anything (AtaStream.At n w sent)
      (fun _ => ideCommand bus) (fun _ => AtaStream.At (n + 1) w sent) := by
  refine (outb_responds _ _).bind fun _ => (outb_responds _ _).bind fun _ =>
    (outb_responds _ _).bind fun _ => ?_
  apply delay400ns_responds.bind
  intro _
  apply (outb_responds _ _).bind
  intro _
  apply delay400ns_responds.bind
  intro _
  apply (readStatus_responds.weaken (fun _ h => h) fun _ _ h => h.2).bind
  intro _
  exact .pure fun _ h => h

theorem ideBlock_responds (hp : FirstReady resp.status (n + 1) p) :
    Spec (responseDevice resp bus other) Anything (AtaStream.At n w sent)
      (fun k => ideBlock k bus) (fun device _ => device = resp.identified w) := by
  simp only [ideBlock_eq, identifyWords_eq]
  apply ideCommand_responds.bind
  intro _
  apply (ataWaitReady_responds hp).bind
  intro _
  apply (repinsw_responds clearedIdentify 256).bind
  intro device
  apply Spec.assume
  rintro ⟨-, rfl, -⟩
  apply ((outb_responds _ _).weaken (fun _ h => h.2) fun _ _ h => h).bind
  intro _
  exact .pure fun _ _ => rfl

theorem ideBlock_converges (hquiet : ∀ op q, PortOp.OnAta bus op → (other op q).2 = q)
    (hready : ∃ p, s.polls < p ∧ resp.status p &&& ataSrBsy = 0) :
    ∃ t, Converges (responseDevice resp bus other) (fun k => ideBlock k bus) s
      (resp.identified s.words) t ∧ t.world = s.world := by
  obtain ⟨p, hp⟩ := FirstReady.of_ready hready
  have hblock : Spec (responseDevice resp bus other) Anything
      (AtaStream.At s.polls s.words s.sent) (fun k => ideBlock k bus)
      (fun device _ => device = resp.identified s.words) := ideBlock_responds hp
  obtain ⟨_, t, hrun, rfl⟩ := hblock.post ⟨rfl, rfl, rfl⟩
  have hkept (k : Nat) : Triple (responseDevice resp bus other) Anything
      (fun t => t.world = s.world) (ideBlock k bus) fun _ t => t.world = s.world := by
    apply (ideBlock_onAta k).triple
    intro op t hop ht
    have hworld := hquiet op t.world hop
    rw [ht] at hworld
    refine ⟨trivial, ?_⟩
    cases hop with
    | read hk =>
      simp only [responseDevice]
      split_ifs
      · exact ht
      · simp only [ht, hworld]
    | word =>
      simp only [responseDevice, ↓reduceIte]
      exact ht
    | write hk val => simp only [responseDevice, ht, hworld]
  obtain ⟨N, hN⟩ := hrun
  exact ⟨t, ⟨N, hN⟩, (hkept N s rfl).2 _ t (hN N (Nat.le_refl N))⟩

theorem ideBlock_waits (hbusy : ∀ p, s.polls < p → resp.status p &&& ataSrBsy ≠ 0) :
    Idles (responseDevice resp bus other) (fun x => x.op = .inb (bus + ataRegStatus)) .outOfFuel
      (fun k => ideBlock k bus) s := by
  have hround (u : AtaStream σ) (hu : s.polls < u.polls) :
      (inb (bus + ataRegStatus)).run (responseDevice resp bus other) u =
        .ok (resp.status u.polls) { u with polls := u.polls + 1 } := by
    simp only [inb, run_perform, responseDevice, ataRegStatus, ↓reduceIte]
  have hasked : Spec (responseDevice resp bus other) Anything
      (AtaStream.At s.polls s.words s.sent) (fun _ => ideCommand bus)
      (fun _ => AtaStream.At (s.polls + 1) s.words s.sent) := ideCommand_responds
  obtain ⟨_, t, hcommand, ht⟩ := hasked.post ⟨rfl, rfl, rfl⟩
  simp only [ideBlock_eq]
  apply Idles.after hcommand
  have hloop : Idles (responseDevice resp bus other) (fun x => x.op = .inb (bus + ataRegStatus))
      .outOfFuel (loopWhile (inb (bus + ataRegStatus)) (fun status => status &&& ataSrBsy != 0)
        .outOfFuel) t := by
    apply Idles.loopWhile (P := fun u => s.polls < u.polls)
    · intro u hu
      refine ⟨List.cons_ne_nil _ _, ?_, _, _, hround u hu, bne_iff_ne.2 (hbusy _ hu), ?_⟩
      · intro x hx
        obtain rfl := List.mem_singleton.1 hx
        rfl
      · exact Nat.lt_succ_of_lt hu
    · rw [ht.polls]
      exact Nat.lt_succ_self _
  exact (hloop.bind fun _ _ => pure ()).bind _

end BordOS
