import BordOS.Kernel.BootOutcome
import BordOS.Kernel.PmmRange

namespace BordOS
open Library Prog
set_option autoImplicit true
set_option relaxedAutoImplicit false

def Responses.GetsReady (resp : Responses) (polls : Nat) : Prop :=
  ∃ p, polls < p ∧ resp.status p &&& ataSrBsy = 0

theorem cmosDevice_quiet (values : CmosStream) {bus : BitVec 16}
    (hbus : bus = ataPrimaryIo ∨ bus = ataSecondaryIo) (op : PortOp) (c : CmosChip)
    (hop : op.OnAta bus) : (cmosDevice values op c).2 = c := by
  cases hop with
  | read hk =>
    have hport := (onAta_port hbus hk).2.1
    rw [List.mem_cons, List.mem_singleton, not_or] at hport
    simp only [cmosDevice, if_neg hport.2]
  | word => rfl
  | write hk val =>
    have hport := (onAta_port hbus hk).2.1
    rw [List.mem_cons, List.mem_singleton, not_or] at hport
    simp only [cmosDevice, if_neg hport.1]

theorem secondary_quiet (resp : Responses) (values : CmosStream) (op : PortOp)
    (s : AtaStream CmosChip) (hop : op.OnAta ataPrimaryIo) :
    (responseDevice resp ataSecondaryIo (cmosDevice values) op s).2 = s := by
  have hclock := cmosDevice_quiet values (.inl rfl) op s.world hop
  cases hop with
  | read hk =>
    have hport {k : BitVec 16} (hk : AtaRegister k) : ataPrimaryIo + k ≠ ataSecondaryIo + 7 := by
      rcases hk with rfl | rfl | rfl | rfl | rfl <;> decide
    simp only [responseDevice, if_neg (hport hk), hclock]
  | word =>
    have hport : ataPrimaryIo ≠ ataSecondaryIo := by decide
    simp only [responseDevice, if_neg hport, hclock]
  | write hk val => simp only [responseDevice, hclock]

section Channels

variable {b : Beyond} {line : SerialLine} {disks : Disks} {values : CmosStream}
  {img : KernelImage} {k : Klogger} {m : System Platform}

/-- `ide_init` on a channel whose drive gets ready: its report is logged, and beside the channel
only the clock is in another state. -/
theorem ideInit_step {resp : Responses} {bus : BitVec 16} {other : PortDevice σ}
    {lift : AtaStream σ → Platform} {s : AtaStream σ} (hline : line.Empties)
    (hopen : m.ports.1.setup.Open) (hclock : GivesMonths values) (img : KernelImage) (k : Klogger)
    (hbus : bus = ataPrimaryIo ∨ bus = ataSecondaryIo)
    (hlift : ActsOn (platformDevice disks values) (responseDevice resp bus other) lift
      (PortOp.OnAta bus))
    (hquiet : ∀ op q, PortOp.OnAta bus op → (other op q).2 = q)
    (hframe : ∀ s', s'.world = s.world → (lift s').1 = (lift s).1 ∧
      (lift s').clock = (lift s).clock)
    (hm : m.ports.2.2 = lift s) (hready : resp.GetsReady s.polls) :
    ∃ s' c qs t, s'.world = s.world ∧ t.ports.2.2 = (lift s').setClock c ∧
      Converges (systemDevice b line (platformDevice disks values))
        (fun n => onKernel img n k (ideInit n bus)) m () t ∧
      Transcript b img.rodata values k (reportCalls img.rodata (resp.identified s.words)) qs m
        t := by
  obtain ⟨s', hworld, hblock⟩ :=
    ideBlock_machine (b := b) line hbus hlift hquiet hm hready
  obtain ⟨hpics, hsame⟩ := hframe s' hworld
  rw [← hm] at hpics hsame
  obtain ⟨qs, t, hlog⟩ := ideLog_step (b := b)
    (m := { m with ports := (m.ports.1, m.ports.2.1, lift s') }) disks hline hopen hclock img k
    (resp.identified s.words)
  obtain ⟨c, hc⟩ := hlog.platform
  refine ⟨s', c, qs, t, hworld, hc, ?_, ?_⟩
  · simp only [onKernel_ideInit]
    exact hblock.bind hlog.run
  · exact (Transcript.silent (lift s') hpics hsame).append hlog.transcript

theorem primary_step (hline : line.Empties) (hopen : m.ports.1.setup.Open)
    (hclock : GivesMonths values) (img : KernelImage) (k : Klogger)
    (hready : disks.primary.GetsReady m.ports.2.2.2.polls) :
    ∃ qs t, t.ports.2.2.2.world.polls = m.ports.2.2.2.world.polls ∧
      t.ports.2.2.2.world.words = m.ports.2.2.2.world.words ∧
      Converges (systemDevice b line (platformDevice disks values))
        (fun n => onKernel img n k (ideInit n ataPrimaryIo)) m () t ∧
      Transcript b img.rodata values k
        (reportCalls img.rodata (disks.primary.identified m.ports.2.2.2.words)) qs m t := by
  have hframe (s' : AtaStream (AtaStream CmosChip)) (h : s'.world = m.ports.2.2.2.world) :
      Platform.clock (m.ports.2.2.1, s') = Platform.clock (m.ports.2.2.1, m.ports.2.2.2) :=
    congrArg AtaStream.world h
  obtain ⟨s', c, qs, t, hworld, hports, hrun, hshown⟩ :=
    ideInit_step hline hopen hclock img k (.inl rfl) (platform_primary m.ports.2.2.1)
      (secondary_quiet disks.secondary values) (fun s' h => ⟨rfl, hframe s' h⟩) rfl hready
  refine ⟨qs, t, ?_, ?_, hrun, hshown⟩
  · rw [hports, ← hworld]
    rfl
  · rw [hports, ← hworld]
    rfl

theorem secondary_step (hline : line.Empties) (hopen : m.ports.1.setup.Open)
    (hclock : GivesMonths values) (img : KernelImage) (k : Klogger)
    (hready : disks.secondary.GetsReady m.ports.2.2.2.world.polls) :
    ∃ qs t, Converges (systemDevice b line (platformDevice disks values))
        (fun n => onKernel img n k (ideInit n ataSecondaryIo)) m () t ∧
      Transcript b img.rodata values k
        (reportCalls img.rodata (disks.secondary.identified m.ports.2.2.2.world.words)) qs m t := by
  obtain ⟨s', c, qs, t, -, -, hrun, hshown⟩ :=
    ideInit_step hline hopen hclock img k (.inr rfl) (platform_secondary m.ports.2.2)
      (cmosDevice_quiet values (.inr rfl)) (fun s' h => ⟨rfl, h⟩) rfl hready
  exact ⟨qs, t, hrun, hshown⟩

theorem ideInit_waits {resp : Responses} {bus : BitVec 16} {other : PortDevice σ}
    {lift : AtaStream σ → Platform} {s : AtaStream σ} (img : KernelImage) (k : Klogger)
    (hbus : bus = ataPrimaryIo ∨ bus = ataSecondaryIo)
    (hlift : ActsOn (platformDevice disks values) (responseDevice resp bus other) lift
      (PortOp.OnAta bus))
    (hm : m.ports.2.2 = lift s) (hbusy : ¬ resp.GetsReady s.polls) :
    Idles (systemDevice b line (platformDevice disks values)) (PollsIn bus m) .outOfFuel
      (fun n => onKernel img n k (ideInit n bus)) m := by
  have hnever (p : Nat) (hp : s.polls < p) : resp.status p &&& ataSrBsy ≠ 0 :=
    fun h => hbusy ⟨p, hp, h⟩
  simp only [onKernel_ideInit]
  exact (ideBlock_machine_waits hbus hlift hm hnever).bind _

def welcomeCalls : List KloggerCall :=
  [.log .info (.lit "System booted\n\r") [], .setOutput (logGraphic ||| logSerial),
    .log .info (.lit "Welcome to BordOS !\n\r") []]

theorem welcome_step (disks : Disks) (hline : line.Empties) (hopen : m.ports.1.setup.Open)
    (hclock : GivesMonths values) (img : KernelImage) (k : Klogger) :
    ∃ qs t, Transcript b img.rodata values k welcomeCalls qs m t ∧
      Idles (systemDevice b line (platformDevice disks values)) (HaltsIn t) .outOfFuel
        (fun n => welcome img n k) m := by
  obtain ⟨qs, t, hbooted⟩ := kernelLog_step (b := b) (m := m) disks hline hopen hclock
    img k .info (plain_accepted b.arg (.lit "System booted\n\r") (by decide))
  have hopen' : t.ports.1.setup.Open := hbooted.transcript.shown.setup ▸ hopen
  obtain ⟨qs', u, hwelcome⟩ := kernelLog_step (b := b) (m := t) disks hline hopen' hclock
    img (kernelLoggerSetOutput (logGraphic ||| logSerial) k) .info
    (plain_accepted b.arg (.lit "Welcome to BordOS !\n\r") (by decide))
  have hset : Transcript b img.rodata values k [.setOutput (logGraphic ||| logSerial)] [] t t :=
    .setOutput _ t
  refine ⟨qs ++ ([] ++ qs'), u, hbooted.transcript.append (hset.append hwelcome.transcript), ?_⟩
  apply Idles.after hbooted.run
  exact Idles.after hwelcome.run (haltForever_idles u)

end Channels

/-- From the initialized machine to `t`, `kmain` has logged what comes before the disks, and then
`calls`. -/
def BootShown (b : Beyond) (values : CmosStream) (img : KernelImage) (level : LogLevel)
    (s : KernelState) (calls : List KloggerCall) (m t : System Platform) : Prop :=
  ∃ qs, Transcript b img.rodata values ⟨logSerial, level⟩
    (earlyCalls s.processor ++ memoryCalls ++ calls) qs m.initialized t

def primaryCalls (img : KernelImage) (disks : Disks) (m : System Platform) : List KloggerCall :=
  reportCalls img.rodata (disks.primary.identified m.ports.2.2.2.words)

def secondaryCalls (img : KernelImage) (disks : Disks) (m : System Platform) : List KloggerCall :=
  reportCalls img.rodata (disks.secondary.identified m.ports.2.2.2.world.words)

section Outcome

variable {b : Beyond} {line : SerialLine} {disks : Disks} {values : CmosStream}
  {img : KernelImage} {level : LogLevel} {s : KernelState} {m t : System Platform}

theorem BootShown.append {calls calls' : List KloggerCall} {qs : List Nat} {u : System Platform}
    (h : BootShown b values img level s calls m t) (hcalls : ∀ c ∈ calls, c.IsLog)
    (h' : Transcript b img.rodata values ⟨logSerial, level⟩ calls' qs t u) :
    BootShown b values img level s (calls ++ calls') m u := by
  obtain ⟨qs₀, hfirst⟩ := h
  have hlogs : ∀ c ∈ earlyCalls s.processor ++ memoryCalls ++ calls, c.IsLog := by
    intro c hc
    rcases List.mem_append.1 hc with hc | hc
    · rcases List.mem_append.1 hc with hc | hc
      · exact earlyCalls_log _ c hc
      · exact memoryCalls_log c hc
    · exact hcalls c hc
  refine ⟨qs₀ ++ qs, ?_⟩
  rw [← List.append_assoc]
  apply hfirst.append
  rw [kloggerAfter_logs hlogs]
  exact h'

theorem BootShown.open {calls : List KloggerCall} (h : BootShown b values img level s calls m t) :
    t.ports.1.setup.Open := by
  obtain ⟨qs, hshown⟩ := h
  rw [hshown.shown.setup]
  exact serialSetup_open _

theorem initBeforeDisks_shown (disks : Disks) (hline : line.Empties) (hclock : GivesMonths values)
    (hend : KernelEndOk img.kernelEnd) (level : LogLevel) (s : KernelState) (m : System Platform) :
    ∃ s' t, KernelState.Initialized img s s' ∧
      Converges (systemDevice b line (platformDevice disks values))
        (fun n => initBeforeDisks img n ⟨logSerial, level⟩ s) m s' t ∧
      BootShown b values img level s [] m t ∧
      t.ports.2.2.2.polls = m.ports.2.2.2.polls ∧ t.ports.2.2.2.words = m.ports.2.2.2.words ∧
      t.ports.2.2.2.world.polls = m.ports.2.2.2.world.polls ∧
      t.ports.2.2.2.world.words = m.ports.2.2.2.world.words := by
  obtain ⟨s', qs, t, hinit, hrun, hshown, c, hc⟩ :=
    initBeforeDisks_step (b := b) disks hline hclock img hend level s m
  have hdisks : t.ports.2.2.2 =
      { m.ports.2.2.2 with world := { m.ports.2.2.2.world with world := c } } := by
    rw [hc]
    rfl
  rw [← List.append_nil (_ ++ memoryCalls)] at hshown
  refine ⟨s', t, hinit, hrun, ⟨qs, hshown⟩, ?_, ?_, ?_, ?_⟩ <;> rw [hdisks]

/-- A first drive that never gets ready is polled for ever. -/
theorem initSystem_primary_waits (disks : Disks) (hline : line.Empties) (hclock : GivesMonths values)
    (hend : KernelEndOk img.kernelEnd) (level : LogLevel) (s : KernelState) (m : System Platform)
    (hbusy : ¬ disks.primary.GetsReady m.ports.2.2.2.polls) :
    ∃ t, BootShown b values img level s [] m t ∧
      Idles (systemDevice b line (platformDevice disks values)) (PollsIn ataPrimaryIo t)
        .outOfFuel (fun n => initSystem img n ⟨logSerial, level⟩ s) m := by
  obtain ⟨s', t, -, hrun, hshown, hpolls, -⟩ :=
    initBeforeDisks_shown (b := b) disks hline hclock hend level s m
  rw [← hpolls] at hbusy
  simp only [initSystem_eq]
  refine ⟨t, hshown, Idles.after hrun ?_⟩
  exact (ideInit_waits img _ (.inl rfl) (platform_primary t.ports.2.2.1) rfl hbusy).bind _

theorem initSystem_primary (disks : Disks) (hline : line.Empties) (hclock : GivesMonths values)
    (hend : KernelEndOk img.kernelEnd) (level : LogLevel) (s : KernelState) (m : System Platform)
    (hready : disks.primary.GetsReady m.ports.2.2.2.polls) :
    ∃ s' t u, KernelState.Initialized img s s' ∧
      Converges (systemDevice b line (platformDevice disks values))
        (fun n => initBeforeDisks img n ⟨logSerial, level⟩ s) m s' t ∧
      Converges (systemDevice b line (platformDevice disks values))
        (fun n => onKernel img n ⟨logSerial, level⟩ (ideInit n ataPrimaryIo)) t () u ∧
      BootShown b values img level s (primaryCalls img disks m) m u ∧
      u.ports.2.2.2.world.polls = m.ports.2.2.2.world.polls ∧
      u.ports.2.2.2.world.words = m.ports.2.2.2.world.words := by
  obtain ⟨s', t, hinit, hrun, hshown, hpolls, hwords, hpolls', hwords'⟩ :=
    initBeforeDisks_shown (b := b) disks hline hclock hend level s m
  rw [← hpolls] at hready
  obtain ⟨qs, u, hpolls₁, hwords₁, hprimary, hreport⟩ :=
    primary_step (b := b) hline hshown.open hclock img ⟨logSerial, level⟩ hready
  rw [hwords] at hreport
  exact ⟨s', t, u, hinit, hrun, hprimary, hshown.append nofun hreport, hpolls₁.trans hpolls',
    hwords₁.trans hwords'⟩

theorem initSystem_secondary_waits (disks : Disks) (hline : line.Empties)
    (hclock : GivesMonths values) (hend : KernelEndOk img.kernelEnd) (level : LogLevel)
    (s : KernelState) (m : System Platform)
    (hready : disks.primary.GetsReady m.ports.2.2.2.polls)
    (hbusy : ¬ disks.secondary.GetsReady m.ports.2.2.2.world.polls) :
    ∃ t, BootShown b values img level s (primaryCalls img disks m) m t ∧
      Idles (systemDevice b line (platformDevice disks values)) (PollsIn ataSecondaryIo t)
        .outOfFuel (fun n => initSystem img n ⟨logSerial, level⟩ s) m := by
  obtain ⟨s', t, u, -, hrun, hprimary, hshown, hpolls, -⟩ :=
    initSystem_primary (b := b) disks hline hclock hend level s m hready
  rw [← hpolls] at hbusy
  simp only [initSystem_eq]
  refine ⟨u, hshown, Idles.after hrun (Idles.after hprimary ?_)⟩
  exact (ideInit_waits img _ (.inr rfl) (platform_secondary u.ports.2.2) rfl hbusy).bind _

theorem initSystem_ready (disks : Disks) (hline : line.Empties) (hclock : GivesMonths values)
    (hend : KernelEndOk img.kernelEnd) (level : LogLevel) (s : KernelState) (m : System Platform)
    (hready : disks.primary.GetsReady m.ports.2.2.2.polls)
    (hready' : disks.secondary.GetsReady m.ports.2.2.2.world.polls) :
    ∃ s' u, KernelState.Initialized img s s' ∧
      Converges (systemDevice b line (platformDevice disks values))
        (fun n => initSystem img n ⟨logSerial, level⟩ s) m s' u ∧
      BootShown b values img level s (primaryCalls img disks m ++ secondaryCalls img disks m)
        m u := by
  obtain ⟨s', t, u, hinit, hrun, hprimary, hshown, hpolls, hwords⟩ :=
    initSystem_primary (b := b) disks hline hclock hend level s m hready
  rw [← hpolls] at hready'
  obtain ⟨qs, v, hsecondary, hreport⟩ :=
    secondary_step (b := b) hline hshown.open hclock img ⟨logSerial, level⟩ hready'
  rw [hwords] at hreport
  refine ⟨s', v, hinit, ?_, hshown.append (reportCalls_log _ _) hreport⟩
  simp only [initSystem_eq]
  exact hrun.bind (hprimary.bind (hsecondary.bind (.const rfl)))

theorem BootShown.machine {calls : List KloggerCall} (h : BootShown b values img level s calls m t) :
    t.interruptFlag = true ∧ t.ports.2.2.1 = m.ports.2.2.1.remapped := by
  obtain ⟨qs, hshown⟩ := h
  constructor
  · rw [hshown.interruptFlag]
    rfl
  · rw [hshown.pics]
    rfl

end Outcome

/-- With the magic number of the boot loader, what comes before the disks is logged, then each drive
is reported in turn, and the kernel halts for ever with interrupts on. A drive that never gets ready
is polled for ever, and nothing after it happens. With any other number nothing is done. -/
theorem kmain_outcome (b : Beyond) (line : SerialLine) (hline : line.Empties) (disks : Disks)
    (values : CmosStream) (hclock : GivesMonths values) (img : KernelImage)
    (hend : KernelEndOk img.kernelEnd) (level : LogLevel) (eax : BitVec 32) (s : KernelState)
    (m : System Platform) :
    (eax ≠ multiboot2BootloaderMagic →
      Converges (systemDevice b line (platformDevice disks values))
        (fun n => kmain img n ⟨logSerial, level⟩ eax s) m () m) ∧
    (eax = multiboot2BootloaderMagic →
      (¬ disks.primary.GetsReady m.ports.2.2.2.polls →
        ∃ t, BootShown b values img level s [] m t ∧
          Idles (systemDevice b line (platformDevice disks values)) (PollsIn ataPrimaryIo t)
            .outOfFuel (fun n => kmain img n ⟨logSerial, level⟩ eax s) m) ∧
      (disks.primary.GetsReady m.ports.2.2.2.polls →
        ¬ disks.secondary.GetsReady m.ports.2.2.2.world.polls →
        ∃ t, BootShown b values img level s (primaryCalls img disks m) m t ∧
          Idles (systemDevice b line (platformDevice disks values)) (PollsIn ataSecondaryIo t)
            .outOfFuel (fun n => kmain img n ⟨logSerial, level⟩ eax s) m) ∧
      (disks.primary.GetsReady m.ports.2.2.2.polls →
        disks.secondary.GetsReady m.ports.2.2.2.world.polls →
        ∃ s' u t, KernelState.Initialized img s s' ∧
          Converges (systemDevice b line (platformDevice disks values))
            (fun n => initSystem img n ⟨logSerial, level⟩ s) m s' u ∧
          BootShown b values img level s (primaryCalls img disks m ++ secondaryCalls img disks m)
            m u ∧
          BootShown b values img level s
            (primaryCalls img disks m ++ secondaryCalls img disks m ++ welcomeCalls) m t ∧
          t.interruptFlag = true ∧ t.ports.2.2.1 = m.ports.2.2.1.remapped ∧
          Idles (systemDevice b line (platformDevice disks values)) (HaltsIn t) .outOfFuel
            (fun n => kmain img n ⟨logSerial, level⟩ eax s) m)) := by
  constructor
  · intro heax
    simp only [kmain, if_pos heax]
    exact .const rfl
  · rintro rfl
    simp only [kmain_eq]
    refine ⟨?_, ?_, ?_⟩
    · intro hbusy
      obtain ⟨t, hshown, hpolls⟩ :=
        initSystem_primary_waits (b := b) disks hline hclock hend level s m hbusy
      exact ⟨t, hshown, hpolls.bind _⟩
    · intro hready hbusy
      obtain ⟨t, hshown, hpolls⟩ :=
        initSystem_secondary_waits (b := b) disks hline hclock hend level s m hready hbusy
      exact ⟨t, hshown, hpolls.bind _⟩
    · intro hready hready'
      obtain ⟨s', u, hinit, hrun, hshown⟩ :=
        initSystem_ready (b := b) disks hline hclock hend level s m hready hready'
      obtain ⟨qs, t, hwelcome, hhalt⟩ := welcome_step (b := b) disks hline hshown.open
        hclock img ⟨logSerial, level⟩
      have hlogs : ∀ c ∈ primaryCalls img disks m ++ secondaryCalls img disks m, c.IsLog := by
        intro c hc
        rcases List.mem_append.1 hc with hc | hc
        · exact reportCalls_log _ _ c hc
        · exact reportCalls_log _ _ c hc
      have hall := hshown.append hlogs hwelcome
      obtain ⟨hflag, hpics⟩ := hall.machine
      exact ⟨s', u, t, hinit, hrun, hshown, hall, hflag, hpics, Idles.after hrun hhalt⟩

def emptyState : KernelState := ⟨⟨fun _ => ⟨0, 0, 0, 0⟩, 0, 0⟩, Interrupts.start, emptyPmm⟩

theorem kmain_outcome_two_drives :
    ∃ t, BootShown zerosBeyond (monthClock 0x12) smallImage .debug emptyState
        (primaryCalls smallImage twoDrives resetSystem ++
          secondaryCalls smallImage twoDrives resetSystem ++ welcomeCalls) resetSystem t ∧
      t.interruptFlag = true ∧
      Idles (systemDevice zerosBeyond echoLine (platformDevice twoDrives (monthClock 0x12)))
        (HaltsIn t) .outOfFuel
        (fun n => kmain smallImage n ⟨logSerial, .debug⟩ multiboot2BootloaderMagic emptyState)
        resetSystem := by
  obtain ⟨-, hboot⟩ := kmain_outcome zerosBeyond echoLine echoLine_ready.1 twoDrives
    (monthClock 0x12) (monthClock_months (.inr (by decide))) smallImage ⟨by decide, by decide⟩
    .debug multiboot2BootloaderMagic emptyState resetSystem
  obtain ⟨-, -, hready⟩ := hboot rfl
  obtain ⟨s', u, t, -, -, -, hshown, hflag, -, hhalt⟩ :=
    hready ⟨1, by decide, by decide⟩ ⟨1, by decide, by decide⟩
  exact ⟨t, hshown, hflag, hhalt⟩

end BordOS
