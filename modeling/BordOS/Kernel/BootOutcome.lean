import BordOS.Kernel.Boot
import BordOS.Kernel.PmmRefinement

namespace BordOS
open Library Prog
set_option autoImplicit true
set_option relaxedAutoImplicit false

def initBeforeDisks (img : KernelImage) (fuel : Nat) (k : Klogger) (s : KernelState) :
    SystemM KernelState := do
  onMachine (serialInit serialCom1)
  let interrupts ← initIdtCode img s.interrupts
  let processor ← initSse img fuel k s.processor
  vgaInit img fuel k
  let pmm ← pmmInitCode img fuel k s.pmm
  kernelLog img fuel k .info (.lit "Initializing ATA driver\r\n") []
  let ((), interrupts) ← kernelCode img fuel k (irqSetRoutine 14 (some .ataPrimaryIrq)) interrupts
  let ((), interrupts) ← kernelCode img fuel k (irqSetRoutine 15 (some .ataSecondaryIrq)) interrupts
  return { processor, interrupts, pmm }

def welcome (img : KernelImage) (fuel : Nat) (k : Klogger) : SystemM Unit := do
  kernelLog img fuel k .info (.lit "System booted\n\r") []
  let k := kernelLoggerSetOutput (logGraphic ||| logSerial) k
  kernelLog img fuel k .info (.lit "Welcome to BordOS !\n\r") []
  haltForever fuel

theorem initSystem_eq (img : KernelImage) (fuel : Nat) (k : Klogger) (s : KernelState) :
    initSystem img fuel k s = (do
      let s ← initBeforeDisks img fuel k s
      onKernel img fuel k (ideInit fuel ataPrimaryIo)
      onKernel img fuel k (ideInit fuel ataSecondaryIo)
      return s) := by
  simp only [initSystem, initBeforeDisks, ataInit, bind_assoc, pure_bind]

theorem kmain_eq (img : KernelImage) (fuel : Nat) (k : Klogger) (s : KernelState) :
    kmain img fuel k multiboot2BootloaderMagic s =
      initSystem img fuel k s >>= fun _ => welcome img fuel k := by
  simp only [kmain, ne_eq, not_true_eq_false, ↓reduceIte, welcome]

def reportCalls (r : Rodata) (device : Buffer) : List KloggerCall :=
  if identifyFlags device ≠ 0 then
    [.log .info (.lit identifyFormat) ((identifyArgs device).map (LogArg.vaArg r))] else []

theorem onKernel_ideLog (img : KernelImage) (fuel : Nat) (k : Klogger) (device : Buffer) :
    onKernel img fuel k (ideLog device) =
      if identifyFlags device ≠ 0 then
        kernelLog img fuel k .info (.lit identifyFormat)
          ((identifyArgs device).map (LogArg.vaArg img.rodata))
      else pure () := by
  rw [ideLog]
  split_ifs
  · exact onKernel_klog img fuel k _ _ _
  · rfl

theorem onKernel_ideInit (img : KernelImage) (fuel : Nat) (k : Klogger) (bus : BitVec 16) :
    onKernel img fuel k (ideInit fuel bus) =
      onMachine (ideBlock fuel bus) >>= fun device => onKernel img fuel k (ideLog device) := by
  rw [ideInit_block, onKernel_bind, onKernel_notLog]
  apply (ideBlock_onAta fuel).mono
  rintro _ (- | - | -) <;> exact nofun

theorem identifyFormat_accepted (beyond : VaArg) (r : Rodata) (device : Buffer) :
    FormatAccepted beyond (.lit identifyFormat) ((identifyArgs device).map (LogArg.vaArg r)) := by
  have hnull (s : CString) : ¬ (r.arg s).word = 0#32 := r.ne_null s
  have hread : printfSyntax.read (CString.lit identifyFormat).chars =
      ((CString.lit "ATA:\n\rFlags: ").chars.map .literal ++
        (.directive .x :: ((CString.lit "\n\rSerial: ").chars.map .literal ++
          (.directive .s :: ((CString.lit "\n\rFirmware: ").chars.map .literal ++
            (.directive .s :: ((CString.lit "\n\rModel: ").chars.map .literal ++
              (.directive .s :: (CString.lit "\n\r").chars.map .literal))))))), .done) := by
    decide
  have hlast (cs : List (BitVec 8)) (ap : VaList) :
      StringsGiven beyond (cs.map .literal) ap ↔ True := by
    rw [← List.append_nil (cs.map _), stringsGiven_literals]
    exact Iff.rfl
  rw [FormatAccepted, hread]
  simp [stringsGiven_literals, StringsGiven, identifyArgs, LogArg.vaArg, hlast, hnull]

theorem reportCalls_log (r : Rodata) (device : Buffer) : ∀ c ∈ reportCalls r device, c.IsLog := by
  intro c hc
  rw [reportCalls] at hc
  split_ifs at hc
  · obtain rfl := List.mem_singleton.1 hc
    exact trivial
  · exact absurd hc List.not_mem_nil

section Steps

variable {b : Beyond} {line : SerialLine} {disks : Disks} {values : CmosStream}
  {img : KernelImage} {k : Klogger} {m t : System Platform}

theorem ideLog_step (disks : Disks) (hline : line.Empties) (hopen : m.ports.1.setup.Open)
    (hclock : GivesMonths values) (img : KernelImage) (k : Klogger) (device : Buffer) :
    ∃ qs t, LogStep b line disks values img k (fun n => onKernel img n k (ideLog device))
      (reportCalls img.rodata device) qs m () t := by
  simp only [onKernel_ideLog, reportCalls]
  split_ifs
  · exact kernelLog_step disks hline hopen hclock img k .info
      (identifyFormat_accepted b.arg img.rodata device)
  · exact ⟨[], m, .pure () m⟩

/-- The processor reads the status of a channel, with the serial port and the screen as in `t`. -/
def PollsIn (bus : BitVec 16) (t : System Platform) (e : SystemEvent (System Platform)) : Prop :=
  e.op = .screen (.console (.port (.inb (bus + ataRegStatus)))) ∧
    e.before.ports.1 = t.ports.1 ∧ e.before.vga = t.vga

section Channel

variable {resp : Responses} {bus : BitVec 16} {other : PortDevice σ} {lift : AtaStream σ → Platform}
  {s : AtaStream σ}

theorem ideBlock_machine (line : SerialLine) (hbus : bus = ataPrimaryIo ∨ bus = ataSecondaryIo)
    (hlift : ActsOn (platformDevice disks values) (responseDevice resp bus other) lift
      (PortOp.OnAta bus))
    (hquiet : ∀ op q, PortOp.OnAta bus op → (other op q).2 = q) (hm : m.ports.2.2 = lift s)
    (hready : ∃ p, s.polls < p ∧ resp.status p &&& ataSrBsy = 0) :
    ∃ s', s'.world = s.world ∧
      Converges (systemDevice b line (platformDevice disks values))
        (fun n => onMachine (ideBlock n bus)) m (resp.identified s.words)
        { m with ports := (m.ports.1, m.ports.2.1, lift s') } := by
  obtain ⟨s', hrun, hworld⟩ := ideBlock_converges hquiet hready
  have hpart := machine_actsOn line (fun _ h => h.elsewhere hbus) hlift m.ports.1
    m.ports.2.1
  have hports : m.ports = (m.ports.1, m.ports.2.1, lift s) := by rw [← hm]
  refine ⟨s', hworld, onMachine_converges ?_⟩
  rw [hports]
  exact hpart.converges ideBlock_onAta hrun

theorem ideBlock_machine_waits (hbus : bus = ataPrimaryIo ∨ bus = ataSecondaryIo)
    (hlift : ActsOn (platformDevice disks values) (responseDevice resp bus other) lift
      (PortOp.OnAta bus))
    (hm : m.ports.2.2 = lift s)
    (hbusy : ∀ p, s.polls < p → resp.status p &&& ataSrBsy ≠ 0) :
    Idles (systemDevice b line (platformDevice disks values)) (PollsIn bus m) .outOfFuel
      (fun n => onMachine (ideBlock n bus)) m := by
  have hpart := machine_actsOn line (fun _ h => h.elsewhere hbus) hlift m.ports.1
    m.ports.2.1
  have hports : m.ports = (m.ports.1, m.ports.2.1, lift s) := by rw [← hm]
  have hwaits : Idles (serialDevice serialCom1 line (withFlag (platformDevice disks values)))
      (fun x => x.op = .inb (bus + ataRegStatus) ∧ x.before.1 = m.ports.1) .outOfFuel
      (fun n => ideBlock n bus) (m.ports.1, m.ports.2.1, lift s) :=
    hpart.idles ideBlock_onAta (fun x hx => ⟨hx, rfl⟩) (ideBlock_waits hbusy)
  rw [← hports] at hwaits
  apply onMachine_idles ?_ hwaits
  rintro x ⟨hop, hserial⟩
  exact ⟨congrArg (fun op => SystemOp.screen (.console (.port op))) hop, hserial, rfl⟩

end Channel

theorem vgaInit_step (disks : Disks) (hline : line.Empties) (hopen : m.ports.1.setup.Open)
    (hclock : GivesMonths values) (img : KernelImage) (k : Klogger) :
    ∃ qs t, LogStep b line disks values img k
        (fun n => kernelLog img n k .info (.lit "Initializing VGA screen\n\r") [])
        [.log .info (.lit "Initializing VGA screen\n\r") []] qs m () t ∧
      Converges (systemDevice b line (platformDevice disks values)) (fun n => vgaInit img n k) m ()
        (t.setVga (vgaSetcolor .lightGrey .black (vgaClear t.vga))) := by
  obtain ⟨qs, t, hlog⟩ := kernelLog_step (b := b) (m := m) disks hline hopen hclock img k .info
    (plain_accepted b.arg (.lit "Initializing VGA screen\n\r") (by decide))
  refine ⟨qs, t, hlog, hlog.run.bind ?_⟩
  apply (onSystem_converges (.const (vgaClearCode_run t))).bind
  exact onSystem_converges (.const (vgaSetcolorCode_run _ _ _))

theorem kernelCode_ok {fuel : Nat} {x : KernelM σ α} {s s' : σ} {a : α}
    (h : x.run s = .ok a s') : kernelCode img fuel k x s = pure (a, s') := by
  simp only [kernelCode, h]

theorem pmmInitCode_step (disks : Disks) (hline : line.Empties)
    (hopen : m.ports.1.setup.Open) (hclock : GivesMonths values) (img : KernelImage)
    (hend : KernelEndOk img.kernelEnd) (k : Klogger) (s : Pmm) :
    ∃ s' qs t, s'.used = framesOf (reserved img.kernelEnd) ∧
      LogStep b line disks values img k (fun n => pmmInitCode img n k s)
        [.log .info (.lit "PMM initialized\r\n") []] qs m s' t := by
  obtain ⟨qs, t, hlog⟩ := kernelLog_step (b := b) (m := m) disks hline hopen hclock img k .info
    (plain_accepted b.arg (.lit "PMM initialized\r\n") (by decide))
  obtain ⟨bits, hrun, hbits⟩ := pmmInit_run hend (Nat.le_refl nbFrames) s
  have hsame {n : Nat} (hn : nbFrames ≤ n) : (pmmInit n img.kernelEnd).run s =
      .ok () { pmmBitmap := bits, pmmNextFrame := (reservedEnd img.kernelEnd).toNat } := by
    obtain ⟨bits', hrun', hbits'⟩ := pmmInit_run hend hn s
    have heq : bits' = bits := bitAt_ext fun i => (hbits' i).trans (hbits i).symm
    rw [hrun', heq]
  have hinit : Converges (systemDevice b line (platformDevice disks values))
      (fun n => kernelCode img n k (pmmInit n img.kernelEnd) s) m
      ((), { pmmBitmap := bits, pmmNextFrame := (reservedEnd img.kernelEnd).toNat }) m := by
    refine ⟨nbFrames, ?_⟩
    intro n hn
    simp only [kernelCode_ok (hsame hn), run_pure]
  have hlast := hlog.andReturn rfl
    ({ pmmBitmap := bits, pmmNextFrame := (reservedEnd img.kernelEnd).toNat } : Pmm)
  exact ⟨_, qs, t, pmmInit_used hbits, { hlast with run := hinit.bind hlast.run }⟩

theorem irqSetRoutine_step (fuel : Nat) (img : KernelImage) (k : Klogger) (n : Fin 16)
    (h : Option ρ) (s : Interrupts ρ) :
    kernelCode img fuel k (irqSetRoutine (BitVec.ofNat 32 n) h) s =
      pure ((), { s with irqRoutines := Function.update s.irqRoutines n h }) := by
  apply kernelCode_ok
  have hn : (BitVec.ofNat 32 n).toNat = n := by
    rw [BitVec.toNat_ofNat]
    omega
  have hlt : (BitVec.ofNat 32 n).toNat < 16 := by omega
  have hfin : (⟨(BitVec.ofNat 32 n).toNat, hlt⟩ : Fin 16) = n := Fin.ext hn
  rw [irqSetRoutine, dif_pos hlt, hfin]
  rfl

def Interrupts.withRoutine (n : Fin 16) (r : ρ) (s : Interrupts ρ) : Interrupts ρ :=
  { s with irqRoutines := Function.update s.irqRoutines n (some r) }

theorem Interrupts.withRoutine_gate (n : Fin 16) (r : ρ) (s : Interrupts ρ) (v : BitVec 8) :
    (s.withRoutine n r).gate v = s.gate v := rfl

theorem logRecords_output {k : Klogger} {calls : List KloggerCall} (h : ∀ c ∈ calls, c.IsLog) :
    ∀ rec ∈ logRecords k calls, rec.output = k.output := by
  induction calls with
  | nil => exact fun rec hrec => absurd hrec List.not_mem_nil
  | cons c calls ih =>
    intro rec hrec
    cases c with
    | setLevel level => exact absurd (h _ (.head _)) not_false
    | setOutput output => exact absurd (h _ (.head _)) not_false
    | log lvl fmt args =>
      rcases List.mem_append.1 hrec with hrec | hrec
      · rw [KloggerCall.record?] at hrec
        split_ifs at hrec
        · obtain rfl := List.mem_singleton.1 hrec
          rfl
        · exact absurd hrec List.not_mem_nil
      · exact ih (fun c hc => h c (.tail _ hc)) rec hrec

theorem onVga_none {recs : List LogRecord} (h : ∀ rec ∈ recs, rec.output &&& logGraphic = 0)
    (r : Rodata) (date : Nat → CmosRtc) (qs : List Nat) :
    (List.zipWith (fun rec q => rec.onVga b r (date q)) recs qs).flatten = [] := by
  induction recs generalizing qs with
  | nil => rfl
  | cons rec recs ih =>
    cases qs with
    | nil => rfl
    | cons q qs =>
      have hnone : rec.onVga b r (date q) = [] := if_neg (not_not.2 (h rec (.head _)))
      rw [List.zipWith_cons_cons, List.flatten_cons, hnone, List.nil_append]
      exact ih (fun rec hrec => h rec (.tail _ hrec)) qs

/-- Messages that go to the serial port alone do not depend on the screen, and leave it alone. -/
theorem Transcript.onSerial {r : Rodata} {level : LogLevel} {calls : List KloggerCall}
    {qs : List Nat} (h : Transcript b r values ⟨logSerial, level⟩ calls qs m t)
    (hcalls : ∀ c ∈ calls, c.IsLog) (vga : VgaMachine) :
    t.vga = m.vga ∧
      Transcript b r values ⟨logSerial, level⟩ calls qs (m.setVga vga) (t.setVga vga) := by
  have houtput : ∀ rec ∈ logRecords ⟨logSerial, level⟩ calls, rec.output &&& logGraphic = 0 := by
    intro rec hrec
    have hserial : logSerial &&& logGraphic = 0 := by decide
    rw [logRecords_output hcalls rec hrec, hserial]
  have hnone := onVga_none (b := b) houtput r (rtcResult values) qs
  have hvga : t.vga = m.vga := by
    rw [h.shown.screen, hnone]
    rfl
  refine ⟨hvga, ⟨h.shown.length, h.shown.setup, h.shown.sent, ?_⟩, h.interruptFlag, h.pics,
    h.clock, h.times, h.sorted⟩
  rw [hnone]
  rfl

def System.initialized (m : System Platform) : System Platform :=
  m.withSerial.withIdt.setVga (vgaSetcolor .lightGrey .black (vgaClear m.vga))

def earlyCalls (p : Processor) : List KloggerCall :=
  sseCalls p.finds ++ [.log .info (.lit "Initializing VGA screen\n\r") []]

def memoryCalls : List KloggerCall :=
  [.log .info (.lit "PMM initialized\r\n") [], .log .info (.lit "Initializing ATA driver\r\n") []]

theorem earlyCalls_log (p : Processor) : ∀ c ∈ earlyCalls p, c.IsLog := by
  intro c hc
  rcases List.mem_append.1 hc with hc | hc
  · exact sseCalls_log p.finds c hc
  · obtain rfl := List.mem_singleton.1 hc
    exact trivial

theorem memoryCalls_log : ∀ c ∈ memoryCalls, c.IsLog := by
  intro c hc
  rcases List.mem_pair.1 hc with rfl | rfl
  · exact trivial
  · exact trivial

/-- What `init_system` leaves in the static data of the kernel. -/
structure KernelState.Initialized (img : KernelImage) (s s' : KernelState) : Prop where
  processor : s'.processor = s.processor.afterSse
  isrGates : ∀ v : Fin 32, s'.interrupts.gate (BitVec.ofNat 8 v) =
    some { offset := img.symbols.isr v, selector := 0x08 }
  irqGates : ∀ n : Fin 16, s'.interrupts.gate (BitVec.ofNat 8 (32 + n)) =
    some { offset := img.symbols.irq n, selector := 0x08 }
  irqRoutines : s'.interrupts.irqRoutines = Function.update
    (Function.update s.interrupts.irqRoutines 14 (some .ataPrimaryIrq)) 15 (some .ataSecondaryIrq)
  pmm : s'.pmm.used = framesOf (reserved img.kernelEnd)

theorem initBeforeDisks_step (disks : Disks) (hline : line.Empties) (hclock : GivesMonths values)
    (img : KernelImage) (hend : KernelEndOk img.kernelEnd) (level : LogLevel) (s : KernelState)
    (m : System Platform) :
    ∃ s' qs t, KernelState.Initialized img s s' ∧
      Converges (systemDevice b line (platformDevice disks values))
        (fun n => initBeforeDisks img n ⟨logSerial, level⟩ s) m s' t ∧
      Transcript b img.rodata values ⟨logSerial, level⟩ (earlyCalls s.processor ++ memoryCalls) qs
        m.initialized t ∧
      ∃ c, t.ports.2.2 = m.initialized.ports.2.2.setClock c := by
  have hopen : m.withSerial.withIdt.ports.1.setup.Open := serialSetup_open _
  obtain ⟨qs₁, t₁, hsse⟩ := initSse_step (b := b) disks hline hopen hclock img
    ⟨logSerial, level⟩ s.processor
  have hopen₁ : t₁.ports.1.setup.Open := hsse.transcript.shown.setup ▸ hopen
  obtain ⟨qs₂, t₂, hlog, hvga⟩ := vgaInit_step (b := b) disks hline hopen₁ hclock img
    ⟨logSerial, level⟩
  have hearly : Transcript b img.rodata values ⟨logSerial, level⟩ (earlyCalls s.processor)
      (qs₁ ++ qs₂) m.withSerial.withIdt t₂ := by
    apply hsse.transcript.append
    rw [kloggerAfter_logs (sseCalls_log s.processor.finds)]
    exact hlog.transcript
  -- the screen is set up while the messages go to the serial port alone
  obtain ⟨hscreen, hshown⟩ := hearly.onSerial (earlyCalls_log s.processor)
    (vgaSetcolor .lightGrey .black (vgaClear m.vga))
  have hscreen' : t₂.vga = m.vga := hscreen
  rw [hscreen'] at hvga
  have hopen₂ : t₂.ports.1.setup.Open := hlog.transcript.shown.setup ▸ hopen₁
  obtain ⟨s', qs₃, t₃, hused, hpmm⟩ := pmmInitCode_step (b := b)
    (m := t₂.setVga (vgaSetcolor .lightGrey .black (vgaClear m.vga))) disks hline hopen₂ hclock img
    hend ⟨logSerial, level⟩ s.pmm
  have hopen₃ : t₃.ports.1.setup.Open := hpmm.transcript.shown.setup ▸ hopen₂
  obtain ⟨qs₄, t₄, hata⟩ := kernelLog_step (b := b) (m := t₃) disks hline hopen₃ hclock
    img ⟨logSerial, level⟩ .info
    (plain_accepted b.arg (.lit "Initializing ATA driver\r\n") (by decide))
  have hmemory : Transcript b img.rodata values ⟨logSerial, level⟩ memoryCalls (qs₃ ++ qs₄)
      (t₂.setVga (vgaSetcolor .lightGrey .black (vgaClear m.vga))) t₄ :=
    hpmm.transcript.append hata.transcript
  have hidt := initIdt_irqRoutines img.symbols { s.interrupts with outs := [] }
  refine ⟨⟨s.processor.afterSse, ((initIdt img.symbols { s.interrupts with outs := [] }).withRoutine
    14 .ataPrimaryIrq).withRoutine 15 .ataSecondaryIrq, s'⟩, (qs₁ ++ qs₂) ++ (qs₃ ++ qs₄), t₄, ?_,
    ?_, ?_, ?_⟩
  · exact {
      processor := rfl
      isrGates := by
        intro v
        rw [Interrupts.withRoutine_gate, Interrupts.withRoutine_gate, initIdt_isrGate]
      irqGates := by
        intro n
        rw [Interrupts.withRoutine_gate, Interrupts.withRoutine_gate, initIdt_gate]
      irqRoutines := by rw [Interrupts.withRoutine, Interrupts.withRoutine, hidt]
      pmm := hused }
  · have h14 (n : Nat) (s : Interrupts IrqRoutine) :
        kernelCode img n ⟨logSerial, level⟩ (irqSetRoutine 14 (some .ataPrimaryIrq)) s = _ :=
      irqSetRoutine_step n img _ 14 (some IrqRoutine.ataPrimaryIrq) s
    have h15 (n : Nat) (s : Interrupts IrqRoutine) :
        kernelCode img n ⟨logSerial, level⟩ (irqSetRoutine 15 (some .ataSecondaryIrq)) s = _ :=
      irqSetRoutine_step n img _ 15 (some IrqRoutine.ataSecondaryIrq) s
    simp only [initBeforeDisks, h14, h15, pure_bind]
    apply (serialInit_converges (platformDevice disks values) m).bind
    apply (initIdtCode_converges img s.interrupts m.withSerial).bind
    apply hsse.run.bind
    apply hvga.bind
    apply hpmm.run.bind
    apply hata.run.bind
    exact .const rfl
  · apply hshown.append
    rw [kloggerAfter_logs (earlyCalls_log s.processor)]
    exact hmemory
  · have hfirst := System.setClock_trans hsse.platform hlog.platform
    have hsecond := System.setClock_trans hpmm.platform hata.platform
    exact System.setClock_trans hfirst hsecond

end Steps

end BordOS
