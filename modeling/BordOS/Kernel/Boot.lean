import BordOS.Arch.ExceptionStops
import BordOS.Arch.Sse
import BordOS.Kernel.BootSteps

namespace BordOS
open Library Prog
set_option autoImplicit true
set_option relaxedAutoImplicit false

/-! ### The steps of `init_system` -/

/-- The writes that `interrupts.c` made, on the machine. -/
def playOuts : List (BitVec 16 × BitVec 8) → PortM Unit
  | [] => pure ()
  | o :: outs => do
    outb o.1 o.2
    playOuts outs

def initIdtCode (img : KernelImage) (s : Interrupts ρ) : SystemM (Interrupts ρ) := do
  let s := initIdt img.symbols { s with outs := [] }
  onMachine (playOuts s.outs)
  onMachine (.perform PortOp.sti)
  return s

/-- `if (present) LOG(LOG_INFO, text)` -/
def announce (img : KernelImage) (fuel : Nat) (k : Klogger) (present : BitVec 32) (text : String) :
    SystemM Unit :=
  if present ≠ 0 then kernelLog img fuel k .info (.lit text) [] else pure ()

def initSse (img : KernelImage) (fuel : Nat) (k : Klogger) (p : Processor) : SystemM Processor := do
  let (sse, p) := checkSse p
  announce img fuel k sse "SSE activated.\r\n"
  announce img fuel k (checkSse2 p) "SSE2 supported\r\n"
  announce img fuel k (checkSse3 p) "SSE3 supported\r\n"
  announce img fuel k (checkSsse3 p) "SSSE3 supported\r\n"
  announce img fuel k (checkSse41 p) "SSE4.1 supported\r\n"
  announce img fuel k (checkSse42 p) "SSE4.2 supported\r\n"
  announce img fuel k (checkSse4A p) "SSE4A supported\r\n"
  return p

def vgaInit (img : KernelImage) (fuel : Nat) (k : Klogger) : SystemM Unit := do
  kernelLog img fuel k .info (.lit "Initializing VGA screen\n\r") []
  onSystem vgaClearCode
  onSystem (vgaSetcolorCode .lightGrey .black)

/-- Kernel code over its static data, with its asserts. -/
def kernelCode (img : KernelImage) (fuel : Nat) (k : Klogger) (x : KernelM σ α) (s : σ) :
    SystemM (α × σ) :=
  match x.run s with
  | .ok a s => pure (a, s)
  | .error f _ => onAssert img.sites img.rodata k fuel f

def pmmInitCode (img : KernelImage) (fuel : Nat) (k : Klogger) (s : Pmm) : SystemM Pmm := do
  let ((), s) ← kernelCode img fuel k (pmmInit fuel img.kernelEnd) s
  kernelLog img fuel k .info (.lit "PMM initialized\r\n") []
  return s

inductive IrqRoutine where
  | ataPrimaryIrq
  | ataSecondaryIrq
deriving DecidableEq, Repr

def ataInit (img : KernelImage) (fuel : Nat) (k : Klogger) (s : Interrupts IrqRoutine) :
    SystemM (Interrupts IrqRoutine) := do
  kernelLog img fuel k .info (.lit "Initializing ATA driver\r\n") []
  let ((), s) ← kernelCode img fuel k (irqSetRoutine 14 (some .ataPrimaryIrq)) s
  let ((), s) ← kernelCode img fuel k (irqSetRoutine 15 (some .ataSecondaryIrq)) s
  onKernel img fuel k (ideInit fuel ataPrimaryIo)
  onKernel img fuel k (ideInit fuel ataSecondaryIo)
  return s

/-! ### `kmain` -/

/-- The static data that `init_system` sets up. -/
structure KernelState where
  processor : Processor
  interrupts : Interrupts IrqRoutine
  pmm : Pmm

def initSystem (img : KernelImage) (fuel : Nat) (k : Klogger) (s : KernelState) :
    SystemM KernelState := do
  onMachine (serialInit serialCom1)
  let interrupts ← initIdtCode img s.interrupts
  let processor ← initSse img fuel k s.processor
  vgaInit img fuel k
  let pmm ← pmmInitCode img fuel k s.pmm
  let interrupts ← ataInit img fuel k interrupts
  return { processor, interrupts, pmm }

def multiboot2BootloaderMagic : BitVec 32 := 0x36D76289

/-- `kmain` with `g_klogger` as it is then. It does not use the information of the boot loader. -/
def kmain (img : KernelImage) (fuel : Nat) (k : Klogger) (eax : BitVec 32) (s : KernelState) :
    SystemM Unit :=
  if eax ≠ multiboot2BootloaderMagic then pure ()
  else do
    let _ ← initSystem img fuel k s
    kernelLog img fuel k .info (.lit "System booted\n\r") []
    let k := kernelLoggerSetOutput (logGraphic ||| logSerial) k
    kernelLog img fuel k .info (.lit "Welcome to BordOS !\n\r") []
    haltForever fuel

/-! ### Ports of the interrupt controllers -/

def picsOnly : PortDevice Pics
  | .outb port val, p => ((), p.outb port val)
  | .inb _, p => (0, p)
  | .inw _, p => (0, p)
  | .outw _ _, p | .cli, p | .sti, p | .log _ _ _, p => ((), p)

inductive PortOp.OnPics : PortOp → Prop
  | write {port : BitVec 16} (hport : port ∈ [(0x20 : BitVec 16), 0x21, 0xA0, 0xA1])
      (val : BitVec 8) : OnPics (.outb port val)

theorem picsPort_elsewhere {port : BitVec 16}
    (hport : port ∈ [(0x20 : BitVec 16), 0x21, 0xA0, 0xA1]) :
    port ≠ cmosReg ∧ ¬ InUart serialCom1 port := by
  simp only [List.mem_cons, List.not_mem_nil, or_false] at hport
  rcases hport with rfl | rfl | rfl | rfl <;> decide

theorem platform_pics (disks : Disks) (values : CmosStream) (s : AtaStream (AtaStream CmosChip)) :
    ActsOn (platformDevice disks values) picsOnly (fun pics => (pics, s)) PortOp.OnPics := by
  rintro op pics ⟨hport, val⟩
  obtain ⟨hclock, -⟩ := picsPort_elsewhere hport
  simp only [platformDevice, picsDevice, responseDevice, cmosDevice, if_neg hclock]
  rfl

theorem PortOp.OnPics.elsewhere {op : PortOp} (h : op.OnPics) : op.Elsewhere ∧ op.KeepsFlag := by
  cases h with
  | write hport val => exact ⟨(picsPort_elsewhere hport).2, nofun, nofun⟩

theorem playOuts_onPics {outs : List (BitVec 16 × BitVec 8)}
    (h : ∀ o ∈ outs, o.1 ∈ [(0x20 : BitVec 16), 0x21, 0xA0, 0xA1]) :
    (playOuts outs).Uses PortOp.OnPics := by
  induction outs with
  | nil => exact .pure ()
  | cons o outs ih =>
    have hfirst : (outb o.1 o.2).Uses PortOp.OnPics := .perform (.write (h o (.head _)) o.2)
    exact hfirst.bind fun _ => ih fun o' ho' => h o' (.tail _ ho')

theorem playOuts_run (outs : List (BitVec 16 × BitVec 8)) (pics : Pics) :
    (playOuts outs).run picsOnly pics =
      .ok () (outs.foldl (fun p o => p.outb o.1 o.2) pics) := by
  induction outs generalizing pics with
  | nil => rfl
  | cons o outs ih => exact ih _

theorem idtSetGates_outs (stub : Fin n → BitVec 32) (gates : List (BitVec 8 × Fin n))
    (s : Interrupts ρ) : (idtSetGates stub gates s).outs = s.outs := by
  induction gates generalizing s with
  | nil => rfl
  | cons g gs ih => exact ih _

theorem initIdt_outs (symbols : Symbols) (s : Interrupts ρ) :
    (initIdt symbols { s with outs := [] }).outs =
      (irqRemap (Interrupts.start (ρ := Unit))).outs := by
  simp only [initIdt, initIrq, irqRemap, idtSetGates_outs]
  rfl

section Steps

variable {b : Beyond} {line : SerialLine} {disks : Disks} {values : CmosStream}
  {img : KernelImage} {k : Klogger} {m t : System Platform}

def System.withSerial (m : System σ) : System σ :=
  { m with
    ports := ({ m.ports.1 with
      setup := serialSetup m.ports.1.setup, fifo := [], waiting := [] }, m.ports.2) }

theorem serialInit_converges (other : PortDevice σ) (m : System σ) :
    Converges (systemDevice b line other) (fun _ => onMachine (serialInit serialCom1)) m ()
      m.withSerial :=
  onMachine_converges (.const (serialInit_run serialCom1 line (withFlag other) m.ports.1 m.ports.2))

/-- The machine after `init_idt`: the controllers are remapped, and interrupts are on. -/
def System.withIdt (m : System Platform) : System Platform :=
  { m with ports := (m.ports.1, true, (m.ports.2.2.1.remapped, m.ports.2.2.2)) }

theorem initIdtCode_converges (img : KernelImage) (s : Interrupts ρ) (m : System Platform) :
    Converges (systemDevice b line (platformDevice disks values)) (fun _ => initIdtCode img s) m
      (initIdt img.symbols { s with outs := [] }) m.withIdt := by
  have hports : ∀ o ∈ (irqRemap (Interrupts.start (ρ := Unit))).outs,
      o.1 ∈ [(0x20 : BitVec 16), 0x21, 0xA0, 0xA1] := by
    simp [irqRemap, Interrupts.start]
  have hpart := machine_actsOn line (fun _ h => h.elsewhere)
    (platform_pics disks values m.ports.2.2.2) m.ports.1 m.ports.2.1
  have hplay := hpart.converges (fun _ => playOuts_onPics hports)
    (.const (playOuts_run _ m.ports.2.2.1))
  simp only [initIdtCode, initIdt_outs]
  apply (onMachine_converges hplay).bind
  exact .const rfl

/-! ### The messages -/

theorem plain_accepted (beyond : VaArg) (fmt : CString)
    (h : printfSyntax.read fmt.chars = (fmt.chars.map .literal, .done)) :
    FormatAccepted beyond fmt [] := by
  have hgiven := stringsGiven_literals beyond fmt.chars [] []
  rw [List.append_nil] at hgiven
  have hdone : FormatEnd.done ≠ .unsupported := by decide
  rw [FormatAccepted, h]
  exact ⟨hdone, hgiven.2 trivial⟩

theorem announce_step (disks : Disks) (hline : line.Empties)
    (hopen : m.ports.1.setup.Open) (hclock : GivesMonths values) (img : KernelImage)
    (k : Klogger) (present : BitVec 32) {text : String}
    (htext : FormatAccepted b.arg (.lit text) []) :
    ∃ qs t, LogStep b line disks values img k (fun n => announce img n k present text)
      (if present ≠ 0 then [.log .info (.lit text) []] else []) qs m () t := by
  by_cases h : present ≠ 0
  · simp only [announce, if_pos h]
    exact kernelLog_step disks hline hopen hclock img k .info htext
  · simp only [announce, if_neg h]
    exact ⟨[], m, .pure () m⟩

def announceAll (img : KernelImage) (fuel : Nat) (k : Klogger) :
    List (BitVec 32 × String) → SystemM Unit
  | [] => pure ()
  | x :: xs => do
    announce img fuel k x.1 x.2
    announceAll img fuel k xs

def announced (xs : List (BitVec 32 × String)) : List KloggerCall :=
  (xs.filter fun x => x.1 ≠ 0).map fun x => .log .info (.lit x.2) []

theorem announceAll_step (disks : Disks) (hline : line.Empties)
    (hopen : m.ports.1.setup.Open) (hclock : GivesMonths values) (img : KernelImage)
    (k : Klogger) (xs : List (BitVec 32 × String))
    (htexts : ∀ x ∈ xs, FormatAccepted b.arg (.lit x.2) []) :
    ∃ qs t, LogStep b line disks values img k (fun n => announceAll img n k xs) (announced xs) qs m
      () t := by
  induction xs generalizing m with
  | nil => exact ⟨[], m, .pure () m⟩
  | cons x xs ih =>
    obtain ⟨qs, t, hfirst⟩ :=
      announce_step (m := m) disks hline hopen hclock img k x.1 (htexts x (.head _))
    have hopen' : t.ports.1.setup.Open := hfirst.transcript.shown.setup ▸ hopen
    obtain ⟨qs', u, hrest⟩ := ih (m := t) hopen' fun y hy => htexts y (.tail _ hy)
    have hcalls : announced (x :: xs) =
        (if x.1 ≠ 0 then [.log .info (.lit x.2) []] else []) ++ announced xs := by
      rw [announced, List.filter_cons]
      by_cases h : x.1 ≠ 0
      · rw [if_pos (decide_eq_true h), if_pos h]
        rfl
      · rw [if_neg (mt of_decide_eq_true h), if_neg h]
        rfl
    have hk : kloggerAfter k (if x.1 ≠ 0 then [.log .info (.lit x.2) []] else []) = k := by
      split_ifs <;> rfl
    rw [hcalls]
    exact ⟨qs ++ qs', u, hfirst.bind hk hrest⟩

end Steps

/-! ### SSE -/

def sseExtensions : List Extension := [.sse, .sse2, .sse3, .ssse3, .sse41, .sse42, .sse4A]

def Extension.text : Extension → String
  | .sse => "SSE activated.\r\n"
  | .sse2 => "SSE2 supported\r\n"
  | .sse3 => "SSE3 supported\r\n"
  | .ssse3 => "SSSE3 supported\r\n"
  | .sse41 => "SSE4.1 supported\r\n"
  | .sse42 => "SSE4.2 supported\r\n"
  | .sse4A => "SSE4A supported\r\n"

def sseCalls (present : Extension → Bool) : List KloggerCall :=
  (sseExtensions.filter present).map fun x => .log .info (.lit x.text) []

def sseTests (p : Processor) : List (BitVec 32 × String) :=
  sseExtensions.map fun x => (if p.finds x then 1 else 0, x.text)

def Processor.afterSse (p : Processor) : Processor :=
  if p.supports .sse then p.withSse else p

theorem Processor.afterSse_cpuid (p : Processor) : p.afterSse.cpuid = p.cpuid := by
  rw [afterSse]
  split_ifs
  · rfl
  · rfl

theorem initSse_eq (img : KernelImage) (fuel : Nat) (k : Klogger) (p : Processor) :
    initSse img fuel k p = (do
      announceAll img fuel k (sseTests p)
      return p.afterSse) := by
  have hsse : checkSse p = (if p.finds .sse then 1 else 0, p.afterSse) := by
    have hfinds : p.finds .sse = p.supports .sse := rfl
    rw [checkSse_eq, hfinds, Processor.afterSse]
    split_ifs <;> rfl
  have hcheck (reg : Cpuid → BitVec 32) (bit : Fin 32) :
      checkFeature reg bit p.afterSse = if p.reports 1 reg bit then 1 else 0 := by
    rw [checkFeature_eq reg bit.isLt, Processor.reports, p.afterSse_cpuid]
    rfl
  have h2 : checkSse2 p.afterSse = if p.finds .sse2 then 1 else 0 := hcheck _ 26
  have h3 : checkSse3 p.afterSse = if p.finds .sse3 then 1 else 0 := hcheck _ 0
  have hs3 : checkSsse3 p.afterSse = if p.finds .ssse3 then 1 else 0 := hcheck _ 9
  have h41 : checkSse41 p.afterSse = if p.finds .sse41 then 1 else 0 := hcheck _ 19
  have h42 : checkSse42 p.afterSse = if p.finds .sse42 then 1 else 0 := hcheck _ 20
  have h4A : checkSse4A p.afterSse = if p.finds .sse4A then 1 else 0 := hcheck _ 6
  simp only [initSse, hsse, h2, h3, hs3, h41, h42, h4A, sseTests, sseExtensions, Extension.text,
    List.map_cons, List.map_nil, announceAll, bind_assoc, pure_bind]

theorem announced_sseTests (p : Processor) : announced (sseTests p) = sseCalls p.finds := by
  rw [announced, sseTests, List.filter_map, List.map_map, sseCalls]
  congr 1
  apply List.filter_congr
  intro x _
  cases h : p.finds x with
  | false => simp [h]
  | true => simp [h]

theorem mem_sseExtensions (x : Extension) : x ∈ sseExtensions := by
  cases x <;> decide

theorem sseText_injective {x y : Extension} (h : CString.lit x.text = CString.lit y.text) :
    x = y := by
  have htexts : ∀ x ∈ sseExtensions, ∀ y ∈ sseExtensions,
      (CString.lit x.text).chars = (CString.lit y.text).chars → x = y := by decide
  exact htexts x (mem_sseExtensions x) y (mem_sseExtensions y) (congrArg CString.chars h)

theorem mem_sseCalls {present : Extension → Bool} {x : Extension} :
    KloggerCall.log .info (.lit x.text) [] ∈ sseCalls present ↔ present x = true := by
  constructor
  · intro h
    obtain ⟨y, hy, heq⟩ := List.mem_map.1 h
    injection heq with _ htext
    rw [sseText_injective htext] at hy
    exact (List.mem_filter.1 hy).2
  · intro h
    exact List.mem_map.2 ⟨x, List.mem_filter.2 ⟨mem_sseExtensions x, h⟩, rfl⟩

theorem sseCalls_eq_iff {f g : Extension → Bool} : sseCalls f = sseCalls g ↔ f = g := by
  constructor
  · intro h
    funext x
    rw [Bool.eq_iff_iff, ← mem_sseCalls, h, mem_sseCalls]
  · intro h
    rw [h]

theorem sseCalls_log (present : Extension → Bool) : ∀ c ∈ sseCalls present, c.IsLog := by
  intro c hc
  obtain ⟨f, -, rfl⟩ := List.mem_map.1 hc
  exact trivial

section Steps

variable {b : Beyond} {line : SerialLine} {disks : Disks} {values : CmosStream}
  {img : KernelImage} {k : Klogger} {m t : System Platform}

theorem initSse_step (disks : Disks) (hline : line.Empties)
    (hopen : m.ports.1.setup.Open) (hclock : GivesMonths values) (img : KernelImage)
    (k : Klogger) (p : Processor) :
    ∃ qs t, LogStep b line disks values img k (fun n => initSse img n k p) (sseCalls p.finds) qs m
      p.afterSse t := by
  have htexts : ∀ x ∈ sseTests p, FormatAccepted b.arg (.lit x.2) [] := by
    intro x hx
    obtain ⟨y, hy, rfl⟩ := List.mem_map.1 hx
    have hplain : ∀ y ∈ sseExtensions, printfSyntax.read (CString.lit y.text).chars =
        ((CString.lit y.text).chars.map .literal, .done) := by decide
    exact plain_accepted b.arg _ (hplain y hy)
  obtain ⟨qs, t, hstep⟩ := announceAll_step disks hline hopen hclock img k _ htexts
  rw [announced_sseTests] at hstep
  simp only [initSse_eq]
  exact ⟨qs, t, hstep.andReturn (kloggerAfter_logs (sseCalls_log _) k) p.afterSse⟩

end Steps

theorem Processor.afterSse_supports (p : Processor) : p.afterSse.supports = p.supports := by
  funext x
  cases x <;> simp only [supports, reports, afterSse_cpuid]

theorem Processor.afterSse_finds (p : Processor) : p.afterSse.finds = p.finds := by
  funext x
  cases x <;> simp only [finds, smx, afterSse_supports, reports, afterSse_cpuid]

theorem Processor.afterSse_afterSse (p : Processor) : p.afterSse.afterSse = p.afterSse := by
  rw [afterSse, afterSse_supports]
  by_cases h : p.supports .sse = true
  · rw [if_pos h, afterSse, if_pos h, withSse_withSse]
  · rw [if_neg h]

/-- On every processor `init_sse` ends and logs what its tests find. The first six find the
extension they are about, but the last one finds SMX: the messages are about the extensions that the
processor supports exactly if it has both SMX and SSE4A or neither. With SSE `init_sse` clears EM
and sets MP in `cr0`, sets OSFXSR and OSXMMEXCPT in `cr4`, and keeps all other bits; without it, it
keeps all of them. To do it again logs the same and changes nothing. -/
theorem init_sse_outcome (b : Beyond) (line : SerialLine) (hline : line.Empties) (disks : Disks)
    (values : CmosStream) (hclock : GivesMonths values) (img : KernelImage) (k : Klogger)
    (p : Processor) (m : System Platform) (hopen : m.ports.1.setup.Open) :
    ∃ q qs t, Converges (systemDevice b line (platformDevice disks values))
        (fun n => initSse img n k p) m q t ∧
      Transcript b img.rodata values k (sseCalls p.finds) qs m t ∧
      (∀ x : Extension, x ≠ .sse4A →
        (.log .info (.lit x.text) [] ∈ sseCalls p.finds ↔ p.supports x = true)) ∧
      (.log .info (.lit Extension.sse4A.text) [] ∈ sseCalls p.finds ↔ p.smx = true) ∧
      (sseCalls p.finds = sseCalls p.supports ↔ p.smx = p.supports .sse4A) ∧
      (p.supports .sse = true → ∀ i : Fin 32,
        q.cr0.getLsbD i = (decide (i = 1) || decide (i ≠ 2) && p.cr0.getLsbD i) ∧
          q.cr4.getLsbD i = (decide (i = 9 ∨ i = 10) || p.cr4.getLsbD i)) ∧
      (p.supports .sse = false → q = p) ∧
      ∃ qs' u, Converges (systemDevice b line (platformDevice disks values))
          (fun n => initSse img n k q) t q u ∧
        Transcript b img.rodata values k (sseCalls p.finds) qs' t u := by
  obtain ⟨qs, t, hfirst⟩ := initSse_step (b := b) disks hline hopen hclock img k p
  have hopen' : t.ports.1.setup.Open := hfirst.transcript.shown.setup ▸ hopen
  obtain ⟨qs', u, hagain⟩ := initSse_step (b := b) disks hline hopen' hclock img k p.afterSse
  rw [p.afterSse_afterSse, p.afterSse_finds] at hagain
  refine ⟨p.afterSse, qs, t, hfirst.run, hfirst.transcript, ?_, mem_sseCalls, ?_, ?_, ?_, qs', u,
    hagain.run, hagain.transcript⟩
  · intro x hx
    rw [mem_sseCalls]
    cases x with
    | sse4A => exact absurd rfl hx
    | _ => rfl
  · rw [sseCalls_eq_iff, finds_eq_supports_iff]
  · intro hsse i
    rw [Processor.afterSse, if_pos hsse]
    exact withSse_bits p i
  · intro hnone
    rw [Processor.afterSse, hnone]
    exact if_neg Bool.false_ne_true

def twoDrives : Disks := ⟨letterTexts.drive, uniformTexts.drive⟩

def resetSystem : System Platform :=
  initialHardware (false, ⟨Pic.reset, Pic.reset⟩, { idleBus with world := idleBus })

def smallImage : KernelImage := ⟨fun _ => badBaseSite, rodataAt, symbolsAtZero.toSymbols, 0x100000⟩

/-- A processor with SSE, SSE3 and SSE4A, under emulation. -/
def emulated : Processor where
  cpuid leaf :=
    if leaf = 0x80000001 then { eax := 0, ebx := 0, ecx := 0x40, edx := 0 }
    else { eax := 0, ebx := 0, ecx := 0x1, edx := 0x2000000 }
  cr0 := 0x80000015
  cr4 := 0

/-- Its SSE4A is not announced. -/
theorem init_sse_outcome_emulated :
    ∃ q t, Converges (systemDevice zerosBeyond echoLine
        (platformDevice twoDrives (monthClock 0x12)))
        (fun n => initSse smallImage n gKlogger emulated) resetSystem q t ∧
      sseCalls emulated.finds ≠ sseCalls emulated.supports ∧ q.cr0.getLsbD 2 = false := by
  obtain ⟨q, qs, t, hrun, -, -, -, hcalls, hbits, -⟩ := init_sse_outcome zerosBeyond echoLine
    echoLine_ready.1 twoDrives (monthClock 0x12) (monthClock_months (.inr (by decide))) smallImage
    gKlogger emulated resetSystem (serialSetup_open _)
  have hsmx : emulated.smx ≠ emulated.supports .sse4A := by decide
  exact ⟨q, t, hrun, mt hcalls.mp hsmx, (hbits (by decide) 2).1⟩

end BordOS
