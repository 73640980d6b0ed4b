import BordOS.Drivers.VgaLines
import BordOS.Kernel.KernelMain

namespace BordOS
open Library Prog
set_option autoImplicit true
set_option relaxedAutoImplicit false

def headerText (lvl : LogLevel) (date : CmosRtc) : List (BitVec 8) :=
  (CString.lit "[").chars ++ writtenSigned (date.day.setWidth 32) ++ (CString.lit " ").chars ++
    (months.getD date.month.toNat (.lit "")).chars ++ (CString.lit " ").chars ++
    writtenSigned (date.hour.setWidth 32) ++ (CString.lit ":").chars ++
    writtenSigned (date.minuts.setWidth 32) ++ (CString.lit ":").chars ++
    writtenSigned (date.seconds.setWidth 32) ++ (CString.lit "] \x7b").chars ++
    (levelStr.getD lvl.toInt.toNat (.lit "")).chars ++ (CString.lit "\x7d ").chars

theorem headerFormat_read :
    printfSyntax.read headerFormat.chars =
      ((CString.lit "[").chars.map .literal ++
        (.directive .d :: ((CString.lit " ").chars.map .literal ++
          (.directive .s :: ((CString.lit " ").chars.map .literal ++
            (.directive .d :: ((CString.lit ":").chars.map .literal ++
              (.directive .d :: ((CString.lit ":").chars.map .literal ++
                (.directive .d :: ((CString.lit "] \x7b").chars.map .literal ++
                  (.directive .s :: ((CString.lit "\x7d ").chars.map .literal ++ [])))))))))))),
        .done) :=
  rfl

theorem headerSteps_bytes (b : Beyond) (r : Rodata) (lvl : LogLevel) (date : CmosRtc) :
    (headerSteps b r lvl date).flatMap PrintStep.bytes = headerText lvl date := by
  have hd (v : BitVec 8) : FormatConv.print (.ofByte v) .d =
      .ok (.number (writtenSigned (v.setWidth 32))) := rfl
  rw [headerSteps, formatSteps, headerFormat_read]
  simp only [printSteps_literals, printSteps, headerList, List.headD_cons, List.tail_cons,
    r.print_s, hd, List.flatMap_append, List.flatMap_cons, literals_bytes]
  simp [PrintStep.bytes, headerText]

theorem plain_bytes (b : Beyond) (fmt : CString)
    (h : printfSyntax.read fmt.chars = (fmt.chars.map .literal, .done)) :
    (formatSteps b.arg fmt []).1.flatMap PrintStep.bytes = fmt.chars := by
  have hsteps := printSteps_literals b.arg .done fmt.chars [] []
  rw [List.append_nil] at hsteps
  rw [formatSteps, h]
  simp only [hsteps, printSteps, List.append_nil, literals_bytes]

def monthTexts : List (List (BitVec 8)) :=
  [[], [0x4A, 0x61, 0x6E, 0x2E], [0x46, 0x65, 0x76, 0x2E], [0x4D, 0x61, 0x72, 0x2E],
    [0x41, 0x70, 0x72, 0x2E], [0x4D, 0x61, 0x79, 0x2E], [0x4A, 0x75, 0x6E, 0x2E],
    [0x4A, 0x75, 0x6C, 0x2E], [0x41, 0x75, 0x67, 0x2E], [0x53, 0x65, 0x70, 0x2E],
    [0x4F, 0x63, 0x74, 0x2E], [0x4E, 0x6F, 0x76, 0x2E], [0x44, 0x65, 0x63, 0x2E]]

theorem month_text (i : Nat) :
    Printable (months.getD i (.lit "")).chars ∧ (months.getD i (.lit "")).chars.length ≤ 4 := by
  have hnames : months.map CString.chars = monthTexts := rfl
  have hname : (months.getD i (.lit "")).chars = monthTexts.getD i [] := by
    rw [← hnames]
    exact (List.getD_map _ (CString.lit "") CString.chars).symm
  rw [hname]
  by_cases hi : i < 13
  · have hall : ∀ i < 13, Printable (monthTexts.getD i []) ∧ (monthTexts.getD i []).length ≤ 4 := by
      decide
    exact hall i hi
  · rw [List.getD_eq_default _ _ (Nat.le_of_not_lt hi)]
    exact ⟨fun c hc => absurd hc List.not_mem_nil, Nat.zero_le 4⟩

theorem level_text (lvl : LogLevel) :
    Printable (levelStr.getD lvl.toInt.toNat (.lit "")).chars ∧
      (levelStr.getD lvl.toInt.toNat (.lit "")).chars.length ≤ 8 := by
  cases lvl <;> decide

theorem headerText_fits (lvl : LogLevel) (date : CmosRtc) :
    Printable (headerText lvl date) ∧ (headerText lvl date).length ≤ 34 := by
  obtain ⟨hday, hdayLen⟩ := writtenSigned_byte date.day
  obtain ⟨hmonth, hmonthLen⟩ := month_text date.month.toNat
  obtain ⟨hhour, hhourLen⟩ := writtenSigned_byte date.hour
  obtain ⟨hminuts, hminutsLen⟩ := writtenSigned_byte date.minuts
  obtain ⟨hseconds, hsecondsLen⟩ := writtenSigned_byte date.seconds
  obtain ⟨hlevel, hlevelLen⟩ := level_text lvl
  have hopen : Printable (CString.lit "[").chars := by decide
  have hblank : Printable (CString.lit " ").chars := by decide
  have hcolon : Printable (CString.lit ":").chars := by decide
  have hbrace : Printable (CString.lit "] \x7b").chars := by decide
  have hclose : Printable (CString.lit "\x7d ").chars := by decide
  have hopenLen : (CString.lit "[").chars.length = 1 := rfl
  have hblankLen : (CString.lit " ").chars.length = 1 := rfl
  have hcolonLen : (CString.lit ":").chars.length = 1 := rfl
  have hbraceLen : (CString.lit "] \x7b").chars.length = 3 := rfl
  have hcloseLen : (CString.lit "\x7d ").chars.length = 2 := rfl
  constructor
  · have hdate := (((hopen.append hday).append hblank).append hmonth).append hblank
    have htime := (((hhour.append hcolon).append hminuts).append hcolon).append hseconds
    have hall := (((hdate.append htime).append hbrace).append hlevel).append hclose
    simp only [headerText, List.append_assoc] at hall ⊢
    exact hall
  · simp only [headerText, List.length_append]
    omega

def welcomeLine (date : CmosRtc) : List (BitVec 8) :=
  headerText .info date ++ (CString.lit "Welcome to BordOS !").chars

theorem welcomeLine_fits (date : CmosRtc) :
    Printable (welcomeLine date) ∧ (welcomeLine date).length < 80 := by
  obtain ⟨hprint, hlen⟩ := headerText_fits .info date
  have hwelcome : Printable (CString.lit "Welcome to BordOS !").chars := by decide
  have hwelcomeLen : (CString.lit "Welcome to BordOS !").chars.length = 19 := rfl
  refine ⟨hprint.append hwelcome, ?_⟩
  rw [welcomeLine, List.length_append]
  omega

section Screen

variable {b : Beyond} {values : CmosStream} {img : KernelImage} {level : LogLevel}
  {s : KernelState} {m t u : System Platform}

theorem BootShown.screen {calls : List KloggerCall} (h : BootShown b values img level s calls m t)
    (hcalls : ∀ c ∈ calls, c.IsLog) : t.vga = m.initialized.vga := by
  obtain ⟨qs, hshown⟩ := h
  have hlogs : ∀ c ∈ earlyCalls s.processor ++ memoryCalls ++ calls, c.IsLog := by
    intro c hc
    rcases List.mem_append.1 hc with hc | hc
    · rcases List.mem_append.1 hc with hc | hc
      · exact earlyCalls_log _ c hc
      · exact memoryCalls_log c hc
    · exact hcalls c hc
  exact (hshown.onSerial hlogs t.vga).1

theorem welcome_screen {qs : List Nat} (hlevel : level.toInt ≤ LogLevel.info.toInt)
    (h : Transcript b img.rodata values ⟨logSerial, level⟩ welcomeCalls qs m t) :
    ∃ q, m.clock ≤ q ∧ q < t.clock ∧ t.vga =
      m.vga.after ((welcomeLine (rtcResult values q) ++ [0x0A, 0x0D]).map .put) := by
  have hrecs : logRecords ⟨logSerial, level⟩ welcomeCalls =
      [⟨logSerial, .info, .lit "System booted\n\r", []⟩,
        ⟨logGraphic ||| logSerial, .info, .lit "Welcome to BordOS !\n\r", []⟩] := by
    simp only [logRecords, welcomeCalls, KloggerCall.record?, KloggerCall.set,
      kernelLoggerSetOutput, hlevel, if_true]
    rfl
  have hlength := h.shown.length
  have hscreen := h.shown.screen
  rw [hrecs] at hlength hscreen
  obtain ⟨q₀, q, rfl⟩ := List.length_eq_two.1 hlength
  obtain ⟨hge, hlt⟩ := h.times q (List.mem_cons_of_mem _ (List.mem_singleton_self q))
  refine ⟨q, hge, hlt, ?_⟩
  have hnone : ¬ logSerial &&& logGraphic ≠ 0 := by decide
  have hboth : (logGraphic ||| logSerial) &&& logGraphic ≠ 0 := by decide
  have hplain := plain_bytes b (.lit "Welcome to BordOS !\n\r") rfl
  have hends : (CString.lit "Welcome to BordOS !\n\r").chars =
      (CString.lit "Welcome to BordOS !").chars ++ [0x0A, 0x0D] := rfl
  rw [hscreen]
  simp only [List.zipWith_cons_cons, List.zipWith_nil_left, List.flatten_cons, List.flatten_nil,
    LogRecord.onVga, if_neg hnone, if_pos hboth, loggedSteps, List.flatMap_append,
    headerSteps_bytes, hplain, hends, List.nil_append, List.append_nil, welcomeLine,
    List.append_assoc]

end Screen

/-- Where both drives get ready, the screen that the kernel halts with has one line: the welcome
behind its header, in light grey on black. The rest of it is the blank that `vga_clear` wrote in the
colours from before, and the cursor is below the line. -/
theorem boot_screen (b : Beyond) (line : SerialLine) (hline : line.Empties) (disks : Disks)
    (values : CmosStream) (hclock : GivesMonths values) (img : KernelImage)
    (hend : KernelEndOk img.kernelEnd) (level : LogLevel)
    (hlevel : level.toInt ≤ LogLevel.info.toInt) (s : KernelState) (m : System Platform)
    (hready : disks.primary.GetsReady m.ports.2.2.2.polls)
    (hready' : disks.secondary.GetsReady m.ports.2.2.2.world.polls) :
    ∃ q t, m.clock ≤ q ∧ q < t.clock ∧
      Idles (systemDevice b line (platformDevice disks values)) (HaltsIn t) .outOfFuel
        (fun n => kmain img n ⟨logSerial, level⟩ multiboot2BootloaderMagic s) m ∧
      (∀ i j, i < 25 → j < 80 → vgaCell t.vga.mem (80 * i + j) =
        if i = 0 then
          (((welcomeLine (rtcResult values q))[j]?).map fun c => 0x0700 ||| c.setWidth 16).getD
            (0x20 ||| m.vga.data.attr.setWidth 16)
        else 0x20 ||| m.vga.data.attr.setWidth 16) ∧
      t.vga.crt.cursor = 80 := by
  obtain ⟨s', u, -, hrun, hshown⟩ :=
    initSystem_ready (b := b) disks hline hclock hend level s m hready hready'
  obtain ⟨qs, t, hwelcome, hhalt⟩ := welcome_step (b := b) disks hline hshown.open
    hclock img ⟨logSerial, level⟩
  have hlogs : ∀ c ∈ primaryCalls img disks m ++ secondaryCalls img disks m, c.IsLog := by
    intro c hc
    rcases List.mem_append.1 hc with hc | hc
    · exact reportCalls_log _ _ c hc
    · exact reportCalls_log _ _ c hc
  have hscreen := hshown.screen hlogs
  obtain ⟨q, hge, hlt, hvga⟩ := welcome_screen hlevel hwelcome
  have hclocks : m.clock ≤ u.clock := by
    obtain ⟨qs', hbefore⟩ := hshown
    exact hbefore.clock
  obtain ⟨hprint, hfits⟩ := welcomeLine_fits (rtcResult values q)
  have hy : m.initialized.vga.data.y.toNat = 0 := rfl
  obtain ⟨hcells, hcursor⟩ := vgaLine_shown (s := m.initialized.vga) rfl (by rw [hy]; decide)
    hprint hfits
  rw [hscreen] at hvga
  rw [← hvga] at hcells hcursor
  refine ⟨q, t, hclocks.trans hge, hlt, ?_, ?_, ?_⟩
  · simp only [kmain_eq]
    exact Idles.after hrun hhalt
  · intro i j hi hj
    have hblank : vgaCell m.initialized.vga.mem (80 * i + j) =
        0x20 ||| m.vga.data.attr.setWidth 16 := vgaClear_cells m.vga (by omega)
    have hcolour (c : BitVec 8) : c.setWidth 16 |||
        m.initialized.vga.data.attr.setWidth 16 <<< 8 = 0x0700 ||| c.setWidth 16 :=
      BitVec.or_comm ..
    rw [hcells i j hi hj, hblank]
    simp only [hcolour]
    rfl
  · apply BitVec.eq_of_toNat_eq
    rw [hcursor]
    rfl

theorem boot_screen_two_drives :
    ∃ q t, Idles (systemDevice zerosBeyond echoLine (platformDevice twoDrives (monthClock 0x12)))
        (HaltsIn t) .outOfFuel
        (fun n => kmain smallImage n ⟨logSerial, .debug⟩ multiboot2BootloaderMagic emptyState)
        resetSystem ∧
      (∀ j < 80, vgaCell t.vga.mem j =
        (((welcomeLine (rtcResult (monthClock 0x12) q))[j]?).map fun c =>
          0x0700 ||| c.setWidth 16).getD 0x20) ∧
      t.vga.crt.cursor = 80 := by
  obtain ⟨q, t, -, -, hhalt, hcells, hcursor⟩ := boot_screen zerosBeyond echoLine echoLine_ready.1
    twoDrives (monthClock 0x12) (monthClock_months (.inr (by decide))) smallImage
    ⟨by decide, by decide⟩ .debug (by decide) emptyState resetSystem ⟨1, by decide, by decide⟩
    ⟨1, by decide, by decide⟩
  refine ⟨q, t, hhalt, ?_, hcursor⟩
  intro j hj
  have hcell := hcells 0 j (by decide) hj
  rw [Nat.mul_zero, Nat.zero_add, if_pos rfl] at hcell
  exact hcell

end BordOS
