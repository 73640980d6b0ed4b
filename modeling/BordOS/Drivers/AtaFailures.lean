import BordOS.Drivers.AtaResponses
import BordOS.Kernel.LoggerCalls

namespace BordOS
open Library Prog
set_option autoImplicit true
set_option relaxedAutoImplicit false

/-! ### The parts of a read -/

def ideReadCommand (fuel : Nat) (bus : BitVec 16) (slave : BitVec 8) (lba : BitVec 32) :
    PortM (BitVec 32) := do
  outb (bus + ataRegControl) 0x02
  ataWaitReady fuel bus
  outb (bus + ataRegHddevsel) (hddevselByte slave lba)
  outb (bus + ataRegFeatures) 0x00
  outb (bus + ataRegSeccount0) 1
  outb (bus + ataRegLba0) (lba0Byte lba)
  outb (bus + ataRegLba1) (lba1Byte lba)
  outb (bus + ataRegLba2) (lba2Byte lba)
  outb (bus + ataRegCommand) ataCmdReadPio
  ataWait fuel bus 1

def ideReadTransfer (fuel : Nat) (bus : BitVec 16) (buf : Buffer) : PortM Buffer := do
  let buf ← repinsw bus buf 256
  let _ ← ataWait fuel bus 0
  return buf

/-- `ide_read_sector` reads the sector whatever its wait returned. -/
theorem ideReadSector_eq (fuel : Nat) (bus : BitVec 16) (slave : BitVec 8) (lba : BitVec 32)
    (buf : Buffer) :
    ideReadSector fuel bus slave lba buf = (do
      let error ← ideReadCommand fuel bus slave lba
      ataLogError error bus slave lba
      ideReadTransfer fuel bus buf) := by
  simp only [ideReadSector, ideReadCommand, ideReadTransfer, bind_assoc]

theorem ideReadCommand_uses (fuel : Nat) (bus : BitVec 16) (slave : BitVec 8) (lba : BitVec 32) :
    (ideReadCommand fuel bus slave lba).Uses PortOp.NotLog :=
  (outb_uses _ _).bind fun _ => (notLog_of_inb (ataWaitReady_uses fuel bus)).bind fun _ =>
    (outb_uses _ _).bind fun _ => (outb_uses _ _).bind fun _ => (outb_uses _ _).bind fun _ =>
    (outb_uses _ _).bind fun _ => (outb_uses _ _).bind fun _ => (outb_uses _ _).bind fun _ =>
    (outb_uses _ _).bind fun _ => notLog_of_inb (ataWait_uses fuel bus 1)

theorem ideReadTransfer_uses (fuel : Nat) (bus : BitVec 16) (buf : Buffer) :
    (ideReadTransfer fuel bus buf).Uses PortOp.NotLog := by
  apply (repinsw_notLog bus buf 256).bind
  intro buf'
  apply (notLog_of_inb (ataWait_uses fuel bus 0)).bind
  intro _
  exact .pure buf'

variable {resp : Responses} {bus : BitVec 16} {other : PortDevice σ} {s : AtaStream σ}
  {n p p₁ w : Nat} {sent : List (BitVec 16)}

theorem ideReadCommand_responds (slave : BitVec 8) (lba : BitVec 32)
    (hp : FirstReady resp.status n p) (hp₁ : FirstReady resp.status (p + 1) p₁) :
    Spec (responseDevice resp bus other) Anything (AtaStream.At n w sent)
      (fun k => ideReadCommand k bus slave lba)
      (fun error s => error = ataWaitResult (resp.status (p₁ + 1)) ∧ s.At (p₁ + 2) w sent) := by
  apply (outb_responds _ _).bind
  intro _
  apply (ataWaitReady_responds hp).bind
  intro _
  refine (outb_responds _ _).bind fun _ => (outb_responds _ _).bind fun _ =>
    (outb_responds _ _).bind fun _ => (outb_responds _ _).bind fun _ =>
    (outb_responds _ _).bind fun _ => (outb_responds _ _).bind fun _ =>
    (outb_responds _ _).bind fun _ => ?_
  exact ataWait_advanced_responds hp₁

theorem ideReadTransfer_responds (buf : Buffer) (hp : FirstReady resp.status n p) :
    Spec (responseDevice resp bus other) Anything (AtaStream.At n w sent)
      (fun k => ideReadTransfer k bus buf)
      (fun buf' _ => buf' = buf.received resp.data w 256) := by
  apply (repinsw_responds buf 256).bind
  intro buf'
  apply Spec.assume
  rintro ⟨-, rfl, -⟩
  apply ((ataWait_responds hp).weaken (fun _ h => h.2) fun _ _ h => h).bind
  intro _
  exact .pure fun _ _ => rfl

/-! ### The report -/

variable {b : Beyond} {r : Rodata} {k : Klogger}

/-- The printers know no field width. -/
theorem ataErrorFormat_unsupported :
    (printfSyntax.read (CString.lit "Error ATA reading bus=0x%03x, %s, lba=%d").chars).2 =
      .unsupported := by
  decide

theorem ataLogError_returns (hclock : ClockReads (responseDevice resp bus other))
    (error : BitVec 32) (slave : BitVec 8) (lba : BitVec 32)
    (h : error = 0 ∨ ¬ k.Sends .error) (s : AtaStream σ) :
    ∃ t, Converges (consoleDevice b (responseDevice resp bus other))
        (fun n => withLogger n r k (ataLogError error bus slave lba)) s () t ∧
      t.words = s.words := by
  by_cases herr : error ≠ 0
  · simp only [ataLogError, if_pos herr, withLogger_klog]
    by_cases hlvl : k.level.toInt ≤ LogLevel.error.toInt
    · obtain ⟨date, t, tr, hrtc⟩ := hclock s
      have hsend := h.resolve_left herr
      obtain ⟨tr', hlog⟩ := kernelLoggerLog_silent hlvl hsend hrtc
      exact ⟨t, hlog.converges.bind (.const rfl), (cmosRTC_moves_nothing hrtc).1⟩
    · exact ⟨s, (kernelLoggerLog_below hlvl).converges.bind (.const rfl), rfl⟩
  · simp only [ataLogError, if_neg herr]
    exact ⟨s, .const rfl, rfl⟩

theorem ataLogError_stops (hclock : ClockReads (responseDevice resp bus other))
    {error : BitVec 32} (slave : BitVec 8) (lba : BitVec 32) (herr : error ≠ 0)
    (hsend : k.Sends .error) (s : AtaStream σ) :
    ∃ f t, Ends (consoleDevice b (responseDevice resp bus other))
        (fun n => withLogger n r k (ataLogError error bus slave lba)) s (.error f t) ∧
      t.words = s.words := by
  simp only [ataLogError, if_pos herr, withLogger_klog]
  obtain ⟨date, t, tr, hrtc⟩ := hclock s
  obtain ⟨f, hlog⟩ := kernelLoggerLog_stops hsend (fun h => h.1 ataErrorFormat_unsupported) hrtc
  exact ⟨f, t, hlog.bind_error, (cmosRTC_moves_nothing hrtc).1⟩

/-! ### How a read ends -/

theorem ideReadSector_returns (hbusy : resp.BusyClears)
    (hclock : ClockReads (responseDevice resp bus other)) (slave : BitVec 8) (lba : BitVec 32)
    (buf : Buffer) (hp : FirstReady resp.status s.polls p)
    (hp₁ : FirstReady resp.status (p + 1) p₁)
    (h : ¬ StatusFailed (resp.status (p₁ + 1)) ∨ ¬ k.Sends .error) :
    ∃ t, Ends (consoleDevice b (responseDevice resp bus other))
      (fun n => withLogger n r k (ideReadSector n bus slave lba buf)) s
      (.ok (buf.received resp.data s.words 256) t) := by
  simp only [ideReadSector_eq, withLogger_bind]
  obtain ⟨error, u, hcommand, rfl, hu⟩ := (ideReadCommand_responds slave lba hp hp₁).post
    (s := s) ⟨rfl, rfl, rfl⟩
  obtain ⟨v, hlog, hv⟩ := ataLogError_returns (b := b) (r := r) hclock _ slave lba
    (h.imp_left (ataWaitResult_eq_zero_iff _).mpr) u
  obtain ⟨p₂, hp₂⟩ := hbusy.first v.polls
  obtain ⟨buf', t, htransfer, rfl⟩ := (ideReadTransfer_responds buf hp₂).post (s := v)
    ⟨rfl, rfl, rfl⟩
  rw [hv, hu.words] at htransfer
  have hfirst := withLogger_converges (b := b) (p := fun n => ideReadCommand n bus slave lba)
    (fun n => ideReadCommand_uses n bus slave lba) hcommand r k
  have hlast := withLogger_converges (b := b) (p := fun n => ideReadTransfer n bus buf)
    (fun n => ideReadTransfer_uses n bus buf) htransfer r k
  exact ⟨t, .bind hfirst (.bind hlog hlast)⟩

theorem ideReadSector_stops (hclock : ClockReads (responseDevice resp bus other))
    (slave : BitVec 8) (lba : BitVec 32) (buf : Buffer)
    (hp : FirstReady resp.status s.polls p) (hp₁ : FirstReady resp.status (p + 1) p₁)
    (hfailed : StatusFailed (resp.status (p₁ + 1))) (hsend : k.Sends .error) :
    ∃ f t, Ends (consoleDevice b (responseDevice resp bus other))
        (fun n => withLogger n r k (ideReadSector n bus slave lba buf)) s (.error f t) ∧
      t.words = s.words := by
  simp only [ideReadSector_eq, withLogger_bind]
  obtain ⟨error, u, hcommand, rfl, hu⟩ := (ideReadCommand_responds slave lba hp hp₁).post
    (s := s) ⟨rfl, rfl, rfl⟩
  have herr : ataWaitResult (resp.status (p₁ + 1)) ≠ 0 := by
    rw [ne_eq, ataWaitResult_eq_zero_iff, not_not]
    exact hfailed
  obtain ⟨f, t, hlog, ht⟩ := ataLogError_stops (b := b) (r := r) hclock slave lba herr hsend u
  have hfirst := withLogger_converges (b := b) (p := fun n => ideReadCommand n bus slave lba)
    (fun n => ideReadCommand_uses n bus slave lba) hcommand r k
  exact ⟨f, t, .bind hfirst hlog.bind_error, ht.trans hu.words⟩

/-- A read stops at the report of its error if a sink gets it, and returns the 256 words
otherwise. -/
theorem ideReadSector_ends (hbusy : resp.BusyClears)
    (hclock : ClockReads (responseDevice resp bus other)) (b : Beyond) (r : Rodata) (k : Klogger)
    (slave : BitVec 8) (lba : BitVec 32) (buf : Buffer)
    (hp : FirstReady resp.status s.polls p) (hp₁ : FirstReady resp.status (p + 1) p₁) :
    ∃ res, Ends (consoleDevice b (responseDevice resp bus other))
        (fun n => withLogger n r k (ideReadSector n bus slave lba buf)) s res ∧
      (StatusFailed (resp.status (p₁ + 1)) ∧ k.Sends .error ∧
          (∃ f t, res = .error f t ∧ t.words = s.words) ∨
        (¬ StatusFailed (resp.status (p₁ + 1)) ∨ ¬ k.Sends .error) ∧
          ∃ t, res = .ok (buf.received resp.data s.words 256) t) := by
  by_cases hstops : StatusFailed (resp.status (p₁ + 1)) ∧ k.Sends .error
  · obtain ⟨hfailed, hsend⟩ := hstops
    obtain ⟨f, t, hends, ht⟩ :=
      ideReadSector_stops (b := b) (r := r) hclock slave lba buf hp hp₁ hfailed hsend
    exact ⟨_, hends, .inl ⟨hfailed, hsend, f, t, rfl, ht⟩⟩
  · have hreturns : ¬ StatusFailed (resp.status (p₁ + 1)) ∨ ¬ k.Sends .error :=
      Classical.not_and_iff_not_or_not.mp hstops
    obtain ⟨t, hends⟩ :=
      ideReadSector_returns (b := b) (r := r) hbusy hclock slave lba buf hp hp₁ hreturns
    exact ⟨_, hends, .inr ⟨hreturns, t, rfl⟩⟩

/-! ### How a write ends -/

theorem ideWriteSector_uses (fuel : Nat) (bus : BitVec 16) (slave : BitVec 8) (lba : BitVec 32)
    (buf : Buffer) : (ideWriteSector fuel bus slave lba buf).Uses PortOp.NotLog := by
  have hwait := notLog_of_inb (ataWait_uses fuel bus 0)
  exact (outb_uses _ _).bind fun _ => (notLog_of_inb (ataWaitReady_uses fuel bus)).bind fun _ =>
    (outb_uses _ _).bind fun _ => hwait.bind fun _ =>
    (outb_uses _ _).bind fun _ => (outb_uses _ _).bind fun _ => (outb_uses _ _).bind fun _ =>
    (outb_uses _ _).bind fun _ => (outb_uses _ _).bind fun _ => (outb_uses _ _).bind fun _ =>
    hwait.bind fun _ => (repoutsw_notLog bus buf 256).bind fun _ =>
    (outb_uses _ _).bind fun _ => hwait.bind fun _ => .pure ()

theorem ideWriteSector_responds {p₂ p₃ : Nat} (slave : BitVec 8) (lba : BitVec 32) (buf : Buffer)
    (hp : FirstReady resp.status n p) (hp₁ : FirstReady resp.status (p + 1) p₁)
    (hp₂ : FirstReady resp.status (p₁ + 1) p₂) (hp₃ : FirstReady resp.status (p₂ + 1) p₃) :
    Spec (responseDevice resp bus other) Anything (AtaStream.At n w sent)
      (fun k => ideWriteSector k bus slave lba buf)
      (fun _ s => s.sent = sent ++ (List.range 256).map buf.word) := by
  apply (outb_responds _ _).bind
  intro _
  apply (ataWaitReady_responds hp).bind
  intro _
  apply (outb_responds _ _).bind
  intro _
  apply (ataWait_responds hp₁).bind
  intro _
  refine (outb_responds _ _).bind fun _ => (outb_responds _ _).bind fun _ =>
    (outb_responds _ _).bind fun _ => (outb_responds _ _).bind fun _ =>
    (outb_responds _ _).bind fun _ => (outb_responds _ _).bind fun _ => ?_
  apply (ataWait_responds hp₂).bind
  intro _
  apply (repoutsw_responds buf 256).bind
  intro _
  apply (outb_responds _ _).bind
  intro _
  apply (ataWait_responds hp₃).bind
  intro _
  exact .pure fun _ hs => hs.sent

theorem ideWriteSector_sends (hbusy : resp.BusyClears) (b : Beyond) (r : Rodata) (k : Klogger)
    (slave : BitVec 8) (lba : BitVec 32) (buf : Buffer) {p₂ : Nat}
    (hp : FirstReady resp.status s.polls p) (hp₁ : FirstReady resp.status (p + 1) p₁)
    (hp₂ : FirstReady resp.status (p₁ + 1) p₂) :
    ∃ t, Ends (consoleDevice b (responseDevice resp bus other))
        (fun n => withLogger n r k (ideWriteSector n bus slave lba buf)) s (.ok () t) ∧
      t.sent = s.sent ++ (List.range 256).map buf.word := by
  obtain ⟨p₃, hp₃⟩ := hbusy.first (p₂ + 1)
  obtain ⟨⟨⟩, t, hwrite, ht⟩ := (ideWriteSector_responds slave lba buf hp hp₁ hp₂ hp₃).post
    (s := s) ⟨rfl, rfl, rfl⟩
  exact ⟨t, withLogger_converges (fun n => ideWriteSector_uses n bus slave lba buf) hwrite r k, ht⟩

/-! ### Failed transfers -/

/-- The buffer of the caller is as it was. A read that does not return has read no word. -/
def ReadLeaves (buf : Buffer) (s : AtaStream σ) :
    EStateM.Result Fault (AtaStream σ) Buffer → Prop
  | .ok buf' _ => buf' = buf
  | .error _ t => t.words = s.words

def SendsNothing (s : AtaStream σ) : EStateM.Result Fault (AtaStream σ) Unit → Prop
  | .ok _ t => t.sent = s.sent
  | .error _ t => t.sent = s.sent

theorem ideReadSector_leaves_iff (hbusy : resp.BusyClears)
    (hclock : ClockReads (responseDevice resp bus other)) (b : Beyond) (r : Rodata) (k : Klogger)
    (slave : BitVec 8) (lba : BitVec 32) (buf : Buffer)
    (hp : FirstReady resp.status s.polls p) (hp₁ : FirstReady resp.status (p + 1) p₁) :
    ∃ res, Ends (consoleDevice b (responseDevice resp bus other))
        (fun n => withLogger n r k (ideReadSector n bus slave lba buf)) s res ∧
      ((StatusFailed (resp.status (p₁ + 1)) → ReadLeaves buf s res) ↔
        ¬ StatusFailed (resp.status (p₁ + 1)) ∨ k.Sends .error ∨
          ∀ j < 256, resp.data (s.words + j) = buf.word j) := by
  obtain ⟨res, hends, hres⟩ := ideReadSector_ends hbusy hclock b r k slave lba buf hp hp₁
  refine ⟨res, hends, ?_⟩
  rcases hres with ⟨-, hsend, f, t, rfl, ht⟩ | ⟨hreturns, t, rfl⟩
  · exact ⟨fun _ => .inr (.inl hsend), fun _ _ => ht⟩
  · by_cases hfailed : StatusFailed (resp.status (p₁ + 1))
    · have hsend := hreturns.resolve_left (not_not.mpr hfailed)
      rw [ReadLeaves, Buffer.received_eq_iff]
      constructor
      · intro h
        exact .inr (.inr (h hfailed))
      · intro h _
        exact (h.resolve_left (not_not.mpr hfailed)).resolve_left hsend
    · exact ⟨fun _ => .inl hfailed, fun _ h => absurd h hfailed⟩

theorem ideWriteSector_sends_iff (hbusy : resp.BusyClears) (b : Beyond) (r : Rodata) (k : Klogger)
    (slave : BitVec 8) (lba : BitVec 32) (buf : Buffer) {p₂ : Nat}
    (hp : FirstReady resp.status s.polls p) (hp₁ : FirstReady resp.status (p + 1) p₁)
    (hp₂ : FirstReady resp.status (p₁ + 1) p₂) :
    ∃ res, Ends (consoleDevice b (responseDevice resp bus other))
        (fun n => withLogger n r k (ideWriteSector n bus slave lba buf)) s res ∧
      ((StatusFailed (resp.status p₂) → SendsNothing s res) ↔ ¬ StatusFailed (resp.status p₂)) := by
  obtain ⟨t, hends, hsent⟩ :=
    @ideWriteSector_sends σ resp bus other s p p₁ hbusy b r k slave lba buf p₂ hp hp₁ hp₂
  refine ⟨_, hends, fun h hfailed => ?_, fun h hfailed => absurd hfailed h⟩
  have hnothing : s.sent ++ (List.range 256).map buf.word = s.sent := hsent.symm.trans (h hfailed)
  have hlength := congrArg List.length hnothing
  rw [List.length_append, List.length_map, List.length_range] at hlength
  omega

/-- A failed read leaves the buffer exactly if the report of the error halts the kernel or the words
on the data port are the ones in the buffer. A failed write sends the sector always. -/
theorem ide_failed_transfer_iff (b : Beyond) (r : Rodata) (k : Klogger) (resp : Responses)
    (bus : BitVec 16) (other : PortDevice σ) (hbusy : resp.BusyClears)
    (hclock : ClockReads (responseDevice resp bus other)) (slave : BitVec 8) (lba : BitVec 32)
    (buf : Buffer) (s : AtaStream σ) :
    ∃ p p₁ p₂, FirstReady resp.status s.polls p ∧ FirstReady resp.status (p + 1) p₁ ∧
      FirstReady resp.status (p₁ + 1) p₂ ∧
      (∃ res, Ends (consoleDevice b (responseDevice resp bus other))
          (fun n => withLogger n r k (ideReadSector n bus slave lba buf)) s res ∧
        ((StatusFailed (resp.status (p₁ + 1)) → ReadLeaves buf s res) ↔
          ¬ StatusFailed (resp.status (p₁ + 1)) ∨ k.Sends .error ∨
            ∀ j < 256, resp.data (s.words + j) = buf.word j)) ∧
      ∃ res, Ends (consoleDevice b (responseDevice resp bus other))
          (fun n => withLogger n r k (ideWriteSector n bus slave lba buf)) s res ∧
        ((StatusFailed (resp.status p₂) → SendsNothing s res) ↔
          ¬ StatusFailed (resp.status p₂)) := by
  obtain ⟨p, hp⟩ := hbusy.first s.polls
  obtain ⟨p₁, hp₁⟩ := hbusy.first (p + 1)
  obtain ⟨p₂, hp₂⟩ := hbusy.first (p₁ + 1)
  exact ⟨p, p₁, p₂, hp, hp₁, hp₂,
    ideReadSector_leaves_iff hbusy hclock b r k slave lba buf hp hp₁,
    ideWriteSector_sends_iff hbusy b r k slave lba buf hp hp₁ hp₂⟩

/-! ### A drive in error -/

theorem responseDevice_reads (hbus : bus + 7 ≠ cmosData) (values : CmosStream) :
    CmosReads (responseDevice resp bus (cmosDevice values)) (fun n s => s.world.reads = n)
      values where
  read {n s} reg h := by
    subst h
    refine ⟨{ s with world := { index := reg, reads := s.world.reads + 1 } }, ?_, rfl⟩
    simp only [cmosReadRaw, outb, inb, run_bind, run_perform, responseDevice, cmosDevice,
      if_neg hbus.symm, ↓reduceIte]

theorem responseDevice_clock (hbus : bus + 7 ≠ cmosData) (regs : BitVec 8 → BitVec 8) :
    ClockReads (responseDevice resp bus (cmosDevice (stoppedClock regs))) := by
  intro s
  obtain ⟨t, tr, hrtc, -⟩ := (responseDevice_reads hbus (stoppedClock regs)).rtc_settles rfl
    (stoppedClock_clear regs s.world.reads) (stoppedClock_clear regs (s.world.reads + 7))
  exact ⟨_, t, tr, hrtc⟩

/-- The drive answers every status read with DRDY and ERR, and its data port with ones. -/
def drivesError : Responses where
  status _ := 0x41
  data _ := 0xFFFF

theorem drivesError_ready (n : Nat) : FirstReady drivesError.status n n where
  le := Nat.le_refl n
  ready := by
    change (0x41 : BitVec 8) &&& ataSrBsy = 0
    decide
  busy i hni hi := absurd hi (Nat.not_lt_of_le hni)

theorem drivesError_clears : drivesError.BusyClears := fun n =>
  ⟨n, Nat.le_refl n, (drivesError_ready n).ready⟩

def quietStream : AtaStream CmosChip where
  polls := 0
  words := 0
  sent := []
  world := { index := 0, reads := 0 }

theorem drivesError_clock :
    ClockReads (responseDevice drivesError 0x1F0 (cmosDevice (monthClock 0x12))) :=
  responseDevice_clock (by decide) _

theorem ide_failed_transfer_quiet :
    ∃ p p₁ p₂, FirstReady drivesError.status 0 p ∧ FirstReady drivesError.status (p + 1) p₁ ∧
      FirstReady drivesError.status (p₁ + 1) p₂ ∧
      (∃ res, Ends (consoleDevice zerosBeyond
            (responseDevice drivesError 0x1F0 (cmosDevice (monthClock 0x12))))
          (fun n => withLogger n rodataAt gKlogger (ideReadSector n 0x1F0 0 7 fun _ => 0))
          quietStream res ∧
        ((StatusFailed 0x41 → ReadLeaves (fun _ => 0) quietStream res) ↔
          ¬ StatusFailed 0x41 ∨ gKlogger.Sends .error ∨
            ∀ j < 256, 0xFFFF = Buffer.word (fun _ => 0) j)) ∧
      ∃ res, Ends (consoleDevice zerosBeyond
            (responseDevice drivesError 0x1F0 (cmosDevice (monthClock 0x12))))
          (fun n => withLogger n rodataAt gKlogger (ideWriteSector n 0x1F0 0 7 fun _ => 0))
          quietStream res ∧
        ((StatusFailed 0x41 → SendsNothing quietStream res) ↔ ¬ StatusFailed 0x41) :=
  ide_failed_transfer_iff zerosBeyond rodataAt gKlogger drivesError 0x1F0
    (cmosDevice (monthClock 0x12)) drivesError_clears drivesError_clock 0 7
    (fun _ => 0) quietStream

/-- Below its level the report is dropped: the buffer gets what the data port shows, and a write
sends its sector to the same drive. -/
theorem ide_failed_transfer_moves :
    StatusFailed 0x41 ∧
      (∃ buf t, Ends (consoleDevice zerosBeyond
            (responseDevice drivesError 0x1F0 (cmosDevice (monthClock 0x12))))
          (fun n => withLogger n rodataAt ⟨logSerial, .critical⟩
            (ideReadSector n 0x1F0 0 7 fun _ => 0)) quietStream (.ok buf t) ∧
        Buffer.word buf 0 = 0xFFFF) ∧
      ∃ t, Ends (consoleDevice zerosBeyond
            (responseDevice drivesError 0x1F0 (cmosDevice (monthClock 0x12))))
          (fun n => withLogger n rodataAt ⟨logSerial, .critical⟩
            (ideWriteSector n 0x1F0 0 7 fun _ => 0)) quietStream (.ok () t) ∧
        t.sent.length = 256 := by
  have hdropped : ¬ Klogger.Sends ⟨logSerial, .critical⟩ .error := by
    rintro ⟨hlvl, -⟩
    exact absurd hlvl (by decide)
  refine ⟨by decide, ?_, ?_⟩
  · obtain ⟨t, hread⟩ := ideReadSector_returns (b := zerosBeyond) (r := rodataAt)
      (s := quietStream) drivesError_clears drivesError_clock 0 7 (fun _ => 0) (drivesError_ready 0)
      (drivesError_ready 1) (.inr hdropped)
    exact ⟨_, t, hread, Buffer.received_word _ _ (by decide)⟩
  · obtain ⟨t, hwrite, hsent⟩ := ideWriteSector_sends (s := quietStream) drivesError_clears
      zerosBeyond rodataAt ⟨logSerial, .critical⟩ 0 7 (fun _ => 0) (drivesError_ready 0)
      (drivesError_ready 1) (drivesError_ready 2)
    refine ⟨t, hwrite, ?_⟩
    rw [hsent, List.length_append, List.length_map, List.length_range]
    rfl

end BordOS
