import BordOS.Drivers.AtaResponses
import BordOS.Drivers.CmosSnapshot
import BordOS.Library.PairSwap

namespace BordOS
open Library Prog
set_option autoImplicit true
set_option relaxedAutoImplicit false

def ataCmdIdentify : BitVec 8 := 0xEC

def ataSelect (bus : BitVec 16) : PortM Unit := outb (bus + ataRegHddevsel) 0xA0

/-! ### `ata_identify_t`

The fields of the 512 bytes that `ide_init` uses. -/

def clearedIdentify : Buffer := fun _ => 0

def identifyFlags (device : Buffer) : BitVec 16 := device.word 0

def identifySerial : Nat := 20
def identifyFirmware : Nat := 46
def identifyModel : Nat := 54

def identifyText (device : Buffer) (field size : Nat) : List (BitVec 8) :=
  (List.range size).map (fun i => device (field + i)) ++ [0]

/-- `for (i = 0; i < 256; ++i) buf[i] = inw(bus)` -/
def identifyWords (bus : BitVec 16) (device : Buffer) : PortM Buffer :=
  (List.range 256).foldlM (fun device i => do
    let w ← inw bus
    return device.setWord i w) device

/-- `for (i = 0; i < 39; i += 2)` over the model. -/
def identifySwap (device : Buffer) : Buffer :=
  (List.range' 0 20 2).foldl (fun device i =>
    let tmp := device (identifyModel + i + 1)
    let device := Function.update device (identifyModel + i + 1) (device (identifyModel + i))
    Function.update device (identifyModel + i) tmp) device

def identifyFormat : String :=
  "ATA:\n\rFlags: %x\n\rSerial: %s\n\rFirmware: %s\n\rModel: %s\n\r"

/-- `ide_init`. The `struct device_t` that it builds is not used. -/
def ideInit (fuel : Nat) (bus : BitVec 16) : PortM Unit := do
  outb (bus + 1) 1
  outb (bus + 0x306) 0
  ataSelect bus
  delay400ns bus
  outb (bus + ataRegCommand) ataCmdIdentify
  delay400ns bus
  let _ ← inb (bus + ataRegCommand)
  ataWaitReady fuel bus
  let device ← identifyWords bus clearedIdentify
  let device := identifySwap device
  outb (bus + ataRegControl) 0x02
  if identifyFlags device ≠ 0 then
    klog .info identifyFormat
      [.num ((identifyFlags device).setWidth 32),
        .chars (identifyText device identifySerial 20),
        .chars (identifyText device identifyFirmware 8),
        .chars (identifyText device identifyModel 40)]

/-! ### The parts of `ide_init` -/

def ideIdentify (fuel : Nat) (bus : BitVec 16) : PortM Buffer := do
  outb (bus + 1) 1
  outb (bus + 0x306) 0
  ataSelect bus
  delay400ns bus
  outb (bus + ataRegCommand) ataCmdIdentify
  delay400ns bus
  let _ ← inb (bus + ataRegCommand)
  ataWaitReady fuel bus
  identifyWords bus clearedIdentify

def identifyArgs (device : Buffer) : List LogArg :=
  [.num ((identifyFlags device).setWidth 32), .chars (identifyText device identifySerial 20),
    .chars (identifyText device identifyFirmware 8), .chars (identifyText device identifyModel 40)]

def ideReport (bus : BitVec 16) (device : Buffer) : PortM Unit := do
  outb (bus + ataRegControl) 0x02
  if identifyFlags device ≠ 0 then klog .info identifyFormat (identifyArgs device)

theorem ideInit_eq (fuel : Nat) (bus : BitVec 16) :
    ideInit fuel bus = (do
      let device ← ideIdentify fuel bus
      ideReport bus (identifySwap device)) := by
  simp only [ideInit, ideIdentify, ideReport, identifyArgs, bind_assoc]

theorem identifyWords_eq (bus : BitVec 16) (device : Buffer) :
    identifyWords bus device = repinsw bus device 256 := by
  rw [identifyWords]
  generalize 256 = n
  induction n with
  | zero => rfl
  | succ n ih =>
    rw [List.range_succ, List.foldlM_append, ih]
    simp only [List.foldlM_cons, List.foldlM_nil, bind_pure]
    rfl

/-! ### The texts of a drive -/

/-- The characters of a text, two in a word with the first one in the high byte. -/
def HoldsText (words : Nat → BitVec 16) (first k : Nat) (text : Nat → BitVec 8) : Prop :=
  ∀ j < k, words (first + j) = text (2 * j) ++ text (2 * j + 1)

/-- What a drive tells of itself: 20, 8 and 40 characters. -/
structure IdentifyTexts where
  serial : Nat → BitVec 8
  firmware : Nat → BitVec 8
  model : Nat → BitVec 8

structure IdentifyTexts.In (texts : IdentifyTexts) (words : Nat → BitVec 16) : Prop where
  serial : HoldsText words 10 10 texts.serial
  firmware : HoldsText words 23 4 texts.firmware
  model : HoldsText words 27 20 texts.model

def textChars (text : Nat → BitVec 8) (size : Nat) : List (BitVec 8) :=
  (List.range size).map text ++ [0]

def IdentifyTexts.args (texts : IdentifyTexts) (flags : BitVec 16) : List LogArg :=
  [.num (flags.setWidth 32), .chars (textChars texts.serial 20),
    .chars (textChars texts.firmware 8), .chars (textChars texts.model 40)]

theorem HoldsText.bytes {device : Buffer} {first k : Nat} {text : Nat → BitVec 8}
    (h : HoldsText device.word first k text) {i : Nat} (hi : i < 2 * k) :
    device (2 * first + i) = swapPairs text i := by
  obtain ⟨j, rfl | rfl⟩ := even_or_odd i
  · have hlow := congrArg (BitVec.setWidth 8) (h j (by omega))
    rw [Buffer.word, BitVec.setWidth_append_eq_right, BitVec.setWidth_append_eq_right] at hlow
    rw [swapPairs, partner_even, ← hlow, Nat.mul_add]
  · have hhigh := congrArg (fun w : BitVec 16 => (w >>> 8).setWidth 8) (h j (by omega))
    simp only [Buffer.word, setWidth_append_high] at hhigh
    rw [swapPairs, partner_odd, ← hhigh, Nat.mul_add, Nat.add_assoc]

theorem identifyText_eq_iff (device : Buffer) (field size : Nat) (text : Nat → BitVec 8) :
    identifyText device field size = textChars text size ↔
      ∀ i < size, device (field + i) = text i := by
  rw [identifyText, textChars, List.append_left_inj, List.map_inj_left]
  simp only [List.mem_range]

theorem identifySwap_apply (device : Buffer) (a : Nat) :
    identifySwap device a =
      if identifyModel ≤ a ∧ a < identifyModel + 40 then
        swapPairs (fun i => device (identifyModel + i)) (a - identifyModel)
      else device a :=
  foldl_exchange device identifyModel 20 a

variable {texts : IdentifyTexts} {device : Buffer}

theorem identifyText_scrambled {first k : Nat} {text : Nat → BitVec 8}
    (h : HoldsText device.word first k text) (hbefore : 2 * first + 2 * k ≤ identifyModel) :
    identifyText (identifySwap device) (2 * first) (2 * k) = textChars text (2 * k) ↔
      ∀ j < k, text (2 * j) = text (2 * j + 1) := by
  rw [identifyText_eq_iff, ← swapPairs_eq_iff]
  have hbytes (i : Nat) (hi : i < 2 * k) :
      identifySwap device (2 * first + i) = swapPairs text i := by
    rw [identifySwap_apply, if_neg (by omega)]
    exact h.bytes hi
  constructor
  · intro heq i hi
    exact (hbytes i hi).symm.trans (heq i hi)
  · intro heq i hi
    exact (hbytes i hi).trans (heq i hi)

theorem identifyText_model (h : texts.In device.word) :
    identifyText (identifySwap device) identifyModel 40 = textChars texts.model 40 := by
  rw [identifyText_eq_iff]
  intro i hi
  rw [identifySwap_apply, if_pos (by omega), Nat.add_sub_cancel_left]
  have hpartner : partner i < 2 * 20 := by
    obtain ⟨j, rfl | rfl⟩ := even_or_odd i
    · rw [partner_even]; omega
    · rw [partner_odd]; omega
  change device (2 * 27 + partner i) = texts.model i
  rw [h.model.bytes hpartner]
  exact congrFun (swapPairs_swapPairs texts.model) i

theorem identifyFlags_swap (device : Buffer) :
    identifyFlags (identifySwap device) = device.word 0 := by
  simp [identifyFlags, Buffer.word, identifySwap_apply, identifyModel]

/-- The report is right exactly if both characters of each word of the serial number and of the
firmware revision are the same. -/
theorem identifyArgs_eq_iff (h : texts.In device.word) :
    identifyArgs (identifySwap device) = texts.args (device.word 0) ↔
      (∀ j < 10, texts.serial (2 * j) = texts.serial (2 * j + 1)) ∧
        ∀ j < 4, texts.firmware (2 * j) = texts.firmware (2 * j + 1) := by
  rw [← identifyText_scrambled h.serial (by decide),
    ← identifyText_scrambled h.firmware (by decide)]
  simp only [identifyArgs, IdentifyTexts.args, identifyFlags_swap, identifyText_model h,
    List.cons.injEq, LogArg.chars.injEq, and_true, true_and]
  rfl

/-! ### The block -/

variable {resp : Responses} {bus : BitVec 16} {other : PortDevice σ} {s : AtaStream σ}
  {n p w : Nat} {sent : List (BitVec 16)}

theorem ideIdentify_uses (fuel : Nat) (bus : BitVec 16) :
    (ideIdentify fuel bus).Uses PortOp.NotLog := by
  have hdelay := notLog_of_inb (delay400ns_uses bus)
  have hblock : (identifyWords bus clearedIdentify).Uses PortOp.NotLog := by
    rw [identifyWords_eq]
    exact repinsw_notLog bus clearedIdentify 256
  exact (outb_uses _ _).bind fun _ => (outb_uses _ _).bind fun _ => (outb_uses _ _).bind fun _ =>
    hdelay.bind fun _ => (outb_uses _ _).bind fun _ => hdelay.bind fun _ =>
    (notLog_of_inb (inb_uses _)).bind fun _ =>
    (notLog_of_inb (ataWaitReady_uses fuel bus)).bind fun _ => hblock

theorem ideIdentify_responds (hp : FirstReady resp.status (n + 1) p) :
    Spec (responseDevice resp bus other) Anything (AtaStream.At n w sent)
      (fun k => ideIdentify k bus)
      (fun device _ => device = clearedIdentify.received resp.data w 256) := by
  refine (outb_responds _ _).bind fun _ => (outb_responds _ _).bind fun _ =>
    (outb_responds _ _).bind fun _ => ?_
  apply delay400ns_responds.bind
  intro _
  apply (outb_responds _ _).bind
  intro _
  apply delay400ns_responds.bind
  intro _
  apply (readStatus_responds.weaken (fun _ h => h) fun _ _ h => h.2).bind
  intro _
  apply (ataWaitReady_responds hp).bind
  intro _
  simp only [identifyWords_eq]
  exact (repinsw_responds clearedIdentify 256).weaken (fun _ h => h) fun _ _ h => h.1

theorem HoldsText.received {first k : Nat} {text : Nat → BitVec 8} {data : Nat → BitVec 16}
    (h : HoldsText (fun j => data (w + j)) first k text) (hk : first + k ≤ 256) (buf : Buffer) :
    HoldsText (buf.received data w 256).word first k text := by
  intro j hj
  rw [Buffer.received_word _ _ (by omega)]
  exact h j hj

theorem IdentifyTexts.In.received {data : Nat → BitVec 16} (h : texts.In fun j => data (w + j))
    (buf : Buffer) : texts.In (buf.received data w 256).word where
  serial := h.serial.received (by decide) buf
  firmware := h.firmware.received (by decide) buf
  model := h.model.received (by decide) buf

/-! ### Calls of `LOG` -/

structure LogCall where
  lvl : LogLevel
  fmt : String
  args : List LogArg
deriving DecidableEq, Repr

def PortOp.logCall : PortOp → Option LogCall
  | .log lvl fmt args => some ⟨lvl, fmt, args⟩
  | _ => none

def logCalls (tr : List (PortEvent σ)) : List LogCall := tr.filterMap fun x => x.op.logCall

theorem logCalls_of_uses {p : PortM α} (h : p.Uses PortOp.NotLog) (d : PortDevice σ) (s : σ) :
    logCalls (p.events d s) = [] := by
  have hnone : Triple d (fun x => x.op.logCall = none) (fun _ => True) p fun _ _ => True := by
    apply h.triple
    intro op s hop _
    refine ⟨?_, trivial⟩
    cases op with
    | log lvl fmt args => exact absurd rfl (hop lvl fmt args)
    | _ => rfl
  exact List.filterMap_eq_nil_iff.2 (hnone s trivial).1

/-- Enough fuel makes a call return, and these are its calls of `LOG`. -/
def Logs (d : PortDevice σ) (p : Nat → PortM α) (s : σ) (calls : List LogCall) : Prop :=
  ∃ N, ∀ n, N ≤ n → (∃ a t, (p n).run d s = .ok a t) ∧ logCalls ((p n).events d s) = calls

theorem logCalls_append (tr tr' : List (PortEvent σ)) :
    logCalls (tr ++ tr') = logCalls tr ++ logCalls tr' :=
  List.filterMap_append

def ideReportCalls (device : Buffer) : List LogCall :=
  if identifyFlags device ≠ 0 then [⟨.info, identifyFormat, identifyArgs device⟩] else []

theorem ideReport_logs (device : Buffer) (d : PortDevice σ) (bus : BitVec 16) (s : σ) :
    (∃ a t, (ideReport bus device).run d s = .ok a t) ∧
      logCalls ((ideReport bus device).events d s) = ideReportCalls device := by
  by_cases h : identifyFlags device ≠ 0
  · simp only [ideReport, ideReportCalls, if_pos h]
    exact ⟨⟨_, _, rfl⟩, rfl⟩
  · simp only [ideReport, ideReportCalls, if_neg h]
    exact ⟨⟨_, _, rfl⟩, rfl⟩

def Responses.identified (resp : Responses) (w : Nat) : Buffer :=
  identifySwap (clearedIdentify.received resp.data w 256)

theorem identified_flags (resp : Responses) (w : Nat) :
    identifyFlags (resp.identified w) = resp.data w := by
  rw [Responses.identified, identifyFlags_swap, Buffer.received_word _ _ (by decide)]
  rfl

theorem ideInit_logs (s : AtaStream σ)
    (hready : ∃ p, s.polls < p ∧ resp.status p &&& ataSrBsy = 0) :
    Logs (responseDevice resp bus other) (fun n => ideInit n bus) s
      (ideReportCalls (resp.identified s.words)) := by
  obtain ⟨p, hp⟩ := FirstReady.of_ready hready
  have hspec := @ideIdentify_responds σ resp bus other s.polls p s.words s.sent hp
  obtain ⟨_, t, ⟨N, hN⟩, rfl⟩ := hspec.post (s := s) ⟨rfl, rfl, rfl⟩
  refine ⟨N, ?_⟩
  intro n hn
  have hsilent := logCalls_of_uses (ideIdentify_uses n bus) (responseDevice resp bus other) s
  obtain ⟨hreturns, hcalls⟩ :=
    ideReport_logs (resp.identified s.words) (responseDevice resp bus other) bus t
  rw [Responses.identified] at hreturns hcalls
  simp only [ideInit_eq, run_bind, events_bind, hN n hn, logCalls_append, hsilent, hcalls]
  exact ⟨hreturns, rfl⟩

theorem ideReportCalls_identified {resp : Responses} {w : Nat} (hflags : resp.data w ≠ 0) :
    ideReportCalls (resp.identified w) =
      [⟨.info, identifyFormat, identifyArgs (resp.identified w)⟩] := by
  rw [ideReportCalls, identified_flags, if_pos hflags]

/-- `ide_init` reports the texts of a drive exactly if both characters of each word of the serial
number and of the firmware revision are the same: it swaps the bytes of the model only. -/
theorem ide_identify_texts_iff (resp : Responses) (bus : BitVec 16) (other : PortDevice σ)
    (texts : IdentifyTexts) (s : AtaStream σ)
    (hready : ∃ p, s.polls < p ∧ resp.status p &&& ataSrBsy = 0)
    (htexts : texts.In fun j => resp.data (s.words + j)) (hflags : resp.data s.words ≠ 0) :
    ∃ calls, Logs (responseDevice resp bus other) (fun n => ideInit n bus) s calls ∧
      (calls = [⟨.info, identifyFormat, texts.args (resp.data s.words)⟩] ↔
        (∀ j < 10, texts.serial (2 * j) = texts.serial (2 * j + 1)) ∧
          ∀ j < 4, texts.firmware (2 * j) = texts.firmware (2 * j + 1)) := by
  refine ⟨_, ideInit_logs s hready, ?_⟩
  rw [ideReportCalls_identified hflags, Responses.identified]
  have hword : (clearedIdentify.received resp.data s.words 256).word 0 = resp.data s.words :=
    Buffer.received_word _ _ (by decide)
  rw [← hword, ← identifyArgs_eq_iff (htexts.received clearedIdentify)]
  simp only [List.cons.injEq, LogCall.mk.injEq, and_true, true_and]

/-! ### A drive -/

def textWord (text : Nat → BitVec 8) (j : Nat) : BitVec 16 := text (2 * j) ++ text (2 * j + 1)

/-- The block that holds the texts. Its other words are `0x0040`. -/
def IdentifyTexts.block (texts : IdentifyTexts) (j : Nat) : BitVec 16 :=
  if 10 ≤ j ∧ j < 20 then textWord texts.serial (j - 10)
  else if 23 ≤ j ∧ j < 27 then textWord texts.firmware (j - 23)
  else if 27 ≤ j ∧ j < 47 then textWord texts.model (j - 27)
  else 0x0040

theorem IdentifyTexts.in_block (texts : IdentifyTexts) : texts.In texts.block := by
  constructor
  · intro j hj
    rw [block, if_pos (by omega), Nat.add_sub_cancel_left, textWord]
  · intro j hj
    rw [block, if_neg (by omega), if_pos (by omega), Nat.add_sub_cancel_left, textWord]
  · intro j hj
    rw [block, if_neg (by omega), if_neg (by omega), if_pos (by omega), Nat.add_sub_cancel_left,
      textWord]

def IdentifyTexts.drive (texts : IdentifyTexts) : Responses where
  status _ := 0x50
  data j := texts.block j

def idleBus : AtaStream CmosChip where
  polls := 0
  words := 0
  sent := []
  world := { index := 0, reads := 0 }

def uniformTexts : IdentifyTexts where
  serial _ := 0x41
  firmware _ := 0x42
  model i := 0x41 + BitVec.ofNat 8 i

theorem ide_identify_texts_uniform :
    ∃ calls, Logs (responseDevice uniformTexts.drive 0x1F0 (cmosDevice fun _ _ => 0))
        (fun n => ideInit n 0x1F0) idleBus calls ∧
      (calls = [⟨.info, identifyFormat, uniformTexts.args 0x0040⟩] ↔
        (∀ j < 10, uniformTexts.serial (2 * j) = uniformTexts.serial (2 * j + 1)) ∧
          ∀ j < 4, uniformTexts.firmware (2 * j) = uniformTexts.firmware (2 * j + 1)) :=
  ide_identify_texts_iff uniformTexts.drive 0x1F0 (cmosDevice fun _ _ => 0)
    uniformTexts idleBus ⟨1, by decide, by decide⟩
    (by
      simp only [idleBus, IdentifyTexts.drive, Nat.zero_add]
      exact uniformTexts.in_block)
    (by decide)

def letterTexts : IdentifyTexts where
  serial i := 0x41 + BitVec.ofNat 8 i
  firmware i := 0x41 + BitVec.ofNat 8 i
  model i := 0x41 + BitVec.ofNat 8 i

/-- The serial number `ABCD...` is reported as `BADC...`. -/
theorem ide_identify_texts_scrambled :
    ∃ calls, Logs (responseDevice letterTexts.drive 0x1F0 (cmosDevice fun _ _ => 0))
        (fun n => ideInit n 0x1F0) idleBus calls ∧
      calls ≠ [⟨.info, identifyFormat, letterTexts.args 0x0040⟩] := by
  refine ⟨_, ideInit_logs idleBus ⟨1, by decide, by decide⟩, ?_⟩
  rw [ideReportCalls_identified (by decide), Responses.identified]
  have hin : letterTexts.In (clearedIdentify.received letterTexts.drive.data 0 256).word := by
    apply IdentifyTexts.In.received
    simp only [IdentifyTexts.drive, Nat.zero_add]
    exact letterTexts.in_block
  have hword : (clearedIdentify.received letterTexts.drive.data 0 256).word 0 = 0x0040 :=
    Buffer.received_word _ _ (by decide)
  intro hcalls
  rw [← hword] at hcalls
  simp only [List.cons.injEq, LogCall.mk.injEq, and_true, true_and] at hcalls
  obtain ⟨hserial, -⟩ := (identifyArgs_eq_iff hin).mp hcalls
  exact absurd (hserial 0 (by decide)) (by decide)

end BordOS
