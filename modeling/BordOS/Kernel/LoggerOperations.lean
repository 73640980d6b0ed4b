import BordOS.Kernel.LoggerBounds

namespace BordOS
open Library
set_option autoImplicit true
set_option relaxedAutoImplicit false

structure ConsoleOp.Reads (ok : ConsoleOp → Prop) : Prop where
  charAt : ∀ s i, ok (.charAt s i)
  vaArg : ∀ ap, ok (.vaArg ap)

variable {ok : ConsoleOp → Prop}

theorem consoleAssert_uses (cond : Bool) (text : String) : (consoleAssert cond text).Uses ok := by
  cases cond with
  | true => exact .pure ()
  | false => exact .fail _

theorem charAt_uses (hok : ConsoleOp.Reads ok) (s : CString) (i : Nat) : (charAt s i).Uses ok :=
  .perform (hok.charAt s i)

theorem writeNb_uses (hok : ConsoleOp.Reads ok) {put : BitVec 8 → ConsoleM Unit}
    (hput : ∀ c, (put c).Uses ok) (digits : CString) (fuel : Nat) (nb : BitVec 32)
    (base : BitVec 8) : (writeNb digits put fuel nb base).Uses ok := by
  induction fuel generalizing nb with
  | zero => exact .fail _
  | succ n ih =>
    have hlast : (do
        let digit ← charAt digits (nb % base.setWidth 32).toNat
        put digit : ConsoleM Unit).Uses ok :=
      (charAt_uses hok _ _).bind hput
    simp only [writeNb]
    apply (consoleAssert_uses _ _).bind
    intro _
    by_cases hzero : base = 0
    · simp only [if_pos hzero]
      exact .fail _
    · simp only [if_neg hzero]
      by_cases hmore : nb > base.setWidth 32
      · simp only [if_pos hmore]
        exact (ih _).bind fun _ => hlast
      · simp only [if_neg hmore]
        exact hlast

theorem writeNbSigned_uses {put : BitVec 8 → ConsoleM Unit}
    {write : Nat → BitVec 32 → BitVec 8 → ConsoleM Unit} (hput : ∀ c, (put c).Uses ok)
    (hwrite : ∀ n nb base, (write n nb base).Uses ok) (fuel : Nat) (nb : BitVec 32)
    (base : BitVec 8) : (writeNbSigned put write fuel nb base).Uses ok := by
  apply (consoleAssert_uses _ _).bind
  intro _
  by_cases hneg : nb.slt 0 = true
  · simp only [if_pos hneg]
    exact (hput _).bind fun _ => hwrite _ _ _
  · simp only [if_neg hneg]
    exact hwrite _ _ _

theorem vgaWriteChars_uses (hok : ConsoleOp.Reads ok) (hput : ∀ c, (callVgaPut c).Uses ok)
    (str : CString) (fuel i : Nat) : (vgaWriteChars str fuel i).Uses ok := by
  induction fuel generalizing i with
  | zero => exact .fail _
  | succ n ih =>
    apply (charAt_uses hok _ _).bind
    intro c
    by_cases hend : c ≠ 0
    · simp only [if_pos hend]
      exact (charAt_uses hok _ _).bind fun _ => (hput _).bind fun _ => ih _
    · simp only [if_neg hend]
      exact .pure ()

theorem serialWriteChars_uses (hok : ConsoleOp.Reads ok) {port : BitVec 16}
    (hput : ∀ c, (callSerialPut port c).Uses ok) (str : CString) (fuel i : Nat) :
    (serialWriteChars port str fuel i).Uses ok := by
  induction fuel generalizing i with
  | zero => exact .fail _
  | succ n ih =>
    apply (charAt_uses hok _ _).bind
    intro c
    by_cases hend : c ≠ 0
    · simp only [if_pos hend]
      refine (charAt_uses hok _ _).bind fun _ => (hput _).bind fun _ =>
        (charAt_uses hok _ _).bind fun d => ?_
      by_cases hlf : d = 0x0A
      · simp only [if_pos hlf]
        exact (hput _).bind fun _ => ih _
      · simp only [if_neg hlf]
        exact ih _
    · simp only [if_neg hend]
      exact .pure ()

structure Printer.Keeps (ok : ConsoleOp → Prop) (p : Printer) : Prop where
  put : ∀ c, (p.put c).Uses ok
  writeStr : ∀ n a, (p.writeStr n a).Uses ok
  writeNbSigned : ∀ n nb base, (p.writeNbSigned n nb base).Uses ok
  writeNb : ∀ n nb base, (p.writeNb n nb base).Uses ok

theorem Printer.loop_uses (hok : ConsoleOp.Reads ok) {p : Printer} (hp : p.Keeps ok)
    (format : CString) (fuel ite : Nat) (ap : VaList) :
    (p.loop format fuel ite ap).Uses ok := by
  have harg (ap : VaList) : (vaArg ap).Uses ok := .perform (hok.vaArg ap)
  induction fuel generalizing ite ap with
  | zero => exact .fail _
  | succ n ih =>
    have hput : (do
        p.put (← charAt format ite)
        p.loop format n (ite + 1) ap : ConsoleM (BitVec 32)).Uses ok :=
      (charAt_uses hok _ _).bind fun c => (hp.put c).bind fun _ => ih _ _
    apply (charAt_uses hok _ _).bind
    intro c
    split_ifs
    · exact .pure _
    apply (charAt_uses hok _ _).bind
    intro c'
    split_ifs
    · apply (charAt_uses hok _ _).bind
      intro c''
      split_ifs
      · refine (charAt_uses hok _ _).bind fun k => ?_
        split_ifs
        · exact (harg ap).bind fun _ => (hp.writeStr _ _).bind fun _ => ih _ _
        · exact (harg ap).bind fun _ => (hp.writeNbSigned _ _ _).bind fun _ => ih _ _
        · exact (harg ap).bind fun _ => (hp.writeNb _ _ _).bind fun _ => ih _ _
        · exact (harg ap).bind fun _ => (hp.writeNb _ _ _).bind fun _ => ih _ _
        · exact .fail _
      · exact hput
    · exact hput

theorem serialPrinter_keeps (hok : ConsoleOp.Reads ok) (hput : ∀ c, ok (.serialPut serialCom1 c))
    (hdrain : ok (.serialDrain serialCom1)) : serialPrinter.Keeps ok := by
  have hputs (c : BitVec 8) : (callSerialPut serialCom1 c).Uses ok := .perform (hput c)
  have hnb (n : Nat) (nb : BitVec 32) (base : BitVec 8) :
      (serialWriteNb serialCom1 n nb base).Uses ok := by
    rw [serialWriteNb_eq]
    exact writeNb_uses hok hputs _ n nb base
  refine ⟨hputs, fun n a => ?_, fun n nb base => ?_, hnb⟩
  · exact (consoleAssert_uses _ _).bind fun _ =>
      (serialWriteChars_uses hok hputs _ _ _).bind fun _ => .perform hdrain
  · exact writeNbSigned_uses hputs hnb n nb base

theorem vgaPrinter_keeps (hok : ConsoleOp.Reads ok) (hput : ∀ c, ok (.vgaPut c)) :
    vgaPrinter.Keeps ok := by
  have hputs (c : BitVec 8) : (callVgaPut c).Uses ok := .perform (hput c)
  have hnb (n : Nat) (nb : BitVec 32) (base : BitVec 8) : (vgaWriteNb n nb base).Uses ok := by
    rw [vgaWriteNb_eq]
    exact writeNb_uses hok hputs _ n nb base
  refine ⟨hputs, fun n a => ?_, fun n nb base => ?_, hnb⟩
  · exact (consoleAssert_uses _ _).bind fun _ => vgaWriteChars_uses hok hputs _ _ _
  · exact writeNbSigned_uses hputs hnb n nb base

theorem onPorts_uses {okPort : PortOp → Prop} (hport : ∀ op, okPort op → ok (.port op))
    {p : PortM α} (hp : p.Uses okPort) : (onPorts p).Uses ok := by
  induction hp with
  | pure a => exact .pure a
  | fail e => exact .fail e
  | call hop _ ih => exact .call (hport _ hop) ih

/-- What the logger's calls keep to. -/
structure ConsoleOp.Logs (ok : ConsoleOp → Prop) : Prop extends ConsoleOp.Reads ok where
  serialPut : ∀ c, ok (.serialPut serialCom1 c)
  serialDrain : ok (.serialDrain serialCom1)
  vgaPut : ∀ c, ok (.vgaPut c)
  cmosSelect : ∀ reg, ok (.port (.outb cmosReg reg))
  cmosRead : ok (.port (.inb cmosData))

theorem cmosRTC_onPorts_uses (hok : ConsoleOp.Logs ok) (fuel : Nat) :
    (onPorts (cmosRTC fuel)).Uses ok := by
  apply @onPorts_uses _ _ (fun op => ok (.port op)) fun _ h => h
  apply cmosRTC_usesReads
  intro reg
  have hselect : (outb cmosReg reg).Uses fun op => ok (.port op) := .perform (hok.cmosSelect reg)
  exact hselect.bind fun _ => .perform hok.cmosRead

theorem serialVprintf_uses (hok : ConsoleOp.Logs ok) (fuel : Nat) (fmt : CString) (ap : VaList) :
    (serialVprintf fuel fmt ap).Uses ok := by
  rw [serialVprintf, serialVprintfLoop_eq]
  exact Printer.loop_uses hok.toReads
    (serialPrinter_keeps hok.toReads hok.serialPut hok.serialDrain) _ _ _ _

theorem vprintf_uses (hok : ConsoleOp.Logs ok) (fuel : Nat) (fmt : CString) (ap : VaList) :
    (vprintf fuel fmt ap).Uses ok := by
  rw [vprintf, vprintfLoop_eq]
  exact Printer.loop_uses hok.toReads (vgaPrinter_keeps hok.toReads hok.vgaPut) _ _ _ _

theorem headerArgs_uses (r : Rodata) (lvl : LogLevel) (date : CmosRtc) :
    (headerArgs r lvl date).Uses ok := by
  have htable (table : List CString) (i : Nat) : (tableAt table i).Uses ok := by
    rw [tableAt]
    cases table[i]? with
    | some s => exact .pure s
    | none => exact .fail _
  exact (htable _ _).bind fun _ => (htable _ _).bind fun _ => .pure _

theorem kernelLoggerLog_uses (hok : ConsoleOp.Logs ok) (fuel : Nat) (r : Rodata) (k : Klogger)
    (lvl : LogLevel) (fmt : CString) (args : VaList) :
    (kernelLoggerLog fuel r k lvl fmt args).Uses ok := by
  have hflagged {p : ConsoleM (BitVec 32)} (hp : p.Uses ok) (flag : Prop) [Decidable flag] :
      (if flag then p else pure 0).Uses ok := by
    split_ifs
    · exact hp
    · exact .pure 0
  have hheader : (kernelLoggerPrintHeader fuel r k.output lvl).Uses ok :=
    (cmosRTC_onPorts_uses hok fuel).bind fun date =>
      (hflagged ((headerArgs_uses r lvl date).bind fun ap =>
        serialVprintf_uses hok fuel headerFormat ap) _).bind fun _ =>
      (hflagged ((headerArgs_uses r lvl date).bind fun ap =>
        vprintf_uses hok fuel headerFormat ap) _).bind fun _ => .pure _
  rw [kernelLoggerLog]
  split_ifs
  · exact hheader.bind fun _ => (hflagged (serialVprintf_uses hok fuel fmt args) _).bind fun _ =>
      (hflagged (vprintf_uses hok fuel fmt args) _).bind fun _ => .pure _
  · exact .pure 0

end BordOS
