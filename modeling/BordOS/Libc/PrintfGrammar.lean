import Mathlib.Data.List.Basic
import BordOS.Libc.Printf

namespace BordOS
open Library
set_option autoImplicit true
set_option relaxedAutoImplicit false

/-! ### The common shape of the two printers -/

structure Printer where
  put : BitVec 8 → ConsoleM Unit
  writeStr : Nat → VaArg → ConsoleM Unit
  writeNbSigned : Nat → BitVec 32 → BitVec 8 → ConsoleM Unit
  writeNb : Nat → BitVec 32 → BitVec 8 → ConsoleM Unit

def vgaPrinter : Printer where
  put := callVgaPut
  writeStr := vgaWriteStr
  writeNbSigned := vgaWriteNbSigned
  writeNb := vgaWriteNb

def serialPrinter : Printer where
  put := callSerialPut serialCom1
  writeStr n := serialWriteStr n serialCom1
  writeNbSigned n := serialWriteNbSigned n serialCom1
  writeNb := serialWriteNb serialCom1

namespace Printer

/-- The loop of `vprintf` and `serial_vprintf` over the writers of a printer. -/
def loop (p : Printer) (format : CString) : Nat → Nat → VaList → ConsoleM (BitVec 32)
  | 0, _, _ => .fail .outOfFuel
  | fuel + 1, ite, ap => do
    if (← charAt format ite) = 0 then return BitVec.ofNat 32 ite
    if (← charAt format ite) = 0x25 then
      if (← charAt format (ite + 1)) ≠ 0 then
        let c ← charAt format (ite + 1)
        if c = 0x73 then
          let tmp ← vaArg ap
          p.writeStr fuel tmp
          p.loop format fuel (ite + 2) ap.tail
        else if c = 0x64 then
          let nb ← vaArg ap
          p.writeNbSigned fuel nb.word 10
          p.loop format fuel (ite + 2) ap.tail
        else if c = 0x75 then
          let nbu ← vaArg ap
          p.writeNb fuel nbu.word 10
          p.loop format fuel (ite + 2) ap.tail
        else if c = 0x78 then
          let nbX ← vaArg ap
          p.writeNb fuel nbX.word 16
          p.loop format fuel (ite + 2) ap.tail
        else .fail (.assertion "0 && \"Not supported format string option\"")
      else
        p.put (← charAt format ite)
        p.loop format fuel (ite + 1) ap
    else
      p.put (← charAt format ite)
      p.loop format fuel (ite + 1) ap

def directive (p : Printer) (fuel : Nat) (a : VaArg) : FormatConv → ConsoleM Unit
  | .s => p.writeStr fuel a
  | .d => p.writeNbSigned fuel a.word 10
  | .u => p.writeNb fuel a.word 10
  | .x => p.writeNb fuel a.word 16

/-- A printer shows what it prints as `out` says. -/
structure Shows (b : Beyond) (ports : PortDevice σ) (p : Printer) (out : PrintStep → List Shown) :
    Prop where
  arg : ∀ a, out (.arg a) = [.arg a]
  put : ∀ s c, Prints b ports (fun _ => p.put c) s (.ok () s) (out (.literal c))
  directive : ∀ s k a st, FormatConv.print a k = .ok st →
    Prints b ports (fun n => p.directive n a k) s (.ok () s) (out st)
  refuse : ∀ s k a f, FormatConv.print a k = .error f →
    Prints b ports (fun n => p.directive n a k) s (.error f s) []

end Printer

theorem vprintfLoop_eq (format : CString) : vprintfLoop format = vgaPrinter.loop format := by
  funext fuel
  induction fuel with
  | zero => rfl
  | succ n ih =>
    funext ite ap
    rw [vprintfLoop, Printer.loop, ih]
    rfl

theorem serialVprintfLoop_eq (format : CString) :
    serialVprintfLoop format = serialPrinter.loop format := by
  funext fuel
  induction fuel with
  | zero => rfl
  | succ n ih =>
    funext ite ap
    rw [serialVprintfLoop, Printer.loop, ih]
    rfl

theorem formatConv_switch (c : BitVec 8) (f : FormatConv → γ) (q : γ) :
    (if c = 0x73 then f .s else if c = 0x64 then f .d else if c = 0x75 then f .u
      else if c = 0x78 then f .x else q) = ((formatConv c).map f).getD q := by
  simp only [formatConv]
  split_ifs <;> rfl

variable {b : Beyond} {ports : PortDevice σ} {s : σ}

theorem vgaPrinter_shows (b : Beyond) (ports : PortDevice σ) :
    vgaPrinter.Shows b ports PrintStep.onVga where
  arg _ := rfl
  put _ c := .vgaPut c
  directive s k a st h := by
    rcases FormatConv.print_ok h with
      ⟨rfl, hnull, rfl⟩ | ⟨rfl, rfl⟩ | ⟨rfl, rfl⟩ | ⟨rfl, rfl⟩
    · exact vgaWriteStr_prints hnull
    · exact vgaWriteNbSigned_prints a.word
    · exact vgaWriteNb_prints (by decide) (by decide) a.word
    · exact vgaWriteNb_prints (by decide) (by decide) a.word
  refuse s k a f h := by
    obtain ⟨rfl, hnull, rfl⟩ := FormatConv.print_error h
    exact vgaWriteStr_null hnull

theorem serialPrinter_shows (b : Beyond) (ports : PortDevice σ) :
    serialPrinter.Shows b ports PrintStep.onSerial where
  arg _ := rfl
  put _ c := .serialPut serialCom1 c
  directive s k a st h := by
    rcases FormatConv.print_ok h with
      ⟨rfl, hnull, rfl⟩ | ⟨rfl, rfl⟩ | ⟨rfl, rfl⟩ | ⟨rfl, rfl⟩
    · exact serialWriteStr_prints serialCom1 hnull
    · exact serialWriteNbSigned_prints serialCom1 a.word
    · exact serialWriteNb_prints serialCom1 (by decide) (by decide) a.word
    · exact serialWriteNb_prints serialCom1 (by decide) (by decide) a.word
  refuse s k a f h := by
    obtain ⟨rfl, hnull, rfl⟩ := FormatConv.print_error h
    exact serialWriteStr_null serialCom1 hnull

namespace Printer

variable {p : Printer} {out : PrintStep → List Shown} {format : CString} {i : Nat}

theorem loop_end (hi : i = format.chars.length) (ap : VaList) (s : σ) :
    Prints b ports (fun n => p.loop format n i ap) s (printOutcome format none s) [] := by
  apply Prints.succ
  apply (Prints.charAt (Nat.le_of_eq hi)).bind
  rw [hi, CString.byte_length]
  exact .pure _

theorem loop_literal (h : p.Shows b ports out) {c : BitVec 8} (hi : i < format.chars.length)
    (hbyte : format.byte b i = c) (hc : c ≠ 0) (hlit : c = 0x25 → format.byte b (i + 1) = 0)
    {ap : VaList} {r : EStateM.Result Fault σ (BitVec 32)} {sh : List Shown}
    (hr : Prints b ports (fun n => p.loop format n (i + 1) ap) s r sh) :
    Prints b ports (fun n => p.loop format n i ap) s r (out (.literal c) ++ sh) := by
  have hput : Prints b ports (fun n => do
      p.put (← charAt format i)
      p.loop format n (i + 1) ap) s r (out (.literal c) ++ sh) := by
    apply (Prints.charAt (by omega)).bind
    rw [hbyte]
    exact (h.put s c).bind hr
  apply Prints.succ
  apply (Prints.charAt (by omega)).bind
  simp only [hbyte, hc, ↓reduceIte]
  apply (Prints.charAt (by omega)).bind
  by_cases hmark : c = 0x25
  · simp only [hbyte, hmark, ↓reduceIte]
    apply (Prints.charAt (by omega)).bind
    simp only [hlit hmark, ne_eq, not_true_eq_false, ↓reduceIte]
    rw [← hmark]
    exact hput
  · simp only [hbyte, hmark, ↓reduceIte]
    exact hput

theorem loop_mark {c : BitVec 8} (hi : i + 1 < format.chars.length)
    (hmark : format.byte b i = 0x25) (hc : format.byte b (i + 1) = c) (hc0 : c ≠ 0)
    {ap : VaList} {r : EStateM.Result Fault σ (BitVec 32)} {sh : List Shown}
    (hr : Prints b ports (fun n => ((formatConv c).map fun k => (do
      let a ← vaArg ap
      p.directive n a k
      p.loop format n (i + 2) ap.tail : ConsoleM (BitVec 32))).getD
        (.fail (.assertion "0 && \"Not supported format string option\""))) s r sh) :
    Prints b ports (fun n => p.loop format n i ap) s r sh := by
  have hmark0 : (0x25 : BitVec 8) ≠ 0 := by decide
  apply Prints.succ
  apply (Prints.charAt (by omega)).bind
  simp only [hmark, hmark0, ↓reduceIte]
  apply (Prints.charAt (by omega)).bind
  simp only [hmark, ↓reduceIte]
  apply (Prints.charAt (by omega)).bind
  simp only [hc, ne_eq, hc0, not_false_eq_true, ↓reduceIte]
  apply (Prints.charAt (by omega)).bind
  simp only [hc]
  simp only [← formatConv_switch] at hr
  exact hr

/-- The run lemma of both printers, by induction on the reading of what is left of the format. -/
theorem loop_prints (h : p.Shows b ports out) {cs : List (BitVec 8)}
    {ps : List (FormatPiece (BitVec 8) FormatConv)} {e : FormatEnd}
    (hreads : printfSyntax.Reads cs ps e) (hi : i ≤ format.chars.length)
    (hcs : format.chars.drop i = cs) (ap : VaList) (s : σ) :
    Prints b ports (fun n => p.loop format n i ap) s
      (printOutcome format (printSteps b.arg e ps ap).2 s)
      ((printSteps b.arg e ps ap).1.flatMap out) := by
  induction hreads generalizing i ap s with
  | done => exact loop_end (Nat.le_antisymm hi (List.drop_eq_nil_iff.1 hcs)) ap s
  | mark =>
    obtain ⟨hlt, hbyte, hc, htail⟩ := CString.byte_of_drop b hcs
    have hend := CString.byte_of_drop_nil b hlt htail
    have hlast := Nat.le_antisymm hlt (List.drop_eq_nil_iff.1 htail)
    exact loop_literal h hlt hbyte hc (fun _ => hend) (loop_end hlast ap s)
  | @unsupported c cs hconv =>
    have hnone : formatConv c = none := hconv
    obtain ⟨hlt, hbyte, -, htail⟩ := CString.byte_of_drop b hcs
    obtain ⟨hlt', hbyte', hc, -⟩ := CString.byte_of_drop b htail
    apply loop_mark hlt' hbyte hbyte' hc
    rw [hnone]
    exact .fail _
  | literal hne _ ih =>
    obtain ⟨hlt, hbyte, hc, htail⟩ := CString.byte_of_drop b hcs
    exact loop_literal h hlt hbyte hc (fun hmark => absurd hmark hne) (ih hlt htail ap s)
  | @directive c k cs ps e hconv _ ih =>
    obtain ⟨hlt, hbyte, -, htail⟩ := CString.byte_of_drop b hcs
    obtain ⟨hlt', hbyte', hc, htail'⟩ := CString.byte_of_drop b htail
    have hk : formatConv c = some k := hconv
    apply loop_mark hlt' hbyte hbyte' hc
    simp only [hk, Option.map_some, Option.getD_some, printSteps]
    cases hprint : k.print (ap.headD b.arg) with
    | error f =>
      -- a null string: its writer fails after the argument is taken
      have hstop := (Prints.vaArg ap).bind (f := fun n a => p.directive n a k >>= fun _ =>
        p.loop format n (i + 2) ap.tail) (h.refuse s k _ f hprint).bind_error
      simp only [List.flatMap_cons, List.flatMap_nil, h.arg]
      exact hstop
    | ok st =>
      have hrest := ih hlt' htail' ap.tail s
      have hround := (Prints.vaArg ap).bind (f := fun n a => p.directive n a k >>= fun _ =>
        p.loop format n (i + 2) ap.tail) ((h.directive s k _ st hprint).bind hrest)
      simpa only [List.flatMap_cons, h.arg] using hround

end Printer

theorem printers_print {ps : List (FormatPiece (BitVec 8) FormatConv)} {e : FormatEnd}
    (b : Beyond) (ports : PortDevice σ) {format : CString}
    (hreads : printfSyntax.Reads format.chars ps e) (ap : VaList) (s : σ) :
    Prints b ports (fun n => vprintf n format ap) s
        (printOutcome format (printSteps b.arg e ps ap).2 s)
        ((printSteps b.arg e ps ap).1.flatMap PrintStep.onVga) ∧
      Prints b ports (fun n => serialVprintf n format ap) s
        (printOutcome format (printSteps b.arg e ps ap).2 s)
        ((printSteps b.arg e ps ap).1.flatMap PrintStep.onSerial) := by
  simp only [vprintf, serialVprintf, vprintfLoop_eq, serialVprintfLoop_eq]
  exact ⟨Printer.loop_prints (vgaPrinter_shows b ports) hreads (Nat.zero_le _) rfl ap s,
    Printer.loop_prints (serialPrinter_shows b ports) hreads (Nat.zero_le _) rfl ap s⟩

/-! ### Arguments and bytes of a trace -/

def Shown.arg? : Shown → Option VaArg
  | .arg a => some a
  | _ => none

def Shown.vgaByte? : Shown → Option (BitVec 8)
  | .vga c => some c
  | _ => none

def Shown.serialByte? : Shown → Option (BitVec 8)
  | .serial _ c => some c
  | _ => none

def argsRead (tr : List (ConsoleEvent σ)) : List VaArg := (shown tr).filterMap Shown.arg?

def vgaBytes (tr : List (ConsoleEvent σ)) : List (BitVec 8) := (shown tr).filterMap Shown.vgaByte?

def serialBytes (tr : List (ConsoleEvent σ)) : List (BitVec 8) :=
  (shown tr).filterMap Shown.serialByte?

namespace PrintStep

def arg? : PrintStep → Option VaArg
  | .arg a => some a
  | _ => none

def bytes : PrintStep → List (BitVec 8)
  | .arg _ => []
  | .literal c => [c]
  | .text s => s
  | .number ds => ds

def bytesWithReturns : PrintStep → List (BitVec 8)
  | .arg _ => []
  | .literal c => [c]
  | .text s => s.flatMap withReturn
  | .number ds => ds

theorem onVga_arg (st : PrintStep) : st.onVga.filterMap Shown.arg? = st.arg?.toList := by
  cases st <;> simp [onVga, Shown.arg?, arg?, Function.comp_def]

theorem onVga_vgaByte (st : PrintStep) : st.onVga.filterMap Shown.vgaByte? = st.bytes := by
  cases st <;> simp [onVga, Shown.vgaByte?, bytes, Function.comp_def]

theorem onVga_serialByte (st : PrintStep) : st.onVga.filterMap Shown.serialByte? = [] := by
  cases st <;> simp [onVga, Shown.serialByte?, Function.comp_def]

theorem onSerial_arg (st : PrintStep) : st.onSerial.filterMap Shown.arg? = st.arg?.toList := by
  cases st <;> simp [onSerial, Shown.arg?, arg?, Function.comp_def]

theorem onSerial_serialByte (st : PrintStep) :
    st.onSerial.filterMap Shown.serialByte? = st.bytesWithReturns := by
  cases st <;> simp [onSerial, Shown.serialByte?, bytesWithReturns, Function.comp_def]

theorem onSerial_vgaByte (st : PrintStep) : st.onSerial.filterMap Shown.vgaByte? = [] := by
  cases st <;> simp [onSerial, Shown.vgaByte?, Function.comp_def]

end PrintStep

/-! ### The grammar -/

def StringsGiven (beyond : VaArg) : List (FormatPiece (BitVec 8) FormatConv) → VaList → Prop
  | [], _ => True
  | .literal _ :: ps, ap => StringsGiven beyond ps ap
  | .directive k :: ps, ap =>
    (k = .s → (ap.headD beyond).word ≠ 0) ∧ StringsGiven beyond ps ap.tail

def unsupportedOption : Fault := .assertion "0 && \"Not supported format string option\""

def nullString : Fault := .assertion "str"

variable {beyond : VaArg} {e : FormatEnd} {ps : List (FormatPiece (BitVec 8) FormatConv)}
  {ap : VaList}

theorem FormatConv.print_given {a : VaArg} {k : FormatConv} (h : k = .s → a.word ≠ 0) :
    ∃ st, k.print a = .ok st ∧ st.arg? = none := by
  cases k with
  | s => exact ⟨_, if_neg (h rfl), rfl⟩
  | d => exact ⟨_, rfl, rfl⟩
  | u => exact ⟨_, rfl, rfl⟩
  | x => exact ⟨_, rfl, rfl⟩

theorem printSteps_given (h : StringsGiven beyond ps ap) :
    (printSteps beyond e ps ap).2 = (if e = .unsupported then some unsupportedOption else none) ∧
      (printSteps beyond e ps ap).1.filterMap PrintStep.arg? =
        ap.takeD (directives ps).length beyond := by
  induction ps generalizing ap with
  | nil => cases e <;> exact ⟨rfl, rfl⟩
  | cons piece ps ih =>
    cases piece with
    | literal c => exact ih h
    | directive k =>
      obtain ⟨st, hprint, harg⟩ := FormatConv.print_given h.1
      obtain ⟨hstop, hargs⟩ := ih h.2
      simp only [printSteps, hprint]
      refine ⟨hstop, ?_⟩
      rw [List.filterMap_cons_some (f := PrintStep.arg?) rfl, List.filterMap_cons_none harg, hargs]
      rfl

theorem printSteps_null (h : ¬ StringsGiven beyond ps ap) :
    (printSteps beyond e ps ap).2 = some nullString := by
  induction ps generalizing ap with
  | nil => exact absurd trivial h
  | cons piece ps ih =>
    cases piece with
    | literal c => exact ih h
    | directive k =>
      cases hprint : k.print (ap.headD beyond) with
      | error f =>
        obtain ⟨-, -, rfl⟩ := FormatConv.print_error hprint
        simp only [printSteps, hprint, nullString]
      | ok st =>
        simp only [printSteps, hprint]
        apply ih
        rintro hgiven
        apply h
        refine ⟨?_, hgiven⟩
        rintro rfl hnull
        rw [FormatConv.print, if_pos hnull] at hprint
        cases hprint

theorem printSteps_stop :
    ((printSteps beyond e ps ap).2 = some unsupportedOption ↔
        e = .unsupported ∧ StringsGiven beyond ps ap) ∧
      ((printSteps beyond e ps ap).2 = some nullString ↔ ¬ StringsGiven beyond ps ap) := by
  have hne : nullString ≠ unsupportedOption := by decide
  by_cases h : StringsGiven beyond ps ap
  · rw [(printSteps_given h).1]
    by_cases he : e = .unsupported
    · simp [he, h, hne.symm]
    · simp [he, h]
  · rw [printSteps_null h]
    simp [h, hne]

theorem printOutcome_eq_error {format : CString} {stop : Option Fault} {f : Fault} {s : σ} :
    printOutcome format stop s = .error f s ↔ stop = some f := by
  cases stop with
  | none => simp [printOutcome]
  | some g => simp [printOutcome]

/-- What a printer has to do with every format, by its one reading: it ends, reads strings within
their bounds, stops at an unsupported directive or a null string and nowhere else, and takes one
argument for each directive. -/
def FollowsGrammar (b : Beyond) (ports : PortDevice σ)
    (printer : Nat → CString → VaList → ConsoleM (BitVec 32)) (out : PrintStep → List Shown) :
    Prop :=
  ∀ (format : CString) (ap : VaList) (s : σ), ∃ ps e r tr,
    printfSyntax.Reads format.chars ps e ∧
      (∀ ps' e', printfSyntax.Reads format.chars ps' e' → ps' = ps ∧ e' = e) ∧
      Prog.Settles (consoleDevice b ports) (fun n => printer n format ap) s r tr ∧
      (∀ ev ∈ tr, ReadsWithin ev) ∧
      (r = .error unsupportedOption s ↔ e = .unsupported ∧ StringsGiven b.arg ps ap) ∧
      (r = .error nullString s ↔ ¬ StringsGiven b.arg ps ap) ∧
      shown tr = (printSteps b.arg e ps ap).1.flatMap out ∧
      (StringsGiven b.arg ps ap → argsRead tr = ap.takeD (directives ps).length b.arg) ∧
      (e ≠ .unsupported → StringsGiven b.arg ps ap →
        r = .ok (BitVec.ofNat 32 format.chars.length) s)

theorem followsGrammar_of_prints {b : Beyond} {ports : PortDevice σ}
    {printer : Nat → CString → VaList → ConsoleM (BitVec 32)} {out : PrintStep → List Shown}
    (hout : ∀ st, (out st).filterMap Shown.arg? = st.arg?.toList)
    (h : ∀ {ps e} (format : CString) (ap : VaList) (s : σ),
      printfSyntax.Reads format.chars ps e →
      Prints b ports (fun n => printer n format ap) s
        (printOutcome format (printSteps b.arg e ps ap).2 s)
        ((printSteps b.arg e ps ap).1.flatMap out)) :
    FollowsGrammar b ports printer out := by
  intro format ap s
  have hreads := printfSyntax.read_reads format.chars
  obtain ⟨tr, hset, hshown, hin⟩ := h format ap s hreads
  refine ⟨_, _, _, tr, hreads, fun ps' e' h' => h'.unique hreads, hset, hin, ?_, ?_, hshown, ?_, ?_⟩
  · rw [printOutcome_eq_error]
    exact printSteps_stop.1
  · rw [printOutcome_eq_error]
    exact printSteps_stop.2
  · intro hgiven
    rw [argsRead, hshown, List.filterMap_flatMap,
      ← (printSteps_given hgiven (e := (printfSyntax.read format.chars).2)).2]
    simp only [hout, List.filterMap_eq_flatMap_toList]
  · intro he hgiven
    rw [(printSteps_given hgiven).1, if_neg he]
    rfl

theorem printers_follow_grammar (b : Beyond) (ports : PortDevice σ) :
    FollowsGrammar b ports vprintf PrintStep.onVga ∧
      FollowsGrammar b ports serialVprintf PrintStep.onSerial := by
  constructor
  · apply followsGrammar_of_prints PrintStep.onVga_arg
    intro ps e format ap s hreads
    exact (printers_print b ports hreads ap s).1
  · apply followsGrammar_of_prints PrintStep.onSerial_arg
    intro ps e format ap s hreads
    exact (printers_print b ports hreads ap s).2

/-! ### The two printers -/

/-- On every format and arguments the printers come to the same outcome after the same arguments,
and the serial port gets the bytes of the screen with a CR after each LF of a string. -/
theorem printers_agree (b : Beyond) (ports : PortDevice σ) (format : CString) (ap : VaList)
    (s : σ) :
    ∃ r tr tr',
      Prog.Settles (consoleDevice b ports) (fun n => vprintf n format ap) s r tr ∧
        Prog.Settles (consoleDevice b ports) (fun n => serialVprintf n format ap) s r tr' ∧
        argsRead tr = argsRead tr' ∧
        vgaBytes tr = (formatSteps b.arg format ap).1.flatMap PrintStep.bytes ∧
        serialBytes tr' = (formatSteps b.arg format ap).1.flatMap PrintStep.bytesWithReturns ∧
        serialBytes tr = [] ∧ vgaBytes tr' = [] := by
  obtain ⟨⟨tr, hset, hshown, -⟩, ⟨tr', hset', hshown', -⟩⟩ :=
    printers_print b ports (printfSyntax.read_reads format.chars) ap s
  refine ⟨_, tr, tr', hset, hset', ?_, ?_, ?_, ?_, ?_⟩
  · simp only [argsRead, hshown, hshown', List.filterMap_flatMap, PrintStep.onVga_arg,
      PrintStep.onSerial_arg]
  · simp only [vgaBytes, hshown, List.filterMap_flatMap, PrintStep.onVga_vgaByte, formatSteps]
  · simp only [serialBytes, hshown', List.filterMap_flatMap, PrintStep.onSerial_serialByte,
      formatSteps]
  · simp [serialBytes, hshown, List.filterMap_flatMap, PrintStep.onVga_serialByte]
  · simp [vgaBytes, hshown', List.filterMap_flatMap, PrintStep.onSerial_vgaByte]

end BordOS
