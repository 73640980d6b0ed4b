import BordOS.Drivers.Serial
import BordOS.Libc.Stdio
import BordOS.Library.Format
import BordOS.Library.ProgramSpec

namespace BordOS
open Library
set_option autoImplicit true
set_option relaxedAutoImplicit false

/-! ### What a printer prints -/

inductive FormatConv where
  | s
  | d
  | u
  | x
deriving DecidableEq, Repr

def formatConv (c : BitVec 8) : Option FormatConv :=
  if c = 0x73 then some .s
  else if c = 0x64 then some .d
  else if c = 0x75 then some .u
  else if c = 0x78 then some .x
  else none

def printfSyntax : FormatSyntax (BitVec 8) FormatConv where
  mark := 0x25
  conv := formatConv

def digitChar (n : Nat) : BitVec 8 := (CString.lit "0123456789ABCDEF").chars.getD n 0

/-- The digits that the writers of numbers put, the source's comparison with the base included. -/
def writtenDigits (base n : Nat) : List (BitVec 8) :=
  if 2 ≤ base ∧ base < n then writtenDigits base (n / base) ++ [digitChar (n % base)]
  else [digitChar (n % base)]
termination_by n
decreasing_by exact Nat.div_lt_self (by omega) (by omega)

def writtenSigned (w : BitVec 32) : List (BitVec 8) :=
  if w.slt 0 then 0x2D :: writtenDigits 10 (-w).toNat else writtenDigits 10 w.toNat

/-- A step of a printer: it takes an argument, or prints a character of the format, the string of a
`%s` or the digits of a number. -/
inductive PrintStep where
  | arg (a : VaArg)
  | literal (c : BitVec 8)
  | text (s : List (BitVec 8))
  | number (ds : List (BitVec 8))
deriving DecidableEq

/-- What a directive prints of its argument. A null string fails the assertion of its writer. -/
def FormatConv.print (a : VaArg) : FormatConv → Except Fault PrintStep
  | .s => if a.word = 0 then .error (.assertion "str") else .ok (.text a.str.chars)
  | .d => .ok (.number (writtenSigned a.word))
  | .u => .ok (.number (writtenDigits 10 a.word.toNat))
  | .x => .ok (.number (writtenDigits 16 a.word.toNat))

theorem FormatConv.print_ok {a : VaArg} {k : FormatConv} {st : PrintStep}
    (h : k.print a = .ok st) :
    k = .s ∧ a.word ≠ 0 ∧ st = .text a.str.chars ∨ k = .d ∧ st = .number (writtenSigned a.word) ∨
      k = .u ∧ st = .number (writtenDigits 10 a.word.toNat) ∨
      k = .x ∧ st = .number (writtenDigits 16 a.word.toNat) := by
  cases k with
  | s =>
    by_cases hnull : a.word = 0
    · rw [print, if_pos hnull] at h
      cases h
    · rw [print, if_neg hnull] at h
      cases h
      exact .inl ⟨rfl, hnull, rfl⟩
  | d =>
    cases h
    exact .inr (.inl ⟨rfl, rfl⟩)
  | u =>
    cases h
    exact .inr (.inr (.inl ⟨rfl, rfl⟩))
  | x =>
    cases h
    exact .inr (.inr (.inr ⟨rfl, rfl⟩))

theorem FormatConv.print_error {a : VaArg} {k : FormatConv} {f : Fault}
    (h : k.print a = .error f) : k = .s ∧ a.word = 0 ∧ f = .assertion "str" := by
  cases k with
  | s =>
    by_cases hnull : a.word = 0
    · rw [print, if_pos hnull] at h
      cases h
      exact ⟨rfl, hnull, rfl⟩
    · rw [print, if_neg hnull] at h
      cases h
  | d => cases h
  | u => cases h
  | x => cases h

/-- The steps for the pieces of a format, up to its end or to the assertion that fails. -/
def printSteps (beyond : VaArg) (e : FormatEnd) :
    List (FormatPiece (BitVec 8) FormatConv) → VaList → List PrintStep × Option Fault
  | [], _ =>
    match e with
    | .done => ([], none)
    | .mark => ([.literal 0x25], none)
    | .unsupported => ([], some (.assertion "0 && \"Not supported format string option\""))
  | .literal c :: ps, ap =>
    let rest := printSteps beyond e ps ap
    (.literal c :: rest.1, rest.2)
  | .directive k :: ps, ap =>
    match k.print (ap.headD beyond) with
    | .error f => ([.arg (ap.headD beyond)], some f)
    | .ok st =>
      let rest := printSteps beyond e ps ap.tail
      (.arg (ap.headD beyond) :: st :: rest.1, rest.2)

def formatSteps (beyond : VaArg) (format : CString) (ap : VaList) :
    List PrintStep × Option Fault :=
  let reading := printfSyntax.read format.chars
  printSteps beyond reading.2 reading.1 ap

/-- The outcome of a printer: `(int32_t)ite` at the end of the format. -/
def printOutcome (format : CString) (stop : Option Fault) (s : σ) :
    EStateM.Result Fault σ (BitVec 32) :=
  match stop with
  | none => .ok (BitVec.ofNat 32 format.chars.length) s
  | some f => .error f s

def PrintStep.onVga : PrintStep → List Shown
  | .arg a => [.arg a]
  | .literal c => [.vga c]
  | .text s => s.map .vga
  | .number ds => ds.map .vga

/-- What `serial_write_str` puts for a character: a CR after each LF. -/
def withReturn (c : BitVec 8) : List (BitVec 8) := if c = 0x0A then [c, 0x0D] else [c]

def PrintStep.onSerial : PrintStep → List Shown
  | .arg a => [.arg a]
  | .literal c => [.serial serialCom1 c]
  | .text s => (s.flatMap withReturn).map (.serial serialCom1) ++ [.drain serialCom1]
  | .number ds => ds.map (.serial serialCom1)

/-! ### Runs that print -/

/-- Enough fuel gives the outcome `r`; the trace shows `sh` and reads no string beyond its end. -/
def Prints (b : Beyond) (ports : PortDevice σ) (p : Nat → ConsoleM α) (s : σ)
    (r : EStateM.Result Fault σ α) (sh : List Shown) : Prop :=
  ∃ tr, Prog.Settles (consoleDevice b ports) p s r tr ∧ shown tr = sh ∧ ∀ e ∈ tr, ReadsWithin e

namespace Prints

variable {b : Beyond} {ports : PortDevice σ} {s t : σ}

theorem bind {p : Nat → ConsoleM α} {f : Nat → α → ConsoleM β} {a : α}
    {r : EStateM.Result Fault σ β} {sh sh' : List Shown} (hp : Prints b ports p s (.ok a t) sh)
    (hf : Prints b ports (fun n => f n a) t r sh') :
    Prints b ports (fun n => p n >>= f n) s r (sh ++ sh') := by
  obtain ⟨tr, hset, rfl, hin⟩ := hp
  obtain ⟨tr', hset', rfl, hin'⟩ := hf
  refine ⟨tr ++ tr', hset.bind hset', shown_append tr tr', ?_⟩
  intro e he
  rcases List.mem_append.1 he with he | he
  · exact hin e he
  · exact hin' e he

theorem bind_error {p : Nat → ConsoleM α} {f : Nat → α → ConsoleM β} {e : Fault}
    {sh : List Shown} (hp : Prints b ports p s (.error e t) sh) :
    Prints b ports (fun n => p n >>= f n) s (.error e t) sh := by
  obtain ⟨tr, hset, hsh, hin⟩ := hp
  exact ⟨tr, hset.bind_error, hsh, hin⟩

theorem succ {p : Nat → ConsoleM α} {r : EStateM.Result Fault σ α} {sh : List Shown}
    (h : Prints b ports (fun n => p (n + 1)) s r sh) : Prints b ports p s r sh := by
  obtain ⟨tr, hset, hsh, hin⟩ := h
  exact ⟨tr, hset.succ, hsh, hin⟩

theorem pure (a : α) : Prints b ports (fun _ => pure a) s (.ok a s) [] :=
  ⟨[], .const _ _ _, rfl, fun _ he => absurd he List.not_mem_nil⟩

theorem fail (f : Fault) : Prints b ports (fun _ => (.fail f : ConsoleM α)) s (.error f s) [] :=
  ⟨[], .const _ _ _, rfl, fun _ he => absurd he List.not_mem_nil⟩

theorem perform (op : ConsoleOp) (hop : ReadsWithin ⟨s, op, (consoleDevice b ports op s).1⟩) :
    Prints b ports (fun _ => Prog.perform op) s
      (.ok (consoleDevice b ports op s).1 (consoleDevice b ports op s).2)
      (shown [⟨s, op, (consoleDevice b ports op s).1⟩]) := by
  refine ⟨_, .const _ _ _, rfl, ?_⟩
  intro e he
  rw [Prog.events_perform, List.mem_singleton] at he
  rw [he]
  exact hop

theorem charAt {str : CString} {i : Nat} (hi : i ≤ str.chars.length) :
    Prints b ports (fun _ => charAt str i) s (.ok (str.byte b i) s) [] :=
  perform (.charAt str i) hi

theorem vaArg (ap : VaList) :
    Prints b ports (fun _ => vaArg ap) s (.ok (ap.headD b.arg) s) [.arg (ap.headD b.arg)] :=
  perform (.vaArg ap) trivial

theorem vgaPut (c : BitVec 8) : Prints b ports (fun _ => callVgaPut c) s (.ok () s) [.vga c] :=
  perform (.vgaPut c) trivial

theorem serialPut (port : BitVec 16) (c : BitVec 8) :
    Prints b ports (fun _ => callSerialPut port c) s (.ok () s) [.serial port c] :=
  perform (.serialPut port c) trivial

theorem serialDrain (port : BitVec 16) :
    Prints b ports (fun _ => Prog.perform (ConsoleOp.serialDrain port)) s (.ok () s)
      [.drain port] :=
  perform (.serialDrain port) trivial

theorem assert {cond : Bool} {text : String} (h : cond = true) :
    Prints b ports (fun _ => consoleAssert cond text) s (.ok () s) [] := by
  subst h
  exact pure ()

theorem assert_fails {cond : Bool} {text : String} (h : cond = false) :
    Prints b ports (fun _ => consoleAssert cond text) s (.error (.assertion text) s) [] := by
  subst h
  exact fail _

end Prints

/-! ### The writers of numbers and strings -/

def writeNb (digits : CString) (put : BitVec 8 → ConsoleM Unit) :
    Nat → BitVec 32 → BitVec 8 → ConsoleM Unit
  | 0, _, _ => .fail .outOfFuel
  | fuel + 1, nb, base => do
    consoleAssert (base ≤ 16) "base <= 16 && \"Base should be <= 16\""
    if base = 0 then .fail .divideError
    if nb > base.setWidth 32 then writeNb digits put fuel (nb / base.setWidth 32) base
    let digit ← charAt digits (nb % base.setWidth 32).toNat
    put digit

theorem vgaWriteNb_eq : vgaWriteNb = writeNb vgaDigits callVgaPut := by
  funext fuel
  induction fuel with
  | zero => rfl
  | succ n ih =>
    funext nb base
    rw [vgaWriteNb, writeNb, ih]

theorem serialWriteNb_eq (port : BitVec 16) :
    serialWriteNb port = writeNb serialDigits (callSerialPut port) := by
  funext fuel
  induction fuel with
  | zero => rfl
  | succ n ih =>
    funext nb base
    rw [serialWriteNb, writeNb, ih]

variable {b : Beyond} {ports : PortDevice σ} {s : σ}

theorem digit_byte (b : Beyond) {n : Nat} (hn : n < 16) :
    (CString.lit "0123456789ABCDEF").byte b n = digitChar n := by
  have hlen : (CString.lit "0123456789ABCDEF").chars.length = 16 := by decide
  rw [CString.byte, if_pos (by omega), digitChar]

/-- The recursion goes down by division, from the most significant digit on. -/
theorem writeNb_prints {digits : CString} {put : BitVec 8 → ConsoleM Unit}
    {show1 : BitVec 8 → Shown} (hdigits : digits = .lit "0123456789ABCDEF")
    (hput : ∀ c, Prints b ports (fun _ => put c) s (.ok () s) [show1 c])
    {base : BitVec 8} (hlow : 2 ≤ base.toNat) (hhigh : base.toNat ≤ 16) (nb : BitVec 32) :
    Prints b ports (fun n => writeNb digits put n nb base) s (.ok () s)
      ((writtenDigits base.toNat nb.toNat).map show1) := by
  subst hdigits
  have hlen : (CString.lit "0123456789ABCDEF").chars.length = 16 := by decide
  have hassert : decide (base ≤ 16) = true := decide_eq_true (by bv_omega)
  have hzero : base ≠ 0 := by bv_omega
  have hbase : (base.setWidth 32).toNat = base.toNat := by
    rw [BitVec.toNat_setWidth]
    omega
  generalize hk : nb.toNat = k
  induction k using Nat.strongRecOn generalizing nb with
  | ind k ih =>
    have hmod : (nb % base.setWidth 32).toNat = k % base.toNat := by
      rw [BitVec.toNat_umod, hbase, hk]
    have hdigit : k % base.toNat < 16 := Nat.lt_of_lt_of_le (Nat.mod_lt _ (by omega)) hhigh
    have hlast : Prints b ports (fun _ => do
        let digit ← charAt (.lit "0123456789ABCDEF") (nb % base.setWidth 32).toNat
        put digit) s (.ok () s) [show1 (digitChar (k % base.toNat))] := by
      rw [hmod, ← digit_byte b hdigit]
      exact (Prints.charAt (by omega)).bind (hput _)
    apply Prints.succ
    simp only [writeNb, hzero, ↓reduceIte]
    rw [writtenDigits]
    apply (Prints.assert hassert).bind
    by_cases hmore : nb > base.setWidth 32
    · have hlt : base.toNat < k := by
        rw [← hbase, ← hk]
        exact hmore
      have hdiv : (nb / base.setWidth 32).toNat = k / base.toNat := by
        rw [BitVec.toNat_udiv, hbase, hk]
      have hrec := ih _ (Nat.div_lt_self (by omega) (by omega)) (nb / base.setWidth 32) hdiv
      simp only [if_pos hmore]
      rw [if_pos ⟨hlow, hlt⟩, List.map_append]
      exact hrec.bind hlast
    · have hnot : ¬ (2 ≤ base.toNat ∧ base.toNat < k) := by
        rintro ⟨-, hlt⟩
        rw [← hbase, ← hk] at hlt
        exact hmore hlt
      simp only [if_neg hmore]
      rw [if_neg hnot]
      exact hlast

theorem vgaWriteNb_prints {base : BitVec 8} (hlow : 2 ≤ base.toNat) (hhigh : base.toNat ≤ 16)
    (nb : BitVec 32) :
    Prints b ports (fun n => vgaWriteNb n nb base) s (.ok () s)
      ((writtenDigits base.toNat nb.toNat).map .vga) := by
  rw [vgaWriteNb_eq]
  exact writeNb_prints rfl Prints.vgaPut hlow hhigh nb

theorem serialWriteNb_prints (port : BitVec 16) {base : BitVec 8} (hlow : 2 ≤ base.toNat)
    (hhigh : base.toNat ≤ 16) (nb : BitVec 32) :
    Prints b ports (fun n => serialWriteNb port n nb base) s (.ok () s)
      ((writtenDigits base.toNat nb.toNat).map (.serial port)) := by
  rw [serialWriteNb_eq]
  exact writeNb_prints rfl (Prints.serialPut port) hlow hhigh nb

def writeNbSigned (put : BitVec 8 → ConsoleM Unit)
    (write : Nat → BitVec 32 → BitVec 8 → ConsoleM Unit) (fuel : Nat) (nb : BitVec 32)
    (base : BitVec 8) : ConsoleM Unit := do
  consoleAssert (base = 10) "base == 10"
  if nb.slt 0 then
    put 0x2D
    write fuel (-nb) base
  else write fuel nb base

theorem vgaWriteNbSigned_eq (fuel : Nat) :
    vgaWriteNbSigned fuel = writeNbSigned callVgaPut vgaWriteNb fuel := rfl

theorem serialWriteNbSigned_eq (fuel : Nat) (port : BitVec 16) :
    serialWriteNbSigned fuel port =
      writeNbSigned (callSerialPut port) (serialWriteNb port) fuel := rfl

theorem writeNbSigned_prints {put : BitVec 8 → ConsoleM Unit}
    {write : Nat → BitVec 32 → BitVec 8 → ConsoleM Unit} {show1 : BitVec 8 → Shown}
    (hput : ∀ c, Prints b ports (fun _ => put c) s (.ok () s) [show1 c])
    (hwrite : ∀ nb, Prints b ports (fun n => write n nb 10) s (.ok () s)
      ((writtenDigits 10 nb.toNat).map show1)) (nb : BitVec 32) :
    Prints b ports (fun n => writeNbSigned put write n nb 10) s (.ok () s)
      ((writtenSigned nb).map show1) := by
  simp only [writeNbSigned, writtenSigned]
  apply (Prints.assert rfl).bind
  by_cases hneg : nb.slt 0 = true
  · simp only [if_pos hneg]
    exact (hput 0x2D).bind (hwrite (-nb))
  · simp only [if_neg hneg]
    exact hwrite nb

theorem vgaWriteNbSigned_prints (nb : BitVec 32) :
    Prints b ports (fun n => vgaWriteNbSigned n nb 10) s (.ok () s)
      ((writtenSigned nb).map .vga) := by
  simp only [vgaWriteNbSigned_eq]
  exact writeNbSigned_prints Prints.vgaPut (vgaWriteNb_prints (by decide) (by decide)) nb

theorem serialWriteNbSigned_prints (port : BitVec 16) (nb : BitVec 32) :
    Prints b ports (fun n => serialWriteNbSigned n port nb 10) s (.ok () s)
      ((writtenSigned nb).map (.serial port)) := by
  simp only [serialWriteNbSigned_eq]
  exact writeNbSigned_prints (Prints.serialPut port)
    (serialWriteNb_prints port (by decide) (by decide)) nb

theorem CString.byte_of_drop (b : Beyond) {str : CString} {i : Nat} {c : BitVec 8}
    {cs : List (BitVec 8)} (h : str.chars.drop i = c :: cs) :
    i < str.chars.length ∧ str.byte b i = c ∧ c ≠ 0 ∧ str.chars.drop (i + 1) = cs := by
  have hi : i < str.chars.length := by
    by_contra hge
    rw [List.drop_eq_nil_of_le (Nat.le_of_not_lt hge)] at h
    cases h
  rw [List.drop_eq_getElem_cons hi] at h
  obtain ⟨hc, hcs⟩ := List.cons.inj h
  refine ⟨hi, (byte_of_lt b hi).trans hc, ?_, hcs⟩
  rw [← hc]
  exact str.noNul _ (List.getElem_mem hi)

theorem CString.byte_of_drop_nil (b : Beyond) {str : CString} {i : Nat}
    (hi : i ≤ str.chars.length) (h : str.chars.drop i = []) : str.byte b i = 0 := by
  have hlen : i = str.chars.length := Nat.le_antisymm hi (List.drop_eq_nil_iff.1 h)
  rw [hlen]
  exact byte_length b str

theorem vgaWriteChars_prints {str : CString} {i : Nat} {cs : List (BitVec 8)}
    (hi : i ≤ str.chars.length) (hcs : str.chars.drop i = cs) :
    Prints b ports (fun n => vgaWriteChars str n i) s (.ok () s) (cs.map .vga) := by
  induction cs generalizing i with
  | nil =>
    apply Prints.succ
    apply (Prints.charAt hi).bind
    simp only [CString.byte_of_drop_nil b hi hcs, ne_eq, not_true_eq_false, ↓reduceIte]
    exact .pure ()
  | cons c cs ih =>
    obtain ⟨hlt, hbyte, hc, htail⟩ := CString.byte_of_drop b hcs
    apply Prints.succ
    apply (Prints.charAt hi).bind
    simp only [hbyte, ne_eq, hc, not_false_eq_true, ↓reduceIte]
    apply (Prints.charAt hi).bind
    rw [hbyte]
    exact (Prints.vgaPut c).bind (ih hlt htail)

theorem serialWriteChars_prints (port : BitVec 16) {str : CString} {i : Nat}
    {cs : List (BitVec 8)} (hi : i ≤ str.chars.length) (hcs : str.chars.drop i = cs) :
    Prints b ports (fun n => serialWriteChars port str n i) s (.ok () s)
      ((cs.flatMap withReturn).map (.serial port)) := by
  induction cs generalizing i with
  | nil =>
    apply Prints.succ
    apply (Prints.charAt hi).bind
    simp only [CString.byte_of_drop_nil b hi hcs, ne_eq, not_true_eq_false, ↓reduceIte]
    exact .pure ()
  | cons c cs ih =>
    obtain ⟨hlt, hbyte, hc, htail⟩ := CString.byte_of_drop b hcs
    apply Prints.succ
    apply (Prints.charAt hi).bind
    simp only [hbyte, ne_eq, hc, not_false_eq_true, ↓reduceIte]
    apply (Prints.charAt hi).bind
    rw [hbyte, List.flatMap_cons, List.map_append, withReturn]
    by_cases hlf : c = 0x0A
    · subst hlf
      refine (Prints.serialPut port 0x0A).bind ((Prints.charAt hi).bind ?_)
      simp only [hbyte, ↓reduceIte]
      exact (Prints.serialPut port 0x0D).bind (ih hlt htail)
    · rw [if_neg hlf]
      refine (Prints.serialPut port c).bind (?_ : Prints b ports _ s _ _)
      refine (Prints.charAt hi).bind (?_ : Prints b ports _ s _ _)
      simp only [hbyte, hlf, ↓reduceIte]
      exact ih hlt htail

theorem vgaWriteStr_prints {str : VaArg} (h : str.word ≠ 0) :
    Prints b ports (fun n => vgaWriteStr n str) s (.ok () s) (str.str.chars.map .vga) :=
  (Prints.assert (decide_eq_true h)).bind (vgaWriteChars_prints (Nat.zero_le _) rfl)

theorem vgaWriteStr_null {str : VaArg} (h : str.word = 0) :
    Prints b ports (fun n => vgaWriteStr n str) s (.error (.assertion "str") s) [] :=
  (Prints.assert_fails (decide_eq_false (not_not.2 h))).bind_error

theorem serialWriteStr_prints (port : BitVec 16) {str : VaArg} (h : str.word ≠ 0) :
    Prints b ports (fun n => serialWriteStr n port str) s (.ok () s)
      ((str.str.chars.flatMap withReturn).map (.serial port) ++ [.drain port]) :=
  (Prints.assert (decide_eq_true h)).bind
    ((serialWriteChars_prints port (Nat.zero_le _) rfl).bind (Prints.serialDrain port))

theorem serialWriteStr_null (port : BitVec 16) {str : VaArg} (h : str.word = 0) :
    Prints b ports (fun n => serialWriteStr n port str) s (.error (.assertion "str") s) [] :=
  (Prints.assert_fails (decide_eq_false (not_not.2 h))).bind_error

end BordOS
