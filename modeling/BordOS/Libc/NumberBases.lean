import BordOS.Libc.Printf

namespace BordOS
open Library
set_option autoImplicit true
set_option relaxedAutoImplicit false

/-- A read of the digit table stays below 16, where its terminator is. -/
def ConsoleOp.IndexesDigit (op : ConsoleOp) : Prop := ∀ str i, op = .charAt str i → i < 16

theorem serialPut_indexes (port : BitVec 16) (c : BitVec 8) :
    (callSerialPut port c).Uses ConsoleOp.IndexesDigit := by
  apply Prog.Uses.perform
  intro str i h
  cases h

theorem vgaPut_indexes (c : BitVec 8) : (callVgaPut c).Uses ConsoleOp.IndexesDigit := by
  apply Prog.Uses.perform
  intro str i h
  cases h

theorem consoleAssert_indexes (cond : Bool) (text : String) :
    (consoleAssert cond text).Uses ConsoleOp.IndexesDigit := by
  cases cond with
  | true => exact .pure ()
  | false => exact .fail _

variable {digits : CString} {put : BitVec 8 → ConsoleM Unit} {base : BitVec 8} {nb : BitVec 32}

theorem digit_lt (hbase : base ≤ 16) (hzero : base ≠ 0) :
    (nb % base.setWidth 32).toNat < 16 := by
  have hpos : base.toNat ≠ 0 := by
    intro h
    exact hzero (BitVec.eq_of_toNat_eq h)
  have hle : base.toNat ≤ 16 := hbase
  have hwide : (base.setWidth 32).toNat = base.toNat := by
    rw [BitVec.toNat_setWidth]
    omega
  rw [BitVec.toNat_umod, hwide]
  exact Nat.lt_of_lt_of_le (Nat.mod_lt _ (Nat.pos_of_ne_zero hpos)) hle

theorem writeNb_indexes (hput : ∀ c, (put c).Uses ConsoleOp.IndexesDigit) (hbase : base ≤ 16)
    (fuel : Nat) (nb : BitVec 32) :
    (writeNb digits put fuel nb base).Uses ConsoleOp.IndexesDigit := by
  induction fuel generalizing nb with
  | zero => exact .fail _
  | succ n ih =>
    simp only [writeNb]
    apply (consoleAssert_indexes _ _).bind
    intro _
    by_cases hzero : base = 0
    · simp only [if_pos hzero]
      exact .fail _
    · have hdigit : (charAt digits (nb % base.setWidth 32).toNat).Uses
          ConsoleOp.IndexesDigit := by
        apply Prog.Uses.perform
        intro str i h
        cases h
        exact digit_lt hbase hzero
      have hlast : (do
          let digit ← charAt digits (nb % base.setWidth 32).toNat
          put digit : ConsoleM Unit).Uses ConsoleOp.IndexesDigit :=
        hdigit.bind hput
      simp only [if_neg hzero]
      by_cases hmore : nb > base.setWidth 32
      · simp only [if_pos hmore]
        exact (ih _).bind fun _ => hlast
      · simp only [if_neg hmore]
        exact hlast

variable {d : Device ConsoleOp ConsoleOp.Reply σ} {b : Beyond} {ports : PortDevice σ} {s : σ}

theorem writeNb_base_zero (fuel : Nat) (nb : BitVec 32) (s : σ) :
    (writeNb digits put (fuel + 1) nb 0).run d s = .error .divideError s := rfl

/-- In base 1 the quotient is the number again. -/
theorem writeNb_base_one (fuel : Nat) (hnb : 1 < nb) (s : σ) :
    (writeNb digits put fuel nb 1).run d s = .error .outOfFuel s := by
  have hassert : consoleAssert ((1 : BitVec 8) ≤ 16)
      "base <= 16 && \"Base should be <= 16\"" = pure () := rfl
  have hquotient : nb / BitVec.setWidth 32 (1 : BitVec 8) = nb := by
    apply BitVec.eq_of_toNat_eq
    rw [BitVec.toNat_udiv]
    exact Nat.div_one _
  induction fuel with
  | zero => rfl
  | succ n ih =>
    have hone : (1 : BitVec 8) ≠ 0 := by decide
    have hmore : nb > BitVec.setWidth 32 (1 : BitVec 8) := hnb
    simp only [writeNb, hassert, if_neg hone, if_pos hmore, hquotient, Prog.run_bind,
      Prog.run_pure, ih]

theorem writeNb_base_one_returns {show1 : BitVec 8 → Shown}
    (hput : ∀ c, Prints b ports (fun _ => put c) s (.ok () s) [show1 c]) (hnb : nb ≤ 1) :
    Prints b ports (fun n => writeNb vgaDigits put n nb 1) s (.ok () s)
      [show1 (digitChar 0)] := by
  have hone : (1 : BitVec 8) ≠ 0 := by decide
  have hmore : ¬ nb > BitVec.setWidth 32 (1 : BitVec 8) := by
    have hle : nb ≤ BitVec.setWidth 32 (1 : BitVec 8) := hnb
    exact BitVec.not_lt.2 hle
  have hdigit : (nb % BitVec.setWidth 32 (1 : BitVec 8)).toNat = 0 := by
    rw [BitVec.toNat_umod]
    exact Nat.mod_one _
  apply Prints.succ
  simp only [writeNb, if_neg hone, if_neg hmore, hdigit]
  apply (Prints.assert rfl).bind
  have hchar : Prints b ports (fun _ => charAt vgaDigits 0) s (.ok (digitChar 0) s) [] :=
    Prints.charAt (by decide)
  exact hchar.bind (hput _)

/-- Enough fuel makes a digit writer return, and whatever its fuel it does not divide by zero and
reads the digit table below 16. -/
structure DigitWriterTotal (d : Device ConsoleOp ConsoleOp.Reply σ) (write : Nat → ConsoleM Unit)
    (s : σ) : Prop where
  ends : Prog.Converges d write s () s
  divides : ∀ n t, (write n).run d s ≠ .error .divideError t
  index : ∀ n, (write n).Uses ConsoleOp.IndexesDigit

theorem writeNb_run (hput : ∀ c, (put c).run (consoleDevice b ports) s = .ok () s)
    (hbase : base ≤ 16) (hzero : base ≠ 0) (fuel : Nat) (nb : BitVec 32) :
    (writeNb digits put fuel nb base).run (consoleDevice b ports) s = .ok () s ∨
      (writeNb digits put fuel nb base).run (consoleDevice b ports) s = .error .outOfFuel s := by
  have hassert : consoleAssert (base ≤ 16) "base <= 16 && \"Base should be <= 16\"" = pure () := by
    rw [consoleAssert, if_pos (decide_eq_true hbase)]
  induction fuel generalizing nb with
  | zero => exact .inr rfl
  | succ n ih =>
    have hlast (i : Nat) : (do
        let digit ← charAt digits i
        put digit : ConsoleM Unit).run (consoleDevice b ports) s = .ok () s := hput _
    simp only [writeNb, hassert, if_neg hzero]
    by_cases hmore : nb > base.setWidth 32
    · simp only [if_pos hmore]
      rcases ih (nb / base.setWidth 32) with hrun | hrun
      · left
        simp only [Prog.run_bind, Prog.run_pure, hrun]
        exact hlast _
      · right
        simp only [Prog.run_bind, Prog.run_pure, hrun]
    · simp only [if_neg hmore]
      exact .inl (hlast _)

theorem writeNb_total_iff {show1 : BitVec 8 → Shown}
    (hput : ∀ c, Prints b ports (fun _ => put c) s (.ok () s) [show1 c])
    (hindex : ∀ c, (put c).Uses ConsoleOp.IndexesDigit) (hbase : base ≤ 16) :
    DigitWriterTotal (consoleDevice b ports) (fun n => writeNb vgaDigits put n nb base) s ↔
      2 ≤ base ∨ base = 1 ∧ nb ≤ 1 := by
  constructor
  · intro htotal
    obtain ⟨N, hN⟩ := htotal.ends
    have hrun := hN (N + 1) (Nat.le_succ N)
    by_contra hcond
    rw [not_or] at hcond
    by_cases hzero : base = 0
    · subst hzero
      rw [writeNb_base_zero] at hrun
      cases hrun
    · have hone : base = 1 := by bv_omega
      have hnb : 1 < nb := by
        rw [← BitVec.not_le]
        intro hle
        exact hcond.2 ⟨hone, hle⟩
      subst hone
      rw [writeNb_base_one (N + 1) hnb] at hrun
      cases hrun
  · intro hcond
    have hzero : base ≠ 0 := by bv_omega
    refine ⟨?_, ?_, fun n => writeNb_indexes hindex hbase n nb⟩
    · rcases hcond with hlow | ⟨rfl, hnb⟩
      · obtain ⟨tr, hset, -⟩ := writeNb_prints rfl hput hlow hbase nb
        exact hset.converges
      · obtain ⟨tr, hset, -⟩ := writeNb_base_one_returns hput hnb
        exact hset.converges
    · intro n t herror
      have hrun (c : BitVec 8) : (put c).run (consoleDevice b ports) s = .ok () s := by
        obtain ⟨tr, ⟨N, hN⟩, -⟩ := hput c
        exact (hN N (Nat.le_refl N)).1
      rcases writeNb_run hrun hbase hzero n nb with hrun | hrun
      · rw [hrun] at herror
        cases herror
      · rw [hrun] at herror
        cases herror

/-- The assertion has no lower end. The writers are total on a base that it admits unless the base
is 0, where the division faults, or 1 with a number above 1, where the recursion has no end. -/
theorem digit_writers_total_iff (b : Beyond) (ports : PortDevice σ) (s : σ) (port : BitVec 16)
    (nb : BitVec 32) (base : BitVec 8) (hbase : base ≤ 16) :
    (DigitWriterTotal (consoleDevice b ports) (fun n => serialWriteNb port n nb base) s ∧
      DigitWriterTotal (consoleDevice b ports) (fun n => vgaWriteNb n nb base) s) ↔
      2 ≤ base ∨ base = 1 ∧ nb ≤ 1 := by
  rw [serialWriteNb_eq, vgaWriteNb_eq]
  constructor
  · intro h
    exact (writeNb_total_iff Prints.vgaPut vgaPut_indexes hbase).mp h.2
  · intro h
    exact ⟨(writeNb_total_iff (Prints.serialPut port) (serialPut_indexes port) hbase).mpr h,
      (writeNb_total_iff Prints.vgaPut vgaPut_indexes hbase).mpr h⟩

theorem digit_writers_total_in_base_ten :
    (DigitWriterTotal (consoleDevice ⟨fun _ _ => 0, ⟨0, .lit ""⟩⟩ emptyBus)
        (fun n => serialWriteNb 0x3F8 n 1000 10) () ∧
      DigitWriterTotal (consoleDevice ⟨fun _ _ => 0, ⟨0, .lit ""⟩⟩ emptyBus)
        (fun n => vgaWriteNb n 1000 10) ()) ↔
      (2 : BitVec 8) ≤ 10 ∨ (10 : BitVec 8) = 1 ∧ (1000 : BitVec 32) ≤ 1 :=
  digit_writers_total_iff _ _ _ _ _ _ (by decide)

/-- Base 0 divides by zero, and base 1 never gets from 2 to its last digit. -/
theorem digit_writers_not_total :
    (0 : BitVec 8) ≤ 16 ∧ (1 : BitVec 8) ≤ 16 ∧ ¬ ∃ (b : Beyond) (ports : PortDevice Unit),
      DigitWriterTotal (consoleDevice b ports) (fun n => serialWriteNb 0x3F8 n 7 0) () ∨
        DigitWriterTotal (consoleDevice b ports) (fun n => vgaWriteNb n 2 1) () := by
  refine ⟨by decide, by decide, ?_⟩
  rintro ⟨b, ports, hserial | hvga⟩
  · exact hserial.divides 1 () rfl
  · obtain ⟨N, hN⟩ := hvga.ends
    have hrun := hN N (Nat.le_refl N)
    rw [vgaWriteNb_eq, writeNb_base_one N (by decide)] at hrun
    cases hrun

end BordOS
