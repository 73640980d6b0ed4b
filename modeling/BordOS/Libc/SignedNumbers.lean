import Mathlib.Algebra.Group.Int.Defs
import BordOS.Libc.Printf

namespace BordOS
open Library
set_option autoImplicit true
set_option relaxedAutoImplicit false

def Int32Range (i : Int) : Prop := -2 ^ 31 ≤ i ∧ i < 2 ^ 31

/-- The multiplication of `int32_t`. A product out of range has no defined value. -/
structure SignedMul where
  mul : BitVec 32 → BitVec 32 → BitVec 32
  exact : ∀ a b, Int32Range (a.toInt * b.toInt) → (mul a b).toInt = a.toInt * b.toInt

def wrappingMul : SignedMul where
  mul a b := a * b
  exact a b h := by
    rw [Int32Range] at h
    rw [BitVec.toInt_mul]
    exact Int.bmod_eq_of_le (by omega) (by omega)

/-- What a signed writer does: it multiplies, puts a character or calls its digit writer. -/
inductive SignedOp where
  | mul (a b : BitVec 32)
  | put (c : BitVec 8)
  | writeNb (nb : BitVec 32) (base : BitVec 8)
deriving DecidableEq

abbrev SignedOp.Reply : SignedOp → Type
  | .mul _ _ => BitVec 32
  | .put _ | .writeNb _ _ => Unit

abbrev SignedM := Prog SignedOp SignedOp.Reply Fault

/-- `serial_write_nb_signed` and `vga_write_nb_signed`, with the multiplication that they make. -/
def writeNbSignedSteps (nb : BitVec 32) (base : BitVec 8) : SignedM Unit := do
  if base = 10 then pure () else .fail (.assertion "base == 10")
  let nb ← if nb.slt 0 then do
      Prog.perform (SignedOp.put 0x2D)
      Prog.perform (SignedOp.mul nb (-1))
    else pure nb
  Prog.perform (SignedOp.writeNb nb base)

def SignedMul.carriedOut (c : SignedMul) (put : BitVec 8 → ConsoleM Unit)
    (write : BitVec 32 → BitVec 8 → ConsoleM Unit) : (op : SignedOp) → ConsoleM op.Reply
  | .mul a b => pure (c.mul a b)
  | .put ch => put ch
  | .writeNb nb base => write nb base

theorem writeNbSigned_steps (put : BitVec 8 → ConsoleM Unit)
    (write : Nat → BitVec 32 → BitVec 8 → ConsoleM Unit) (fuel : Nat) (nb : BitVec 32)
    (base : BitVec 8) :
    (writeNbSignedSteps nb base).translate (wrappingMul.carriedOut put (write fuel)) =
      writeNbSigned put write fuel nb base := by
  have hproduct : nb * (-1) = -nb := by
    rw [BitVec.mul_neg]
    exact congrArg (- ·) (BitVec.mul_one nb)
  by_cases hbase : base = 10
  · by_cases hneg : nb.slt 0 = true
    · simp only [writeNbSignedSteps, writeNbSigned, consoleAssert, hbase, hneg, decide_true,
        ↓reduceIte, pure_bind, Prog.translate_bind, Prog.translate_perform,
        SignedMul.carriedOut, wrappingMul, hproduct]
    · simp only [writeNbSignedSteps, writeNbSigned, consoleAssert, hbase, hneg, decide_true,
        ↓reduceIte, Bool.false_eq_true, pure_bind, Prog.translate_perform, SignedMul.carriedOut]
  · simp only [writeNbSignedSteps, writeNbSigned, consoleAssert, hbase, decide_false,
      ↓reduceIte, Bool.false_eq_true, Prog.translate_bind, Prog.translate_fail]
    rfl

def SignedOp.InRange : SignedOp → Prop
  | .mul a b => Int32Range (a.toInt * b.toInt)
  | .put _ | .writeNb _ _ => True

def SignedOp.handed : SignedOp → Option (BitVec 32)
  | .writeNb nb _ => some nb
  | .mul _ _ | .put _ => none

def SignedMul.device (c : SignedMul) : Device SignedOp SignedOp.Reply Unit
  | .mul a b, s => (c.mul a b, s)
  | .put _, s | .writeNb _ _, s => ((), s)

def SignedMul.trace (c : SignedMul) (nb : BitVec 32) : List SignedOp :=
  ((writeNbSignedSteps nb 10).events c.device ()).map Event.op

theorem trace_negative (c : SignedMul) {nb : BitVec 32} (h : nb.slt 0 = true) :
    c.trace nb = [.put 0x2D, .mul nb (-1), .writeNb (c.mul nb (-1)) 10] := by
  simp only [SignedMul.trace, writeNbSignedSteps, h, ↓reduceIte]
  rfl

theorem trace_nonnegative (c : SignedMul) {nb : BitVec 32} (h : ¬ nb.slt 0 = true) :
    c.trace nb = [.writeNb nb 10] := by
  simp only [SignedMul.trace, writeNbSignedSteps, h, ↓reduceIte]
  rfl

theorem product_inRange_iff (nb : BitVec 32) :
    Int32Range (nb.toInt * (-1 : BitVec 32).toInt) ↔ nb ≠ 0x80000000 := by
  have hone : (-1 : BitVec 32).toInt = -1 := rfl
  have hmin : (0x80000000 : BitVec 32).toInt = -2 ^ 31 := rfl
  have hlow : -2 ^ 31 ≤ nb.toInt := BitVec.le_toInt nb
  have hhigh : nb.toInt < 2 ^ 31 := BitVec.toInt_lt
  rw [Int32Range, hone]
  constructor
  · rintro ⟨-, hlt⟩ rfl
    rw [hmin] at hlt
    omega
  · intro hne
    have hne' : nb.toInt ≠ -2 ^ 31 := by
      intro heq
      exact hne (BitVec.eq_of_toInt_eq (heq.trans hmin.symm))
    omega

theorem toNat_of_toInt {v : BitVec 32} {n : Nat} (h : v.toInt = n) : v.toNat = n := by
  have hcond := BitVec.toInt_eq_toNat_cond v
  have hlt := v.isLt
  split at hcond
  · omega
  · omega

/-- No multiplication overflows, and the digit writer gets the absolute value. -/
structure SignedMul.Exact (c : SignedMul) (nb : BitVec 32) : Prop where
  inRange : ∀ op ∈ c.trace nb, op.InRange
  handed : ∃ v, (c.trace nb).filterMap SignedOp.handed = [v] ∧ v.toNat = nb.toInt.natAbs

theorem exact_of_inRange (c : SignedMul) {nb : BitVec 32}
    (h : Int32Range (nb.toInt * (-1 : BitVec 32).toInt)) : c.Exact nb := by
  by_cases hneg : nb.slt 0 = true
  · have hlt : nb.toInt < 0 := BitVec.slt_iff_toInt_lt.mp hneg
    constructor
    · rw [trace_negative c hneg]
      simp only [List.forall_mem_cons]
      exact ⟨trivial, h, trivial, fun _ hop => absurd hop List.not_mem_nil⟩
    · rw [trace_negative c hneg]
      refine ⟨c.mul nb (-1), rfl, toNat_of_toInt ?_⟩
      have hone : (-1 : BitVec 32).toInt = -1 := rfl
      rw [c.exact _ _ h, hone]
      omega
  · have hge : 0 ≤ nb.toInt := by
      by_contra hlt
      exact hneg (BitVec.slt_iff_toInt_lt.mpr (Int.not_le.mp hlt))
    constructor
    · rw [trace_nonnegative c hneg]
      intro op hop
      rw [List.mem_singleton] at hop
      rw [hop]
      trivial
    · rw [trace_nonnegative c hneg]
      refine ⟨nb, rfl, toNat_of_toInt ?_⟩
      omega

/-- The sign is taken off by a multiplication, which overflows for the least number and for no
other one. -/
theorem signed_writers_exact_iff (c : SignedMul) (fuel : Nat) (port : BitVec 16)
    (nb : BitVec 32) :
    (writeNbSignedSteps nb 10).translate
        (wrappingMul.carriedOut (callSerialPut port) (serialWriteNb port fuel)) =
      serialWriteNbSigned fuel port nb 10 ∧
    (writeNbSignedSteps nb 10).translate
        (wrappingMul.carriedOut callVgaPut (vgaWriteNb fuel)) =
      vgaWriteNbSigned fuel nb 10 ∧
    (c.Exact nb ↔ nb ≠ 0x80000000) := by
  rw [serialWriteNbSigned_eq, vgaWriteNbSigned_eq, ← product_inRange_iff]
  refine ⟨writeNbSigned_steps _ (serialWriteNb port) fuel nb 10,
    writeNbSigned_steps _ vgaWriteNb fuel nb 10, ?_⟩
  constructor
  · intro h
    by_cases hneg : nb.slt 0 = true
    · apply h.inRange (.mul nb (-1))
      rw [trace_negative c hneg]
      exact .tail _ (.head _)
    · rw [product_inRange_iff]
      rintro rfl
      exact hneg rfl
  · exact exact_of_inRange c

theorem signed_writers_overflow :
    SignedOp.mul 0x80000000 (-1) ∈ wrappingMul.trace 0x80000000 ∧
      ¬ (SignedOp.mul 0x80000000 (-1)).InRange ∧ ¬ wrappingMul.Exact 0x80000000 := by
  have hmem : SignedOp.mul 0x80000000 (-1) ∈ wrappingMul.trace 0x80000000 := .tail _ (.head _)
  have hout : ¬ (SignedOp.mul 0x80000000 (-1)).InRange := fun h =>
    (product_inRange_iff 0x80000000).mp h rfl
  exact ⟨hmem, hout, fun h => hout (h.inRange _ hmem)⟩

end BordOS
