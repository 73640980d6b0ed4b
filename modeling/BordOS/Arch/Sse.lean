import BordOS.Library.ByteMemory

namespace BordOS
open Library
set_option autoImplicit true
set_option relaxedAutoImplicit false

structure Cpuid where
  eax : BitVec 32
  ebx : BitVec 32
  ecx : BitVec 32
  edx : BitVec 32
deriving DecidableEq, Repr

/-- What `cpuid` tells, for each value of `eax`, and the control registers. -/
structure Processor where
  cpuid : BitVec 32 → Cpuid
  cr0 : BitVec 32
  cr4 : BitVec 32

/-- An instruction on `ax` keeps the upper half of `eax`. -/
def onAx (f : BitVec 16 → BitVec 16) (eax : BitVec 32) : BitVec 32 :=
  (eax >>> 16).setWidth 16 ++ f (eax.setWidth 16)

def checkFeature (reg : Cpuid → BitVec 32) (bit : Nat) (p : Processor) : BitVec 32 :=
  if reg (p.cpuid 1) &&& (1 : BitVec 32) <<< bit = 0 then 0 else 1

/-- It also activates SSE. -/
def checkSse (p : Processor) : BitVec 32 × Processor :=
  if (p.cpuid 1).edx &&& (1 : BitVec 32) <<< 25 = 0 then (0, p)
  else (1, { p with
    cr0 := onAx (· ||| 0x2) (onAx (· &&& 0xFFFB) p.cr0)
    cr4 := onAx (· ||| (3 : BitVec 16) <<< 9) p.cr4 })

def checkSse2 := checkFeature Cpuid.edx 26
def checkSse3 := checkFeature Cpuid.ecx 0
def checkSsse3 := checkFeature Cpuid.ecx 9
def checkSse41 := checkFeature Cpuid.ecx 19
def checkSse42 := checkFeature Cpuid.ecx 20
def checkSse4A := checkFeature Cpuid.ecx 6

inductive Extension where
  | sse
  | sse2
  | sse3
  | ssse3
  | sse41
  | sse42
  | sse4A
deriving DecidableEq, Repr

def Processor.reports (leaf : BitVec 32) (reg : Cpuid → BitVec 32) (bit : Nat) (p : Processor) :
    Bool :=
  (reg (p.cpuid leaf)).getLsbD bit

/-- Where the processor reports its extensions: all but SSE4A for `eax = 1`. -/
def Processor.supports (p : Processor) : Extension → Bool
  | .sse => p.reports 1 Cpuid.edx 25
  | .sse2 => p.reports 1 Cpuid.edx 26
  | .sse3 => p.reports 1 Cpuid.ecx 0
  | .ssse3 => p.reports 1 Cpuid.ecx 9
  | .sse41 => p.reports 1 Cpuid.ecx 19
  | .sse42 => p.reports 1 Cpuid.ecx 20
  | .sse4A => p.reports 0x80000001 Cpuid.ecx 6

/-- Safer mode extensions, the bit that `check_sse4A` tests. -/
def Processor.smx (p : Processor) : Bool := p.reports 1 Cpuid.ecx 6

def Processor.finds (p : Processor) : Extension → Bool
  | .sse4A => p.smx
  | x => p.supports x

/-- SSE as the operating system turns it on: no emulation, with a monitor of the coprocessor, and
with `fxsave` and the SIMD exceptions. -/
def Processor.withSse (p : Processor) : Processor :=
  { p with cr0 := p.cr0 &&& ~~~0x4 ||| 0x2, cr4 := p.cr4 ||| 0x600 }

theorem and_bit_eq_zero_iff (x : BitVec 32) {i : Nat} (hi : i < 32) :
    x &&& (1 : BitVec 32) <<< i = 0 ↔ x.getLsbD i = false := by
  have hbit : (1 : BitVec 32) <<< i = BitVec.twoPow 32 i := rfl
  have hpow : BitVec.twoPow 32 i ≠ 0 := by
    intro h
    have hget := congrArg (BitVec.getLsbD · i) h
    simp [hi] at hget
  rw [hbit, BitVec.and_twoPow]
  by_cases hset : x.getLsbD i = true
  · rw [if_pos hset, hset]
    exact ⟨fun h => absurd h hpow, fun h => Bool.noConfusion h⟩
  · rw [if_neg hset, Bool.eq_false_iff.2 hset]
    exact ⟨fun _ => rfl, fun _ => rfl⟩

theorem onAx_and (mask : BitVec 16) (x : BitVec 32) :
    onAx (· &&& mask) x = x &&& (BitVec.allOnes 16 ++ mask) := by
  have hx : (x >>> 16).setWidth 16 ++ x.setWidth 16 = x := @Memory.append_low_high 16 16 x
  calc onAx (· &&& mask) x
      = ((x >>> 16).setWidth 16 &&& BitVec.allOnes 16) ++ (x.setWidth 16 &&& mask) := by
        rw [onAx, BitVec.and_allOnes]
    _ = ((x >>> 16).setWidth 16 ++ x.setWidth 16) &&& (BitVec.allOnes 16 ++ mask) :=
        BitVec.and_append.symm
    _ = x &&& (BitVec.allOnes 16 ++ mask) := by rw [hx]

theorem onAx_or (mask : BitVec 16) (x : BitVec 32) :
    onAx (· ||| mask) x = x ||| (0#16 ++ mask) := by
  have hx : (x >>> 16).setWidth 16 ++ x.setWidth 16 = x := @Memory.append_low_high 16 16 x
  calc onAx (· ||| mask) x
      = ((x >>> 16).setWidth 16 ||| 0#16) ++ (x.setWidth 16 ||| mask) := by
        rw [onAx, BitVec.or_zero]
    _ = ((x >>> 16).setWidth 16 ++ x.setWidth 16) ||| (0#16 ++ mask) := BitVec.or_append.symm
    _ = x ||| (0#16 ++ mask) := by rw [hx]

theorem checkFeature_eq (reg : Cpuid → BitVec 32) {bit : Nat} (hbit : bit < 32) (p : Processor) :
    checkFeature reg bit p = if p.reports 1 reg bit then 1 else 0 := by
  cases hhas : p.reports 1 reg bit with
  | false => exact if_pos ((and_bit_eq_zero_iff _ hbit).2 hhas)
  | true =>
    apply if_neg
    rw [and_bit_eq_zero_iff _ hbit]
    exact fun h => Bool.noConfusion (hhas.symm.trans h)

theorem checkSse_eq (p : Processor) :
    checkSse p = if p.supports .sse then (1, p.withSse) else (0, p) := by
  have hem : onAx (· &&& 0xFFFB) p.cr0 = p.cr0 &&& ~~~0x4 := onAx_and 0xFFFB p.cr0
  have hcr0 : onAx (· ||| 0x2) (p.cr0 &&& ~~~0x4) = p.cr0 &&& ~~~0x4 ||| 0x2 := onAx_or 0x2 _
  have hcr4 : onAx (· ||| (3 : BitVec 16) <<< 9) p.cr4 = p.cr4 ||| 0x600 := onAx_or _ p.cr4
  cases hhas : p.supports .sse with
  | false => exact if_pos ((and_bit_eq_zero_iff _ (by decide)).2 hhas)
  | true =>
    rw [checkSse, if_neg, hem, hcr0, hcr4]
    · rfl
    · rw [and_bit_eq_zero_iff _ (by decide)]
      exact fun h => Bool.noConfusion (hhas.symm.trans h)

theorem finds_eq_supports_iff (p : Processor) :
    p.finds = p.supports ↔ p.smx = p.supports .sse4A := by
  constructor
  · intro h
    exact congrFun h .sse4A
  · intro h
    funext x
    cases x with
    | sse4A => exact h
    | _ => rfl

theorem withSse_withSse (p : Processor) : p.withSse.withSse = p.withSse := by
  have hcr0 (x : BitVec 32) : (x &&& ~~~0x4 ||| 0x2) &&& ~~~0x4 ||| 0x2 = x &&& ~~~0x4 ||| 0x2 := by
    grind
  have hcr4 (x : BitVec 32) : x ||| 0x600 ||| 0x600 = x ||| 0x600 := by
    rw [BitVec.or_assoc, BitVec.or_self]
  simp only [Processor.withSse, hcr0, hcr4]

theorem withSse_bits (p : Processor) (i : Fin 32) :
    p.withSse.cr0.getLsbD i = (decide (i = 1) || decide (i ≠ 2) && p.cr0.getLsbD i) ∧
      p.withSse.cr4.getLsbD i = (decide (i = 9 ∨ i = 10) || p.cr4.getLsbD i) := by
  have hem : ∀ i : Fin 32, (~~~(0x4 : BitVec 32)).getLsbD i = decide (i ≠ 2) := by decide
  have hmp : ∀ i : Fin 32, (0x2 : BitVec 32).getLsbD i = decide (i = 1) := by decide
  have hos : ∀ i : Fin 32, (0x600 : BitVec 32).getLsbD i = decide (i = 9 ∨ i = 10) := by decide
  constructor
  · rw [Processor.withSse, BitVec.getLsbD_or, BitVec.getLsbD_and, hem, hmp, Bool.or_comm,
      Bool.and_comm]
  · rw [Processor.withSse, BitVec.getLsbD_or, hos, Bool.or_comm]

end BordOS
