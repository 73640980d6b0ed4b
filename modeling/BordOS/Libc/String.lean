import BordOS.Library.ByteMemory

namespace BordOS
open Library
set_option autoImplicit true
set_option relaxedAutoImplicit false

/-- `memcpy`: the loop stores the bytes upwards, and the result is the destination. -/
def memcpy (m : Memory) (dst src n : BitVec 32) : BitVec 32 × Memory :=
  (dst, m.copyUp dst src n.toNat)

def InBytes (p n a : BitVec 32) : Prop := p.toNat ≤ a.toNat ∧ a.toNat < p.toNat + n.toNat

def FitsBytes (p n : BitVec 32) : Prop := p.toNat + n.toNat ≤ 2 ^ 32

variable {m : Memory} {dst src n a : BitVec 32}

theorem source_ahead (hdst : FitsBytes dst n) (hsrc : FitsBytes src n)
    (h : dst ≤ src ∨ ∀ a, InBytes dst n a → ¬ InBytes src n a) :
    (src - dst).toNat + n.toNat ≤ 2 ^ 32 := by
  rw [FitsBytes] at hdst hsrc
  rw [BitVec.toNat_sub]
  rcases h with hle | hdisjoint
  · rw [BitVec.le_def] at hle
    omega
  · have hstart := hdisjoint dst
    simp only [InBytes] at hstart
    omega

theorem copied_byte (hgap : (src - dst).toNat + n.toNat ≤ 2 ^ 32) {i : BitVec 32} (hi : i < n) :
    m.copyUp dst src n.toNat (dst + i) = m (src + i) := by
  have hoff : dst + i - dst = i := by
    rw [BitVec.add_comm, BitVec.add_sub_cancel]
  rw [Memory.copyUp_apply hgap, hoff, if_pos (BitVec.lt_def.1 hi)]

theorem kept_byte (hdst : FitsBytes dst n) (ha : ¬ InBytes dst n a) :
    m.copyUp dst src n.toNat a = m a := by
  apply Memory.copyUp_outside
  rw [FitsBytes] at hdst
  rw [InBytes] at ha
  rw [BitVec.toNat_sub]
  omega

/-- `memcpy` moves its source also when it overlaps the destination from above. -/
theorem memcpy_moves_down (m : Memory) (dst src n : BitVec 32) (hdst : FitsBytes dst n)
    (hsrc : FitsBytes src n) (h : dst ≤ src ∨ ∀ a, InBytes dst n a → ¬ InBytes src n a) :
    (∀ i < n, (memcpy m dst src n).2 (dst + i) = m (src + i)) ∧
      ∀ a, ¬ InBytes dst n a → (memcpy m dst src n).2 a = m a := by
  constructor
  · intro i hi
    exact copied_byte (source_ahead hdst hsrc h) hi
  · intro a ha
    exact kept_byte hdst ha

/-- Three bytes that move down by one. -/
theorem memcpy_moves_down_by_one :
    (∀ i < 3, (memcpy (fun a => a.setWidth 8) 0x1000 0x1001 3).2 (0x1000 + i) =
        (0x1001 + i).setWidth 8) ∧
      ∀ a, ¬ InBytes 0x1000 3 a →
        (memcpy (fun a => a.setWidth 8) 0x1000 0x1001 3).2 a = a.setWidth 8 :=
  memcpy_moves_down (fun a => a.setWidth 8) 0x1000 0x1001 3 (by rw [FitsBytes]; decide)
    (by rw [FitsBytes]; decide) (.inl (by decide))

end BordOS
