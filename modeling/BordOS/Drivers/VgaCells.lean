import BordOS.Drivers.Vga

namespace BordOS
open Library
set_option autoImplicit true
set_option relaxedAutoImplicit false

def vgaCell (m : Memory) (k : Nat) : BitVec 16 := m.load16 (vgaCellAddr (BitVec.ofNat 32 k))

theorem vgaCellAddr_offset {k : Nat} (hk : k < 2000) :
    (vgaCellAddr (BitVec.ofNat 32 k) - vgaBuffer).toNat = 2 * k ∧
      (vgaCellAddr (BitVec.ofNat 32 k) + 1 - vgaBuffer).toNat = 2 * k + 1 := by
  simp only [vgaCellAddr, vgaBuffer]
  constructor <;> bv_omega

theorem vgaCellAddr_apart {k l : Nat} (hk : k < 2000) (hl : l < 2000) (h : k ≠ l) :
    2 ≤ (vgaCellAddr (BitVec.ofNat 32 k) - vgaCellAddr (BitVec.ofNat 32 l)).toNat := by
  simp only [vgaCellAddr, vgaBuffer]
  bv_omega

theorem vgaCell_store16 {m : Memory} {k l : Nat} (hk : k < 2000) (hl : l < 2000) (v : BitVec 16) :
    vgaCell (m.store16 (vgaCellAddr (BitVec.ofNat 32 l)) v) k = if k = l then v else vgaCell m k := by
  by_cases h : k = l
  · rw [if_pos h, h, vgaCell, Memory.load16_store16_same]
  · rw [if_neg h]
    exact Memory.load16_store16_other v (vgaCellAddr_apart hk hl h)
      (vgaCellAddr_apart hl hk (Ne.symm h))

theorem vgaCell_fill {m : Memory} {first n k : Nat} (hn : first + n ≤ 2000) (hk : k < 2000)
    (blank : BitVec 16) :
    vgaCell (vgaFill m (BitVec.ofNat 32 first) blank n) k =
      if first ≤ k ∧ k < first + n then blank else vgaCell m k := by
  induction n with
  | zero => rw [vgaFill, if_neg (by omega)]
  | succ n ih =>
    rw [vgaFill, ← BitVec.ofNat_add, vgaCell_store16 hk (by omega), ih (by omega)]
    by_cases hl : k = first + n
    · rw [if_pos hl, if_pos (by omega)]
    · rw [if_neg hl]
      by_cases hr : first ≤ k ∧ k < first + n
      · rw [if_pos hr, if_pos (by omega)]
      · rw [if_neg hr, if_neg (by omega)]

/-- The copy of `vga_scroll` moves every row but the first one row up. Source and destination
overlap in 23 rows. -/
theorem vgaCell_memcpy {m : Memory} {k : Nat} (hk : k < 2000) :
    vgaCell (memcpy m vgaBuffer (vgaCellAddr 80) 3840).2 k =
      if k < 1920 then vgaCell m (k + 80) else vgaCell m k := by
  have hgap : (vgaCellAddr 80 - vgaBuffer).toNat + 3840 ≤ 2 ^ 32 := by decide
  obtain ⟨h0, h1⟩ := vgaCellAddr_offset hk
  have hsrc (a : BitVec 32) : vgaCellAddr 80 + (a - vgaBuffer) = a + 160 := by
    simp only [vgaCellAddr, vgaBuffer]
    bv_omega
  have hnext : vgaCellAddr (BitVec.ofNat 32 (k + 80)) = vgaCellAddr (BitVec.ofNat 32 k) + 160 := by
    simp only [vgaCellAddr, vgaBuffer]
    bv_omega
  have hcomm (a : BitVec 32) : a + 160 + 1 = a + 1 + 160 := by bv_omega
  have hlen : (3840 : BitVec 32).toNat = 3840 := rfl
  simp only [vgaCell, memcpy, Memory.load16, Memory.copyUp_apply hgap, h0, h1, hsrc, hnext, hlen]
  by_cases hl : k < 1920
  · rw [if_pos (by omega), if_pos (by omega), if_pos hl, hcomm]
  · rw [if_neg (by omega), if_neg (by omega), if_neg hl]

end BordOS
