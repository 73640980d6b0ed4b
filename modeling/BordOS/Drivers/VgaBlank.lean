import BordOS.Drivers.VgaTerminal

namespace BordOS
open Library
set_option autoImplicit true
set_option relaxedAutoImplicit false

theorem vgaCell_clearRows {m : Memory} {n k : Nat} (hn : n ≤ 25) (hk : k < 2000)
    (blank : BitVec 16) :
    vgaCell (vgaClearRows m blank n) k = if k < 80 * n then blank else vgaCell m k := by
  induction n with
  | zero => rfl
  | succ n ih =>
    have hrow : BitVec.ofNat 32 n * vgaWidth = BitVec.ofNat 32 (80 * n) := by
      simp only [vgaWidth]
      bv_omega
    rw [vgaClearRows, hrow, vgaCell_fill (by omega) hk, ih (by omega)]
    by_cases hlast : 80 * n ≤ k ∧ k < 80 * n + 80
    · rw [if_pos hlast, if_pos (by omega)]
    · rw [if_neg hlast]
      by_cases habove : k < 80 * n
      · rw [if_pos habove, if_pos (by omega)]
      · rw [if_neg habove, if_neg (by omega)]

theorem vgaClear_cells (s : VgaMachine) {k : Nat} (hk : k < 2000) :
    vgaCell (vgaClear s).mem k = 0x20 ||| s.data.attr.setWidth 16 := by
  rw [vgaClear, vgaMoveCursor]
  exact (vgaCell_clearRows (by omega) hk _).trans (if_pos hk)

/-- The two blanks have the attribute in different halves of the cell. -/
theorem blank_eq_iff (attr : BitVec 8) :
    (0x20 ||| attr.setWidth 16 : BitVec 16) = 0x20 ||| attr.setWidth 16 <<< 8 ↔ attr = 0 := by
  revert attr
  decide

theorem vgaAttr_eq_zero (fg bg : VgaColor) : vgaAttr fg bg = 0 ↔ fg = .black ∧ bg = .black := by
  cases fg <;> cases bg <;> decide

/-- After `vga_clear` the cursor is at the start of the screen. The cells are the blanks of
`vga_scroll` exactly for black on black. -/
theorem vga_clear_blank_iff (s : VgaMachine) (fg bg : VgaColor) :
    (vgaClear (vgaSetcolor fg bg s)).data = { x := 0, y := 0, attr := vgaAttr fg bg } ∧
      (vgaClear (vgaSetcolor fg bg s)).crt.cursor = 0 ∧
      (∀ u : VgaMachine, u.data.attr = vgaAttr fg bg → u.data.y = 25 →
        ∀ k, 1920 ≤ k → k < 2000 →
          vgaCell (vgaScroll u).mem k = 0x20 ||| (vgaAttr fg bg).setWidth 16 <<< 8) ∧
      ((∀ k < 2000, vgaCell (vgaClear (vgaSetcolor fg bg s)).mem k =
          0x20 ||| (vgaAttr fg bg).setWidth 16 <<< 8) ↔ fg = .black ∧ bg = .black) := by
  refine ⟨rfl, vgaMoveCursor_shown _, ?_, ?_⟩
  · intro u hattr hy k hge hk
    rw [(vgaScroll_cells hy).2 k hk, if_neg (by omega), hattr]
  · rw [← vgaAttr_eq_zero, ← blank_eq_iff]
    constructor
    · intro h
      rw [← h 0 (by decide), vgaClear_cells _ (by decide)]
      rfl
    · intro h k hk
      rw [vgaClear_cells _ hk, ← h]
      rfl

/-- After `vga_init` set the colours, clearing leaves apostrophes on black. -/
theorem vga_clear_light_grey :
    vgaCell (vgaClear (vgaSetcolor .lightGrey .black vgaCorner)).mem 0 = 0x27 ∧
      (0x20 ||| (vgaAttr .lightGrey .black).setWidth 16 <<< 8 : BitVec 16) = 0x720 := by
  refine ⟨?_, by decide⟩
  rw [vgaClear_cells _ (by decide)]
  decide

end BordOS
