import BordOS.Drivers.VgaCells

namespace BordOS
open Library
set_option autoImplicit true
set_option relaxedAutoImplicit false

/-- A terminal of 80 columns and unboundedly many rows, which never scrolls. -/
structure Terminal where
  rows : Nat → Nat → BitVec 16
  x : Nat
  y : Nat
  attr : BitVec 8

def Terminal.blank (t : Terminal) : BitVec 16 := 0x20 ||| t.attr.setWidth 16 <<< 8

/-- The cursor enters the next row. A row below the first screen is filled with blanks then. -/
def Terminal.newline (t : Terminal) : Terminal :=
  { t with
    x := 0
    y := t.y + 1
    rows := if 25 ≤ t.y + 1 then Function.update t.rows (t.y + 1) fun _ => t.blank else t.rows }

def Terminal.write (c : BitVec 8) (t : Terminal) : Terminal :=
  { t with
    rows := Function.update t.rows t.y
      (Function.update (t.rows t.y) t.x (c.setWidth 16 ||| t.attr.setWidth 16 <<< 8))
    x := t.x + 1 }

def Terminal.handle (c : BitVec 8) (t : Terminal) : Terminal :=
  if c = 0x08 then { t with x := t.x - 1 }
  else if c = 0x09 then { t with x := (t.x / 8 + 1) * 8 }
  else if c = 0x0D then { t with x := 0 }
  else if c = 0x0A then t.newline
  else if 0x20 ≤ c then t.write c
  else t

def Terminal.put (c : BitVec 8) (t : Terminal) : Terminal :=
  if 80 ≤ (t.handle c).x then (t.handle c).newline else t.handle c

def Terminal.setcolor (fg bg : VgaColor) (t : Terminal) : Terminal :=
  { t with attr := vgaAttr fg bg }

def Terminal.ofScreen (s : VgaMachine) : Terminal where
  rows r j := if r < 25 then vgaCell s.mem (80 * r + j) else 0
  x := s.data.x.toNat
  y := s.data.y.toNat
  attr := s.data.attr

inductive VgaCall where
  | put (c : BitVec 8)
  | setcolor (fg bg : VgaColor)
deriving DecidableEq, Repr

def VgaCall.run : VgaCall → VgaMachine → VgaMachine
  | .put c => vgaPut c
  | .setcolor fg bg => vgaSetcolor fg bg

def VgaCall.refer : VgaCall → Terminal → Terminal
  | .put c => Terminal.put c
  | .setcolor fg bg => Terminal.setcolor fg bg

def VgaMachine.after (s : VgaMachine) (calls : List VgaCall) : VgaMachine :=
  calls.foldl (fun s c => c.run s) s

def Terminal.after (t : Terminal) (calls : List VgaCall) : Terminal :=
  calls.foldl (fun t c => c.refer t) t

/-- The screen shows the last 25 rows that the terminal has reached. -/
structure Mirrors (t : Terminal) (s : VgaMachine) : Prop where
  x : s.data.x.toNat = t.x
  y : s.data.y.toNat = min t.y 24
  attr : s.data.attr = t.attr
  cells : ∀ i j, i < 25 → j < 80 → vgaCell s.mem (80 * i + j) = t.rows (t.y - 24 + i) j

variable {t : Terminal} {s : VgaMachine}

theorem Mirrors.ofScreen (hy : s.data.y.toNat < 25) : Mirrors (.ofScreen s) s where
  x := rfl
  y := by
    simp only [Terminal.ofScreen]
    omega
  attr := rfl
  cells i j hi hj := by
    simp only [Terminal.ofScreen]
    have hrow : s.data.y.toNat - 24 + i = i := by omega
    rw [if_pos (by omega), hrow]

theorem Mirrors.moveCursor (h : Mirrors t s) : Mirrors t (vgaMoveCursor s) :=
  ⟨h.x, h.y, h.attr, h.cells⟩

theorem Mirrors.setcolor (h : Mirrors t s) (fg bg : VgaColor) :
    Mirrors (t.setcolor fg bg) (vgaSetcolor fg bg s) :=
  ⟨h.x, h.y, rfl, h.cells⟩

theorem vgaScroll_of_lt (h : s.data.y.toNat < 25) : vgaScroll s = s := by
  rw [vgaScroll, if_neg]
  simp only [vgaHeight]
  bv_omega

/-- Below the last row the screen scrolls: each row moves up and the last one gets blank. -/
theorem vgaScroll_cells (h : s.data.y = 25) :
    (vgaScroll s).data = { s.data with y := 24 } ∧
      ∀ k, k < 2000 → vgaCell (vgaScroll s).mem k =
        if k < 1920 then vgaCell s.mem (k + 80) else 0x20 ||| s.data.attr.setWidth 16 <<< 8 := by
  have hge : vgaHeight ≤ (25 : BitVec 8).setWidth 32 := by decide
  have htemp : (25 : BitVec 8).setWidth 32 - vgaHeight + 1 = 1 := by decide
  have hsrc : 1 * vgaWidth = 80 := by decide
  have hlast : (vgaHeight - 1) * vgaWidth = BitVec.ofNat 32 1920 := by decide
  have hlen : BitVec.ofNat 32 1920 * 2 = 3840 := by decide
  simp only [vgaScroll, h, hge, ↓reduceIte, htemp, hsrc, hlast, hlen, true_and]
  intro k hk
  rw [vgaCell_fill (by omega) hk, vgaCell_memcpy hk]
  by_cases hl : k < 1920
  · rw [if_neg (by omega), if_pos hl, if_pos hl]
  · rw [if_pos (by omega), if_neg hl]

theorem Mirrors.newline (h : Mirrors t s) :
    Mirrors t.newline
      (vgaScroll { s with data := { s.data with x := 0, y := s.data.y + 1 } }) := by
  have hy := h.y
  by_cases hlow : t.y < 24
  · have hy' : (s.data.y + 1).toNat = t.y + 1 := by
      bv_omega
    rw [vgaScroll_of_lt (by simp only [hy']; omega)]
    refine ⟨rfl, ?_, h.attr, ?_⟩
    · simp only [hy', Terminal.newline]
      omega
    · intro i j hi hj
      simp only [Terminal.newline]
      have htop : t.y + 1 - 24 = t.y - 24 := by omega
      rw [if_neg (by omega), h.cells i j hi hj, htop]
  · have hy' : s.data.y + 1 = 25 := by
      bv_omega
    have hlow' : 24 ≤ t.y + 1 := by omega
    have hnew : 25 ≤ t.y + 1 := by omega
    obtain ⟨hdata, hcells⟩ := vgaScroll_cells
      (s := { s with data := { s.data with x := 0, y := s.data.y + 1 } }) hy'
    refine ⟨by rw [hdata]; rfl, ?_, by rw [hdata]; exact h.attr, ?_⟩
    · rw [hdata]
      simp only [Terminal.newline]
      exact (Nat.min_eq_right hlow').symm
    · intro i j hi hj
      rw [hcells _ (by omega)]
      simp only [Terminal.newline]
      rw [if_pos hnew]
      by_cases hi' : i < 24
      · have hcell : 80 * i + j + 80 = 80 * (i + 1) + j := by omega
        have hrow : t.y + 1 - 24 + i = t.y - 24 + (i + 1) := by omega
        rw [if_pos (by omega), Function.update_of_ne (by omega), hcell,
          h.cells (i + 1) j (by omega) hj, hrow]
      · have hrow : t.y + 1 - 24 + i = t.y + 1 := by omega
        rw [if_neg (by omega), hrow, Function.update_self,
          Terminal.blank, h.attr]

theorem tab_toNat {x : BitVec 8} (hx : x.toNat < 80) :
    ((x + 8) &&& ~~~7).toNat = (x.toNat / 8 + 1) * 8 := by
  revert x
  decide

theorem Mirrors.moved (h : Mirrors t s) {x : BitVec 8} {n : Nat} (hx : x.toNat = n) :
    Mirrors { t with x := n } { s with data := { s.data with x := x } } :=
  ⟨hx, h.y, h.attr, h.cells⟩

theorem Mirrors.write (h : Mirrors t s) (hx : t.x < 80) (c : BitVec 8) :
    Mirrors (t.write c)
      { s with
        mem := s.mem.store16
          (vgaCellAddr (s.data.y.setWidth 32 * vgaWidth + s.data.x.setWidth 32))
          (c.setWidth 16 ||| s.data.attr.setWidth 16 <<< 8)
        data := { s.data with x := s.data.x + 1 } } := by
  have hsx := h.x
  have hsy := h.y
  have hy : s.data.y.toNat ≤ 24 := by omega
  have hwhere : s.data.y.setWidth 32 * vgaWidth + s.data.x.setWidth 32 =
      BitVec.ofNat 32 (80 * min t.y 24 + t.x) := by
    simp only [vgaWidth]
    bv_omega
  refine ⟨?_, h.y, h.attr, ?_⟩
  · simp only [Terminal.write]
    bv_omega
  · intro i j hi hj
    rw [hwhere, vgaCell_store16 (by omega) (by omega), h.cells i j hi hj, h.attr]
    simp only [Terminal.write]
    by_cases hrow : i = min t.y 24
    · have hlast : t.y - 24 + i = t.y := by omega
      rw [hlast, Function.update_self]
      by_cases hcol : j = t.x
      · rw [if_pos (by omega), hcol, Function.update_self]
      · rw [if_neg (by omega), Function.update_of_ne hcol]
    · rw [if_neg (by omega), Function.update_of_ne (by omega)]

theorem Mirrors.handle (h : Mirrors t s) (hx : t.x < 80) {c : BitVec 8} (hc : c ≠ 0x0A) :
    Mirrors (t.handle c) (vgaHandle c s) ∧ (t.handle c).x ≤ 80 := by
  have hsx := h.x
  by_cases hbs : c = 0x08
  · simp only [Terminal.handle, vgaHandle, hbs, ↓reduceIte]
    refine ⟨?_, by omega⟩
    by_cases h0 : s.data.x = 0
    · have ht : t.x - 1 = t.x := by
        rw [h0] at hsx
        simp at hsx
        omega
      simpa only [h0, ne_eq, not_true_eq_false, ↓reduceIte, ht] using h
    · simp only [ne_eq, h0, not_false_eq_true, ↓reduceIte]
      exact h.moved (by bv_omega)
  by_cases htab : c = 0x09
  · rw [Terminal.handle, vgaHandle, if_neg hbs, if_neg hbs, if_pos htab, if_pos htab]
    have htab' : (t.x / 8 + 1) * 8 ≤ 80 := by omega
    exact ⟨h.moved (by rw [tab_toNat (by omega), hsx]), htab'⟩
  by_cases hcr : c = 0x0D
  · rw [Terminal.handle, vgaHandle, if_neg hbs, if_neg hbs, if_neg htab, if_neg htab, if_pos hcr,
      if_pos hcr]
    exact ⟨h.moved rfl, Nat.zero_le 80⟩
  by_cases hp : 0x20 ≤ c
  · simp only [Terminal.handle, vgaHandle, hbs, htab, hcr, hc, hp, ↓reduceIte]
    exact ⟨h.write hx c, hx⟩
  · simp only [Terminal.handle, vgaHandle, hbs, htab, hcr, hc, hp, ↓reduceIte]
    exact ⟨h, by omega⟩

theorem Mirrors.put (h : Mirrors t s) (hx : t.x < 80) (c : BitVec 8) :
    Mirrors (t.put c) (vgaPut c s) ∧ (t.put c).x < 80 := by
  by_cases hc : c = 0x0A
  · have hhandle : vgaHandle c s = { s with data := { s.data with x := 0, y := s.data.y + 1 } } := by
      rw [hc]
      rfl
    have hterm : t.put c = t.newline := by
      rw [hc]
      rfl
    have hwrap : vgaWrap (vgaHandle c s) = vgaHandle c s := by
      rw [hhandle]
      rfl
    rw [vgaPut, hwrap, hhandle, hterm]
    exact ⟨h.newline.moveCursor, Nat.zero_lt_succ 79⟩
  · obtain ⟨hm, hx'⟩ := h.handle hx hc
    have hsx := hm.x
    have hsy := hm.y
    by_cases hwrap : 80 ≤ (t.handle c).x
    · have hge : vgaWidth ≤ (vgaHandle c s).data.x.setWidth 32 := by
        simp only [vgaWidth]
        bv_omega
      rw [Terminal.put, if_pos hwrap, vgaPut, vgaWrap, if_pos hge]
      exact ⟨hm.newline.moveCursor, Nat.zero_lt_succ 79⟩
    · have hlt : ¬ vgaWidth ≤ (vgaHandle c s).data.x.setWidth 32 := by
        simp only [vgaWidth]
        bv_omega
      rw [Terminal.put, if_neg hwrap, vgaPut, vgaWrap, if_neg hlt, vgaScroll_of_lt (by omega)]
      exact ⟨hm.moveCursor, by omega⟩

theorem Mirrors.run (h : Mirrors t s) (hx : t.x < 80) (calls : List VgaCall) :
    Mirrors (t.after calls) (s.after calls) ∧ (t.after calls).x < 80 := by
  induction calls generalizing t s with
  | nil => exact ⟨h, hx⟩
  | cons c cs ih =>
    cases c with
    | put c =>
      obtain ⟨h', hx'⟩ := h.put hx c
      exact ih h' hx'
    | setcolor fg bg => exact ih (h.setcolor fg bg) hx

def CursorShown (s : VgaMachine) : Prop :=
  s.crt.cursor = (s.data.y.setWidth 32 * vgaWidth + s.data.x.setWidth 32).setWidth 16

theorem vgaMoveCursor_shown (s : VgaMachine) : CursorShown (vgaMoveCursor s) := by
  have hbytes (temp : BitVec 32) :
      (temp >>> 8).setWidth 8 ++ (temp &&& 0xFF).setWidth 8 = temp.setWidth 16 := by
    rw [Memory.setWidth_mask (by decide), BitVec.setWidth_ushiftRight_eq_extractLsb,
      BitVec.setWidth_eq_extractLsb' (by decide), BitVec.setWidth_eq_extractLsb' (by decide)]
    exact BitVec.extractLsb'_append_extractLsb'_eq_extractLsb' rfl
  simp only [CursorShown, vgaMoveCursor, Crt.outb, Crt.cursor]
  exact hbytes _

theorem cursorShown_run (calls : List VgaCall) (s : VgaMachine)
    (h : CursorShown s ∨ ∃ c, .put c ∈ calls) :
    CursorShown (s.after calls) := by
  induction calls generalizing s with
  | nil => exact h.resolve_right (by simp)
  | cons c cs ih =>
    apply ih
    cases c with
    | put c => exact .inl (vgaMoveCursor_shown _)
    | setcolor fg bg => exact h.imp id (by simp)

/-- After any calls the screen shows the last 25 rows that the terminal has reached, and the
cursor stands in the same column, and in the same row or in the last one. The hardware cursor
follows it from the first `vga_put` on. -/
theorem vga_shows_terminal (s : VgaMachine) (hx : s.data.x.toNat < 80) (hy : s.data.y.toNat < 25)
    (calls : List VgaCall) :
    (∀ i j, i < 25 → j < 80 →
      vgaCell (s.after calls).mem (80 * i + j) =
        ((Terminal.ofScreen s).after calls).rows
          (((Terminal.ofScreen s).after calls).y - 24 + i) j) ∧
      (s.after calls).data.x.toNat = ((Terminal.ofScreen s).after calls).x ∧
      (s.after calls).data.y.toNat = min ((Terminal.ofScreen s).after calls).y 24 ∧
      ((∃ c, .put c ∈ calls) → (s.after calls).crt.cursor.toNat =
        80 * min ((Terminal.ofScreen s).after calls).y 24 +
          ((Terminal.ofScreen s).after calls).x) := by
  obtain ⟨h, hx'⟩ := (Mirrors.ofScreen hy).run hx calls
  refine ⟨h.cells, h.x, h.y, ?_⟩
  intro hput
  have hc : CursorShown _ := cursorShown_run calls s (.inr hput)
  have hsx := h.x
  have hsy := h.y
  rw [hc]
  simp only [vgaWidth]
  bv_omega

def vgaCorner : VgaMachine where
  data := { x := 79, y := 24, attr := 0x07 }
  mem _ := 0
  crt := { index := 0, cursorHigh := 0, cursorLow := 0 }

/-- A character in the corner wraps and scrolls in one call. -/
theorem vga_shows_terminal_corner :
    (∀ i j, i < 25 → j < 80 →
      vgaCell (vgaCorner.after [.put 0x41]).mem (80 * i + j) =
        ((Terminal.ofScreen vgaCorner).after [.put 0x41]).rows
          (((Terminal.ofScreen vgaCorner).after [.put 0x41]).y - 24 + i) j) ∧
      ((Terminal.ofScreen vgaCorner).after [.put 0x41]).y = 25 := by
  obtain ⟨hcells, -⟩ := vga_shows_terminal vgaCorner (by decide) (by decide) [.put 0x41]
  exact ⟨hcells, rfl⟩

end BordOS
