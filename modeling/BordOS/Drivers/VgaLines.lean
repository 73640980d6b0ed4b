import BordOS.Drivers.VgaBlank
import BordOS.Libc.Printf

namespace BordOS
open Library
set_option autoImplicit true
set_option relaxedAutoImplicit false

/-- Characters that are written and move the cursor to the next column. -/
def Printable (cs : List (BitVec 8)) : Prop := ∀ c ∈ cs, 0x20 ≤ c

instance (cs : List (BitVec 8)) : Decidable (Printable cs) :=
  List.decidableBAll (fun c => 0x20 ≤ c) cs

theorem Printable.append {cs ds : List (BitVec 8)} (h : Printable cs) (h' : Printable ds) :
    Printable (cs ++ ds) := by
  intro c hc
  rcases List.mem_append.1 hc with hc | hc
  · exact h c hc
  · exact h' c hc

theorem digitChar_printable {d : Nat} (h : d < 16) : 0x20 ≤ digitChar d := by
  have hall : ∀ d : Fin 16, 0x20 ≤ digitChar d := by decide
  exact hall ⟨d, h⟩

theorem writtenDigits_text {k n : Nat} (h : n < 10 ^ (k + 1)) :
    Printable (writtenDigits 10 n) ∧ (writtenDigits 10 n).length ≤ k + 1 := by
  have hlast : 0x20 ≤ digitChar (n % 10) := digitChar_printable (by omega)
  have hsingle : Printable [digitChar (n % 10)] := fun c hc => List.mem_singleton.1 hc ▸ hlast
  induction k generalizing n with
  | zero =>
    rw [writtenDigits, if_neg (by omega)]
    exact ⟨hsingle, Nat.le_refl 1⟩
  | succ k ih =>
    rw [writtenDigits]
    by_cases hmore : 2 ≤ 10 ∧ 10 < n
    · have hfirst : 0x20 ≤ digitChar (n / 10 % 10) := digitChar_printable (by omega)
      obtain ⟨hprint, hlen⟩ := ih (n := n / 10) (by omega) hfirst
        fun c hc => List.mem_singleton.1 hc ▸ hfirst
      rw [if_pos hmore, List.length_append]
      exact ⟨hprint.append hsingle, Nat.succ_le_succ hlen⟩
    · rw [if_neg hmore]
      exact ⟨hsingle, Nat.succ_le_succ (Nat.zero_le _)⟩

theorem writtenSigned_byte (v : BitVec 8) :
    Printable (writtenSigned (v.setWidth 32)) ∧ (writtenSigned (v.setWidth 32)).length ≤ 3 := by
  have hpos : (v.setWidth 32).slt 0 = false := by
    revert v
    decide
  have hlt : (v.setWidth 32).toNat < 10 ^ (2 + 1) := by
    have := v.isLt
    rw [BitVec.toNat_setWidth]
    omega
  rw [writtenSigned, hpos, if_neg Bool.false_ne_true]
  exact writtenDigits_text hlt

def rowWithText (x : Nat) (cs : List (BitVec 8)) (attr : BitVec 8) (row : Nat → BitVec 16)
    (j : Nat) : BitVec 16 :=
  if x ≤ j then ((cs[j - x]?).map fun c => c.setWidth 16 ||| attr.setWidth 16 <<< 8).getD (row j)
  else row j

theorem rowWithText_nil (x : Nat) (attr : BitVec 8) (row : Nat → BitVec 16) :
    rowWithText x [] attr row = row := by
  funext j
  rw [rowWithText]
  split_ifs <;> rfl

theorem rowWithText_cons (x : Nat) (c : BitVec 8) (cs : List (BitVec 8)) (attr : BitVec 8)
    (row : Nat → BitVec 16) :
    rowWithText (x + 1) cs attr
        (Function.update row x (c.setWidth 16 ||| attr.setWidth 16 <<< 8)) =
      rowWithText x (c :: cs) attr row := by
  funext j
  simp only [rowWithText]
  by_cases hj : j = x
  · subst hj
    have hnext : ¬ j + 1 ≤ j := by omega
    rw [if_neg hnext, if_pos (Nat.le_refl j), Nat.sub_self, Function.update_self]
    rfl
  · rw [Function.update_of_ne hj]
    by_cases hlt : x + 1 ≤ j
    · have hsub : j - x = j - (x + 1) + 1 := by omega
      rw [if_pos hlt, if_pos (by omega), hsub, List.getElem?_cons_succ]
    · rw [if_neg hlt, if_neg (by omega)]

variable {t : Terminal} {cs : List (BitVec 8)}

theorem Terminal.after_text (hprint : Printable cs) (hfits : t.x + cs.length < 80) :
    t.after (cs.map .put) =
      { t with
        x := t.x + cs.length
        rows := Function.update t.rows t.y (rowWithText t.x cs t.attr (t.rows t.y)) } := by
  induction cs generalizing t with
  | nil =>
    rw [rowWithText_nil, Function.update_eq_self]
    rfl
  | cons c cs ih =>
    have hc : 0x20 ≤ c := hprint c (.head _)
    rw [List.length_cons] at hfits
    have hhandle : t.handle c = t.write c := by
      rw [Terminal.handle, if_neg (by bv_omega), if_neg (by bv_omega), if_neg (by bv_omega),
        if_neg (by bv_omega), if_pos hc]
    have hput : t.put c = t.write c := by
      rw [Terminal.put, hhandle, if_neg (by simp only [Terminal.write]; omega)]
    have hrest := ih (t := t.write c) (fun d hd => hprint d (.tail _ hd))
      (by simp only [Terminal.write]; omega)
    have hfirst : t.after ((c :: cs).map .put) = (t.write c).after (cs.map .put) :=
      congrArg (Terminal.after · (cs.map .put)) hput
    rw [hfirst, hrest]
    simp only [Terminal.write, Function.update_self, Function.update_idem, rowWithText_cons,
      List.length_cons, Nat.add_assoc, Nat.add_comm 1]

theorem Terminal.after_lineEnd (hy : t.y + 1 < 25) :
    t.after [.put 0x0A, .put 0x0D] = { t with x := 0, y := t.y + 1 } := by
  have hrow : ¬ 25 ≤ t.y + 1 := by omega
  have hfeed : t.put 0x0A = { t with x := 0, y := t.y + 1 } := by
    have hnew : t.newline = { t with x := 0, y := t.y + 1 } := by
      rw [Terminal.newline, if_neg hrow]
    rw [← hnew]
    rfl
  have hreturn (u : Terminal) (hu : u.x = 0) : u.put 0x0D = u := by
    cases u
    subst hu
    rfl
  simp only [Terminal.after, List.foldl_cons, List.foldl_nil, VgaCall.refer]
  rw [hfeed]
  exact hreturn _ rfl

/-- A line of text on a console: only its row changes, and the cursor goes to the start of the next
one. -/
theorem vgaLine_shown {s : VgaMachine} (hx : s.data.x = 0) (hy : s.data.y.toNat + 1 < 25)
    (hprint : Printable cs) (hfits : cs.length < 80) :
    (∀ i j, i < 25 → j < 80 →
      vgaCell (s.after ((cs ++ [0x0A, 0x0D]).map .put)).mem (80 * i + j) =
        if i = s.data.y.toNat then
          ((cs[j]?).map fun c => c.setWidth 16 ||| s.data.attr.setWidth 16 <<< 8).getD
            (vgaCell s.mem (80 * i + j))
        else vgaCell s.mem (80 * i + j)) ∧
      (s.after ((cs ++ [0x0A, 0x0D]).map .put)).crt.cursor.toNat =
        80 * (s.data.y.toNat + 1) := by
  have hx0 : (Terminal.ofScreen s).x = 0 := by
    rw [Terminal.ofScreen, hx]
    rfl
  have hcalls : (cs ++ [0x0A, 0x0D]).map VgaCall.put =
      cs.map .put ++ [.put 0x0A, .put 0x0D] := List.map_append
  obtain ⟨hmirrors, -⟩ := (Mirrors.ofScreen (s := s) (by omega)).run
    (by rw [hx0]; decide) ((cs ++ [0x0A, 0x0D]).map VgaCall.put)
  have hterm : (Terminal.ofScreen s).after ((cs ++ [0x0A, 0x0D]).map .put) =
      { Terminal.ofScreen s with
        x := 0
        y := s.data.y.toNat + 1
        rows := Function.update (Terminal.ofScreen s).rows s.data.y.toNat
          (rowWithText 0 cs s.data.attr ((Terminal.ofScreen s).rows s.data.y.toNat)) } := by
    have htext := Terminal.after_text (t := Terminal.ofScreen s) hprint (by omega)
    rw [hcalls, Terminal.after, List.foldl_append]
    rw [Terminal.after] at htext
    rw [htext, hx0]
    exact Terminal.after_lineEnd hy
  have hrow (i j : Nat) (hi : i < 25) :
      (Terminal.ofScreen s).rows i j = vgaCell s.mem (80 * i + j) := if_pos hi
  rw [hterm] at hmirrors
  have hcells := hmirrors.cells
  have hsx := hmirrors.x
  have hsy := hmirrors.y
  simp only at hcells hsx hsy
  constructor
  · intro i j hi hj
    have htop : s.data.y.toNat + 1 - 24 + i = i := by omega
    rw [hcells i j hi hj, htop]
    by_cases hline : i = s.data.y.toNat
    · rw [if_pos hline, ← hline, Function.update_self, rowWithText, if_pos (Nat.zero_le j),
        Nat.sub_zero, hrow i j hi]
    · rw [if_neg hline, Function.update_of_ne hline, hrow i j hi]
  · have hcursor : CursorShown _ := cursorShown_run ((cs ++ [0x0A, 0x0D]).map VgaCall.put) s
      (.inr ⟨0x0A, by simp⟩)
    rw [hcursor]
    simp only [vgaWidth]
    bv_omega

end BordOS
