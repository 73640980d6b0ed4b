import Mathlib.Logic.Function.Basic
import BordOS.Drivers.Cmos
import BordOS.Library.ProgramSpec

namespace BordOS
open Library
set_option autoImplicit true
set_option relaxedAutoImplicit false

structure CmosImage where
  cells : BitVec 7 → BitVec 8
  index : BitVec 8
  ops : Nat
  interruptFlag : Bool

/-- The handlers that run before operation number `k` leave the index `handlers k` selected. They
run only while interrupts are enabled. -/
def CmosImage.interrupted (handlers : Nat → Option (BitVec 8)) (s : CmosImage) : CmosImage :=
  { s with
    index := if s.interruptFlag then (handlers s.ops).getD s.index else s.index
    ops := s.ops + 1 }

/-- Bit 7 of the index selects no cell. -/
def imageDevice (handlers : Nat → Option (BitVec 8)) : PortDevice CmosImage := fun op s =>
  let s := s.interrupted handlers
  match op with
  | .outb port val =>
    ((), if port = cmosReg then { s with index := val }
      else if port = cmosData then
        { s with cells := Function.update s.cells (s.index.setWidth 7) val }
      else s)
  | .inb port => (if port = cmosData then s.cells (s.index.setWidth 7) else 0, s)
  | .cli => ((), { s with interruptFlag := false })
  | .sti => ((), { s with interruptFlag := true })
  | .inw _ => (0, s)
  | .outw _ _ => ((), s)
  | .log _ _ _ => ((), s)

/-- The 8-bit counter goes through the numbers below 128 and does not wrap. -/
theorem cmosFor_eq (body : BitVec 8 → PortM α) {k fuel : Nat} (hk : k ≤ 128)
    (hfuel : 128 - k < fuel) :
    cmosFor body fuel (BitVec.ofNat 8 k) =
      (List.range' k (128 - k)).mapM fun i => body (BitVec.ofNat 8 i) := by
  induction fuel generalizing k with
  | zero => omega
  | succ fuel ih =>
    by_cases hlast : k = 128
    · subst hlast
      rfl
    · have hlt : BitVec.ofNat 8 k < 128 := by bv_omega
      have hnext : BitVec.ofNat 8 k + 1 = BitVec.ofNat 8 (k + 1) := (BitVec.ofNat_add ..).symm
      have hrange : 128 - k = (128 - (k + 1)) + 1 := by omega
      rw [cmosFor, if_pos hlt, hnext, ih (by omega) (by omega), hrange, List.range'_succ,
        List.mapM_cons]

theorem cmosFor_zero (body : BitVec 8 → PortM α) {fuel : Nat} (h : 128 < fuel) :
    cmosFor body fuel 0 = (List.range' 0 128).mapM fun i => body (BitVec.ofNat 8 i) :=
  cmosFor_eq body (Nat.zero_le 128) h

def cmosReadCell (i : BitVec 8) : PortM (BitVec 8) := do
  .perform PortOp.cli
  let val ← cmosReadRaw i
  .perform PortOp.sti
  return val

theorem cmosRead_eq {fuel : Nat} (h : 128 < fuel) : cmosRead = cmosFor cmosReadCell fuel 0 := by
  rw [cmosFor_zero _ h, cmosRead, List.range_eq_range']
  rfl

variable {handlers : Nat → Option (BitVec 8)}

/-- Between `cli` and `sti` no handler runs: the cell that was selected is written. -/
theorem cmosWriteCell_run (arr : Nat → BitVec 8) (s : CmosImage) (i : BitVec 8) :
    (cmosWriteCell arr i).run (imageDevice handlers) s =
      .ok () { cells := Function.update s.cells (i.setWidth 7) (arr i.toNat)
               index := i
               ops := s.ops + 4
               interruptFlag := true } := by
  simp only [cmosWriteCell, cmosWriteRaw, outb, Prog.run_bind, Prog.run_perform, imageDevice,
    CmosImage.interrupted, cmosReg, cmosData, BitVec.reduceEq, Bool.false_eq_true, ↓reduceIte]

theorem cmosReadCell_run (s : CmosImage) (i : BitVec 8) :
    (cmosReadCell i).run (imageDevice handlers) s =
      .ok (s.cells (i.setWidth 7))
        { cells := s.cells, index := i, ops := s.ops + 4, interruptFlag := true } := by
  simp only [cmosReadCell, cmosReadRaw, outb, inb, Prog.run_bind, Prog.run_perform, Prog.run_pure,
    imageDevice, CmosImage.interrupted, cmosReg, cmosData, ↓reduceIte, Bool.false_eq_true]

theorem cell_number {k : Nat} (hk : k < 128) :
    (BitVec.ofNat 8 k).setWidth 7 = BitVec.ofNat 7 k ∧ (BitVec.ofNat 8 k).toNat = k := by
  constructor <;> bv_omega

theorem cmosWrite_run (handlers : Nat → Option (BitVec 8)) (arr : Nat → BitVec 8)
    (s : CmosImage) :
    ∃ t, Prog.Converges (imageDevice handlers) (fun n => cmosWrite n arr) s () t ∧
      ∀ i < 128, t.cells (BitVec.ofNat 7 i) = arr i := by
  -- before round `k` the cells below `k` are written
  have hround (k : Nat) (s : CmosImage) (_ : 0 ≤ k) (hk : k < 0 + 128)
      (hs : ∀ i < k, s.cells (BitVec.ofNat 7 i) = arr i) :
      ∃ t, (cmosWriteCell arr (BitVec.ofNat 8 k)).run (imageDevice handlers) s = .ok () t ∧
        ∀ i < k + 1, t.cells (BitVec.ofNat 7 i) = arr i := by
    obtain ⟨hcell, hbyte⟩ := cell_number (k := k) (by omega)
    refine ⟨_, cmosWriteCell_run arr s _, ?_⟩
    intro i hi
    simp only [hcell, hbyte]
    by_cases hlast : i = k
    · rw [hlast, Function.update_self]
    · have hne : BitVec.ofNat 7 i ≠ BitVec.ofNat 7 k := by bv_omega
      rw [Function.update_of_ne hne]
      exact hs i (by omega)
  have hnone (i : Nat) (hi : i < 0) : s.cells (BitVec.ofNat 7 i) = arr i :=
    absurd hi (Nat.not_lt_zero i)
  obtain ⟨t, hrun, ht⟩ := Prog.mapM_range'_run hround hnone
  refine ⟨t, ⟨129, ?_⟩, fun i hi => ht i (by omega)⟩
  intro n hn
  have hfuel : 128 < n := by omega
  simp only [cmosWrite, cmosFor_zero _ hfuel, Prog.run_bind, hrun, Prog.run_pure]

theorem cmosRead_run (handlers : Nat → Option (BitVec 8)) (s : CmosImage) :
    ∃ t, cmosRead.run (imageDevice handlers) s =
      .ok ((List.range 128).map fun i => s.cells (BitVec.ofNat 7 i)) t ∧ t.cells = s.cells := by
  have hround (k : Nat) (t : CmosImage) (_ : 0 ≤ k) (hk : k < 0 + 128) (ht : t.cells = s.cells) :
      ∃ u, (cmosReadCell (BitVec.ofNat 8 k)).run (imageDevice handlers) t =
        .ok (s.cells (BitVec.ofNat 7 k)) u ∧ u.cells = s.cells := by
    obtain ⟨hcell, -⟩ := cell_number (k := k) (by omega)
    have hrun := @cmosReadCell_run handlers t (BitVec.ofNat 8 k)
    rw [hcell, ht] at hrun
    exact ⟨_, hrun, rfl⟩
  obtain ⟨t, hrun, ht⟩ :=
    Prog.mapM_range'_run (I := fun _ (t : CmosImage) => t.cells = s.cells) hround rfl
  refine ⟨t, ?_, ht⟩
  rw [cmosRead_eq (Nat.lt_succ_self 128), cmosFor_zero _ (Nat.lt_succ_self 128), hrun,
    List.range_eq_range']

/-- Whatever handlers run where interrupts are enabled, `cmos_write` puts each byte of the array in
its cell, and `cmos_read` then reads the same array and changes no cell. -/
theorem cmos_image_round_trip (handlers : Nat → Option (BitVec 8)) (arr : Nat → BitVec 8)
    (s : CmosImage) :
    ∃ t u, Prog.Converges (imageDevice handlers) (fun n => cmosWrite n arr) s () t ∧
      (∀ i < 128, t.cells (BitVec.ofNat 7 i) = arr i) ∧
      cmosRead.run (imageDevice handlers) t = .ok ((List.range 128).map arr) u ∧
      u.cells = t.cells := by
  obtain ⟨t, hwrite, ht⟩ := cmosWrite_run handlers arr s
  obtain ⟨u, hread, hu⟩ := cmosRead_run handlers t
  have hsame : (List.range 128).map (fun i => t.cells (BitVec.ofNat 7 i)) =
      (List.range 128).map arr := by
    apply List.map_congr_left
    intro i hi
    exact ht i (List.mem_range.1 hi)
  rw [hsame] at hread
  exact ⟨t, u, hwrite, ht, hread, hu⟩

end BordOS
