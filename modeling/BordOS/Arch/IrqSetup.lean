import BordOS.Arch.Interrupts

namespace BordOS
open Library
set_option autoImplicit true
set_option relaxedAutoImplicit false

def stubEntry (addr : BitVec 32) : IdtEntry where
  baseLow := (addr.setWidth 64 &&& 0xFFFF).setWidth 16
  baseHigh := ((addr.setWidth 64 >>> 16) &&& 0xFFFF).setWidth 16
  sel := 0x08
  always0 := 0
  flags := 0x8E

theorem IdtEntry.pack_baseLow (e : IdtEntry) : e.pack.extractLsb' 0 16 = e.baseLow := by
  rw [IdtEntry.pack, BitVec.extractLsb'_append_eq_right]

theorem IdtEntry.pack_sel (e : IdtEntry) : e.pack.extractLsb' 16 16 = e.sel := by
  rw [IdtEntry.pack, BitVec.extractLsb'_append_eq_of_le (Nat.le_refl 16),
    BitVec.extractLsb'_append_eq_right]

theorem IdtEntry.pack_flags (e : IdtEntry) : e.pack.extractLsb' 40 8 = e.flags := by
  rw [IdtEntry.pack, BitVec.extractLsb'_append_eq_of_le (by decide),
    BitVec.extractLsb'_append_eq_of_le (by decide), BitVec.extractLsb'_append_eq_of_le (by decide),
    BitVec.extractLsb'_append_eq_right]

theorem IdtEntry.pack_baseHigh (e : IdtEntry) : e.pack.extractLsb' 48 16 = e.baseHigh := by
  rw [IdtEntry.pack, BitVec.extractLsb'_append_eq_of_le (by decide),
    BitVec.extractLsb'_append_eq_of_le (by decide), BitVec.extractLsb'_append_eq_of_le (by decide),
    BitVec.extractLsb'_append_eq_left]

theorem stubEntry_halves (addr : BitVec 32) :
    (stubEntry addr).baseHigh ++ (stubEntry addr).baseLow = addr := by
  have hmask := @Memory.setWidth_mask 64 16 0xFFFF (by decide)
  have hlow : (addr.setWidth 64).setWidth 16 = addr.setWidth 16 :=
    BitVec.setWidth_setWidth_of_le addr (by decide)
  have hhigh : (addr.setWidth 64 >>> 16).setWidth 16 = (addr >>> 16).setWidth 16 := by
    rw [BitVec.setWidth_ushiftRight_eq_extractLsb, BitVec.setWidth_ushiftRight_eq_extractLsb]
    exact BitVec.extractLsb'_setWidth_of_le (by decide)
  simp only [stubEntry, hmask, hlow, hhigh]
  exact @Memory.append_low_high 16 16 addr

theorem decodeGate_stubEntry (addr : BitVec 32) :
    Machine.decodeGate (stubEntry addr).pack = some { offset := addr, selector := 0x08 } := by
  have hflags : (stubEntry addr).flags &&& 0x9F = 0x8E := by
    simp only [stubEntry]
    decide
  rw [Machine.decodeGate, IdtEntry.pack_flags, if_pos hflags, IdtEntry.pack_baseHigh,
    IdtEntry.pack_baseLow, IdtEntry.pack_sel, stubEntry_halves]
  rfl

theorem idtSetGates_of_not_mem {stub : Fin n → BitVec 32} {gates : List (BitVec 8 × Fin n)}
    {num : BitVec 8} (h : num ∉ gates.map Prod.fst) (s : Interrupts ρ) :
    (idtSetGates stub gates s).idt num = s.idt num := by
  induction gates generalizing s with
  | nil => rfl
  | cons g gs ih =>
    rw [List.map_cons, List.mem_cons, not_or] at h
    exact (ih h.2 _).trans (Function.update_of_ne h.1 _ _)

theorem idtSetGates_of_mem {stub : Fin n → BitVec 32} {gates : List (BitVec 8 × Fin n)}
    {num : BitVec 8} {i : Fin n} (hn : (gates.map Prod.fst).Nodup) (h : (num, i) ∈ gates)
    (s : Interrupts ρ) : (idtSetGates stub gates s).idt num = stubEntry (stub i) := by
  induction gates generalizing s with
  | nil => cases h
  | cons g gs ih =>
    rw [List.map_cons, List.nodup_cons] at hn
    rcases List.mem_cons.1 h with rfl | h
    · exact (idtSetGates_of_not_mem hn.1 _).trans (Function.update_self ..)
    · exact ih hn.2 h _

theorem idtSetGates_frame (stub : Fin n → BitVec 32) (gates : List (BitVec 8 × Fin n))
    (s : Interrupts ρ) :
    (idtSetGates stub gates s).irqRoutines = s.irqRoutines ∧
      (idtSetGates stub gates s).idtr = s.idtr ∧ (idtSetGates stub gates s).loaded = s.loaded := by
  induction gates generalizing s with
  | nil => exact ⟨rfl, rfl, rfl⟩
  | cons g gs ih => exact ih _

theorem initIdt_irqRoutines (symbols : Symbols) (s : Interrupts ρ) :
    (initIdt symbols s).irqRoutines = s.irqRoutines := by
  simp only [initIdt, initIrq, irqRemap, idtSetGates_frame]

theorem initIdt_loaded (symbols : Symbols) (s : Interrupts ρ) :
    (initIdt symbols s).loaded.limit = 0x7FF := by
  simp only [initIdt, initIrq, irqRemap, idtSetGates_frame]
  rfl

theorem irqGates_nodup : (irqGates.map Prod.fst).Nodup := by decide

theorem mem_irqGates (k : Fin 16) : (BitVec.ofNat 8 (32 + k), k) ∈ irqGates := by
  revert k
  decide

theorem initIdt_gate (symbols : Symbols) (s : Interrupts ρ) (k : Fin 16) :
    (initIdt symbols s).gate (BitVec.ofNat 8 (32 + k)) =
      some { offset := symbols.irq k, selector := 0x08 } := by
  have hnum : (BitVec.ofNat 8 (32 + k)).toNat = 32 + k := by
    rw [BitVec.toNat_ofNat]
    omega
  have hlimit : (0x7FF : BitVec 16).toNat = 2047 := rfl
  have hentry : (initIdt symbols s).idt (BitVec.ofNat 8 (32 + k)) = stubEntry (symbols.irq k) := by
    simp only [initIdt, initIrq]
    exact idtSetGates_of_mem irqGates_nodup (mem_irqGates k) _
  rw [Interrupts.gate, initIdt_loaded, hnum, hlimit, if_pos (by omega), hentry,
    decodeGate_stubEntry]

theorem isrGates_nodup : (isrGates.map Prod.fst).Nodup := by decide

theorem mem_isrGates (k : Fin 32) : (BitVec.ofNat 8 k, k) ∈ isrGates := by
  revert k
  decide

theorem not_mem_irqGates (k : Fin 32) : BitVec.ofNat 8 k ∉ irqGates.map Prod.fst := by
  revert k
  decide

theorem initIdt_isrGate (symbols : Symbols) (s : Interrupts ρ) (k : Fin 32) :
    (initIdt symbols s).gate (BitVec.ofNat 8 k) =
      some { offset := symbols.isr k, selector := 0x08 } := by
  have hnum : (BitVec.ofNat 8 k).toNat = k := by
    rw [BitVec.toNat_ofNat]
    omega
  have hlimit : (0x7FF : BitVec 16).toNat = 2047 := rfl
  have hentry : (initIdt symbols s).idt (BitVec.ofNat 8 k) = stubEntry (symbols.isr k) := by
    simp only [initIdt, initIrq]
    refine (idtSetGates_of_not_mem (not_mem_irqGates k) _).trans ?_
    simp only [irqRemap]
    exact idtSetGates_of_mem isrGates_nodup (mem_isrGates k) _
  rw [Interrupts.gate, initIdt_loaded, hnum, hlimit, if_pos (by omega), hentry,
    decodeGate_stubEntry]

def irqSetRoutines : List (Fin 16 × Option ρ) → KernelM (Interrupts ρ) Unit
  | [] => pure ()
  | c :: cs => do
    irqSetRoutine (BitVec.ofNat 32 c.1) c.2
    irqSetRoutines cs

def lastInstalled (k : Fin 16) (calls : List (Fin 16 × Option ρ)) : Option ρ :=
  ((calls.filter fun c => c.1 = k).getLast?.map Prod.snd).getD none

theorem irqSetRoutines_run (calls : List (Fin 16 × Option ρ)) (s : Interrupts ρ) :
    ∃ t, (irqSetRoutines calls).run s = .ok () t ∧ t.idt = s.idt ∧ t.loaded = s.loaded ∧
      ∀ k, t.irqRoutines k =
        ((calls.filter fun c => c.1 = k).getLast?.map Prod.snd).getD (s.irqRoutines k) := by
  induction calls generalizing s with
  | nil => exact ⟨s, rfl, rfl, rfl, fun _ => rfl⟩
  | cons c cs ih =>
    have hc : (BitVec.ofNat 32 c.1).toNat = c.1 := by
      rw [BitVec.toNat_ofNat]
      omega
    have hrun : (irqSetRoutine (BitVec.ofNat 32 c.1) c.2).run s =
        .ok () { s with irqRoutines := Function.update s.irqRoutines c.1 c.2 } := by
      have hlt : (BitVec.ofNat 32 c.1).toNat < 16 := by omega
      have hfin : (⟨(BitVec.ofNat 32 c.1).toNat, hlt⟩ : Fin 16) = c.1 := Fin.ext hc
      rw [irqSetRoutine, dif_pos hlt, hfin]
      rfl
    obtain ⟨t, ht, hidt, hloaded, hk⟩ :=
      ih { s with irqRoutines := Function.update s.irqRoutines c.1 c.2 }
    refine ⟨t, ?_, hidt, hloaded, ?_⟩
    · rw [irqSetRoutines, EStateM.run_bind, hrun]
      exact ht
    · intro k
      rw [hk k]
      by_cases h : c.1 = k
      · subst h
        rw [List.filter_cons_of_pos (by simp), List.getLast?_cons]
        cases hlast : (cs.filter fun c' => c'.1 = c.1).getLast? with
        | none => exact Function.update_self ..
        | some c' => rfl
      · rw [List.filter_cons_of_neg (by simpa using h)]
        exact congrArg _ (Function.update_of_ne (Ne.symm h) _ _)

def irqSetup (symbols : Symbols) (before after : List (Fin 16 × Option ρ)) :
    KernelM (Interrupts ρ) Unit := do
  irqSetRoutines before
  modify (initIdt symbols)
  irqSetRoutines after

theorem irqSetup_run (symbols : Symbols) (before after : List (Fin 16 × Option ρ)) :
    ∃ t, (irqSetup symbols before after).run .start = .ok () t ∧
      (∀ k : Fin 16, t.gate (BitVec.ofNat 8 (32 + k)) =
        some { offset := symbols.irq k, selector := 0x08 }) ∧
      ∀ k, t.irqRoutines k = lastInstalled k (before ++ after) := by
  obtain ⟨s, hs, -, -, hbefore⟩ := irqSetRoutines_run before .start
  obtain ⟨t, ht, hidt, hloaded, hafter⟩ := irqSetRoutines_run after (initIdt symbols s)
  refine ⟨t, ?_, ?_, ?_⟩
  · rw [irqSetup, EStateM.run_bind, hs]
    exact ht
  · intro k
    rw [Interrupts.gate, hidt, hloaded]
    exact initIdt_gate symbols s k
  · intro k
    rw [hafter, initIdt_irqRoutines, hbefore, lastInstalled, List.filter_append,
      List.getLast?_append]
    cases (after.filter fun c => c.1 = k).getLast? <;> rfl

end BordOS
