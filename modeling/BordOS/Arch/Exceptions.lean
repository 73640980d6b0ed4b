import BordOS.Arch.Isr

namespace BordOS
open Library
set_option autoImplicit true
set_option relaxedAutoImplicit false

variable {symbols : IsrSymbols} {frames : List SRegs} {m m' : Machine}

theorem isrCommonStub_returns :
    (isrImage symbols).Returns isrCommonStub m frames m' ↔
      ∃ ret m₁ flags, IsrHandlerReturns (irqCalled symbols.isrDefaultInt ret (irqPushRegs m))
        frames m₁ ∧ m' = irqRestored flags m₁ := by
  change Image.Returns _ (commonStub IsrLabel.isrDefaultInt) _ _ _ ↔ _
  rw [commonStub_returns]
  simp only [isrImage, true_and]

theorem isrStub_returns (n : BitVec 8) :
    (isrImage symbols).Returns (isrStub n) m frames m' ↔
      ∃ ret m₁ flags, IsrHandlerReturns (irqCalled symbols.isrDefaultInt ret
        (stubSaved (n.signExtend 32) 0 symbols.isrCommonStub m)) frames m₁ ∧
        m' = irqRestored flags m₁ := by
  rw [isrStub, Image.returns_exec rfl, Image.returns_exec rfl, Image.returns_exec rfl,
    Image.returns_jmp]
  exact isrCommonStub_returns

theorem isrErrorStub_returns (n : BitVec 8) (code : BitVec 32) :
    (isrImage symbols).Returns (isrErrorStub n) (m.push code) frames m' ↔
      ∃ ret m₁ flags, IsrHandlerReturns (irqCalled symbols.isrDefaultInt ret
        (stubSaved (n.signExtend 32) code symbols.isrCommonStub m)) frames m₁ ∧
        m' = irqRestored flags m₁ := by
  rw [isrErrorStub, Image.returns_exec rfl, Image.returns_exec rfl, Image.returns_jmp]
  exact isrCommonStub_returns

/-- The frame that `isr_default_int` has to get, and the registers that the epilogue has to give
back. The stack pointer in the frame is the one that `pusha` finds, five words down. -/
def ExceptionServed (vector : Nat) (code : BitVec 32) (m : Machine) (frames : List SRegs)
    (m' : Machine) : Prop :=
  ∃ frame : SRegs, frames = [frame] ∧ frame.Holds m.selectorPush m.cpu ∧
    frame.esp = m.cpu.esp - 20 ∧ frame.intNo.toNat = vector ∧
    frame.errCode = (if Machine.pushesErrorCode vector then code else 0) ∧ m'.cpu = m.cpu

theorem stubSaved_served {g : Machine.Gate} {intNo errCode ret flags : BitVec 32} {m₁ : Machine}
    (h : IsrHandlerReturns (irqCalled symbols.isrDefaultInt ret
      (stubSaved intNo errCode symbols.isrCommonStub (m.interrupt g))) frames m₁) :
    ∃ frame : SRegs, frames = [frame] ∧ frame.Holds m.selectorPush m.cpu ∧
      frame.esp = m.cpu.esp - 20 ∧ frame.intNo = intNo ∧ frame.errCode = errCode ∧
      (irqRestored flags m₁).cpu = m.cpu := by
  obtain ⟨hesp, hss⟩ := stubSaved_cpu intNo errCode symbols.isrCommonStub (m.interrupt g)
  obtain ⟨harg, hholds, hint, herr, hframe⟩ := stubCalled_frame g intNo errCode
    symbols.isrCommonStub symbols.isrDefaultInt ret m rfl rfl
  obtain ⟨hcdecl, hentered, hkept⟩ := h
  have hrestored := stubRestored_cpu flags hcdecl
  generalize stubSaved intNo errCode symbols.isrCommonStub (m.interrupt g) = saved at *
  rw [harg] at hentered hkept
  refine ⟨_, hentered, hholds, hframe, hint, herr, ?_⟩
  have hend : saved.cpu.esp + 68 = m.cpu.esp := by
    rw [hesp, Machine.interrupt_cpu]
    bv_omega
  rw [hrestored, hkept, hend, hss, Machine.interrupt_cpu]
  exact hholds.toCpu

/-- With a word too many the epilogue leaves one behind. -/
theorem stubSaved_extra {g : Machine.Gate} {intNo code ret : BitVec 32} {m₁ : Machine}
    (flags : BitVec 32)
    (h : IsrHandlerReturns (irqCalled symbols.isrDefaultInt ret
      (stubSaved intNo 0 symbols.isrCommonStub ((m.interrupt g).push code))) frames m₁) :
    (irqRestored flags m₁).cpu.esp = m.cpu.esp - 4 := by
  obtain ⟨hesp, -⟩ := stubSaved_cpu intNo 0 symbols.isrCommonStub ((m.interrupt g).push code)
  rw [stubRestored_cpu flags h.cdecl, SRegs.toCpu, hesp, Machine.push_cpu, Machine.interrupt_cpu]
  bv_omega

theorem isrHandlerReturns_exists (m : Machine) :
    ∃ frames m', IsrHandlerReturns m frames m' :=
  ⟨_, { m with cpu := { m.cpu with eip := m.top, esp := m.cpu.esp + 4 } },
    ⟨by constructor <;> rfl, rfl, rfl⟩⟩

theorem isrStub_exists (symbols : IsrSymbols) (n : BitVec 8) (m : Machine) :
    ∃ frames m', (isrImage symbols).Returns (isrStub n) m frames m' := by
  obtain ⟨frames, m₁, h⟩ := isrHandlerReturns_exists (irqCalled symbols.isrDefaultInt 0
    (stubSaved (n.signExtend 32) 0 symbols.isrCommonStub m))
  exact ⟨frames, _, isrStub_returns n |>.mpr ⟨0, m₁, 0, h, rfl⟩⟩

theorem isrErrorStub_exists (symbols : IsrSymbols) (n : BitVec 8) (code : BitVec 32)
    (m : Machine) :
    ∃ frames m', (isrImage symbols).Returns (isrErrorStub n) (m.push code) frames m' := by
  obtain ⟨frames, m₁, h⟩ := isrHandlerReturns_exists (irqCalled symbols.isrDefaultInt 0
    (stubSaved (n.signExtend 32) code symbols.isrCommonStub m))
  exact ⟨frames, _, isrErrorStub_returns n code |>.mpr ⟨0, m₁, 0, h, rfl⟩⟩

theorem isrStubs_eq (v : Fin 21) :
    isrStubs (v.castLE (by decide)) =
      if Machine.pushesErrorCode v ∧ v ≠ 17 then isrErrorStub (BitVec.ofNat 8 v)
      else isrStub (BitVec.ofNat 8 v) := by
  revert v
  decide

theorem isrNumber_toNat (v : Fin 21) : ((BitVec.ofNat 8 v).signExtend 32).toNat = v := by
  revert v
  decide

variable {g : Machine.Gate} {code : BitVec 32}

/-- The processor and the stub push one word together for the error code. -/
theorem isrStubs_returns {v : Fin 21} (hv : v ≠ 17) :
    (isrImage symbols).Returns (isrStubs (v.castLE (by decide))) (m.exception v g code)
      frames m' ↔
      ∃ ret m₁ flags, IsrHandlerReturns (irqCalled symbols.isrDefaultInt ret
        (stubSaved ((BitVec.ofNat 8 v).signExtend 32)
          (if Machine.pushesErrorCode v then code else 0) symbols.isrCommonStub
          (m.interrupt g))) frames m₁ ∧ m' = irqRestored flags m₁ := by
  rw [isrStubs_eq, Machine.exception]
  by_cases hcode : Machine.pushesErrorCode v
  · rw [if_pos ⟨hcode, hv⟩, if_pos hcode, if_pos hcode]
    exact isrErrorStub_returns _ code
  · rw [if_neg fun h => hcode h.1, if_neg hcode, if_neg hcode]
    exact isrStub_returns _

theorem isrStubs_exists (symbols : IsrSymbols) (v : Fin 21) (m : Machine) :
    ∃ frames m', (isrImage symbols).Returns (isrStubs (v.castLE (by decide)))
      (m.exception v g code) frames m' := by
  rw [isrStubs_eq, Machine.exception]
  split_ifs with hstub hcode hcode
  · exact isrErrorStub_exists symbols _ code _
  · exact absurd hstub.1 hcode
  · exact isrStub_exists symbols _ _
  · exact isrStub_exists symbols _ _

theorem isrStubs_served {v : Fin 21} (hv : v ≠ 17)
    (h : (isrImage symbols).Returns (isrStubs (v.castLE (by decide))) (m.exception v g code)
      frames m') : ExceptionServed v code m frames m' := by
  obtain ⟨ret, m₁, flags, hhandler, rfl⟩ := (isrStubs_returns hv).mp h
  obtain ⟨frame, hentered, hholds, hesp, hint, herr, hcpu⟩ := stubSaved_served hhandler
  exact ⟨frame, hentered, hholds, hesp, hint ▸ isrNumber_toNat v, herr, hcpu⟩

theorem isr17_not_served
    (h : (isrImage symbols).Returns isr17 (m.exception 17 g code) frames m') :
    ¬ ExceptionServed 17 code m frames m' := by
  rintro ⟨-, -, -, -, -, -, hcpu⟩
  obtain ⟨ret, m₁, flags, hhandler, rfl⟩ := (isrStub_returns 17).mp h
  have hesp := stubSaved_extra flags hhandler
  rw [hcpu] at hesp
  bv_omega

/-- Exceptions end to end: the gate of each vector leads to its stub, the stub has a run to its
`iret`, and the frame is right and popped whole in every vector but 17, whose stub pushes an error
code on top of the processor's. -/
theorem exception_frame_iff (symbols : IsrSymbols) (s : Interrupts ρ) (v : Fin 21) (m : Machine)
    (code : BitVec 32) :
    ∃ g, (initIdt symbols.toSymbols s).gate (BitVec.ofNat 8 v) = some g ∧
      g.offset = symbols.isr (v.castLE (by decide)) ∧
      (∃ frames m', (isrImage symbols).Returns (isrStubs (v.castLE (by decide)))
        (m.exception v g code) frames m') ∧
      ∀ frames m', (isrImage symbols).Returns (isrStubs (v.castLE (by decide)))
          (m.exception v g code) frames m' →
        (ExceptionServed v code m frames m' ↔ v ≠ 17) := by
  refine ⟨_, initIdt_isrGate symbols.toSymbols s (v.castLE (by decide)), rfl,
    isrStubs_exists symbols v m, ?_⟩
  intro frames m' h
  constructor
  · rintro hserved rfl
    exact isr17_not_served h hserved
  · intro hv
    exact isrStubs_served hv h

/-- An alignment check with the error code 0, which is the code the processor pushes for it. -/
theorem exception_frame_alignment :
    ∃ frames m', (isrImage ⟨⟨fun _ => 0, fun _ => 0, 0, 0, 0⟩, 0, 0⟩).Returns isr17
        (Machine.exception ⟨⟨0, 0, 0, 0, 0, 0, 0, 0, 0, 0, 8, 16, 16, 16, 16, 16⟩, fun _ => 0,
          .extended⟩ 17 ⟨0, 8⟩ 0) frames m' ∧
      ¬ ExceptionServed 17 0 ⟨⟨0, 0, 0, 0, 0, 0, 0, 0, 0, 0, 8, 16, 16, 16, 16, 16⟩, fun _ => 0,
          .extended⟩ frames m' := by
  obtain ⟨frames, m', h⟩ := isrStub_exists ⟨⟨fun _ => 0, fun _ => 0, 0, 0, 0⟩, 0, 0⟩ 17
    (Machine.exception ⟨⟨0, 0, 0, 0, 0, 0, 0, 0, 0, 0, 8, 16, 16, 16, 16, 16⟩, fun _ => 0,
      .extended⟩ 17 ⟨0, 8⟩ 0)
  exact ⟨frames, m', h, isr17_not_served h⟩

end BordOS
