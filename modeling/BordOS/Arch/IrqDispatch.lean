import BordOS.Arch.CommonStub
import BordOS.Arch.IrqSetup

namespace BordOS
open Library
set_option autoImplicit true
set_option relaxedAutoImplicit false

variable {symbols : Symbols} {effect : ρ → SRegs → SRegs} {irqRoutines : Fin 16 → Option ρ}
  {trace : List (IrqAction ρ)} {m m' : Machine}

theorem irqStub_returns (n : BitVec 8) :
    (irqImage symbols effect irqRoutines).Returns (irqStub n) m trace m' ↔
      ∃ ret m₁ flags, IrqHandlerReturns effect irqRoutines (irqCalled symbols.irqHandler ret
        (stubSaved (n.signExtend 32) 0 symbols.irqCommonStub m)) trace m₁ ∧
        m' = irqRestored flags m₁ := by
  rw [irqStub, Image.returns_exec rfl, Image.returns_exec rfl, Image.returns_exec rfl,
    Image.returns_jmp]
  change Image.Returns _ (commonStub IrqLabel.irqHandler) _ _ _ ↔ _
  rw [commonStub_returns]
  have hsaved : irqPushRegs (((m.cli.push ((0 : BitVec 8).signExtend 32)).push
      (n.signExtend 32)).jump symbols.irqCommonStub) =
      stubSaved (n.signExtend 32) 0 symbols.irqCommonStub m := by
    rw [stubSaved]
    rfl
  have haddr : (irqImage symbols effect irqRoutines).addr .irqCommonStub =
    symbols.irqCommonStub := rfl
  rw [haddr, hsaved]
  simp only [irqImage, true_and]

theorem irqStub_frame (g : Machine.Gate) (n : BitVec 8)
    (h : (irqImage symbols effect irqRoutines).Returns (irqStub n) (m.interrupt g) trace m') :
    ∃ frame after, frame.Holds m.selectorPush m.cpu ∧ frame.intNo = n.signExtend 32 ∧
      (irqHandler effect irqRoutines).run { frame, actions := [] } =
        .ok () { frame := after, actions := trace } ∧
      m'.cpu = after.toCpu m.cpu.esp m.cpu.ss := by
  obtain ⟨ret, m₁, flags, ⟨hcdecl, hsource⟩, rfl⟩ := (irqStub_returns n).1 h
  obtain ⟨hesp, hss⟩ := stubSaved_cpu (n.signExtend 32) 0 symbols.irqCommonStub (m.interrupt g)
  obtain ⟨harg, hholds, hint, -⟩ := stubCalled_frame g (n.signExtend 32) 0 symbols.irqCommonStub
    symbols.irqHandler ret m rfl rfl
  have hrestored := stubRestored_cpu flags hcdecl
  generalize stubSaved (n.signExtend 32) 0 symbols.irqCommonStub (m.interrupt g) = saved at *
  rw [harg] at hsource
  refine ⟨_, _, hholds, hint, hsource, ?_⟩
  have hend : saved.cpu.esp + 68 = m.cpu.esp := by
    rw [hesp, Machine.interrupt_cpu]
    bv_omega
  rw [hrestored, hend, hss, Machine.interrupt_cpu]

theorem IrqState.callHandler_eq (handler : Option ρ) (s : IrqState ρ) :
    s.callHandler effect handler =
      { frame := (handler.map (effect · s.frame)).getD s.frame
        actions := s.actions ++ handler.toList.map (.call · s.frame) } := by
  cases handler with
  | none => simp [callHandler]
  | some r => rfl

theorem IrqState.endOfInterrupt_eq (s : IrqState ρ) :
    s.endOfInterrupt =
      { s with actions := s.actions ++
          ((if 40 ≤ s.frame.intNo then [.outb 0xA0 0x20] else []) ++ [.outb 0x20 0x20]) } := by
  rw [endOfInterrupt]
  split <;> simp [outb]

theorem irqHandler_run (effect : ρ → SRegs → SRegs) (irqRoutines : Fin 16 → Option ρ)
    {k : Fin 16} {frame : SRegs} (hint : frame.intNo = (BitVec.ofNat 8 (32 + k)).signExtend 32) :
    ∃ after, after = ((irqRoutines k).map (effect · frame)).getD frame ∧
      (irqHandler effect irqRoutines).run { frame, actions := [] } =
        .ok () { frame := after
                 actions := .enter frame :: (irqRoutines k).toList.map (.call · frame) ++
                  ((if 40 ≤ after.intNo then [.outb 0xA0 0x20] else []) ++
                    [.outb 0x20 0x20]) } := by
  have hk : (frame.intNo - 32).toNat = k := by
    rw [hint]
    clear hint
    revert k
    decide
  have hlt : (frame.intNo - 32).toNat < 16 := by omega
  have hfin : (⟨(frame.intNo - 32).toNat, hlt⟩ : Fin 16) = k := Fin.ext hk
  have hrun : (irqHandler effect irqRoutines).run { frame, actions := [] } = .ok ()
      (IrqState.callHandler effect (irqRoutines k)
        { frame, actions := [.enter frame] }).endOfInterrupt := by
    simp only [irqHandler, EStateM.run_bind, EStateM.run_modify, EStateM.run_get, dif_pos hlt,
      hfin, List.nil_append]
    rfl
  refine ⟨_, rfl, ?_⟩
  rw [hrun, IrqState.endOfInterrupt_eq, IrqState.callHandler_eq]
  rfl

theorem exists_slotsAt (ws : List (BitVec 32)) (a : BitVec 32) (h : 4 * ws.length ≤ 2 ^ 32) :
    ∃ mem, SlotsAt mem a (ws.map .word) := by
  induction ws generalizing a with
  | nil => exact ⟨fun _ => 0, trivial⟩
  | cons w ws ih =>
    rw [List.length_cons] at h
    obtain ⟨mem, hmem⟩ := ih (a + 4) (by omega)
    exact ⟨_, hmem.store32 w (by rw [List.length_map]; omega)⟩

theorem SRegs.exists_read (f : SRegs) (reg : BitVec 32) : ∃ mem, SRegs.read mem reg = f := by
  obtain ⟨mem, h⟩ := exists_slotsAt [f.gs, f.fs, f.es, f.ds, f.edi, f.esi, f.ebp, f.esp, f.ebx,
    f.edx, f.ecx, f.eax, f.intNo, f.errCode, f.eip, f.cs, f.eflags, f.useresp, f.ss] reg
    (by simp)
  refine ⟨mem, ?_⟩
  simp only [List.map_cons, List.map_nil, SlotsAt, Slot.Fits, BitVec.add_assoc,
    BitVec.reduceAdd] at h
  obtain ⟨gs, fs, es, ds, edi, esi, ebp, esp, ebx, edx, ecx, eax, intNo, errCode, eip, cs, eflags,
    useresp, ss, -⟩ := h
  exact SRegs.ext gs fs es ds edi esi ebp esp ebx edx ecx eax intNo errCode eip cs eflags useresp
    ss

theorem exists_irqHandlerReturns (m : Machine) {after : SRegs} {actions : List (IrqAction ρ)}
    (h : (irqHandler effect irqRoutines).run
        { frame := .read m.mem (m.mem.load32 (m.cpu.esp + 4)), actions := [] } =
      .ok () { frame := after, actions }) :
    ∃ m', IrqHandlerReturns effect irqRoutines m actions m' := by
  obtain ⟨mem, hmem⟩ := after.exists_read (m.mem.load32 (m.cpu.esp + 4))
  refine ⟨{ m with cpu := { m.cpu with eip := m.top, esp := m.cpu.esp + 4 }, mem }, ?_, ?_⟩
  · constructor <;> rfl
  · rw [h, hmem]

theorem irqStub_exists (symbols : Symbols) (effect : ρ → SRegs → SRegs)
    (irqRoutines : Fin 16 → Option ρ) (g : Machine.Gate) (k : Fin 16) (m : Machine) :
    ∃ trace m', (irqImage symbols effect irqRoutines).Returns
      (irqStub (BitVec.ofNat 8 (32 + k))) (m.interrupt g) trace m' := by
  obtain ⟨harg, -, hint, -⟩ := stubCalled_frame g ((BitVec.ofNat 8 (32 + k)).signExtend 32) 0
    symbols.irqCommonStub symbols.irqHandler 0 m rfl rfl
  rw [← harg] at hint
  obtain ⟨after, -, hrun⟩ := irqHandler_run effect irqRoutines hint
  obtain ⟨m₁, hret⟩ := exists_irqHandlerReturns _ hrun
  exact ⟨_, _, (irqStub_returns _).2 ⟨0, m₁, 0, hret, rfl⟩⟩

theorem irqStubs_eq (k : Fin 16) : irqStubs k = irqStub (BitVec.ofNat 8 (32 + k)) := by
  revert k
  decide

theorem le_intNo_iff {k : Fin 16} {x : BitVec 32}
    (h : x = (BitVec.ofNat 8 (32 + k)).signExtend 32) :
    x.toNat = 32 + (k : Nat) ∧ (40 ≤ x ↔ 8 ≤ (k : Nat)) := by
  subst h
  revert k
  decide

/-- An interrupt on line `k` in `m` is served: `irq_handler` gets the interrupted registers, the
routine is called with them, the controllers get the end of interrupt by the number that it left in
the frame, and the registers come back if it left the frame as it was. -/
def IrqServed (effect : ρ → SRegs → SRegs) (routine : Option ρ) (k : Fin 16) (m : Machine)
    (trace : List (IrqAction ρ)) (m' : Machine) : Prop :=
  ∃ frame after : SRegs,
    frame.Holds m.selectorPush m.cpu ∧ frame.intNo.toNat = 32 + (k : Nat) ∧
    after = (routine.map (effect · frame)).getD frame ∧
    trace = .enter frame :: routine.toList.map (.call · frame) ++
      ((if 40 ≤ after.intNo then [.outb 0xA0 0x20] else []) ++ [.outb 0x20 0x20]) ∧
    (after.intNo = frame.intNo → (40 ≤ after.intNo ↔ 8 ≤ (k : Nat))) ∧
    (after = frame → m'.cpu = m.cpu)

theorem irqStubs_served {g : Machine.Gate} {k : Fin 16}
    (h : (irqImage symbols effect irqRoutines).Returns (irqStubs k) (m.interrupt g) trace m') :
    IrqServed effect (irqRoutines k) k m trace m' := by
  rw [irqStubs_eq] at h
  obtain ⟨frame, after, hholds, hint, hrun, hcpu⟩ := irqStub_frame g _ h
  obtain ⟨after', hafter, hrun'⟩ := irqHandler_run effect irqRoutines hint
  obtain ⟨hint_toNat, hint_iff⟩ := le_intNo_iff hint
  rw [hrun] at hrun'
  injection hrun' with _ hstate
  injection hstate with hframe hactions
  subst hframe
  refine ⟨frame, after, hholds, hint_toNat, hafter, hactions, ?_, ?_⟩
  · intro hkept
    rw [hkept]
    exact hint_iff
  · intro hkept
    rw [hcpu, hkept]
    exact hholds.toCpu

/-- Hardware interrupts end to end: vector `32 + k` leads to the stub of line `k`, the stub runs to
its `iret`, and every run serves the line by the routine that was last installed for it. -/
theorem irq_dispatch (symbols : Symbols) (effect : ρ → SRegs → SRegs)
    (before after : List (Fin 16 × Option ρ)) (k : Fin 16) (m : Machine) :
    ∃ s, (irqSetup symbols before after).run .start = .ok () s ∧
      ∃ g, s.gate (BitVec.ofNat 8 (32 + k)) = some g ∧ g.offset = symbols.irq k ∧
        (∃ trace m', (irqImage symbols effect s.irqRoutines).Returns (irqStubs k)
          (m.interrupt g) trace m') ∧
        ∀ trace m', (irqImage symbols effect s.irqRoutines).Returns (irqStubs k)
            (m.interrupt g) trace m' →
          IrqServed effect (lastInstalled k (before ++ after)) k m trace m' := by
  obtain ⟨s, hs, hgate, hroutines⟩ := irqSetup_run symbols before after
  refine ⟨s, hs, _, hgate k, rfl, ?_, ?_⟩
  · rw [irqStubs_eq]
    exact irqStub_exists symbols effect s.irqRoutines _ k m
  · intro trace m' h
    rw [← hroutines]
    exact irqStubs_served h

/-- A routine on line 8 that clears the number in the frame. The second controller, which raised the
interrupt, gets no end of interrupt. -/
theorem irq_dispatch_number_cleared :
    ∃ s, (irqSetup ⟨fun _ => 0, fun _ => 0, 0, 0, 0⟩ [] [(8, some ())]).run .start = .ok () s ∧
      ∃ trace m', (irqImage ⟨fun _ => 0, fun _ => 0, 0, 0, 0⟩
          (fun _ frame => { frame with intNo := 0 }) s.irqRoutines).Returns (irqStubs 8)
          (Machine.interrupt ⟨⟨0, 0, 0, 0, 0, 0, 0, 0, 0, 0, 8, 16, 16, 16, 16, 16⟩, fun _ => 0,
            .extended⟩ ⟨0, 8⟩) trace m' ∧
        .outb 0xA0 0x20 ∉ trace := by
  obtain ⟨s, hs, -, hroutines⟩ :=
    irqSetup_run ⟨fun _ => 0, fun _ => 0, 0, 0, 0⟩ [] [((8 : Fin 16), some ())]
  obtain ⟨trace, m', h⟩ := irqStub_exists ⟨fun _ => 0, fun _ => 0, 0, 0, 0⟩
    (fun _ frame => { frame with intNo := 0 }) s.irqRoutines ⟨0, 8⟩ 8
    ⟨⟨0, 0, 0, 0, 0, 0, 0, 0, 0, 0, 8, 16, 16, 16, 16, 16⟩, fun _ => 0, .extended⟩
  rw [← irqStubs_eq] at h
  obtain ⟨frame, after, -, -, hafter, htrace, -⟩ := irqStubs_served h
  have hroutine : s.irqRoutines 8 = some () := by
    rw [hroutines]
    decide
  rw [hroutine] at hafter htrace
  refine ⟨s, hs, trace, m', h, ?_⟩
  rw [htrace, hafter]
  simp

end BordOS
