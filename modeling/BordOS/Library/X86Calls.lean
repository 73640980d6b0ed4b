import BordOS.Library.X86

namespace BordOS.Library
set_option autoImplicit true
set_option relaxedAutoImplicit false

variable {ι τ : Type}

/-- Runs of an interrupt routine up to the entry of the first function that it calls: the address of
the function, and the machine that enters it. -/
inductive Image.Calls (p : Image ι τ) :
    List (Instr ι) → Machine → BitVec 32 → Machine → Prop where
  | exec {i : Instr ι} {rest : List (Instr ι)} {m m₁ m₂ : Machine} {a : BitVec 32} :
      i.exec p.addr m = some m₁ → p.Calls rest m₁ a m₂ → p.Calls (i :: rest) m a m₂
  | addEsp {v : BitVec 8} {rest : List (Instr ι)} {m m₂ : Machine} {a : BitVec 32}
      (flags : BitVec 32) :
      p.Calls rest { m with cpu := { m.cpu with
        esp := m.cpu.esp + v.signExtend 32, eflags := flags } } a m₂ →
      p.Calls (.addEsp v :: rest) m a m₂
  | jmp {l : ι} {rest : List (Instr ι)} {m m₂ : Machine} {a : BitVec 32} :
      p.Calls (p.code l) (m.jump (p.addr l)) a m₂ → p.Calls (.jmp l :: rest) m a m₂
  | callReg {r : Reg} {rest : List (Instr ι)} {m : Machine} (ret : BitVec 32) :
      p.Calls (.callReg r :: rest) m (m.cpu.get r) ((m.jump (m.cpu.get r)).push ret)

variable {p : Image ι τ} {rest : List (Instr ι)} {m m₁ m₂ : Machine} {a : BitVec 32}

theorem Image.calls_exec {i : Instr ι} (h : i.exec p.addr m = some m₁) :
    p.Calls (i :: rest) m a m₂ ↔ p.Calls rest m₁ a m₂ := by
  constructor
  · intro hc
    cases hc with
    | exec h' hc =>
      rw [h, Option.some.injEq] at h'
      rwa [h']
    | addEsp => cases h
    | jmp => cases h
    | callReg => cases h
  · exact .exec h

theorem Image.calls_jmp {l : ι} :
    p.Calls (.jmp l :: rest) m a m₂ ↔ p.Calls (p.code l) (m.jump (p.addr l)) a m₂ := by
  constructor
  · intro hc
    cases hc with
    | exec h => cases h
    | jmp hc => exact hc
  · exact .jmp

theorem Image.calls_callReg {r : Reg} :
    p.Calls (.callReg r :: rest) m a m₂ ↔
      ∃ ret, a = m.cpu.get r ∧ m₂ = (m.jump (m.cpu.get r)).push ret := by
  constructor
  · intro hc
    cases hc with
    | exec h => cases h
    | callReg ret => exact ⟨ret, rfl, rfl⟩
  · rintro ⟨ret, rfl, rfl⟩
    exact .callReg ret

end BordOS.Library
