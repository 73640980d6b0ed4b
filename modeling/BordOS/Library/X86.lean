import BordOS.Library.ByteMemory

namespace BordOS.Library
set_option autoImplicit true
set_option relaxedAutoImplicit false

/-- The registers of a 32-bit x86 processor with flat segments. -/
structure Cpu where
  eax : BitVec 32
  ecx : BitVec 32
  edx : BitVec 32
  ebx : BitVec 32
  esp : BitVec 32
  ebp : BitVec 32
  esi : BitVec 32
  edi : BitVec 32
  eip : BitVec 32
  eflags : BitVec 32
  cs : BitVec 16
  ds : BitVec 16
  es : BitVec 16
  fs : BitVec 16
  gs : BitVec 16
  ss : BitVec 16
deriving DecidableEq, Repr

inductive Reg where
  | eax
  | ecx
  | edx
  | ebx
  | esp
  | ebp
  | esi
  | edi
deriving DecidableEq, Repr

inductive Seg where
  | ds
  | es
  | fs
  | gs
deriving DecidableEq, Repr

def Cpu.get (c : Cpu) : Reg → BitVec 32
  | .eax => c.eax
  | .ecx => c.ecx
  | .edx => c.edx
  | .ebx => c.ebx
  | .esp => c.esp
  | .ebp => c.ebp
  | .esi => c.esi
  | .edi => c.edi

def Cpu.set (c : Cpu) (v : BitVec 32) : Reg → Cpu
  | .eax => { c with eax := v }
  | .ecx => { c with ecx := v }
  | .edx => { c with edx := v }
  | .ebx => { c with ebx := v }
  | .esp => { c with esp := v }
  | .ebp => { c with ebp := v }
  | .esi => { c with esi := v }
  | .edi => { c with edi := v }

def Cpu.getSeg (c : Cpu) : Seg → BitVec 16
  | .ds => c.ds
  | .es => c.es
  | .fs => c.fs
  | .gs => c.gs

def Cpu.setSeg (c : Cpu) (v : BitVec 16) : Seg → Cpu
  | .ds => { c with ds := v }
  | .es => { c with es := v }
  | .fs => { c with fs := v }
  | .gs => { c with gs := v }

/-- How a processor pushes a selector with a 32-bit operand: extended with zeros, or by a 16-bit
write that leaves the upper half of the stack slot as it was. -/
inductive SelectorPush where
  | extended
  | lowHalf
deriving DecidableEq, Repr

def SelectorPush.Holds (s : BitVec 16) (x : BitVec 32) : SelectorPush → Prop
  | .extended => x = s.setWidth 32
  | .lowHalf => x.setWidth 16 = s

theorem SelectorPush.Holds.low {p : SelectorPush} {s : BitVec 16} {x : BitVec 32}
    (h : p.Holds s x) : x.setWidth 16 = s := by
  cases p with
  | extended =>
    rw [SelectorPush.Holds] at h
    simp [h]
  | lowHalf => exact h

structure Machine where
  cpu : Cpu
  mem : Memory
  selectorPush : SelectorPush

namespace Machine

/-! ### The stack -/

def push (m : Machine) (v : BitVec 32) : Machine :=
  { m with
    cpu := { m.cpu with esp := m.cpu.esp - 4 }
    mem := m.mem.store32 (m.cpu.esp - 4) v }

def pushSel (m : Machine) (s : BitVec 16) : Machine :=
  { m with
    cpu := { m.cpu with esp := m.cpu.esp - 4 }
    mem := match m.selectorPush with
      | .extended => m.mem.store32 (m.cpu.esp - 4) (s.setWidth 32)
      | .lowHalf => m.mem.store16 (m.cpu.esp - 4) s }

def top (m : Machine) : BitVec 32 := m.mem.load32 m.cpu.esp

def drop (m : Machine) (n : BitVec 32) : Machine :=
  { m with cpu := { m.cpu with esp := m.cpu.esp + n } }

def pop (m : Machine) (r : Reg) : Machine :=
  { m with cpu := (m.drop 4).cpu.set m.top r }

def popSel (m : Machine) (s : Seg) : Machine :=
  { m with cpu := (m.drop 4).cpu.setSeg (m.top.setWidth 16) s }

/-! ### Interrupts -/

structure Gate where
  offset : BitVec 32
  selector : BitVec 16
deriving DecidableEq, Repr

/-- Decode the 8 bytes of a descriptor: a present 32-bit interrupt gate, of any privilege level,
has its offset in two halves, around the selector and the access byte. -/
def decodeGate (descriptor : BitVec 64) : Option Gate :=
  if descriptor.extractLsb' 40 8 &&& 0x9F = 0x8E then
    some { offset := descriptor.extractLsb' 48 16 ++ descriptor.extractLsb' 0 16
           selector := descriptor.extractLsb' 16 16 }
  else none

/-- The flags that an interrupt gate clears: TF, IF, NT, RF and VM. -/
def gateFlags : BitVec 32 := 0x34300

def interrupt (m : Machine) (g : Gate) : Machine :=
  let m := ((m.push m.cpu.eflags).pushSel m.cpu.cs).push m.cpu.eip
  { m with cpu := { m.cpu with
      eip := g.offset, cs := g.selector, eflags := m.cpu.eflags &&& ~~~gateFlags } }

/-- The exceptions for which the processor pushes an error code. -/
def pushesErrorCode (vector : Nat) : Bool :=
  vector = 8 || (10 ≤ vector && vector ≤ 14) || vector = 17

def exception (m : Machine) (vector : Nat) (g : Gate) (code : BitVec 32) : Machine :=
  if pushesErrorCode vector then (m.interrupt g).push code else m.interrupt g

def iret (m : Machine) : Machine :=
  { m with cpu := { m.cpu with
      eip := m.mem.load32 m.cpu.esp
      cs := (m.mem.load32 (m.cpu.esp + 4)).setWidth 16
      eflags := m.mem.load32 (m.cpu.esp + 8)
      esp := m.cpu.esp + 12 } }

end Machine

/-! ### Instructions -/

/-- The instructions of interrupt stubs. The labels `ι` are those of the linked program. -/
inductive Instr (ι : Type) where
  | cli
  | pushImm8 (v : BitVec 8)
  | pushReg (r : Reg)
  | pushSeg (s : Seg)
  | pusha
  | popReg (r : Reg)
  | popSeg (s : Seg)
  | popa
  /-- move an immediate to the low half of a register -/
  | movImm16 (r : Reg) (v : BitVec 16)
  /-- load a segment register from the low half of a register -/
  | movSeg (s : Seg) (r : Reg)
  | movReg (dst src : Reg)
  | movLabel (dst : Reg) (l : ι)
  | addEsp (v : BitVec 8)
  | jmp (l : ι)
  | callReg (r : Reg)
  | iret
deriving DecidableEq, Repr

/-- `pusha` stores the stack pointer from before it. -/
def Machine.pusha (m : Machine) : Machine :=
  let c := m.cpu
  m.push c.eax |>.push c.ecx |>.push c.edx |>.push c.ebx |>.push c.esp |>.push c.ebp |>.push c.esi
    |>.push c.edi

/-- `popa` skips the stored stack pointer. -/
def Machine.popa (m : Machine) : Machine :=
  m.pop .edi |>.pop .esi |>.pop .ebp |>.drop 4 |>.pop .ebx |>.pop .edx |>.pop .ecx |>.pop .eax

def Machine.cli (m : Machine) : Machine :=
  { m with cpu := { m.cpu with eflags := m.cpu.eflags &&& ~~~0x200 } }

def Machine.jump (m : Machine) (a : BitVec 32) : Machine :=
  { m with cpu := { m.cpu with eip := a } }

/-! What the operations above do to the registers, the memory and the kind of processor. -/

namespace Machine

variable (m : Machine)

@[simp] theorem push_cpu (v : BitVec 32) :
    (m.push v).cpu = { m.cpu with esp := m.cpu.esp - 4 } := by
  rw [push]

@[simp] theorem push_selectorPush (v : BitVec 32) :
    (m.push v).selectorPush = m.selectorPush := by
  rw [push]

@[simp] theorem pushSel_cpu (s : BitVec 16) :
    (m.pushSel s).cpu = { m.cpu with esp := m.cpu.esp - 4 } := by
  rw [pushSel]

@[simp] theorem pushSel_selectorPush (s : BitVec 16) :
    (m.pushSel s).selectorPush = m.selectorPush := by
  rw [pushSel]

@[simp] theorem pusha_cpu : m.pusha.cpu = { m.cpu with esp := m.cpu.esp - 32 } := by
  have hesp (a : BitVec 32) : a - 4 - 4 - 4 - 4 - 4 - 4 - 4 - 4 = a - 32 := by bv_omega
  simp only [pusha, push_cpu, hesp]

@[simp] theorem pusha_selectorPush : m.pusha.selectorPush = m.selectorPush := by
  simp only [pusha, push_selectorPush]

@[simp] theorem cli_cpu : m.cli.cpu = { m.cpu with eflags := m.cpu.eflags &&& ~~~0x200 } := rfl

@[simp] theorem cli_mem : m.cli.mem = m.mem := rfl

@[simp] theorem cli_selectorPush : m.cli.selectorPush = m.selectorPush := rfl

@[simp] theorem jump_cpu (a : BitVec 32) : (m.jump a).cpu = { m.cpu with eip := a } := rfl

@[simp] theorem jump_mem (a : BitVec 32) : (m.jump a).mem = m.mem := rfl

@[simp] theorem jump_selectorPush (a : BitVec 32) :
    (m.jump a).selectorPush = m.selectorPush := rfl

@[simp] theorem interrupt_cpu (g : Gate) :
    (m.interrupt g).cpu = { m.cpu with
      esp := m.cpu.esp - 12, eip := g.offset, cs := g.selector
      eflags := m.cpu.eflags &&& ~~~gateFlags } := by
  have hesp (a : BitVec 32) : a - 4 - 4 - 4 = a - 12 := by bv_omega
  simp only [interrupt, push_cpu, pushSel_cpu, hesp]

@[simp] theorem interrupt_selectorPush (g : Gate) :
    (m.interrupt g).selectorPush = m.selectorPush := by
  simp only [interrupt, push_selectorPush, pushSel_selectorPush]

end Machine

/-- The instructions that go on with the next one and set no status flag. `addr` gives the addresses
of the labels. -/
def Instr.exec (addr : ι → BitVec 32) : Instr ι → Machine → Option Machine
  | .cli, m => some m.cli
  | .pushImm8 v, m => some (m.push (v.signExtend 32))
  | .pushReg r, m => some (m.push (m.cpu.get r))
  | .pushSeg s, m => some (m.pushSel (m.cpu.getSeg s))
  | .pusha, m => some m.pusha
  | .popReg r, m => some (m.pop r)
  | .popSeg s, m => some (m.popSel s)
  | .popa, m => some m.popa
  | .movImm16 r v, m =>
    some { m with cpu := m.cpu.set ((m.cpu.get r >>> 16).setWidth 16 ++ v) r }
  | .movSeg s r, m => some { m with cpu := m.cpu.setSeg ((m.cpu.get r).setWidth 16) s }
  | .movReg dst src, m => some { m with cpu := m.cpu.set (m.cpu.get src) dst }
  | .movLabel dst l, m => some { m with cpu := m.cpu.set (addr l) dst }
  | .addEsp _, _ | .jmp _, _ | .callReg _, _ | .iret, _ => none

/-- A linked program: the code at its labels, their addresses, and the functions outside it, which
a call enters with the return address pushed and leaves with a trace of `τ`. -/
structure Image (ι τ : Type) where
  code : ι → List (Instr ι)
  addr : ι → BitVec 32
  call : BitVec 32 → Machine → List τ → Machine → Prop

variable {ι τ : Type}

/-- Runs of an interrupt routine up to its `iret`, with what the called functions did. The status
flags after an addition and the return address of a call may be any, and `eip` is followed only
where control is transferred. -/
inductive Image.Returns (p : Image ι τ) : List (Instr ι) → Machine → List τ → Machine → Prop where
  | exec {i : Instr ι} {rest : List (Instr ι)} {trace : List τ} {m m₁ m₂ : Machine} :
      i.exec p.addr m = some m₁ → p.Returns rest m₁ trace m₂ →
      p.Returns (i :: rest) m trace m₂
  | addEsp {v : BitVec 8} {rest : List (Instr ι)} {trace : List τ} {m m₂ : Machine}
      (flags : BitVec 32) :
      p.Returns rest { m with cpu := { m.cpu with
        esp := m.cpu.esp + v.signExtend 32, eflags := flags } } trace m₂ →
      p.Returns (.addEsp v :: rest) m trace m₂
  | jmp {l : ι} {rest : List (Instr ι)} {trace : List τ} {m m₂ : Machine} :
      p.Returns (p.code l) (m.jump (p.addr l)) trace m₂ →
      p.Returns (.jmp l :: rest) m trace m₂
  | callReg {r : Reg} {rest : List (Instr ι)} {trace trace' : List τ} {m m₁ m₂ : Machine}
      (ret : BitVec 32) :
      p.call (m.cpu.get r) ((m.jump (m.cpu.get r)).push ret) trace m₁ →
      p.Returns rest m₁ trace' m₂ →
      p.Returns (.callReg r :: rest) m (trace ++ trace') m₂
  | iret {rest : List (Instr ι)} {m : Machine} : p.Returns (.iret :: rest) m [] m.iret

/-! ### Words on the stack -/

inductive Slot where
  | word (v : BitVec 32)
  | selector (p : SelectorPush) (s : BitVec 16)

def Slot.Fits : Slot → BitVec 32 → Prop
  | .word v, x => x = v
  | .selector p s, x => p.Holds s x

def SlotsAt (mem : Memory) : BitVec 32 → List Slot → Prop
  | _, [] => True
  | a, w :: ws => w.Fits (mem.load32 a) ∧ SlotsAt mem (a + 4) ws

theorem SlotsAt.congr {mem mem' : Memory} {a : BitVec 32} {ws : List Slot}
    (h : SlotsAt mem a ws)
    (hmem : ∀ n, n < ws.length →
      mem'.load32 (a + BitVec.ofNat 32 (4 * n)) = mem.load32 (a + BitVec.ofNat 32 (4 * n))) :
    SlotsAt mem' a ws := by
  induction ws generalizing a with
  | nil => trivial
  | cons w ws ih =>
    refine ⟨?_, ih h.2 ?_⟩
    · have h0 := hmem 0 (Nat.succ_pos _)
      simp only [Nat.mul_zero, BitVec.add_zero] at h0
      rw [h0]
      exact h.1
    · intro n hn
      have hn' := hmem (n + 1) (Nat.succ_lt_succ hn)
      have haddr : a + BitVec.ofNat 32 (4 * (n + 1)) = a + 4 + BitVec.ofNat 32 (4 * n) := by
        rw [Nat.mul_succ, BitVec.ofNat_add, BitVec.add_comm (BitVec.ofNat 32 (4 * n)),
          BitVec.add_assoc]
        rfl
      rwa [haddr] at hn'

theorem slot_distance {a : BitVec 32} {n : Nat} (hn : 4 * n + 8 ≤ 2 ^ 32) :
    4 ≤ (a + 4 + BitVec.ofNat 32 (4 * n) - a).toNat ∧
      4 ≤ (a - (a + 4 + BitVec.ofNat 32 (4 * n))).toNat := by
  constructor <;> bv_omega

theorem SlotsAt.store32 {mem : Memory} {a : BitVec 32} {ws : List Slot} (v : BitVec 32)
    (h : SlotsAt mem (a + 4) ws) (hlen : 4 * ws.length + 4 ≤ 2 ^ 32) :
    SlotsAt (mem.store32 a v) a (.word v :: ws) := by
  refine ⟨Memory.load32_store32_same v, h.congr fun n hn => ?_⟩
  obtain ⟨h1, h2⟩ := slot_distance (a := a) (n := n) (by omega)
  exact Memory.load32_store32_other v h1 h2

theorem SlotsAt.store16 {mem : Memory} {a : BitVec 32} {ws : List Slot} (s : BitVec 16)
    (h : SlotsAt mem (a + 4) ws) (hlen : 4 * ws.length + 4 ≤ 2 ^ 32) :
    SlotsAt (mem.store16 a s) a (.selector .lowHalf s :: ws) := by
  refine ⟨(Memory.load32_low _ _).trans (Memory.load16_store16_same s), h.congr fun n hn => ?_⟩
  obtain ⟨h1, h2⟩ := slot_distance (a := a) (n := n) (by omega)
  exact Memory.load32_store16_other _ (by omega) h2

theorem Machine.push_slots {m : Machine} {ws : List Slot} (v : BitVec 32)
    (h : SlotsAt m.mem m.cpu.esp ws) (hlen : 4 * ws.length + 4 ≤ 2 ^ 32) :
    SlotsAt (m.push v).mem (m.push v).cpu.esp (.word v :: ws) := by
  rw [← BitVec.sub_add_cancel m.cpu.esp 4] at h
  exact h.store32 v hlen

theorem Machine.pushSel_slots {m : Machine} {ws : List Slot} (s : BitVec 16)
    (h : SlotsAt m.mem m.cpu.esp ws) (hlen : 4 * ws.length + 4 ≤ 2 ^ 32) :
    SlotsAt (m.pushSel s).mem (m.pushSel s).cpu.esp (.selector m.selectorPush s :: ws) := by
  rw [← BitVec.sub_add_cancel m.cpu.esp 4] at h
  simp only [Machine.pushSel]
  cases hp : m.selectorPush with
  | extended =>
    obtain ⟨h1, h2⟩ := h.store32 (s.setWidth 32) hlen
    exact ⟨h1, h2⟩
  | lowHalf => exact h.store16 s hlen

theorem Machine.pusha_slots {m : Machine} {ws : List Slot} (h : SlotsAt m.mem m.cpu.esp ws)
    (hlen : 4 * ws.length + 32 ≤ 2 ^ 32) :
    SlotsAt m.pusha.mem m.pusha.cpu.esp
      (.word m.cpu.edi :: .word m.cpu.esi :: .word m.cpu.ebp :: .word m.cpu.esp ::
        .word m.cpu.ebx :: .word m.cpu.edx :: .word m.cpu.ecx :: .word m.cpu.eax :: ws) := by
  have h1 := push_slots m.cpu.eax h (by omega)
  have h2 := push_slots m.cpu.ecx h1 (by rw [List.length_cons]; omega)
  have h3 := push_slots m.cpu.edx h2 (by simp only [List.length_cons]; omega)
  have h4 := push_slots m.cpu.ebx h3 (by simp only [List.length_cons]; omega)
  have h5 := push_slots m.cpu.esp h4 (by simp only [List.length_cons]; omega)
  have h6 := push_slots m.cpu.ebp h5 (by simp only [List.length_cons]; omega)
  have h7 := push_slots m.cpu.esi h6 (by simp only [List.length_cons]; omega)
  exact push_slots m.cpu.edi h7 (by simp only [List.length_cons]; omega)

theorem Machine.interrupt_slots (m : Machine) (g : Gate) :
    SlotsAt (m.interrupt g).mem (m.interrupt g).cpu.esp
      [.word m.cpu.eip, .selector m.selectorPush m.cpu.cs, .word m.cpu.eflags] := by
  have h0 : SlotsAt m.mem m.cpu.esp [] := trivial
  have h1 := push_slots m.cpu.eflags h0 (by decide)
  have h2 := pushSel_slots m.cpu.cs h1 (by simp)
  exact push_slots m.cpu.eip h2 (by simp)

/-! ### Runs instruction by instruction -/

variable {p : Image ι τ} {rest : List (Instr ι)} {trace : List τ} {m m₁ m₂ : Machine}

theorem Image.returns_exec {i : Instr ι} (h : i.exec p.addr m = some m₁) :
    p.Returns (i :: rest) m trace m₂ ↔ p.Returns rest m₁ trace m₂ := by
  constructor
  · intro hr
    cases hr with
    | exec h' hr =>
      rw [h, Option.some.injEq] at h'
      rwa [h']
    | addEsp => cases h
    | jmp => cases h
    | callReg => cases h
    | iret => cases h
  · exact .exec h

theorem Image.returns_addEsp {v : BitVec 8} :
    p.Returns (.addEsp v :: rest) m trace m₂ ↔ ∃ flags, p.Returns rest
      { m with cpu := { m.cpu with esp := m.cpu.esp + v.signExtend 32, eflags := flags } }
      trace m₂ := by
  constructor
  · intro hr
    cases hr with
    | exec h => cases h
    | addEsp flags hr => exact ⟨flags, hr⟩
  · rintro ⟨flags, hr⟩
    exact .addEsp flags hr

theorem Image.returns_jmp {l : ι} :
    p.Returns (.jmp l :: rest) m trace m₂ ↔
      p.Returns (p.code l) (m.jump (p.addr l)) trace m₂ := by
  constructor
  · intro hr
    cases hr with
    | exec h => cases h
    | jmp hr => exact hr
  · exact .jmp

theorem Image.returns_callReg {r : Reg} :
    p.Returns (.callReg r :: rest) m trace m₂ ↔ ∃ ret trace₁ trace₂ m₁,
      p.call (m.cpu.get r) ((m.jump (m.cpu.get r)).push ret) trace₁ m₁ ∧
      p.Returns rest m₁ trace₂ m₂ ∧ trace = trace₁ ++ trace₂ := by
  constructor
  · intro hr
    cases hr with
    | exec h => cases h
    | callReg ret he hr => exact ⟨ret, _, _, _, he, hr, rfl⟩
  · rintro ⟨ret, trace₁, trace₂, m₁, he, hr, rfl⟩
    exact .callReg ret he hr

theorem Image.returns_iret :
    p.Returns (.iret :: rest) m trace m₂ ↔ trace = [] ∧ m₂ = m.iret := by
  constructor
  · intro hr
    cases hr with
    | exec h => cases h
    | iret => exact ⟨rfl, rfl⟩
  · rintro ⟨rfl, rfl⟩
    exact .iret

end BordOS.Library
