import Mathlib.Data.Fin.VecNotation
import BordOS.Library.Segments

namespace BordOS
open Library
set_option autoImplicit true
set_option relaxedAutoImplicit false

/-! ### `gdt.s` -/

def gdtEntry (limitLow baseLow : BitVec 16) (baseMid access granularity baseHigh : BitVec 8) :
    BitVec 32 × BitVec 32 :=
  (baseLow ++ limitLow, baseHigh ++ granularity ++ access ++ baseMid)

def gdt : Fin 4 → BitVec 32 × BitVec 32 :=
  ![(0, 0),
    gdtEntry 0xFFFF 0x0000 0x00 0b10011010 0b11001111 0x00,
    gdtEntry 0xFFFF 0x0000 0x00 0b10010010 0b11001111 0x00,
    gdtEntry 0xFFFF 0x0000 0x00 0b11000010 0b11001111 0x00]

/-- The addresses that the linker gives to the labels, and the places after the two calls. -/
structure StartSymbols where
  gdtStart : BitVec 32
  gdtptrPhys : BitVec 32
  gdtFlush : BitVec 32
  flush2 : BitVec 32
  bootStackTop : BitVec 32
  kmain : BitVec 32
  afterFlush : BitVec 32
  afterKmain : BitVec 32

def movAx (v : BitVec 16) (c : Cpu) : Cpu := { c with eax := (c.eax >>> 16).setWidth 16 ++ v }

def gdtFlush (symbols : StartSymbols) (s : Protected) : Option Protected := do
  let s ← s.lgdt symbols.gdtptrPhys
  let s := { s with cpu := movAx 0x10 s.cpu }
  let s ← s.loadSeg .ds (s.cpu.eax.setWidth 16)
  let s ← s.loadSeg .es (s.cpu.eax.setWidth 16)
  let s ← s.loadSeg .fs (s.cpu.eax.setWidth 16)
  let s ← s.loadSeg .gs (s.cpu.eax.setWidth 16)
  let s ← s.loadSeg .ss (s.cpu.eax.setWidth 16)
  let s ← s.jmpFar 0x08 symbols.flush2
  s.ret

/-! ### `boot.s` -/

def kernelOffset : BitVec 32 := 0x00000000

/-- The flags that an addition sets: OF, SF, ZF, AF, PF and CF. -/
def statusFlags (o z a p c : Bool) (sign : Bool) : BitVec 32 :=
  (if o then 0x800 else 0) ||| (if sign then 0x80 else 0) ||| (if z then 0x40 else 0) |||
    (if a then 0x10 else 0) ||| (if p then 0x4 else 0) ||| (if c then 0x1 else 0)

/-- The flags after `add x, y`. -/
def addFlags (flags x y : BitVec 32) : BitVec 32 :=
  let r := x + y
  let low := r.setWidth 8
  flags &&& ~~~0x8D5 |||
    statusFlags (BitVec.saddOverflow x y) (r = 0) ((x &&& 0xF) + (y &&& 0xF) > 0xF)
      (low.cpop.getLsbD 0 = false) (BitVec.uaddOverflow x y) r.msb

/-- `start`, up to the entry of `kmain`. -/
def start (symbols : StartSymbols) (s : Protected) : Option Protected := do
  let s := { s with cpu := { s.cpu with
    eflags := s.cpu.eflags &&& ~~~0x200, esp := symbols.bootStackTop, ebp := symbols.bootStackTop } }
  let s ← s.push s.cpu.eax
  let s := { s with cpu := { s.cpu with
    ebx := s.cpu.ebx + kernelOffset, eflags := addFlags s.cpu.eflags s.cpu.ebx kernelOffset } }
  let s ← s.push s.cpu.ebx
  let s ← s.call symbols.gdtFlush symbols.afterFlush
  let s ← gdtFlush symbols s
  let s := { s with cpu := { s.cpu with ecx := symbols.kmain } }
  s.call s.cpu.ecx symbols.afterKmain

/-! ### The table in memory -/

/-- The linker puts the table and its pointer there. -/
structure StartSymbols.InMemory (symbols : StartSymbols) (mem : Memory) : Prop where
  limit : mem.load16 symbols.gdtptrPhys = 0x1F
  base : mem.load32 (symbols.gdtptrPhys + 2) = symbols.gdtStart
  low : ∀ i : Fin 4, mem.load32 (symbols.gdtStart + BitVec.ofNat 32 (8 * i)) = (gdt i).1
  high : ∀ i : Fin 4, mem.load32 (symbols.gdtStart + BitVec.ofNat 32 (8 * i + 4)) = (gdt i).2

/-- The `n` bytes from `a` on and the `k` bytes from `b` on have none in common. -/
def Apart (a : BitVec 32) (n : Nat) (b : BitVec 32) (k : Nat) : Prop :=
  n ≤ (b - a).toNat ∧ k ≤ (a - b).toNat

/-- The words that `start` pushes are not in the table or its pointer. -/
structure StartSymbols.Room (symbols : StartSymbols) : Prop where
  top : 12 ≤ symbols.bootStackTop.toNat
  pointer : symbols.gdtptrPhys.toNat + 6 ≤ 2 ^ 32
  apart : Apart (symbols.bootStackTop - 12) 12 symbols.gdtStart 32
  apartPointer : Apart (symbols.bootStackTop - 12) 12 symbols.gdtptrPhys 6

def dataSegment : Segment := { base := 0, limit := 0xFFFFFFFF, access := 0x93, big := true }
def codeSegment : Segment := { base := 0, limit := 0xFFFFFFFF, access := 0x9B, big := true }

theorem dataSegment_flat : dataSegment.FlatData where
  base := rfl
  limit := rfl
  big := rfl
  up := .inr rfl
  writable := rfl

theorem codeSegment_flat : codeSegment.Flat where
  base := rfl
  limit := rfl
  big := rfl
  up := .inl rfl

theorem dataSegment_dpl : dataSegment.dpl = 0 := by decide

theorem codeSegment_dpl : codeSegment.dpl = 0 := by decide

/-! ### Loads of the selectors -/

/-- The table register and the entries for code and data, of which the second may be marked. -/
structure TableAt (a : BitVec 32) (s : Protected) : Prop where
  base : s.gdtBase = a
  limit : s.gdtLimit = 0x1F
  cpl : s.cpl = 0
  codeLow : s.mem.load32 (a + 8) = 0xFFFF
  codeHigh : s.mem.load32 (a + 12) = 0xCF9A00
  dataLow : s.mem.load32 (a + 16) = 0xFFFF
  dataHigh : s.mem.load32 (a + 20) = 0xCF9200 ∨ s.mem.load32 (a + 20) = 0xCF9300

def withData (a : BitVec 32) (name : SegName) (s : Protected) : Protected :=
  { s with
    cpu := s.cpu.setSelector 0x10 name
    mem := s.mem.store8 (a + 21) 0x93
    seg := Function.update s.seg name dataSegment }

theorem withData_eax (a : BitVec 32) (name : SegName) (s : Protected) :
    (withData a name s).cpu.eax = s.cpu.eax := by
  cases name <;> rfl

theorem withData_all (a : BitVec 32) (s : Protected) :
    withData a .ss (withData a .gs (withData a .fs (withData a .es (withData a .ds s)))) =
      { s with
        cpu := { s.cpu with ds := 0x10, es := 0x10, fs := 0x10, gs := 0x10, ss := 0x10 }
        mem := s.mem.store8 (a + 21) 0x93
        seg := fun name => if name = .cs then s.seg .cs else dataSegment } := by
  have hseg : Function.update (Function.update (Function.update (Function.update (Function.update
      s.seg .ds dataSegment) .es dataSegment) .fs dataSegment) .gs dataSegment) .ss dataSegment =
      fun name => if name = .cs then s.seg .cs else dataSegment := by
    funext name
    cases name <;> rfl
  simp only [withData, Cpu.setSelector, Memory.store8, Function.update_idem, hseg]

theorem load32_store8_outside {mem : Memory} {a b : BitVec 32} (v : BitVec 8)
    (h : 4 ≤ (a - b).toNat) : (mem.store8 a v).load32 b = mem.load32 b := by
  apply Memory.load32_congr
  intro i hi
  rw [Memory.store8_other _ (by bv_omega)]

theorem load32_store8_second (mem : Memory) (a : BitVec 32) (v : BitVec 8) :
    (mem.store8 (a + 1) v).load32 a =
      (mem.load32 a).extractLsb' 16 16 ++ (v ++ (mem.load32 a).extractLsb' 0 8) := by
  have hlow : (mem.store8 (a + 1) v) a = mem a := Memory.store8_other _ (by bv_omega)
  have hword : (mem.store8 (a + 1) v).load16 (a + 2) = mem.load16 (a + 2) :=
    Memory.load16_congr (Memory.store8_other _ (by bv_omega))
      (Memory.store8_other _ (by bv_omega))
  have hhigh : (mem.load32 a).extractLsb' 16 16 = mem.load16 (a + 2) :=
    BitVec.extractLsb'_append_eq_left
  have hbyte : (mem.load32 a).extractLsb' 0 8 = mem a := by
    have hlast : (mem.load32 a).extractLsb' 0 8 = ((mem.load32 a).setWidth 16).setWidth 8 := by
      ext i hi
      simp
    rw [hlast, Memory.load32_low]
    exact BitVec.setWidth_append_eq_right
  have hfirst : (mem.store8 (a + 1) v).load16 a = v ++ mem a := by
    rw [Memory.load16, hlow, Memory.store8_same]
  rw [hhigh, hbyte, Memory.load32, hword, hfirst]

namespace TableAt

variable {s : Protected} {a : BitVec 32}

theorem data (h : TableAt a s) {name : SegName} (hname : name ≠ .cs) :
    TableAt a (withData a name s) where
  base := h.base
  limit := h.limit
  cpl := by
    rw [← h.cpl]
    cases name with
    | cs => exact absurd rfl hname
    | _ => rfl
  codeLow := by
    rw [← h.codeLow]
    exact load32_store8_outside _ (by bv_omega)
  codeHigh := by
    rw [← h.codeHigh]
    exact load32_store8_outside _ (by bv_omega)
  dataLow := by
    rw [← h.dataLow]
    exact load32_store8_outside _ (by bv_omega)
  dataHigh := by
    right
    have hbyte : a + 21 = a + 20 + 1 := (BitVec.add_assoc a 20 1).symm
    rw [withData, hbyte, load32_store8_second]
    rcases h.dataHigh with hhigh | hhigh <;> rw [hhigh] <;> rfl

theorem loadSeg (h : TableAt a s) {name : SegName} (hname : name ≠ .cs) :
    s.loadSeg name 0x10 = some (withData a name s) := by
  have hoffset : a + ((0x10 : BitVec 16) &&& 0xFFF8).setWidth 32 = a + 16 := rfl
  have h4 : a + 16 + 4 = a + 20 := BitVec.add_assoc a 16 4
  have h5 : a + 16 + 5 = a + 21 := BitVec.add_assoc a 16 5
  have hx : (Segment.decode (s.mem.load32 (a + 16)) (s.mem.load32 (a + 20))).accessed =
      dataSegment := by
    rw [h.dataLow]
    rcases h.dataHigh with hhigh | hhigh <;> rw [hhigh] <;> rfl
  have haccepts : name.accepts 0 0
      (Segment.decode (s.mem.load32 (a + 16)) (s.mem.load32 (a + 20))) = true := by
    rw [h.dataLow]
    rcases h.dataHigh with hhigh | hhigh <;> rw [hhigh] <;> revert hname <;> cases name <;> decide
  have hnull : ¬ ((0x10 : BitVec 16) &&& 0xFFFC) = 0 := by decide
  have hrange : ¬ ((0x10 : BitVec 16).getLsbD 2 = true ∨
      (0x1F : BitVec 16).toNat < ((0x10 : BitVec 16) &&& 0xFFF8).toNat + 7) := by decide
  have hrpl : (0x10 : BitVec 16).extractLsb' 0 2 = 0 := rfl
  simp only [Protected.loadSeg, h.base, h.limit, h.cpl, hoffset, h4, h5, hx, hrpl, if_neg hnull,
    if_neg hrange, if_pos haccepts, if_neg hname, withData]
  rfl

theorem jmpFar (h : TableAt a s) (target : BitVec 32) :
    s.jmpFar 0x08 target = some { s with
      cpu := { s.cpu with cs := 0x08, eip := target }
      mem := s.mem.store8 (a + 13) 0x9B
      seg := Function.update s.seg .cs codeSegment } := by
  have hoffset : a + ((0x08 : BitVec 16) &&& 0xFFF8).setWidth 32 = a + 8 := rfl
  have h4 : a + 8 + 4 = a + 12 := BitVec.add_assoc a 8 4
  have h5 : a + 8 + 5 = a + 13 := BitVec.add_assoc a 8 5
  have hx : (Segment.decode (s.mem.load32 (a + 8)) (s.mem.load32 (a + 12))).accessed =
      codeSegment := by
    rw [h.codeLow, h.codeHigh]
    rfl
  have haccepts : SegName.cs.accepts 0 0
      (Segment.decode (s.mem.load32 (a + 8)) (s.mem.load32 (a + 12))) = true := by
    rw [h.codeLow, h.codeHigh]
    decide
  have hnull : ¬ ((0x08 : BitVec 16) &&& 0xFFFC) = 0 := by decide
  have hrange : ¬ ((0x08 : BitVec 16).getLsbD 2 = true ∨
      (0x1F : BitVec 16).toNat < ((0x08 : BitVec 16) &&& 0xFFF8).toNat + 7) := by decide
  have hrpl : (0x08 : BitVec 16).extractLsb' 0 2 = 0 := rfl
  simp only [Protected.jmpFar, Protected.loadSeg, h.base, h.limit, h.cpl, hoffset, h4, h5, hx, hrpl,
    if_neg hnull, if_neg hrange, if_pos haccepts, ↓reduceIte]
  rfl

end TableAt

/-! ### `gdt_flush` -/

def flushed (symbols : StartSymbols) (s : Protected) : Protected where
  cpu := { s.cpu with
    eax := (s.cpu.eax >>> 16).setWidth 16 ++ (0x10 : BitVec 16)
    eip := s.mem.load32 s.cpu.esp, esp := s.cpu.esp + 4
    cs := 0x08, ds := 0x10, es := 0x10, fs := 0x10, gs := 0x10, ss := 0x10 }
  mem := (s.mem.store8 (symbols.gdtStart + 21) 0x93).store8 (symbols.gdtStart + 13) 0x9B
  gdtLimit := 0x1F
  gdtBase := symbols.gdtStart
  seg := fun name => if name = .cs then codeSegment else dataSegment

theorem gdtFlush_run {symbols : StartSymbols} {s : Protected} (hmem : symbols.InMemory s.mem)
    (hds : (s.seg .ds).FlatData) (hcpl : s.cpl = 0)
    (hptr : symbols.gdtptrPhys.toNat + 6 ≤ 2 ^ 32) (hesp : s.cpu.esp.toNat + 4 ≤ 2 ^ 32)
    (hapart : Apart s.cpu.esp 4 symbols.gdtStart 32) :
    gdtFlush symbols s = some (flushed symbols s) := by
  have hax : (movAx 0x10 s.cpu).eax.setWidth 16 = 0x10 := BitVec.setWidth_append_eq_right
  have htable : TableAt symbols.gdtStart
      { s with cpu := movAx 0x10 s.cpu, gdtLimit := 0x1F, gdtBase := symbols.gdtStart } :=
    ⟨rfl, rfl, hcpl, hmem.low 1, hmem.high 1, hmem.low 2, .inl (hmem.high 2)⟩
  have hname (name : SegName) (h : name ∈ [SegName.ds, .es, .fs, .gs, .ss]) : name ≠ .cs := by
    rintro rfl
    simp at h
  have hes := htable.data (hname .ds (by simp))
  have hfs := hes.data (hname .es (by simp))
  have hgs := hfs.data (hname .fs (by simp))
  have hss := hgs.data (hname .gs (by simp))
  have hcs := hss.data (hname .ss (by simp))
  rw [withData_all] at hcs
  simp only [gdtFlush, Protected.lgdt_flat hds hptr, hmem.limit, hmem.base, Option.bind_eq_bind,
    Option.bind_some, withData_eax, hax, htable.loadSeg (hname .ds (by simp)),
    hes.loadSeg (hname .es (by simp)), hfs.loadSeg (hname .fs (by simp)),
    hgs.loadSeg (hname .gs (by simp)), hss.loadSeg (hname .ss (by simp)),
    withData_all, hcs.jmpFar]
  have hret : ((s.mem.store8 (symbols.gdtStart + 21) 0x93).store8 (symbols.gdtStart + 13)
      0x9B).load32 s.cpu.esp = s.mem.load32 s.cpu.esp := by
    obtain ⟨-, hout⟩ := hapart
    rw [load32_store8_outside _ (by bv_omega), load32_store8_outside _ (by bv_omega)]
  have hseg : Function.update (fun name => if name = SegName.cs then s.seg .cs else dataSegment) .cs
      codeSegment = fun name => if name = .cs then codeSegment else dataSegment := by
    funext name
    cases name <;> rfl
  rw [hseg]
  refine (Protected.ret_flat (by exact dataSegment_flat) (by exact hesp)).trans ?_
  rw [flushed, ← hret]
  rfl

/-! ### `start` -/

theorem addFlags_interrupt (flags x y : BitVec 32) :
    (addFlags flags x y).getLsbD 9 = flags.getLsbD 9 := by
  have hstatus (o z a p c sign : Bool) : (statusFlags o z a p c sign).getLsbD 9 = false := by
    revert o z a p c sign
    decide
  have hmask : (~~~(0x8D5 : BitVec 32)).getLsbD 9 = true := by decide
  rw [addFlags, BitVec.getLsbD_or, hstatus, BitVec.getLsbD_and, hmask, Bool.and_true, Bool.or_false]

theorem StartSymbols.InMemory.store32 {symbols : StartSymbols} {mem : Memory}
    (h : symbols.InMemory mem) {a : BitVec 32} (htable : Apart a 4 symbols.gdtStart 32)
    (hpointer : Apart a 4 symbols.gdtptrPhys 6) (v : BitVec 32) :
    symbols.InMemory (mem.store32 a v) := by
  obtain ⟨ht, ht'⟩ := htable
  obtain ⟨hp, hp'⟩ := hpointer
  have hkept (i : Fin 4) (k : Nat) (hk : k ≤ 4) :
      (mem.store32 a v).load32 (symbols.gdtStart + BitVec.ofNat 32 (8 * i + k)) =
        mem.load32 (symbols.gdtStart + BitVec.ofNat 32 (8 * i + k)) := by
    have hi := i.isLt
    exact Memory.load32_store32_other v (by bv_omega) (by bv_omega)
  refine ⟨?_, ?_, ?_, ?_⟩
  · rw [← h.limit]
    exact Memory.load16_congr (Memory.store32_outside v (by bv_omega))
      (Memory.store32_outside v (by bv_omega))
  · rw [← h.base]
    exact Memory.load32_store32_other v (by bv_omega) (by bv_omega)
  · intro i
    rw [← h.low i]
    exact hkept i 0 (Nat.zero_le 4)
  · intro i
    rw [← h.high i]
    exact hkept i 4 (Nat.le_refl 4)

def pushed (symbols : StartSymbols) (s : Protected) : Memory :=
  ((s.mem.store32 (symbols.bootStackTop - 4) s.cpu.eax).store32 (symbols.bootStackTop - 8)
    (s.cpu.ebx + kernelOffset)).store32 (symbols.bootStackTop - 12) symbols.afterFlush

theorem pushed_inMemory {symbols : StartSymbols} {s : Protected} (hroom : symbols.Room)
    (hmem : symbols.InMemory s.mem) : symbols.InMemory (pushed symbols s) := by
  obtain ⟨htop, hptr, ⟨ht, ht'⟩, ⟨hp, hp'⟩⟩ := hroom
  have hfirst := hmem.store32 (a := symbols.bootStackTop - 4) ⟨by bv_omega, by bv_omega⟩
    ⟨by bv_omega, by bv_omega⟩ s.cpu.eax
  have hsecond := hfirst.store32 (a := symbols.bootStackTop - 8) ⟨by bv_omega, by bv_omega⟩
    ⟨by bv_omega, by bv_omega⟩ (s.cpu.ebx + kernelOffset)
  exact hsecond.store32 ⟨by bv_omega, by bv_omega⟩ ⟨by bv_omega, by bv_omega⟩ symbols.afterFlush

def beforeFlush (symbols : StartSymbols) (s : Protected) : Protected :=
  { s with
    cpu := { s.cpu with
      eip := symbols.gdtFlush, esp := symbols.bootStackTop - 12, ebp := symbols.bootStackTop
      ebx := s.cpu.ebx + kernelOffset
      eflags := addFlags (s.cpu.eflags &&& ~~~0x200) s.cpu.ebx kernelOffset }
    mem := pushed symbols s }

def started (symbols : StartSymbols) (s : Protected) : Protected :=
  let t := flushed symbols (beforeFlush symbols s)
  { t with
    cpu := { t.cpu with
      ecx := symbols.kmain, eip := symbols.kmain, esp := symbols.bootStackTop - 12 }
    mem := t.mem.store32 (symbols.bootStackTop - 12) symbols.afterKmain }

theorem start_run {symbols : StartSymbols} {s : Protected} (hroom : symbols.Room)
    (hmem : symbols.InMemory s.mem) (hds : (s.seg .ds).FlatData) (hss : (s.seg .ss).FlatData)
    (hcpl : s.cpl = 0) : start symbols s = some (started symbols s) := by
  have h8 (x : BitVec 32) : x - 4 - 4 = x - 8 := by bv_omega
  have h12 (x : BitVec 32) : x - 8 - 4 = x - 12 := by bv_omega
  obtain ⟨htop, hptr, ⟨ht, ht'⟩, -⟩ := id hroom
  have hflush : gdtFlush symbols (beforeFlush symbols s) =
      some (flushed symbols (beforeFlush symbols s)) := by
    have hesp : (beforeFlush symbols s).cpu.esp = symbols.bootStackTop - 12 := rfl
    apply gdtFlush_run
    · exact pushed_inMemory hroom hmem
    · exact hds
    · exact hcpl
    · exact hptr
    · rw [hesp]
      bv_omega
    · rw [hesp]
      exact ⟨by bv_omega, by bv_omega⟩
  have hpush {x : Protected} (hx : (x.seg .ss).FlatData) (h : 4 ≤ x.cpu.esp.toNat) (v : BitVec 32)
      (f : Protected → Option Protected) : (x.push v >>= f) = f { x with
        cpu := { x.cpu with esp := x.cpu.esp - 4 }
        mem := x.mem.store32 (x.cpu.esp - 4) v } := by
    rw [Protected.push_flat hx h]
    rfl
  have h4 : 4 ≤ symbols.bootStackTop.toNat := by omega
  have h4' : 4 ≤ (symbols.bootStackTop - 4).toNat := by bv_omega
  have h4'' : 4 ≤ (symbols.bootStackTop - 4 - 4).toNat := by bv_omega
  rw [start]
  refine (hpush (by exact hss) (by exact h4) _ _).trans ?_
  refine (hpush (by exact hss) (by exact h4') _ _).trans ?_
  rw [Protected.call, Protected.push_flat (by exact hss) (by exact h4'')]
  simp only [h8, h12]
  change (gdtFlush symbols (beforeFlush symbols s) >>= fun t =>
    Protected.call { t with cpu := { t.cpu with ecx := symbols.kmain } } symbols.kmain
      symbols.afterKmain) = _
  have h4''' : 4 ≤ (symbols.bootStackTop - 12 + 4).toNat := by bv_omega
  rw [hflush, Option.bind_eq_bind, Option.bind_some, Protected.call,
    Protected.push_flat (by exact dataSegment_flat) (by exact h4''')]
  have hlast : symbols.bootStackTop - 12 + 4 - 4 = symbols.bootStackTop - 12 := by bv_omega
  simp only [flushed, beforeFlush, hlast]
  rfl

theorem started_load32 (symbols : StartSymbols) (s : Protected) {b : BitVec 32}
    (hret : 4 ≤ (b - (symbols.bootStackTop - 12)).toNat)
    (hret' : 4 ≤ (symbols.bootStackTop - 12 - b).toNat)
    (h13 : 4 ≤ (symbols.gdtStart + 13 - b).toNat) (h21 : 4 ≤ (symbols.gdtStart + 21 - b).toNat) :
    (started symbols s).mem.load32 b =
      ((s.mem.store32 (symbols.bootStackTop - 4) s.cpu.eax).store32 (symbols.bootStackTop - 8)
        (s.cpu.ebx + kernelOffset)).load32 b := by
  simp only [started, flushed, beforeFlush, pushed]
  rw [Memory.load32_store32_other _ hret hret', load32_store8_outside _ h13,
    load32_store8_outside _ h21, Memory.load32_store32_other _ hret hret']

/-- An entry of the system is for no segment register. -/
theorem loadSeg_user {s : Protected} {a : BitVec 32} (hbase : s.gdtBase = a)
    (hlimit : s.gdtLimit = 0x1F) (hhigh : s.mem.load32 (a + 28) = (gdt 3).2) (name : SegName)
    (rpl : BitVec 2) : s.loadSeg name (0x18 ||| rpl.setWidth 16) = none := by
  have hoffset : ((0x18 : BitVec 16) ||| rpl.setWidth 16) &&& 0xFFF8 = 0x18 := by
    revert rpl
    decide
  have hnull : ¬ ((0x18 : BitVec 16) ||| rpl.setWidth 16) &&& 0xFFFC = 0 := by
    revert rpl
    decide
  have hrange : ¬ (((0x18 : BitVec 16) ||| rpl.setWidth 16).getLsbD 2 = true ∨
      (0x1F : BitVec 16).toNat < (0x18 : BitVec 16).toNat + 7) := by
    revert rpl
    decide
  have h4 : a + (0x18 : BitVec 16).setWidth 32 + 4 = a + 28 := BitVec.add_assoc a 24 4
  have haccepts (cpl rpl : BitVec 2) (low : BitVec 32) :
      ¬ name.accepts cpl rpl (Segment.decode low (gdt 3).2) = true := by
    have hentry : (gdt 3).2 = 0xCFC200 := by decide
    have haccess : (Segment.decode low 0xCFC200).access = 0xC2 := rfl
    have hsystem : (Segment.decode low 0xCFC200).ofMemory = false := by
      rw [Segment.ofMemory, haccess]
      decide
    simp only [hentry, SegName.accepts, hsystem, Bool.and_false, Bool.false_and]
    exact Bool.false_ne_true
  simp only [Protected.loadSeg, hbase, hlimit, hoffset, if_neg hnull, if_neg hrange, h4, hhigh,
    if_neg (haccepts _ _ _)]

theorem started_marks {symbols : StartSymbols} (hroom : symbols.Room) (s : Protected) :
    (started symbols s).mem (symbols.gdtStart + 13) = 0x9B ∧
      (started symbols s).mem (symbols.gdtStart + 21) = 0x93 := by
  obtain ⟨-, -, ⟨ht, ht'⟩, -⟩ := hroom
  simp only [started, flushed, beforeFlush, pushed]
  constructor
  · rw [Memory.store32_outside _ (by bv_omega), Memory.store8_same]
  · rw [Memory.store32_outside _ (by bv_omega), Memory.store8_other _ (by bv_omega),
      Memory.store8_same]

/-- From the state of the boot loader, `start` gives `kmain` the two words of the boot loader, with
interrupts off, on the boot stack, and in flat segments of privilege level 0. Beside the three words
on the stack it only marks the two entries that it loads. The entry for user data is one of the
system, so as long as the table is there no segment register takes its selector. -/
theorem start_enters_kmain (symbols : StartSymbols) (hroom : symbols.Room) (s : Protected)
    (hmem : symbols.InMemory s.mem) (hds : (s.seg .ds).FlatData) (hss : (s.seg .ss).FlatData)
    (hcpl : s.cpl = 0) :
    ∃ t, start symbols s = some t ∧ t.cpu.eip = symbols.kmain ∧ t.cpl = 0 ∧
      t.cpu.eflags.getLsbD 9 = false ∧ t.cpu.esp = symbols.bootStackTop - 12 ∧
      t.mem.load32 t.cpu.esp = symbols.afterKmain ∧
      t.mem.load32 (t.cpu.esp + 4) = s.cpu.ebx ∧ t.mem.load32 (t.cpu.esp + 8) = s.cpu.eax ∧
      (∀ name, t.cpu.selector name = if name = .cs then 0x08 else 0x10) ∧
      (∀ name, t.seg name = if name = .cs then codeSegment else dataSegment) ∧
      (∀ name, (t.seg name).dpl = 0) ∧
      (∀ name off n, off.toNat + n ≤ 2 ^ 32 → (t.seg name).linear off n = some off) ∧
      (∀ name, (t.seg name).writable = true ↔ name ≠ .cs) ∧
      (∀ u : Protected, u.gdtBase = t.gdtBase → u.gdtLimit = t.gdtLimit →
        u.mem.load32 (symbols.gdtStart + 28) = t.mem.load32 (symbols.gdtStart + 28) →
          ∀ name (rpl : BitVec 2), u.loadSeg name (0x18 ||| rpl.setWidth 16) = none) ∧
      t.mem (symbols.gdtStart + 13) = 0x9B ∧ t.mem (symbols.gdtStart + 21) = 0x93 ∧
      ∀ a, 12 ≤ (a - (symbols.bootStackTop - 12)).toNat → a ≠ symbols.gdtStart + 13 →
        a ≠ symbols.gdtStart + 21 → t.mem a = s.mem a := by
  obtain ⟨htop, hptr, ⟨ht, ht'⟩, -⟩ := id hroom
  obtain ⟨hcode, hdata⟩ := started_marks hroom s
  have hback (x : BitVec 32) : x - 12 + 4 = x - 8 ∧ x - 12 + 8 = x - 4 := by
    constructor <;> bv_omega
  refine ⟨started symbols s, start_run hroom hmem hds hss hcpl, rfl, ?_, ?_, rfl, ?_, ?_, ?_, ?_,
    fun _ => rfl, ?_, ?_, ?_, ?_, hcode, hdata, ?_⟩
  · have hcs : (started symbols s).cpu.cs = 0x08 := rfl
    rw [Protected.cpl, hcs]
    rfl
  · have hoff : (s.cpu.eflags &&& ~~~0x200).getLsbD 9 = false := by
      have hbit : (~~~(0x200 : BitVec 32)).getLsbD 9 = false := by decide
      rw [BitVec.getLsbD_and, hbit, Bool.and_false]
    exact (addFlags_interrupt _ _ _).trans hoff
  · exact Memory.load32_store32_same _
  · have hword := started_load32 symbols s (b := symbols.bootStackTop - 8) (by bv_omega)
      (by bv_omega) (by bv_omega) (by bv_omega)
    have hzero : s.cpu.ebx + kernelOffset = s.cpu.ebx := BitVec.add_zero s.cpu.ebx
    rw [Memory.load32_store32_same, hzero] at hword
    rw [← hword, ← (hback symbols.bootStackTop).1]
    rfl
  · have hword := started_load32 symbols s (b := symbols.bootStackTop - 4) (by bv_omega)
      (by bv_omega) (by bv_omega) (by bv_omega)
    rw [Memory.load32_store32_other _ (by bv_omega) (by bv_omega),
      Memory.load32_store32_same] at hword
    rw [← hword, ← (hback symbols.bootStackTop).2]
    rfl
  · intro name
    cases name <;> rfl
  · intro name
    cases name with
    | cs => exact codeSegment_dpl
    | _ => exact dataSegment_dpl
  · intro name off n hn
    cases name with
    | cs => exact codeSegment_flat.linear hn
    | _ => exact dataSegment_flat.toFlat.linear hn
  · intro name
    cases name with
    | cs =>
      have hcode : codeSegment.writable ≠ true := by decide
      exact iff_of_false hcode fun h => h rfl
    | _ => exact iff_of_true dataSegment_flat.writable SegName.noConfusion
  · intro u hbase hlimit hentry
    apply loadSeg_user hbase hlimit
    refine hentry.trans ?_
    have hword := started_load32 symbols s (b := symbols.gdtStart + 28) (by bv_omega)
      (by bv_omega) (by bv_omega) (by bv_omega)
    rw [Memory.load32_store32_other _ (by bv_omega) (by bv_omega),
      Memory.load32_store32_other _ (by bv_omega) (by bv_omega)] at hword
    rw [← hmem.high 3]
    exact hword
  · intro a hstack h13 h21
    simp only [started, flushed, beforeFlush, pushed]
    rw [Memory.store32_outside _ (by bv_omega), Memory.store8_other _ h13,
      Memory.store8_other _ h21, Memory.store32_outside _ (by bv_omega),
      Memory.store32_outside _ (by bv_omega), Memory.store32_outside _ (by bv_omega)]

def startSymbols : StartSymbols where
  gdtStart := 0x104000
  gdtptrPhys := 0x103000
  gdtFlush := 0x100040
  flush2 := 0x100058
  bootStackTop := 0x120000
  kmain := 0x101000
  afterFlush := 0x100020
  afterKmain := 0x100027

def startMemory : Memory :=
  let m : Memory := fun _ => 0
  m |>.store32 0x104008 0xFFFF |>.store32 0x10400C 0xCF9A00 |>.store32 0x104010 0xFFFF
    |>.store32 0x104014 0xCF9200 |>.store32 0x104018 0xFFFF |>.store32 0x10401C 0xCFC200
    |>.store16 0x103000 0x1F |>.store32 0x103002 0x104000

theorem startMemory_inMemory : startSymbols.InMemory startMemory where
  limit := by decide
  base := by decide
  low := by decide
  high := by decide

def loadedProcessor : Protected where
  cpu := { eax := 0x36D76289, ecx := 0, edx := 0, ebx := 0x9500, esp := 0x7C00, ebp := 0, esi := 0,
           edi := 0, eip := 0x100000, eflags := 0x202, cs := 0x10, ds := 0x18, es := 0x18,
           fs := 0x18, gs := 0x18, ss := 0x18 }
  mem := startMemory
  gdtLimit := 0
  gdtBase := 0
  seg name := if name = .cs then codeSegment else dataSegment

theorem startSymbols_room : startSymbols.Room where
  top := by decide
  pointer := by decide
  apart := ⟨by decide, by decide⟩
  apartPointer := ⟨by decide, by decide⟩

theorem start_enters_kmain_loaded :
    ∃ t, start startSymbols loadedProcessor = some t ∧ t.cpu.eip = 0x101000 ∧
      t.mem.load32 (t.cpu.esp + 4) = 0x9500 ∧ t.mem.load32 (t.cpu.esp + 8) = 0x36D76289 := by
  obtain ⟨t, hrun, heip, -, -, -, -, hinfo, heax, -⟩ := start_enters_kmain startSymbols
    startSymbols_room loadedProcessor startMemory_inMemory dataSegment_flat dataSegment_flat rfl
  exact ⟨t, hrun, heip, hinfo, heax⟩

end BordOS
