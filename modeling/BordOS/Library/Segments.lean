import Mathlib.Logic.Function.Basic
import BordOS.Library.X86

namespace BordOS.Library
set_option autoImplicit true
set_option relaxedAutoImplicit false

structure Segment where
  base : BitVec 32
  limit : BitVec 32
  access : BitVec 8
  big : Bool
deriving DecidableEq, Repr

namespace Segment

/-- Decode the two words of a descriptor. The limit counts pages if the granularity bit is set. -/
def decode (low high : BitVec 32) : Segment where
  base := high.extractLsb' 24 8 ++ high.extractLsb' 0 8 ++ low.extractLsb' 16 16
  limit :=
    if high.getLsbD 23 then high.extractLsb' 16 4 ++ low.extractLsb' 0 16 ++ (0xFFF : BitVec 12)
    else (high.extractLsb' 16 4 ++ low.extractLsb' 0 16).setWidth 32
  access := high.extractLsb' 8 8
  big := high.getLsbD 22

def present (x : Segment) : Bool := x.access.getLsbD 7

def dpl (x : Segment) : BitVec 2 := x.access.extractLsb' 5 2

/-- A segment of code or data, not of the system. -/
def ofMemory (x : Segment) : Bool := x.access.getLsbD 4

def code (x : Segment) : Bool := x.access.getLsbD 3

/-- Conforming code, or data that expands down. -/
def bit2 (x : Segment) : Bool := x.access.getLsbD 2

/-- Readable code, or writable data. -/
def bit1 (x : Segment) : Bool := x.access.getLsbD 1

def readable (x : Segment) : Bool := !x.code || x.bit1

def writable (x : Segment) : Bool := !x.code && x.bit1

def covers (x : Segment) (off : BitVec 32) (n : Nat) : Bool :=
  if !x.code && x.bit2 then
    x.limit.toNat < off.toNat && off.toNat + n ≤ if x.big then 2 ^ 32 else 2 ^ 16
  else off.toNat + n ≤ x.limit.toNat + 1

def linear (x : Segment) (off : BitVec 32) (n : Nat) : Option (BitVec 32) :=
  if x.covers off n then some (x.base + off) else none

/-- Loading a descriptor marks it as accessed. -/
def accessed (x : Segment) : Segment := { x with access := x.access ||| 1 }

end Segment

inductive SegName where
  | cs
  | ds
  | es
  | fs
  | gs
  | ss
deriving DecidableEq, Repr

/-- Which descriptors a segment register takes, at a privilege level and with the one that the
selector asks for. -/
def SegName.accepts (name : SegName) (cpl rpl : BitVec 2) (x : Segment) : Bool :=
  x.present && x.ofMemory &&
    match name with
    | .cs => x.code && if x.bit2 then x.dpl ≤ cpl else rpl ≤ cpl && x.dpl = cpl
    | .ss => x.writable && rpl = cpl && x.dpl = cpl
    | _ => x.readable && (x.code && x.bit2 || cpl ≤ x.dpl && rpl ≤ x.dpl)

structure Protected where
  cpu : Cpu
  mem : Memory
  gdtLimit : BitVec 16
  gdtBase : BitVec 32
  seg : SegName → Segment

def Cpu.setSelector (c : Cpu) (v : BitVec 16) : SegName → Cpu
  | .cs => { c with cs := v }
  | .ds => { c with ds := v }
  | .es => { c with es := v }
  | .fs => { c with fs := v }
  | .gs => { c with gs := v }
  | .ss => { c with ss := v }

def Cpu.selector (c : Cpu) : SegName → BitVec 16
  | .cs => c.cs
  | .ds => c.ds
  | .es => c.es
  | .fs => c.fs
  | .gs => c.gs
  | .ss => c.ss

namespace Protected

def cpl (s : Protected) : BitVec 2 := s.cpu.cs.extractLsb' 0 2

/-- Load a segment register from the global table. A null selector is only for data. -/
def loadSeg (s : Protected) (name : SegName) (selector : BitVec 16) : Option Protected := do
  let offset := selector &&& 0xFFF8
  let rpl : BitVec 2 := selector.extractLsb' 0 2
  if selector &&& 0xFFFC = 0 then
    if name = .cs ∨ name = .ss then none
    else some { s with
      cpu := s.cpu.setSelector selector name
      seg := Function.update s.seg name { base := 0, limit := 0, access := 0, big := false } }
  else if selector.getLsbD 2 ∨ s.gdtLimit.toNat < offset.toNat + 7 then none
  else
    let a := s.gdtBase + offset.setWidth 32
    let x := Segment.decode (s.mem.load32 a) (s.mem.load32 (a + 4))
    if name.accepts s.cpl rpl x then
      some { s with
        cpu := s.cpu.setSelector (if name = .cs then offset ||| s.cpl.setWidth 16 else selector) name
        mem := s.mem.store8 (a + 5) x.accessed.access
        seg := Function.update s.seg name x.accessed }
    else none

def read32 (s : Protected) (name : SegName) (off : BitVec 32) : Option (BitVec 32) :=
  if (s.seg name).readable then ((s.seg name).linear off 4).map s.mem.load32 else none

def write32 (s : Protected) (name : SegName) (off v : BitVec 32) : Option Protected :=
  if (s.seg name).writable then
    ((s.seg name).linear off 4).map fun a => { s with mem := s.mem.store32 a v }
  else none

def push (s : Protected) (v : BitVec 32) : Option Protected :=
  if (s.seg .ss).big then
    (s.write32 .ss (s.cpu.esp - 4) v).map fun s =>
      { s with cpu := { s.cpu with esp := s.cpu.esp - 4 } }
  else none

def call (s : Protected) (a ret : BitVec 32) : Option Protected :=
  (s.push ret).map fun s => { s with cpu := { s.cpu with eip := a } }

def ret (s : Protected) : Option Protected :=
  if (s.seg .ss).big then
    (s.read32 .ss s.cpu.esp).map fun a =>
      { s with cpu := { s.cpu with eip := a, esp := s.cpu.esp + 4 } }
  else none

def lgdt (s : Protected) (off : BitVec 32) : Option Protected :=
  if (s.seg .ds).readable then
    ((s.seg .ds).linear off 6).map fun a =>
      { s with gdtLimit := s.mem.load16 a, gdtBase := s.mem.load32 (a + 2) }
  else none

def jmpFar (s : Protected) (selector : BitVec 16) (a : BitVec 32) : Option Protected :=
  (s.loadSeg .cs selector).map fun s => { s with cpu := { s.cpu with eip := a } }

end Protected

structure Segment.Flat (x : Segment) : Prop where
  base : x.base = 0
  limit : x.limit = 0xFFFFFFFF
  big : x.big = true
  up : x.code = true ∨ x.bit2 = false

theorem Segment.Flat.linear {x : Segment} (h : x.Flat) {off : BitVec 32} {n : Nat}
    (hn : off.toNat + n ≤ 2 ^ 32) : x.linear off n = some off := by
  have hup : (!x.code && x.bit2) = false := by
    rcases h.up with hcode | hbit
    · rw [hcode]
      rfl
    · rw [hbit, Bool.and_false]
  have hlimit : x.limit.toNat + 1 = 2 ^ 32 := by rw [h.limit]; rfl
  have hcovers : x.covers off n = true := by
    rw [covers, hup, hlimit]
    exact decide_eq_true hn
  rw [Segment.linear, if_pos hcovers, h.base]
  exact congrArg some (BitVec.zero_add off)

structure Segment.FlatData (x : Segment) : Prop extends x.Flat where
  writable : x.writable = true

theorem Segment.FlatData.readable {x : Segment} (h : x.FlatData) : x.readable = true := by
  have hwritable := h.writable
  rw [Segment.writable, Bool.and_eq_true] at hwritable
  rw [Segment.readable, hwritable.1, Bool.true_or]

namespace Protected

variable {s : Protected}

theorem push_flat (h : (s.seg .ss).FlatData) (hesp : 4 ≤ s.cpu.esp.toNat) (v : BitVec 32) :
    s.push v = some { s with
      cpu := { s.cpu with esp := s.cpu.esp - 4 }
      mem := s.mem.store32 (s.cpu.esp - 4) v } := by
  have hroom : (s.cpu.esp - 4).toNat + 4 ≤ 2 ^ 32 := by bv_omega
  have hlinear := h.toFlat.linear hroom
  simp only [push, write32, h.big, h.writable, hlinear, ↓reduceIte, Option.map_some]

theorem ret_flat (h : (s.seg .ss).FlatData) (hesp : s.cpu.esp.toNat + 4 ≤ 2 ^ 32) :
    s.ret = some { s with
      cpu := { s.cpu with eip := s.mem.load32 s.cpu.esp, esp := s.cpu.esp + 4 } } := by
  have hlinear := h.toFlat.linear hesp
  simp only [ret, read32, h.big, h.readable, hlinear, ↓reduceIte, Option.map_some]

theorem lgdt_flat (h : (s.seg .ds).FlatData) {off : BitVec 32} (hoff : off.toNat + 6 ≤ 2 ^ 32) :
    s.lgdt off =
      some { s with gdtLimit := s.mem.load16 off, gdtBase := s.mem.load32 (off + 2) } := by
  have hlinear := h.toFlat.linear hoff
  simp only [lgdt, h.readable, hlinear, ↓reduceIte, Option.map_some]

end Protected

end BordOS.Library
