import BordOS.Libc.String

namespace BordOS
open Library
set_option autoImplicit true
set_option relaxedAutoImplicit false

def vgaWidth : BitVec 32 := 80
def vgaHeight : BitVec 32 := 25
def vgaBuffer : BitVec 32 := 0xB8000

def vgaCellAddr (k : BitVec 32) : BitVec 32 := vgaBuffer + 2 * k

inductive VgaColor where
  | black
  | blue
  | green
  | cyan
  | red
  | magenta
  | brown
  | lightGrey
  | darkGrey
  | lightBlue
  | lightGreen
  | lightCyan
  | lightRed
  | lightMagenta
  | lightBrown
  | white
deriving DecidableEq, Repr

def VgaColor.toInt : VgaColor → BitVec 32
  | .black => 0
  | .blue => 1
  | .green => 2
  | .cyan => 3
  | .red => 4
  | .magenta => 5
  | .brown => 6
  | .lightGrey => 7
  | .darkGrey => 8
  | .lightBlue => 9
  | .lightGreen => 10
  | .lightCyan => 11
  | .lightRed => 12
  | .lightMagenta => 13
  | .lightBrown => 14
  | .white => 15

structure VgaData where
  x : BitVec 8
  y : BitVec 8
  attr : BitVec 8
deriving DecidableEq, Repr

/-- The CRT controller: the index port `0x3D4` selects the register that `0x3D5` writes. -/
structure Crt where
  index : BitVec 8
  cursorHigh : BitVec 8
  cursorLow : BitVec 8
deriving DecidableEq, Repr

def Crt.outb (c : Crt) (port : BitVec 16) (val : BitVec 8) : Crt :=
  if port = 0x3D4 then { c with index := val }
  else if port = 0x3D5 ∧ c.index = 14 then { c with cursorHigh := val }
  else if port = 0x3D5 ∧ c.index = 15 then { c with cursorLow := val }
  else c

def Crt.cursor (c : Crt) : BitVec 16 := c.cursorHigh ++ c.cursorLow

structure VgaMachine where
  data : VgaData
  mem : Memory
  crt : Crt

def vgaFill (m : Memory) (first : BitVec 32) (blank : BitVec 16) : Nat → Memory
  | 0 => m
  | n + 1 => (vgaFill m first blank n).store16 (vgaCellAddr (first + BitVec.ofNat 32 n)) blank

def vgaScroll (s : VgaMachine) : VgaMachine :=
  let blank : BitVec 16 := 0x20 ||| s.data.attr.setWidth 16 <<< 8
  if vgaHeight ≤ s.data.y.setWidth 32 then
    let temp := s.data.y.setWidth 32 - vgaHeight + 1
    let m := (memcpy s.mem vgaBuffer (vgaCellAddr (temp * vgaWidth))
      ((vgaHeight - temp) * vgaWidth * 2)).2
    { s with
      mem := vgaFill m ((vgaHeight - temp) * vgaWidth) blank 80
      data := { s.data with y := 24 } }
  else s

def vgaMoveCursor (s : VgaMachine) : VgaMachine :=
  let temp := s.data.y.setWidth 32 * vgaWidth + s.data.x.setWidth 32
  let c := s.crt.outb 0x3D4 14
  let c := c.outb 0x3D5 ((temp >>> 8).setWidth 8)
  let c := c.outb 0x3D4 15
  let c := c.outb 0x3D5 ((temp &&& 0xFF).setWidth 8)
  { s with crt := c }

def vgaAttr (fg bg : VgaColor) : BitVec 8 := ((fg.toInt &&& 0x0F) ||| bg.toInt <<< 4).setWidth 8

def vgaSetcolor (fg bg : VgaColor) (s : VgaMachine) : VgaMachine :=
  { s with data := { s.data with attr := vgaAttr fg bg } }

def vgaClearRows (m : Memory) (blank : BitVec 16) : Nat → Memory
  | 0 => m
  | i + 1 => vgaFill (vgaClearRows m blank i) (BitVec.ofNat 32 i * vgaWidth) blank 80

/-- `vga_clear`. Its blank has the attribute in the low byte, unlike the one of `vga_scroll`. -/
def vgaClear (s : VgaMachine) : VgaMachine :=
  let blank : BitVec 16 := 0x20 ||| s.data.attr.setWidth 16
  vgaMoveCursor
    { s with
      mem := vgaClearRows s.mem blank 25
      data := { s.data with x := 0, y := 0 } }

/-- The chain of cases at the start of `vga_put`. -/
def vgaHandle (c : BitVec 8) (s : VgaMachine) : VgaMachine :=
  if c = 0x08 then
    if s.data.x ≠ 0 then { s with data := { s.data with x := s.data.x - 1 } } else s
  else if c = 0x09 then { s with data := { s.data with x := (s.data.x + 8) &&& ~~~7 } }
  else if c = 0x0D then { s with data := { s.data with x := 0 } }
  else if c = 0x0A then { s with data := { s.data with x := 0, y := s.data.y + 1 } }
  else if 0x20 ≤ c then
    { s with
      mem := s.mem.store16
        (vgaCellAddr (s.data.y.setWidth 32 * vgaWidth + s.data.x.setWidth 32))
        (c.setWidth 16 ||| s.data.attr.setWidth 16 <<< 8)
      data := { s.data with x := s.data.x + 1 } }
  else s

def vgaWrap (s : VgaMachine) : VgaMachine :=
  if vgaWidth ≤ s.data.x.setWidth 32 then
    { s with data := { s.data with x := 0, y := s.data.y + 1 } }
  else s

def vgaPut (c : BitVec 8) (s : VgaMachine) : VgaMachine :=
  vgaMoveCursor (vgaScroll (vgaWrap (vgaHandle c s)))

end BordOS
