import BordOS.Drivers.Vga
import BordOS.Drivers.VgaText
import BordOS.Kernel.Logger

namespace BordOS
open Library
set_option autoImplicit true
set_option relaxedAutoImplicit false

/-- What the driver does: it reads and writes `vga_data`, the bytes and cells of video memory and
the CRT controller. `setX` and `setY` carry the `int` before its truncation to `uint8_t`. -/
inductive ScreenOp where
  | data
  | setX (v : BitVec 32)
  | setY (v : BitVec 32)
  | setAttr (v : BitVec 8)
  | load8 (a : BitVec 32)
  | store8 (a : BitVec 32) (v : BitVec 8)
  | store16 (a : BitVec 32) (v : BitVec 16)
  | outb (port : BitVec 16) (val : BitVec 8)
  | console (op : ConsoleOp)

abbrev ScreenOp.Reply : ScreenOp → Type
  | .data => VgaData
  | .load8 _ => BitVec 8
  | .console op => op.Reply
  | _ => Unit

abbrev ScreenM := Prog ScreenOp ScreenOp.Reply Fault

abbrev ScreenEvent (σ : Type) := Event ScreenOp ScreenOp.Reply σ

structure Screen (σ : Type) where
  vga : VgaMachine
  ports : σ

def Screen.setVga (vga : VgaMachine) (s : Screen σ) : Screen σ := { s with vga }

@[simp] theorem Screen.setVga_vga (vga : VgaMachine) (s : Screen σ) : (s.setVga vga).vga = vga :=
  rfl

def screenDevice (b : Beyond) (ports : PortDevice σ) :
    Device ScreenOp ScreenOp.Reply (Screen σ)
  | .data, s => (s.vga.data, s)
  | .setX v, s => ((), s.setVga { s.vga with data := { s.vga.data with x := v.setWidth 8 } })
  | .setY v, s => ((), s.setVga { s.vga with data := { s.vga.data with y := v.setWidth 8 } })
  | .setAttr v, s => ((), s.setVga { s.vga with data := { s.vga.data with attr := v } })
  | .load8 a, s => (s.vga.mem a, s)
  | .store8 a v, s => ((), s.setVga { s.vga with mem := s.vga.mem.store8 a v })
  | .store16 a v, s => ((), s.setVga { s.vga with mem := s.vga.mem.store16 a v })
  | .outb port val, s => ((), s.setVga { s.vga with crt := s.vga.crt.outb port val })
  | .console op, s =>
    let (r, t) := consoleDevice b ports op s.ports
    (r, { s with ports := t })

def vgaData : ScreenM VgaData := .perform ScreenOp.data

def setX (v : BitVec 32) : ScreenM Unit := .perform (ScreenOp.setX v)

def setY (v : BitVec 32) : ScreenM Unit := .perform (ScreenOp.setY v)

def store16 (a : BitVec 32) (v : BitVec 16) : ScreenM Unit := .perform (ScreenOp.store16 a v)

def crtOutb (port : BitVec 16) (val : BitVec 8) : ScreenM Unit :=
  .perform (ScreenOp.outb port val)

def memcpyCode (dst src : BitVec 32) : Nat → ScreenM Unit
  | 0 => pure ()
  | n + 1 => do
    let v ← .perform (ScreenOp.load8 src)
    .perform (ScreenOp.store8 dst v)
    memcpyCode (dst + 1) (src + 1) n

def vgaFillCode (first : BitVec 32) (blank : BitVec 16) : Nat → ScreenM Unit
  | 0 => pure ()
  | n + 1 => do
    vgaFillCode first blank n
    store16 (vgaCellAddr (first + BitVec.ofNat 32 n)) blank

def vgaScrollCode : ScreenM Unit := do
  let d ← vgaData
  let blank : BitVec 16 := 0x20 ||| d.attr.setWidth 16 <<< 8
  if vgaHeight ≤ d.y.setWidth 32 then
    let temp := d.y.setWidth 32 - vgaHeight + 1
    memcpyCode vgaBuffer (vgaCellAddr (temp * vgaWidth))
      ((vgaHeight - temp) * vgaWidth * 2).toNat
    vgaFillCode ((vgaHeight - temp) * vgaWidth) blank 80
    setY (vgaHeight - 1)

def vgaMoveCursorCode : ScreenM Unit := do
  let d ← vgaData
  let temp := d.y.setWidth 32 * vgaWidth + d.x.setWidth 32
  crtOutb 0x3D4 14
  crtOutb 0x3D5 ((temp >>> 8).setWidth 8)
  crtOutb 0x3D4 15
  crtOutb 0x3D5 ((temp &&& 0xFF).setWidth 8)

def vgaSetcolorCode (fg bg : VgaColor) : ScreenM Unit :=
  .perform (ScreenOp.setAttr (vgaAttr fg bg))

def vgaClearRowsCode (blank : BitVec 16) : Nat → ScreenM Unit
  | 0 => pure ()
  | i + 1 => do
    vgaClearRowsCode blank i
    vgaFillCode (BitVec.ofNat 32 i * vgaWidth) blank 80

def vgaClearCode : ScreenM Unit := do
  let d ← vgaData
  vgaClearRowsCode (0x20 ||| d.attr.setWidth 16) 25
  setX 0
  setY 0
  vgaMoveCursorCode

def vgaHandleCode (c : BitVec 8) : ScreenM Unit := do
  let d ← vgaData
  if c = 0x08 then
    if d.x ≠ 0 then setX (d.x.setWidth 32 - 1) else pure ()
  else if c = 0x09 then setX ((d.x.setWidth 32 + 8) &&& ~~~(8 - 1))
  else if c = 0x0D then setX 0
  else if c = 0x0A then
    setX 0
    setY (d.y.setWidth 32 + 1)
  else if 0x20 ≤ c then
    store16 (vgaCellAddr (d.y.setWidth 32 * vgaWidth + d.x.setWidth 32))
      (c.setWidth 16 ||| d.attr.setWidth 16 <<< 8)
    setX (d.x.setWidth 32 + 1)
  else pure ()

def vgaWrapCode : ScreenM Unit := do
  let d ← vgaData
  if vgaWidth ≤ d.x.setWidth 32 then
    setX 0
    setY (d.y.setWidth 32 + 1)
  else pure ()

def vgaPutCode (c : BitVec 8) : ScreenM Unit := do
  vgaHandleCode c
  vgaWrapCode
  vgaScrollCode
  vgaMoveCursorCode

/-- A printer on the screen: `vga_put` is the driver's code. -/
def onScreen (p : ConsoleM α) : ScreenM α :=
  p.translate fun op => match op with
    | .vgaPut c => vgaPutCode c
    | op => .perform (ScreenOp.console op)

def vgaInitCode (fuel : Nat) (r : Rodata) (k : Klogger) : ScreenM Unit := do
  let _ ← onScreen (kernelLoggerLog fuel r k .info (.lit "Initializing VGA screen\n\r") [])
  vgaClearCode
  vgaSetcolorCode .lightGrey .black

variable {b : Beyond} {ports : PortDevice σ}

theorem memcpyCode_run (dst src : BitVec 32) (n : Nat) (s : Screen σ) :
    (memcpyCode dst src n).run (screenDevice b ports) s =
      .ok () (s.setVga { s.vga with mem := s.vga.mem.copyUp dst src n }) := by
  induction n generalizing dst src s with
  | zero => rfl
  | succ n ih =>
    simp only [memcpyCode, Prog.run_bind, Prog.run_perform, screenDevice, ih, Screen.setVga]
    rfl

theorem vgaFillCode_run (first : BitVec 32) (blank : BitVec 16) (n : Nat) (s : Screen σ) :
    (vgaFillCode first blank n).run (screenDevice b ports) s =
      .ok () (s.setVga { s.vga with mem := vgaFill s.vga.mem first blank n }) := by
  induction n with
  | zero => rfl
  | succ n ih =>
    simp only [vgaFillCode, Prog.run_bind, ih]
    rfl

theorem vgaClearRowsCode_run (blank : BitVec 16) (n : Nat) (s : Screen σ) :
    (vgaClearRowsCode blank n).run (screenDevice b ports) s =
      .ok () (s.setVga { s.vga with mem := vgaClearRows s.vga.mem blank n }) := by
  induction n with
  | zero => rfl
  | succ n ih =>
    simp only [vgaClearRowsCode, Prog.run_bind, ih, vgaFillCode_run]
    rfl

theorem vgaMoveCursorCode_run (s : Screen σ) :
    vgaMoveCursorCode.run (screenDevice b ports) s = .ok () (s.setVga (vgaMoveCursor s.vga)) :=
  rfl

theorem vgaSetcolorCode_run (fg bg : VgaColor) (s : Screen σ) :
    (vgaSetcolorCode fg bg).run (screenDevice b ports) s =
      .ok () (s.setVga (vgaSetcolor fg bg s.vga)) :=
  rfl

theorem vgaScrollCode_run (s : Screen σ) :
    vgaScrollCode.run (screenDevice b ports) s = .ok () (s.setVga (vgaScroll s.vga)) := by
  simp only [vgaScrollCode, vgaData, Prog.run_bind, Prog.run_perform, screenDevice, vgaScroll]
  by_cases hy : vgaHeight ≤ s.vga.data.y.setWidth 32
  · simp only [if_pos hy, Prog.run_bind, memcpyCode_run, vgaFillCode_run]
    rfl
  · simp only [if_neg hy]
    rfl

theorem vgaHome_run {rows : ScreenM Unit} {m : VgaMachine} {s : Screen σ}
    (h : rows.run (screenDevice b ports) s = .ok () (s.setVga m)) :
    (rows >>= fun _ => do
        setX 0
        setY 0
        vgaMoveCursorCode).run (screenDevice b ports) s =
      .ok () (s.setVga (vgaMoveCursor { m with data := { m.data with x := 0, y := 0 } })) := by
  rw [Prog.run_bind, h]
  rfl

theorem vgaClearCode_run (s : Screen σ) :
    vgaClearCode.run (screenDevice b ports) s = .ok () (s.setVga (vgaClear s.vga)) := by
  rw [vgaClearCode, Prog.run_bind]
  simp only [vgaData, Prog.run_perform, screenDevice]
  exact vgaHome_run (vgaClearRowsCode_run _ 25 s)

theorem setWidth_step (x : BitVec 8) :
    (x.setWidth 32 + 1).setWidth 8 = x + 1 ∧ (x.setWidth 32 - 1).setWidth 8 = x - 1 ∧
      ((x.setWidth 32 + 8) &&& ~~~(8 - 1)).setWidth 8 = (x + 8) &&& ~~~7 := by
  revert x
  decide

theorem vgaHandleCode_run (c : BitVec 8) (s : Screen σ) :
    (vgaHandleCode c).run (screenDevice b ports) s = .ok () (s.setVga (vgaHandle c s.vga)) := by
  obtain ⟨hinc, hdec, htab⟩ := setWidth_step s.vga.data.x
  obtain ⟨hrow, -, -⟩ := setWidth_step s.vga.data.y
  simp only [vgaHandleCode, vgaData, Prog.run_bind, Prog.run_perform, screenDevice, vgaHandle]
  split_ifs
  · simp only [setX, Prog.run_perform, screenDevice, hdec]
  · rfl
  · simp only [setX, Prog.run_perform, screenDevice, htab]
  · rfl
  · simp only [setX, setY, Prog.run_bind, Prog.run_perform, screenDevice, Screen.setVga, hrow]
    rfl
  · simp only [setX, store16, Prog.run_bind, Prog.run_perform, screenDevice, Screen.setVga, hinc]
  · rfl

theorem vgaWrapCode_run (s : Screen σ) :
    vgaWrapCode.run (screenDevice b ports) s = .ok () (s.setVga (vgaWrap s.vga)) := by
  obtain ⟨hrow, -, -⟩ := setWidth_step s.vga.data.y
  simp only [vgaWrapCode, vgaData, Prog.run_bind, Prog.run_perform, screenDevice, vgaWrap]
  split_ifs
  · simp only [setX, setY, Prog.run_bind, Prog.run_perform, screenDevice, Screen.setVga, hrow]
    rfl
  · rfl

/-- The accesses of `vga_put` do what the function says. -/
theorem vgaPutCode_run (c : BitVec 8) (s : Screen σ) :
    (vgaPutCode c).run (screenDevice b ports) s = .ok () (s.setVga (vgaPut c s.vga)) := by
  simp only [vgaPutCode, Prog.run_bind, vgaHandleCode_run, vgaWrapCode_run, vgaScrollCode_run,
    vgaMoveCursorCode_run]
  rfl

end BordOS
