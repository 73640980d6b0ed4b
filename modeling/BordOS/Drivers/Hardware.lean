import BordOS.Drivers.SerialSessions
import BordOS.Drivers.VgaBounds
import BordOS.Kernel.LoggerOperations
import BordOS.Library.ProgramRefinement

namespace BordOS
open Library Prog
set_option autoImplicit true
set_option relaxedAutoImplicit false

def besideScreen (p : PortM α) : ScreenM α :=
  p.translate fun op => .perform (ScreenOp.console (.port op))

/-- How the drivers carry out what a printer does: the code of `vga_put`, of `serial_put` and of the
wait for the serial port. -/
def hardwareOp (fuel : Nat) : (op : ConsoleOp) → ScreenM op.Reply
  | .vgaPut c => vgaPutCode c
  | .serialPut port a => besideScreen (serialPut fuel port a)
  | .serialDrain port => besideScreen (serialDrain fuel port)
  | .charAt s i => .perform (ScreenOp.console (.charAt s i))
  | .vaArg ap => .perform (ScreenOp.console (.vaArg ap))
  | .port op => .perform (ScreenOp.console (.port op))

def onHardware (fuel : Nat) (p : ConsoleM α) : ScreenM α := p.translate (hardwareOp fuel)

/-- The first serial port, the screen and whatever else is at the ports. -/
abbrev Hardware (σ : Type) := Screen (Uart16550 × σ)

def hardwareDevice (b : Beyond) (line : SerialLine) (other : PortDevice σ) :
    Device ScreenOp ScreenOp.Reply (Hardware σ) :=
  screenDevice b (serialDevice serialCom1 line other)

/-- An operation on the ports that is for no register of the first serial port. -/
def PortOp.Elsewhere : PortOp → Prop
  | .inb p | .outb p _ => ¬ InUart serialCom1 p
  | _ => True

def ConsoleOp.OnCom1 : ConsoleOp → Prop
  | .serialPut p _ | .serialDrain p => p = serialCom1
  | .port op => op.Elsewhere
  | _ => True

theorem onCom1_logs : ConsoleOp.Logs ConsoleOp.OnCom1 where
  charAt _ _ := trivial
  vaArg _ := trivial
  serialPut _ := rfl
  serialDrain := rfl
  vgaPut _ := trivial
  cmosSelect _ := by
    rw [ConsoleOp.OnCom1, PortOp.Elsewhere]
    decide
  cmosRead := by
    rw [ConsoleOp.OnCom1, PortOp.Elsewhere]
    decide

@[simp] theorem serialBytes_append (tr tr' : List (ConsoleEvent σ)) :
    serialBytes (tr ++ tr') = serialBytes tr ++ serialBytes tr' := by
  rw [serialBytes, shown_append, List.filterMap_append]
  rfl

@[simp] theorem vgaBytes_append (tr tr' : List (ConsoleEvent σ)) :
    vgaBytes (tr ++ tr') = vgaBytes tr ++ vgaBytes tr' := by
  rw [vgaBytes, shown_append, List.filterMap_append]
  rfl

theorem VgaMachine.after_append (m : VgaMachine) (calls calls' : List VgaCall) :
    m.after (calls ++ calls') = (m.after calls).after calls' :=
  List.foldl_append

/-- From `m` to `t` the hardware has done what a trace says. -/
structure Displays (line : SerialLine) (m : Hardware σ) (tr : List (ConsoleEvent σ)) (q : σ)
    (t : Hardware σ) : Prop where
  other : t.ports.2 = q
  serial : SerialProgress line m.ports.1 (serialBytes tr) [] t.ports.1
  screen : t.vga = m.vga.after ((vgaBytes tr).map .put)

theorem Displays.start (line : SerialLine) (m : Hardware σ) : Displays line m [] m.ports.2 m where
  other := rfl
  serial := .refl line m.ports.1
  screen := rfl

variable {b : Beyond} {line : SerialLine} {other : PortDevice σ} {m t : Hardware σ} {q q' : σ}
  {tr : List (ConsoleEvent σ)}

theorem Displays.silent (h : Displays line m tr q t) {e : ConsoleEvent σ}
    (hserial : serialBytes [e] = []) (hvga : vgaBytes [e] = []) :
    Displays line m (tr ++ [e]) q' { t with ports := (t.ports.1, q') } where
  other := rfl
  serial := by
    rw [serialBytes_append, hserial, List.append_nil]
    exact h.serial
  screen := by
    rw [vgaBytes_append, hvga, List.append_nil]
    exact h.screen

theorem Displays.putVga (h : Displays line m tr q t) (c : BitVec 8) (s : σ) :
    Displays line m (tr ++ [⟨s, .vgaPut c, ()⟩]) q (t.setVga (vgaPut c t.vga)) where
  other := h.other
  serial := by
    have hnone : serialBytes [(⟨s, .vgaPut c, ()⟩ : ConsoleEvent σ)] = [] := rfl
    rw [serialBytes_append, hnone, List.append_nil]
    exact h.serial
  screen := by
    have hone : vgaBytes [(⟨s, .vgaPut c, ()⟩ : ConsoleEvent σ)] = [c] := rfl
    rw [vgaBytes_append, hone, List.map_append, VgaMachine.after_append, ← h.screen]
    rfl

theorem Displays.serialPort (h : Displays line m tr q t) {e : ConsoleEvent σ} {u : Uart16550}
    (hvga : vgaBytes [e] = []) (hprog : SerialProgress line t.ports.1 (serialBytes [e]) [] u) :
    Displays line m (tr ++ [e]) q { t with ports := (u, q) } where
  other := rfl
  serial := by
    rw [serialBytes_append]
    exact h.serial.trans hprog
  screen := by
    rw [vgaBytes_append, hvga, List.append_nil]
    exact h.screen

theorem besideScreen_run {ports : PortDevice τ} (p : PortM α) (s : Screen τ) :
    (besideScreen p).run (screenDevice b ports) s =
      match p.run ports s.ports with
      | .ok a u => .ok a { s with ports := u }
      | .error e u => .error e { s with ports := u } := by
  induction p generalizing s with
  | ret a => rfl
  | fail e => rfl
  | call op next ih => exact ih _ _

theorem besideScreen_converges {ports : PortDevice τ} {p : Nat → PortM α} {s : Screen τ} {a : α}
    {u : τ} (h : Converges ports p s.ports a u) :
    Converges (screenDevice b ports) (fun n => besideScreen (p n)) s a { s with ports := u } := by
  obtain ⟨N, hN⟩ := h
  refine ⟨N, ?_⟩
  intro n hn
  rw [besideScreen_run, hN n hn]

theorem serialDevice_elsewhere (line : SerialLine) (other : PortDevice σ) {op : PortOp}
    (h : op.Elsewhere) (s : Uart16550 × σ) :
    serialDevice serialCom1 line other op s = ((other op s.2).1, s.1, (other op s.2).2) := by
  cases op with
  | inb p => exact if_neg h
  | outb p val => exact if_neg h
  | _ => rfl

/-- The drivers carry out what a printer asks of its devices. -/
theorem onHardware_carriesOut (hline : line.Empties) (hopen : m.ports.1.setup.Open) :
    CarriesOut (consoleDevice b other) (hardwareDevice b line other)
      hardwareOp ConsoleOp.OnCom1 (Displays line m) where
  step := by
    intro tr q t op hop h
    have hopen' : t.ports.1.setup.Open := h.serial.setup ▸ hopen
    obtain ⟨rfl⟩ := h.other
    cases op with
    | charAt s i => exact ⟨t, .const rfl, h.silent rfl rfl⟩
    | vaArg ap => exact ⟨t, .const rfl, h.silent rfl rfl⟩
    | vgaPut c => exact ⟨_, .const (vgaPutCode_run c t), h.putVga c _⟩
    | serialPut p a =>
      obtain rfl : p = serialCom1 := hop
      obtain ⟨u, hput, hprog⟩ := serialPut_progress serialCom1 other hline
        hopen' a t.ports.2
      exact ⟨_, besideScreen_converges hput, h.serialPort rfl hprog⟩
    | serialDrain p =>
      obtain rfl : p = serialCom1 := hop
      obtain ⟨u, hdrain, hprog, -⟩ := serialDrain_progress serialCom1 other hline
        hopen' t.ports.2
      exact ⟨_, besideScreen_converges hdrain, h.serialPort rfl hprog⟩
    | port op =>
      have hdev := serialDevice_elsewhere line other hop t.ports
      refine ⟨{ t with ports := (t.ports.1, (other op t.ports.2).2) }, .const ?_, h.silent rfl rfl⟩
      change EStateM.Result.ok (serialDevice serialCom1 line other op t.ports).1
        { t with ports := (serialDevice serialCom1 line other op t.ports).2 } = _
      rw [hdev]
      rfl

/-- What a printer does over its ports alone, it does on the hardware. -/
theorem onHardware_displays (hline : line.Empties) (hopen : m.ports.1.setup.Open)
    {p : Nat → ConsoleM α} (hp : ∀ n, (p n).Uses ConsoleOp.OnCom1)
    {r : EStateM.Result Fault σ α} (h : Settles (consoleDevice b other) p m.ports.2 r tr) :
    ∃ t, Ends (hardwareDevice b line other) (fun n => onHardware n (p n)) m (withState t r) ∧
      Displays line m tr (endState r) t := by
  have hok : ∀ e ∈ tr, e.op.OnCom1 := by
    obtain ⟨N, hN⟩ := h
    rw [← (hN N (Nat.le_refl N)).2]
    have htriple : Triple (consoleDevice b other) (fun e => e.op.OnCom1) (fun _ => True) (p N)
        fun _ _ => True :=
      (hp N).triple fun op s hop _ => ⟨hop, trivial⟩
    exact (htriple m.ports.2 trivial).1
  exact (onHardware_carriesOut hline hopen).settles (.start line m) h hok

/-- Every printer that ends over its ports ends on the hardware in the same way: the serial port has
sent the bytes passed to `serial_put`, in order, and the screen got those passed to `vga_put`. -/
theorem console_on_hardware (b : Beyond) (line : SerialLine) (hline : line.Empties)
    (other : PortDevice σ) (m : Hardware σ) (hopen : m.ports.1.setup.Open) (p : Nat → ConsoleM α)
    (hp : ∀ n, (p n).Uses ConsoleOp.OnCom1) (r : EStateM.Result Fault σ α)
    (tr : List (ConsoleEvent σ)) (h : Settles (consoleDevice b other) p m.ports.2 r tr) :
    ∃ t, Ends (hardwareDevice b line other) (fun n => onHardware n (p n)) m (withState t r) ∧
      t.ports.2 = endState r ∧ t.ports.1.setup = m.ports.1.setup ∧
      t.ports.1.output = m.ports.1.output ++ serialBytes tr ∧
      t.vga = m.vga.after ((vgaBytes tr).map .put) := by
  obtain ⟨t, hends, hshows⟩ := onHardware_displays hline hopen hp h
  exact ⟨t, hends, hshows.other, hshows.serial.setup, hshows.serial.output, hshows.screen⟩

/-- The hardware after `serial_init`, with the cursor home on a dark screen. -/
def initialHardware (q : σ) : Hardware σ where
  vga := { data := { x := 0, y := 0, attr := 0 }, mem := fun _ => 0,
           crt := { index := 0, cursorHigh := 0, cursorLow := 0 } }
  ports := ({ latchedUart with setup := serialSetup latchedUart.setup }, q)

theorem console_on_hardware_echo :
    ∃ t, Ends (hardwareDevice zerosBeyond echoLine emptyBus)
        (fun n => onHardware n (do callVgaPut 0x41; callSerialPut serialCom1 0x41))
        (initialHardware ()) (.ok () t) ∧
      t.ports.2 = () ∧ t.ports.1.setup = serialSetup latchedUart.setup ∧
      t.ports.1.output = [0x41] ∧ t.vga = (initialHardware ()).vga.after [.put 0x41] := by
  apply console_on_hardware zerosBeyond echoLine echoLine_ready.1 emptyBus (initialHardware ())
    (serialSetup_open _) (fun _ => do callVgaPut 0x41; callSerialPut serialCom1 0x41) ?_
    (.ok () ()) _ (Settles.const _ _ _)
  intro n
  have hvga : (callVgaPut 0x41).Uses ConsoleOp.OnCom1 := .perform trivial
  exact hvga.bind fun _ => .perform rfl

end BordOS
