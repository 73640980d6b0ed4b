import BordOS.Kernel.LoggerHardware
import BordOS.Library.ProgramParts

namespace BordOS
open Library Prog
set_option autoImplicit true
set_option relaxedAutoImplicit false

/-- The ports beside the processor's interrupt flag, which `cli` clears and `sti` sets. -/
def withFlag (other : PortDevice σ) : PortDevice (Bool × σ)
  | .cli, s => ((), false, s.2)
  | .sti, s => ((), true, s.2)
  | op, s => ((other op s.2).1, s.1, (other op s.2).2)

def PortOp.KeepsFlag (op : PortOp) : Prop := op ≠ .cli ∧ op ≠ .sti

theorem withFlag_actsOn (other : PortDevice σ) (f : Bool) :
    ActsOn (withFlag other) other (fun s => (f, s)) PortOp.KeepsFlag := by
  rintro op s ⟨hcli, hsti⟩
  cases op with
  | cli => exact absurd rfl hcli
  | sti => exact absurd rfl hsti
  | _ => rfl

theorem cmosReadRaw_keepsFlag (reg : BitVec 8) : (cmosReadRaw reg).Uses PortOp.KeepsFlag := by
  have hselect : (outb cmosReg reg).Uses PortOp.KeepsFlag := .perform ⟨nofun, nofun⟩
  exact hselect.bind fun _ => .perform ⟨nofun, nofun⟩

theorem CmosReads.withFlag {other : PortDevice σ} {reading : Nat → σ → Prop}
    {values : CmosStream} (hd : CmosReads other reading values) (f : Bool) :
    CmosReads (withFlag other) (fun n s => s.1 = f ∧ reading n s.2) values where
  read := by
    rintro n ⟨f', s⟩ reg ⟨rfl, h⟩
    obtain ⟨t, hrun, ht⟩ := hd.read reg h
    refine ⟨(f', t), ?_, rfl, ht⟩
    rw [((withFlag_actsOn other f').run (cmosReadRaw_keepsFlag reg) s).1, hrun]
    rfl

inductive SystemOp where
  | screen (op : ScreenOp)
  | hlt

abbrev SystemOp.Reply : SystemOp → Type
  | .screen op => op.Reply
  | .hlt => Unit

abbrev SystemM := Prog SystemOp SystemOp.Reply Fault

abbrev SystemEvent (σ : Type) := Event SystemOp SystemOp.Reply σ

abbrev System (σ : Type) := Hardware (Bool × σ)

def System.interruptFlag (m : System σ) : Bool := m.ports.2.1

/-- A halted processor waits. -/
def systemDevice (b : Beyond) (line : SerialLine) (other : PortDevice σ) :
    Device SystemOp SystemOp.Reply (System σ)
  | .screen op, m => hardwareDevice b line (withFlag other) op m
  | .hlt, m => ((), m)

def onSystem (p : ScreenM α) : SystemM α :=
  p.translate fun op => .perform (SystemOp.screen op)

def cli : SystemM Unit := onSystem (.perform (ScreenOp.console (.port .cli)))

/-- `for (;;) { __asm__("hlt;"); }` -/
def haltForever : Nat → SystemM α := forever .hlt .outOfFuel

def HaltsIn (t : System σ) (e : SystemEvent (System σ)) : Prop := e.op = .hlt ∧ e.before = t

variable {b : Beyond} {line : SerialLine} {other : PortDevice σ} {m t : System σ}

theorem onSystem_run (p : ScreenM α) (m : System σ) :
    (onSystem p).run (systemDevice b line other) m =
      p.run (hardwareDevice b line (withFlag other)) m :=
  translate_run (fun _ _ => rfl) p m

theorem onSystem_converges {p : Nat → ScreenM α} {a : α}
    (h : Converges (hardwareDevice b line (withFlag other)) p m a t) :
    Converges (systemDevice b line other) (fun n => onSystem (p n)) m a t := by
  obtain ⟨N, hN⟩ := h
  refine ⟨N, ?_⟩
  intro n hn
  rw [onSystem_run, hN n hn]

theorem onSystem_ends {p : Nat → ScreenM α} {r : EStateM.Result Fault (System σ) α}
    (h : Ends (hardwareDevice b line (withFlag other)) p m r) :
    Ends (systemDevice b line other) (fun n => onSystem (p n)) m r := by
  obtain ⟨N, hN⟩ := h
  refine ⟨N, ?_⟩
  intro n hn
  rw [onSystem_run, hN n hn]

def System.masked (m : System σ) : System σ :=
  { m with ports := (m.ports.1, (false, m.ports.2.2)) }

theorem cli_run (m : System σ) :
    cli.run (systemDevice b line other) m = .ok () m.masked := rfl

theorem haltForever_idles (t : System σ) :
    Idles (systemDevice b line other) (HaltsIn t) .outOfFuel
      (haltForever : Nat → SystemM α) t :=
  forever_idles rfl _

end BordOS
