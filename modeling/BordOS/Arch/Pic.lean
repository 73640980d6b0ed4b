import BordOS.Arch.IrqDispatch
import BordOS.Library.Transition

namespace BordOS
open Library
set_option autoImplicit true
set_option relaxedAutoImplicit false

/-- What the next byte at the data port is. The first initialization word announces three more, in
operation the byte is the interrupt mask. -/
inductive PicData where
  | base
  | cascade
  | mode
  | mask
deriving DecidableEq, Repr

structure Pic where
  next : PicData
  base : BitVec 8
  cascade : BitVec 8
  autoEoi : Bool
  mask : BitVec 8
  inService : BitVec 8
deriving DecidableEq, Repr

/-- The line of the lowest number has the highest priority. -/
def clearHighest (bits : BitVec 8) : BitVec 8 := bits &&& (bits - 1)

/-- A byte at the command port: the first initialization word, or an end of interrupt. -/
def Pic.command (val : BitVec 8) (p : Pic) : Pic :=
  if val &&& 0x10 ≠ 0 then { p with next := .base, autoEoi := false, mask := 0, inService := 0 }
  else if val = 0x20 then { p with inService := clearHighest p.inService }
  else p

def Pic.data (val : BitVec 8) (p : Pic) : Pic :=
  match p.next with
  | .base => { p with next := .cascade, base := val &&& 0xF8 }
  | .cascade => { p with next := .mode, cascade := val }
  | .mode => { p with next := .mask, autoEoi := val &&& 0x02 ≠ 0 }
  | .mask => { p with mask := val }

/-- The processor acknowledges line `n`. Only an automatic end of interrupt leaves no trace. -/
def Pic.acknowledge (n : Nat) (p : Pic) : Pic :=
  if p.autoEoi then p else { p with inService := p.inService ||| (1 : BitVec 8) <<< n }

structure Pics where
  master : Pic
  slave : Pic
deriving DecidableEq, Repr

def Pics.outb (port : BitVec 16) (val : BitVec 8) (p : Pics) : Pics :=
  if port = 0x20 then { p with master := p.master.command val }
  else if port = 0x21 then { p with master := p.master.data val }
  else if port = 0xA0 then { p with slave := p.slave.command val }
  else if port = 0xA1 then { p with slave := p.slave.data val }
  else p

def Pics.remapped (p : Pics) : Pics :=
  (irqRemap (Interrupts.start (ρ := Unit))).outs.foldl (fun p o => p.outb o.1 o.2) p

inductive Delivery where
  | line (k : Fin 16)
  | spurious7
  | spurious15
deriving DecidableEq, Repr

def Delivery.number : Delivery → Fin 16
  | .line k => k
  | .spurious7 => ⟨7, by decide⟩
  | .spurious15 => ⟨15, by decide⟩

/-- The controllers when the processor has fetched the vector. The slave is on line 2. -/
def Pics.deliver (d : Delivery) (p : Pics) : Pics :=
  match d with
  | .line k =>
    if (k : Nat) < 8 then { p with master := p.master.acknowledge k }
    else { master := p.master.acknowledge 2, slave := p.slave.acknowledge (k - 8) }
  | .spurious7 => p
  | .spurious15 => { p with master := p.master.acknowledge 2 }

def Pics.vector (d : Delivery) (p : Pics) : BitVec 8 :=
  if (d.number : Nat) < 8 then p.master.base + BitVec.ofNat 8 d.number
  else p.slave.base + BitVec.ofNat 8 (d.number - 8)

/-- Routines do not touch the controllers. -/
def Pics.act (a : IrqAction ρ) (p : Pics) : Pics :=
  match a with
  | .outb port val => p.outb port val
  | .enter _ | .call _ _ => p

def Pics.acts (trace : List (IrqAction ρ)) (p : Pics) : Pics :=
  trace.foldl (fun p a => p.act a) p

def Pics.AllClear (p : Pics) : Prop := p.master.inService = 0 ∧ p.slave.inService = 0

/-- One delivery: the table of routines at that time and the machine that is interrupted. -/
structure Serviced (ρ : Type) where
  delivery : Delivery
  irqRoutines : Fin 16 → Option ρ
  machine : Machine

/-- The stub of the vector runs to its `iret` with interrupts disabled, `irq_handler` included. -/
def PicStep (symbols : Symbols) (effect : ρ → SRegs → SRegs) (p : Pics) (a : Serviced ρ)
    (q : Pics) : Prop :=
  ∃ k g trace m', p.vector a.delivery = BitVec.ofNat 8 (32 + (k : Fin 16)) ∧
    (irqImage symbols effect a.irqRoutines).Returns (irqStubs k) (a.machine.interrupt g)
      trace m' ∧
    q = (p.deliver a.delivery).acts trace

/-- The routine of a line of the slave does not lower the number in its frame below 40. -/
def Serviced.KeepsSlave (effect : ρ → SRegs → SRegs) (a : Serviced ρ) : Prop :=
  ∀ k r frame, a.delivery = .line k → 8 ≤ (k : Nat) → a.irqRoutines k = some r →
    frame.intNo.toNat = 32 + (k : Nat) → 40 ≤ (effect r frame).intNo

structure Pics.Idle (p : Pics) : Prop where
  masterBase : p.master.base = 0x20
  slaveBase : p.slave.base = 0x28
  masterEoi : p.master.autoEoi = false
  slaveEoi : p.slave.autoEoi = false
  clear : p.AllClear

theorem Pics.remapped_idle (p : Pics) : p.remapped.Idle where
  masterBase := rfl
  slaveBase := rfl
  masterEoi := rfl
  slaveEoi := rfl
  clear := ⟨rfl, rfl⟩

variable {symbols : Symbols} {effect : ρ → SRegs → SRegs} {p q : Pics}

theorem clearHighest_single {n : Nat} (hn : n < 8) :
    clearHighest (0 ||| (1 : BitVec 8) <<< n) = 0 := by
  have hall : ∀ n : Fin 8, clearHighest (0 ||| (1 : BitVec 8) <<< (n : Nat)) = 0 := by decide
  exact hall ⟨n, hn⟩

theorem Pic.command_eoi (p : Pic) :
    p.command 0x20 = { p with inService := clearHighest p.inService } := rfl

/-- An end of interrupt without an interrupt, as after a spurious one. -/
theorem Pic.eoi_clear {p : Pic} (h : p.inService = 0) : p.command 0x20 = p := by
  have hnone : clearHighest 0 = 0 := by decide
  rw [command_eoi, h, hnone, ← h]

theorem Pic.eoi_acknowledge {p : Pic} (hmode : p.autoEoi = false) (h : p.inService = 0)
    {n : Nat} (hn : n < 8) : (p.acknowledge n).command 0x20 = p := by
  rw [acknowledge, hmode, if_neg Bool.false_ne_true, command_eoi]
  simp only [h, clearHighest_single hn]
  rw [← h, ← hmode]

theorem Pics.Idle.vector_eq (h : p.Idle) (d : Delivery) :
    p.vector d = BitVec.ofNat 8 (32 + (d.number : Nat)) := by
  have hall : ∀ k : Fin 16, (if (k : Nat) < 8 then 0x20 + BitVec.ofNat 8 k
      else 0x28 + BitVec.ofNat 8 (k - 8)) = BitVec.ofNat 8 (32 + (k : Nat)) := by decide
  rw [vector, h.masterBase, h.slaveBase]
  exact hall d.number

theorem vector_inj {k l : Fin 16}
    (h : BitVec.ofNat 8 (32 + (k : Nat)) = BitVec.ofNat 8 (32 + (l : Nat))) : k = l := by
  revert k l
  decide

theorem Pics.acts_served (frame : SRegs) (routine : Option ρ) (outs : List (IrqAction ρ)) :
    p.acts (.enter frame :: routine.toList.map (.call · frame) ++ outs) = p.acts outs := by
  cases routine <;> rfl

theorem Pics.acts_eoi (p : Pics) (x : BitVec 32) :
    p.acts ((if 40 ≤ x then [.outb 0xA0 0x20] else []) ++
        ([.outb 0x20 0x20] : List (IrqAction ρ))) =
      { master := p.master.command 0x20
        slave := if 40 ≤ x then p.slave.command 0x20 else p.slave } := by
  split <;> rfl

theorem Pics.Idle.deliver_eoi (h : p.Idle) (d : Delivery) (x : BitVec 32)
    (hx : ∀ k, d = .line k → 8 ≤ (k : Nat) → 40 ≤ x) :
    (p.deliver d).acts ((if 40 ≤ x then [.outb 0xA0 0x20] else []) ++
      ([.outb 0x20 0x20] : List (IrqAction ρ))) = p := by
  have hslave := Pic.eoi_clear h.clear.2
  rw [acts_eoi]
  cases d with
  | line k =>
    by_cases hk : (k : Nat) < 8
    · have hmaster := Pic.eoi_acknowledge h.masterEoi h.clear.1 hk
      simp only [deliver, hk, ↓reduceIte, hmaster, hslave, ite_self]
    · have hmaster := Pic.eoi_acknowledge h.masterEoi h.clear.1 (n := 2) (by decide)
      have hservice := Pic.eoi_acknowledge h.slaveEoi h.clear.2 (n := k - 8) (by omega)
      simp only [deliver, hk, ↓reduceIte, hx k rfl (by omega), hmaster, hservice]
  | spurious7 =>
    have hmaster := Pic.eoi_clear h.clear.1
    simp only [deliver, hmaster, hslave, ite_self]
  | spurious15 =>
    have hmaster := Pic.eoi_acknowledge h.masterEoi h.clear.1 (n := 2) (by decide)
    simp only [deliver, hmaster, hslave, ite_self]

/-- What a delivery does to the controllers: the number that the routine leaves in the frame
decides whether the slave gets an end of interrupt. -/
theorem PicStep.served {a : Serviced ρ} (h : PicStep symbols effect p a q) (hp : p.Idle) :
    ∃ frame after : SRegs, frame.intNo.toNat = 32 + (a.delivery.number : Nat) ∧
      after = ((a.irqRoutines a.delivery.number).map (effect · frame)).getD frame ∧
      q = (p.deliver a.delivery).acts ((if 40 ≤ after.intNo then [.outb 0xA0 0x20] else []) ++
        ([.outb 0x20 0x20] : List (IrqAction ρ))) := by
  obtain ⟨k, g, trace, m', hvector, hret, rfl⟩ := h
  obtain ⟨frame, after, -, hint, hafter, htrace, -, -⟩ := irqStubs_served hret
  rw [hp.vector_eq] at hvector
  have hk := vector_inj hvector
  subst hk
  exact ⟨frame, after, hint, hafter, by rw [htrace, Pics.acts_served]⟩

theorem PicStep.eq {a : Serviced ρ} (h : PicStep symbols effect p a q) (hp : p.Idle)
    (hkeep : a.KeepsSlave effect) : q = p := by
  obtain ⟨frame, after, hint, hafter, rfl⟩ := h.served hp
  apply hp.deliver_eoi
  intro k hk hslave
  have hnumber : a.delivery.number = k := by
    rw [hk]
    rfl
  rw [hnumber] at hint hafter
  rw [hafter]
  cases hroutine : a.irqRoutines k with
  | none =>
    simp only [Option.map_none, Option.getD_none]
    bv_omega
  | some r => exact hkeep k r frame hk hslave hroutine hint

/-- Every delivery is served: its vector has a stub, and the stub comes to its `iret`. -/
theorem Pics.Idle.step_exists (hp : p.Idle) (symbols : Symbols) (effect : ρ → SRegs → SRegs)
    (a : Serviced ρ) : ∃ q, PicStep symbols effect p a q := by
  obtain ⟨trace, m', hret⟩ := irqStub_exists symbols effect a.irqRoutines ⟨0, 8⟩
    a.delivery.number a.machine
  rw [← irqStubs_eq] at hret
  exact ⟨_, a.delivery.number, _, trace, m', hp.vector_eq _, hret, rfl⟩

theorem Pics.Idle.run_exists (hp : p.Idle) (symbols : Symbols) (effect : ρ → SRegs → SRegs)
    (as : List (Serviced ρ)) (hkeep : ∀ a ∈ as, a.KeepsSlave effect) :
    ∃ l, Run (PicStep symbols effect) p l p ∧ labels l = as := by
  induction as with
  | nil => exact ⟨[], .nil p, rfl⟩
  | cons a as ih =>
    obtain ⟨q, hstep⟩ := hp.step_exists symbols effect a
    obtain rfl := hstep.eq hp (hkeep a (.head _))
    obtain ⟨l, hl, hlabels⟩ := ih fun b hb => hkeep b (.tail _ hb)
    exact ⟨_, .cons hstep hl, congrArg (a :: ·) hlabels⟩

/-- After `irq_remap`, every sequence of deliveries is served, and each leaves all in-service bits
clear, spurious or not, as long as the routines of the slave's lines keep the number in their frame
at 40 or above. -/
theorem pics_all_clear (symbols : Symbols) (effect : ρ → SRegs → SRegs) (p : Pics)
    (as : List (Serviced ρ)) (hkeep : ∀ a ∈ as, a.KeepsSlave effect) :
    (∃ l q, Run (PicStep symbols effect) p.remapped l q ∧ labels l = as) ∧
      ∀ l q, Run (PicStep symbols effect) p.remapped l q → labels l = as →
        ∀ st ∈ l, st.post.AllClear := by
  obtain ⟨l, hl, hlabels⟩ := p.remapped_idle.run_exists symbols effect as hkeep
  refine ⟨⟨l, _, hl, hlabels⟩, ?_⟩
  intro l q h hlabels st hst
  subst hlabels
  have hidle := h.invariant p.remapped_idle fun st hst hstep hpre => by
    rw [hstep.eq hpre (hkeep st.label (List.mem_map_of_mem hst))]
    exact hpre
  exact (hidle.2 st hst).2.clear

def Pic.reset : Pic where
  next := .mask
  base := 0
  cascade := 0
  autoEoi := false
  mask := 0
  inService := 0

def quietMachine : Machine where
  cpu := ⟨0, 0, 0, 0, 0, 0, 0, 0, 0, 0, 8, 16, 16, 16, 16, 16⟩
  mem _ := 0
  selectorPush := .extended

def servicedBy (irqRoutines : Fin 16 → Option Unit) (d : Delivery) : Serviced Unit where
  delivery := d
  irqRoutines := irqRoutines
  machine := quietMachine

/-- Both spurious interrupts between two real ones of the slave. -/
theorem pics_all_clear_spurious :
    (∃ l q, Run (PicStep ⟨fun _ => 0, fun _ => 0, 0, 0, 0⟩ fun _ frame => frame)
        (Pics.remapped ⟨.reset, .reset⟩) l q ∧
      labels l = [.line 14, .spurious15, .spurious7, .line 8].map (servicedBy fun _ => some ())) ∧
    ∀ l q, Run (PicStep ⟨fun _ => 0, fun _ => 0, 0, 0, 0⟩ fun _ frame => frame)
        (Pics.remapped ⟨.reset, .reset⟩) l q →
      labels l = [.line 14, .spurious15, .spurious7, .line 8].map (servicedBy fun _ => some ()) →
        ∀ st ∈ l, st.post.AllClear := by
  refine pics_all_clear _ _ ⟨.reset, .reset⟩ _ fun a _ k r frame _ hk _ hint => ?_
  bv_omega

/-- A routine on line 8 that clears the number in its frame: the slave keeps line 8 in service. -/
theorem pics_slave_blocked :
    ∃ q, PicStep ⟨fun _ => 0, fun _ => 0, 0, 0, 0⟩ (fun _ frame => { frame with intNo := 0 })
        (Pics.remapped ⟨.reset, .reset⟩) (servicedBy (fun _ => some ()) (.line 8)) q ∧
      ¬ q.AllClear := by
  have hp := Pics.remapped_idle ⟨.reset, .reset⟩
  obtain ⟨q, hstep⟩ := hp.step_exists ⟨fun _ => 0, fun _ => 0, 0, 0, 0⟩
    (fun _ frame => { frame with intNo := 0 }) (servicedBy (fun _ => some ()) (.line 8))
  refine ⟨q, hstep, ?_⟩
  intro hclear
  obtain ⟨frame, after, -, hafter, rfl⟩ := hstep.served hp
  have hcleared : after.intNo = 0 := by
    rw [hafter]
    rfl
  rw [Pics.acts_eoi, hcleared] at hclear
  exact absurd hclear.2 (by decide)

end BordOS
