import BordOS.Drivers.Serial

namespace BordOS
open Library Prog
set_option autoImplicit true
set_option relaxedAutoImplicit false

def serialReceived (port : BitVec 16) : PortM (BitVec 8) := do
  let status ← inb (port + 5)
  return status &&& 1

def serialInit (port : BitVec 16) : PortM Unit := do
  outb (port + 1) 0x00
  outb (port + 3) 0x80
  outb (port + 0) 0x03
  outb (port + 1) 0x00
  outb (port + 3) 0x03
  outb (port + 2) 0xC7
  outb (port + 4) 0x0B

def serialRead (fuel : Nat) (port : BitVec 16) : PortM (BitVec 8) := do
  let _ ← Prog.loopWhile (serialReceived port) (fun b => b == 0) .outOfFuel fuel
  inb port

def serialWrite (fuel : Nat) (port : BitVec 16) : List (BitVec 8) → PortM Unit
  | [] => serialDrain fuel port
  | a :: data => do
    serialPut fuel port a
    serialWrite fuel port data

/-- What a 16550 sees of its line: the line status at each read of it, but for the bit that tells of
data, and the bytes that have come since the read before. -/
structure SerialLine where
  status : Nat → BitVec 8
  arrivals : Nat → List (BitVec 8)

structure UartSetup where
  ier : BitVec 8
  lcr : BitVec 8
  fcr : BitVec 8
  mcr : BitVec 8
  divisorLow : BitVec 8
  divisorHigh : BitVec 8
deriving DecidableEq, Repr

/-- A 16550: its registers, how often its line status was read, the bytes received and not read, how
many it had no room for, the bytes that wait in its transmitter, and the bytes sent. -/
structure Uart16550 where
  setup : UartSetup
  reads : Nat
  fifo : List (BitVec 8)
  overruns : Nat
  waiting : List (BitVec 8)
  sent : List (BitVec 8)
deriving DecidableEq, Repr

/-- The bytes that were written and not lost. -/
def Uart16550.output (u : Uart16550) : List (BitVec 8) := u.sent ++ u.waiting

/-- The divisor latch takes the place of the data registers. -/
def UartSetup.dlab (c : UartSetup) : Bool := c.lcr.getLsbD 7

def UartSetup.fifoOn (c : UartSetup) : Bool := c.fcr.getLsbD 0

/-- Bytes come in. Where the FIFO is full it keeps what it has; without it the last byte stays. -/
def Uart16550.receive (u : Uart16550) (bytes : List (BitVec 8)) : Uart16550 :=
  let held :=
    if u.setup.fifoOn then (u.fifo ++ bytes).take 16 else (u.fifo ++ bytes).getLast?.toList
  { u with
    fifo := held
    overruns := u.overruns + ((u.fifo ++ bytes).length - held.length) }

/-- A byte for the transmitter, which is lost where the FIFO is full. Without the FIFO it takes the
place of one that waits. -/
def Uart16550.transmit (u : Uart16550) (val : BitVec 8) : Uart16550 :=
  { u with waiting := if u.setup.fifoOn then (u.waiting ++ [val]).take 16 else [val] }

/-- A read of the line status. Until the status tells that it is empty, the transmitter may be as
full as it was. -/
def Uart16550.lineStatus (u : Uart16550) (line : SerialLine) : BitVec 8 × Uart16550 :=
  let u' := u.receive (line.arrivals u.reads)
  let empty := line.status u.reads &&& 0x20 ≠ 0
  ((line.status u.reads &&& 0xFE) ||| (if u'.fifo.isEmpty then 0 else 1),
    { u' with
      reads := u.reads + 1
      waiting := if empty then [] else u.waiting
      sent := if empty then u.output else u.sent })

def Uart16550.readReg (u : Uart16550) (line : SerialLine) (offset : BitVec 16) :
    BitVec 8 × Uart16550 :=
  if offset = 0 then
    if u.setup.dlab then (u.setup.divisorLow, u)
    else (u.fifo.headD 0, { u with fifo := u.fifo.tail })
  else if offset = 1 then (if u.setup.dlab then u.setup.divisorHigh else u.setup.ier, u)
  else if offset = 3 then (u.setup.lcr, u)
  else if offset = 4 then (u.setup.mcr, u)
  else if offset = 5 then u.lineStatus line
  else (0, u)

/-- A write of FCR turns the FIFOs on or off, and empties each of them on request. -/
def Uart16550.writeFcr (u : Uart16550) (val : BitVec 8) : Uart16550 :=
  let switched := val.getLsbD 0 != u.setup.fifoOn
  { u with
    setup := { u.setup with fcr := val }
    fifo := if val.getLsbD 1 || switched then [] else u.fifo
    waiting := if val.getLsbD 2 || switched then [] else u.waiting }

def Uart16550.writeReg (u : Uart16550) (offset : BitVec 16) (val : BitVec 8) : Uart16550 :=
  if offset = 0 then
    if u.setup.dlab then { u with setup := { u.setup with divisorLow := val } }
    else u.transmit val
  else if offset = 1 then
    if u.setup.dlab then { u with setup := { u.setup with divisorHigh := val } }
    else { u with setup := { u.setup with ier := val } }
  else if offset = 2 then u.writeFcr val
  else if offset = 3 then { u with setup := { u.setup with lcr := val } }
  else if offset = 4 then { u with setup := { u.setup with mcr := val } }
  else u

def InUart (port p : BitVec 16) : Prop := p - port < 8

instance (port p : BitVec 16) : Decidable (InUart port p) := inferInstanceAs (Decidable (_ < _))

def serialDevice (port : BitVec 16) (line : SerialLine) (other : PortDevice σ) :
    PortDevice (Uart16550 × σ)
  | .inb p, s =>
    if InUart port p then
      ((s.1.readReg line (p - port)).1, (s.1.readReg line (p - port)).2, s.2)
    else ((other (.inb p) s.2).1, s.1, (other (.inb p) s.2).2)
  | .outb p val, s =>
    if InUart port p then ((), s.1.writeReg (p - port) val, s.2)
    else ((), s.1, (other (.outb p val) s.2).2)
  | op, s => ((other op s.2).1, s.1, (other op s.2).2)

variable {line : SerialLine} {u v w : Uart16550}

theorem inUart_offset (port : BitVec 16) {k : BitVec 16} (hk : k < 8) :
    InUart port (port + k) ∧ port + k - port = k := by
  have hoff : port + k - port = k := by bv_omega
  rw [InUart, hoff]
  exact ⟨hk, rfl⟩

theorem inb_uart (port : BitVec 16) (line : SerialLine) (other : PortDevice σ) {k : BitVec 16}
    (hk : k < 8) (u : Uart16550) (q : σ) :
    (inb (port + k)).run (serialDevice port line other) (u, q) =
      .ok (u.readReg line k).1 ((u.readReg line k).2, q) := by
  obtain ⟨hin, hoff⟩ := inUart_offset port hk
  simp only [inb, run_perform, serialDevice, if_pos hin, hoff]

theorem outb_uart (port : BitVec 16) (line : SerialLine) (other : PortDevice σ) {k : BitVec 16}
    (hk : k < 8) (val : BitVec 8) (u : Uart16550) (q : σ) :
    (outb (port + k) val).run (serialDevice port line other) (u, q) =
      .ok () (u.writeReg k val, q) := by
  obtain ⟨hin, hoff⟩ := inUart_offset port hk
  simp only [outb, run_perform, serialDevice, if_pos hin, hoff]

theorem writeReg_data (h : u.setup.dlab = false) (val : BitVec 8) :
    u.writeReg 0 val = u.transmit val := by
  rw [Uart16550.writeReg, if_pos rfl, h]
  rfl

theorem writeReg_divisorLow (h : u.setup.dlab = true) (val : BitVec 8) :
    u.writeReg 0 val = { u with setup := { u.setup with divisorLow := val } } := by
  rw [Uart16550.writeReg, if_pos rfl, h, if_pos rfl]

theorem writeReg_divisorHigh (h : u.setup.dlab = true) (val : BitVec 8) :
    u.writeReg 1 val = { u with setup := { u.setup with divisorHigh := val } } := by
  rw [Uart16550.writeReg, if_neg (by decide), if_pos rfl, h, if_pos rfl]

theorem writeReg_ier (h : u.setup.dlab = false) (val : BitVec 8) :
    u.writeReg 1 val = { u with setup := { u.setup with ier := val } } := by
  rw [Uart16550.writeReg, if_neg (by decide), if_pos rfl, h]
  rfl

theorem writeReg_lcr (u : Uart16550) (val : BitVec 8) :
    u.writeReg 3 val = { u with setup := { u.setup with lcr := val } } := rfl

theorem writeReg_fcr (u : Uart16550) (val : BitVec 8) : u.writeReg 2 val = u.writeFcr val := rfl

theorem writeReg_mcr (u : Uart16550) (val : BitVec 8) :
    u.writeReg 4 val = { u with setup := { u.setup with mcr := val } } := rfl

def serialSetup (c : UartSetup) : UartSetup where
  ier := if c.dlab then c.ier else 0x00
  lcr := 0x03
  fcr := 0xC7
  mcr := 0x0B
  divisorLow := 0x03
  divisorHigh := 0x00

theorem UartSetup.dlab_of_lcr {c : UartSetup} (h : c.lcr = 0x80) : c.dlab = true := by
  rw [dlab, h]
  decide

theorem writeFcr_clears (u : Uart16550) :
    u.writeFcr 0xC7 =
      { u with setup := { u.setup with fcr := 0xC7 }, fifo := [], waiting := [] } := by
  have hreceive : (0xC7 : BitVec 8).getLsbD 1 = true := by decide
  have htransmit : (0xC7 : BitVec 8).getLsbD 2 = true := by decide
  simp only [Uart16550.writeFcr, hreceive, htransmit, Bool.true_or, ↓reduceIte]

theorem serialInit_latched (u : Uart16550) :
    (((((u.writeReg 3 0x80).writeReg 0 0x03).writeReg 1 0x00).writeReg 3 0x03).writeReg 2
        0xC7).writeReg 4 0x0B =
      { u with
        setup := { serialSetup u.setup with ier := u.setup.ier }, fifo := [], waiting := [] } := by
  rw [writeReg_lcr, writeReg_divisorLow (UartSetup.dlab_of_lcr rfl),
    writeReg_divisorHigh (UartSetup.dlab_of_lcr rfl), writeReg_lcr, writeReg_fcr, writeFcr_clears,
    writeReg_mcr, serialSetup]

/-- Whatever the chip was set to, it is set up and nothing was sent: what waited is lost. While the
latch was selected the first write went to it, and the interrupts stayed as they were. -/
theorem serialInit_run (port : BitVec 16) (line : SerialLine) (other : PortDevice σ)
    (u : Uart16550) (q : σ) :
    (serialInit port).run (serialDevice port line other) (u, q) =
      .ok () ({ u with setup := serialSetup u.setup, fifo := [], waiting := [] }, q) := by
  have hout {k : BitVec 16} (hk : k < 8) := outb_uart port line other hk
  simp only [serialInit, run_bind, hout (k := 1) (by decide), hout (k := 3) (by decide),
    hout (k := 0) (by decide), hout (k := 2) (by decide), hout (k := 4) (by decide),
    serialInit_latched]
  cases hdlab : u.setup.dlab with
  | true =>
    rw [writeReg_divisorHigh hdlab]
    simp only [serialSetup, hdlab, ↓reduceIte]
  | false =>
    rw [writeReg_ier hdlab]
    simp only [serialSetup, hdlab, Bool.false_eq_true, ↓reduceIte]

/-- The bytes that arrive from line status read `n` up to read `m`. -/
def SerialLine.between (line : SerialLine) (n m : Nat) : List (BitVec 8) :=
  (List.range' n (m - n)).flatMap line.arrivals

theorem SerialLine.between_append (line : SerialLine) {n m k : Nat} (hnm : n ≤ m) (hmk : m ≤ k) :
    line.between n m ++ line.between m k = line.between n k := by
  have hsplit : List.range' n (m - n) ++ List.range' m (k - m) = List.range' n (k - n) := by
    have happend := @List.range'_append_1 n (m - n) (k - m)
    rw [Nat.add_sub_cancel' hnm] at happend
    rw [happend]
    congr 1
    omega
  rw [between, between, between, ← List.flatMap_append, hsplit]

theorem SerialLine.between_self (line : SerialLine) (n : Nat) : line.between n n = [] := by
  rw [between, Nat.sub_self]
  rfl

theorem SerialLine.between_succ (line : SerialLine) (n : Nat) :
    line.between n (n + 1) = line.arrivals n := by
  rw [between, Nat.add_sub_cancel_left]
  exact List.append_nil _

/-- From `u` to `v` the port has got `out` to send, and `got` was read from it. No byte to send is
lost. No byte was read twice or out of order, and none is missing unless the FIFO had no room for
it. -/
structure SerialProgress (line : SerialLine) (u : Uart16550) (out got : List (BitVec 8))
    (v : Uart16550) : Prop where
  setup : v.setup = u.setup
  reads : u.reads ≤ v.reads
  output : v.output = u.output ++ out
  overruns : u.overruns ≤ v.overruns
  order : (got ++ v.fifo).Sublist (u.fifo ++ line.between u.reads v.reads)
  complete : v.overruns = u.overruns → got ++ v.fifo = u.fifo ++ line.between u.reads v.reads

namespace SerialProgress

theorem refl (line : SerialLine) (u : Uart16550) : SerialProgress line u [] [] u where
  setup := rfl
  reads := Nat.le_refl _
  output := (List.append_nil _).symm
  overruns := Nat.le_refl _
  order := by
    rw [line.between_self, List.append_nil]
    exact List.Sublist.refl _
  complete _ := by
    rw [line.between_self, List.append_nil]
    rfl

theorem trans {out out' got got' : List (BitVec 8)} (h : SerialProgress line u out got v)
    (h' : SerialProgress line v out' got' w) :
    SerialProgress line u (out ++ out') (got ++ got') w where
  setup := h'.setup.trans h.setup
  reads := Nat.le_trans h.reads h'.reads
  output := by rw [h'.output, h.output, List.append_assoc]
  overruns := Nat.le_trans h.overruns h'.overruns
  order := by
    have hlater := h'.order.append_left got
    have hearlier := h.order.append_right (line.between v.reads w.reads)
    rw [← List.append_assoc, ← List.append_assoc] at hlater
    rw [List.append_assoc u.fifo, line.between_append h.reads h'.reads] at hearlier
    exact hlater.trans hearlier
  complete hlost := by
    have hu := h.overruns
    have hv := h'.overruns
    rw [List.append_assoc, h'.complete (by omega), ← List.append_assoc, h.complete (by omega),
      List.append_assoc, line.between_append h.reads h'.reads]

end SerialProgress

structure UartSetup.Open (c : UartSetup) : Prop where
  dlab : c.dlab = false
  fifoOn : c.fifoOn = true

theorem serialSetup_open (c : UartSetup) : (serialSetup c).Open where
  dlab := by
    have hlcr : (serialSetup c).lcr = 0x03 := rfl
    rw [UartSetup.dlab, hlcr]
    decide
  fifoOn := by
    have hfcr : (serialSetup c).fcr = 0xC7 := rfl
    rw [UartSetup.fifoOn, hfcr]
    decide

theorem lineStatus_output (u : Uart16550) (line : SerialLine) :
    (u.lineStatus line).2.output = u.output := by
  by_cases hempty : line.status u.reads &&& 0x20 ≠ 0
  · simp only [Uart16550.lineStatus, Uart16550.output, if_pos hempty, List.append_nil]
  · simp only [Uart16550.lineStatus, Uart16550.output, if_neg hempty]

theorem lineStatus_empty (h : line.status u.reads &&& 0x20 ≠ 0) :
    (u.lineStatus line).2.waiting = [] :=
  if_pos h

theorem lineStatus_progress (line : SerialLine) (hopen : u.setup.Open) :
    SerialProgress line u [] [] (u.lineStatus line).2 := by
  have houtput : (u.lineStatus line).2.output = u.output ++ [] :=
    (lineStatus_output u line).trans (List.append_nil _).symm
  refine ⟨rfl, Nat.le_succ _, houtput, Nat.le_add_right _ _, ?_, ?_⟩
  · simp only [Uart16550.lineStatus, Uart16550.receive, hopen.fifoOn, ↓reduceIte]
    rw [line.between_succ]
    exact List.take_sublist _ _
  · simp only [Uart16550.lineStatus, Uart16550.receive, hopen.fifoOn, ↓reduceIte]
    intro hlost
    rw [line.between_succ, List.nil_append]
    apply List.take_of_length_le
    rw [List.length_take] at hlost
    omega

theorem readData_progress (line : SerialLine) (hopen : u.setup.Open) {a : BitVec 8}
    {rest : List (BitVec 8)} (hfifo : u.fifo = a :: rest) :
    (u.readReg line 0).1 = a ∧ SerialProgress line u [] [a] (u.readReg line 0).2 := by
  simp only [Uart16550.readReg, ↓reduceIte, hopen.dlab, Bool.false_eq_true, hfifo,
    List.headD_cons, List.tail_cons, true_and]
  constructor
  · rfl
  · exact Nat.le_refl _
  · exact (List.append_nil _).symm
  · exact Nat.le_refl _
  · rw [line.between_self, List.append_nil, hfifo]
    exact List.Sublist.refl _
  · intro _
    rw [line.between_self, List.append_nil, hfifo]
    rfl

theorem transmit_output (hopen : u.setup.Open) (hempty : u.waiting = []) (a : BitVec 8) :
    (u.transmit a).output = u.output ++ [a] := by
  simp only [Uart16550.output, Uart16550.transmit, hopen.fifoOn, hempty, ↓reduceIte,
    List.nil_append, List.append_nil]
  rfl

theorem writeData_progress (line : SerialLine) (hopen : u.setup.Open) (hempty : u.waiting = [])
    (a : BitVec 8) : SerialProgress line u [a] [] (u.writeReg 0 a) := by
  rw [writeReg_data hopen.dlab]
  exact { SerialProgress.refl line u with output := transmit_output hopen hempty a }

end BordOS
