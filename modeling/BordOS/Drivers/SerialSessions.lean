import BordOS.Drivers.SerialChip

namespace BordOS
open Library Prog
set_option autoImplicit true
set_option relaxedAutoImplicit false

variable {line : SerialLine} {u v : Uart16550}

def SerialLine.Empties (line : SerialLine) : Prop := ∀ n, ∃ m, n ≤ m ∧ line.status m &&& 0x20 ≠ 0

def SerialLine.Arrives (line : SerialLine) : Prop := ∀ n, ∃ m, n ≤ m ∧ line.arrivals m ≠ []

theorem status_bits (x d : BitVec 8) (hd : d = 0 ∨ d = 1) :
    (x &&& 0xFE ||| d) &&& 0x20 = x &&& 0x20 ∧ (x &&& 0xFE ||| d) &&& 1 = d := by
  rcases hd with rfl | rfl
  · revert x
    decide
  · revert x
    decide

theorem dataReady_bit (fifo : List (BitVec 8)) :
    (if fifo.isEmpty then (0 : BitVec 8) else 1) = 0 ∨
      (if fifo.isEmpty then (0 : BitVec 8) else 1) = 1 := by
  cases fifo with
  | nil => exact .inl rfl
  | cons a fifo => exact .inr rfl

theorem readReg_lineStatus (u : Uart16550) (line : SerialLine) :
    u.readReg line 5 = u.lineStatus line := rfl

theorem transmitEmpty_run (port : BitVec 16) (other : PortDevice σ) (line : SerialLine)
    (u : Uart16550) (q : σ) :
    (serialIsTransmitEmpty port).run (serialDevice port line other) (u, q) =
      .ok (line.status u.reads &&& 0x20) ((u.lineStatus line).2, q) := by
  rw [serialIsTransmitEmpty, run_bind, inb_uart port line other (by decide), readReg_lineStatus]
  exact congrArg (EStateM.Result.ok · _) (status_bits _ _ (dataReady_bit _)).1

theorem received_run (port : BitVec 16) (other : PortDevice σ) (line : SerialLine)
    (u : Uart16550) (q : σ) :
    (serialReceived port).run (serialDevice port line other) (u, q) =
      .ok (if (u.lineStatus line).2.fifo.isEmpty then 0 else 1) ((u.lineStatus line).2, q) := by
  rw [serialReceived, run_bind, inb_uart port line other (by decide), readReg_lineStatus]
  exact congrArg (EStateM.Result.ok · _) (status_bits _ _ (dataReady_bit _)).2

theorem drainLoop_progress (port : BitVec 16) (other : PortDevice σ) (hopen : u.setup.Open) (q : σ)
    (hready : ∃ m, u.reads ≤ m ∧ line.status m &&& 0x20 ≠ 0) :
    ∃ b t, Converges (serialDevice port line other)
        (loopWhile (serialIsTransmitEmpty port) (fun b => b == 0) .outOfFuel) (u, q) b (t, q) ∧
      SerialProgress line u [] [] t ∧ t.waiting = [] := by
  obtain ⟨m, hm, hset⟩ := hready
  generalize hk : m - u.reads = k
  induction k generalizing u with
  | zero =>
    have heq : u.reads = m := Nat.le_antisymm hm (by omega)
    rw [← heq] at hset
    exact ⟨_, _, .loopWhile_stop (transmitEmpty_run port other line u q) (beq_false_of_ne hset),
      lineStatus_progress line hopen, lineStatus_empty hset⟩
  | succ k ih =>
    have hstep := lineStatus_progress line hopen
    by_cases hempty : line.status u.reads &&& 0x20 = 0
    · have hopen' : (u.lineStatus line).2.setup.Open := hstep.setup ▸ hopen
      have hreads : (u.lineStatus line).2.reads = u.reads + 1 := rfl
      obtain ⟨b, t, hconv, hprog, hwaiting⟩ := ih hopen' (by omega) (by omega)
      have hbody := transmitEmpty_run port other line u q
      exact ⟨b, t, .loopWhile_again hbody (beq_iff_eq.2 hempty) hconv, hstep.trans hprog,
        hwaiting⟩
    · have hbody := transmitEmpty_run port other line u q
      exact ⟨_, _, .loopWhile_stop hbody (beq_false_of_ne hempty), hstep,
        lineStatus_empty hempty⟩

theorem receive_ne_nil (hopen : u.setup.Open) (h : line.arrivals u.reads ≠ []) :
    (u.lineStatus line).2.fifo ≠ [] := by
  simp only [Uart16550.lineStatus, Uart16550.receive, hopen.fifoOn, ↓reduceIte, ne_eq,
    List.take_eq_nil_iff, List.append_eq_nil_iff, h, and_false, or_false]
  decide

theorem receiveLoop_progress (port : BitVec 16) (other : PortDevice σ) (hopen : u.setup.Open)
    (q : σ)
    (hready : ∃ m, u.reads ≤ m ∧ line.arrivals m ≠ []) :
    ∃ b t, Converges (serialDevice port line other)
        (loopWhile (serialReceived port) (fun b => b == 0) .outOfFuel) (u, q) b (t, q) ∧
      SerialProgress line u [] [] t ∧ t.fifo ≠ [] := by
  obtain ⟨m, hm, hset⟩ := hready
  generalize hk : m - u.reads = k
  induction k generalizing u with
  | zero =>
    have heq : u.reads = m := Nat.le_antisymm hm (by omega)
    rw [← heq] at hset
    have hsome := receive_ne_nil hopen hset
    have hrun := received_run port other line u q
    rw [List.isEmpty_eq_false_iff.2 hsome] at hrun
    exact ⟨_, _, .loopWhile_stop hrun rfl, lineStatus_progress line hopen, hsome⟩
  | succ k ih =>
    have hstep := lineStatus_progress line hopen
    have hrun := received_run port other line u q
    by_cases hempty : (u.lineStatus line).2.fifo = []
    · have hopen' : (u.lineStatus line).2.setup.Open := hstep.setup ▸ hopen
      have hreads : (u.lineStatus line).2.reads = u.reads + 1 := rfl
      obtain ⟨b, t, hconv, hprog, hsome⟩ := ih hopen' (by omega) (by omega)
      rw [List.isEmpty_iff.2 hempty] at hrun
      exact ⟨b, t, .loopWhile_again hrun rfl hconv, hstep.trans hprog, hsome⟩
    · rw [List.isEmpty_eq_false_iff.2 hempty] at hrun
      exact ⟨_, _, .loopWhile_stop hrun rfl, hstep, hempty⟩

theorem serialDrain_progress (port : BitVec 16) (other : PortDevice σ) (hline : line.Empties)
    (hopen : u.setup.Open) (q : σ) :
    ∃ t, Converges (serialDevice port line other) (fun n => serialDrain n port) (u, q) () (t, q) ∧
      SerialProgress line u [] [] t ∧ t.waiting = [] := by
  obtain ⟨b, t, hloop, hprog, hempty⟩ := drainLoop_progress port other hopen q (hline u.reads)
  exact ⟨t, hloop.bind (.const rfl), hprog, hempty⟩

theorem serialPut_progress (port : BitVec 16) (other : PortDevice σ) (hline : line.Empties)
    (hopen : u.setup.Open) (a : BitVec 8) (q : σ) :
    ∃ t, Converges (serialDevice port line other) (fun n => serialPut n port a) (u, q) () (t, q) ∧
      SerialProgress line u [a] [] t := by
  obtain ⟨v, hdrain, hprog, hempty⟩ := serialDrain_progress port other hline hopen q
  have hopen' : v.setup.Open := hprog.setup ▸ hopen
  have hout := outb_uart port line other (k := 0) (by decide) a v q
  have hzero : port + 0 = port := BitVec.add_zero port
  rw [hzero] at hout
  exact ⟨_, hdrain.bind (.const hout), hprog.trans (writeData_progress line hopen' hempty a)⟩

theorem serialWrite_progress (port : BitVec 16) (other : PortDevice σ) (hline : line.Empties)
    (hopen : u.setup.Open) (data : List (BitVec 8)) (q : σ) :
    ∃ t, Converges (serialDevice port line other) (fun n => serialWrite n port data) (u, q) ()
        (t, q) ∧ SerialProgress line u data [] t ∧ t.waiting = [] := by
  induction data generalizing u with
  | nil => exact serialDrain_progress port other hline hopen q
  | cons a data ih =>
    obtain ⟨v, hput, hprog⟩ := serialPut_progress port other hline hopen a q
    have hopen' : v.setup.Open := hprog.setup ▸ hopen
    obtain ⟨t, hrest, hprog', hempty⟩ := ih hopen'
    exact ⟨t, hput.bind hrest, hprog.trans hprog', hempty⟩

theorem serialRead_progress (port : BitVec 16) (other : PortDevice σ) (hline : line.Arrives)
    (hopen : u.setup.Open) (q : σ) :
    ∃ a t, Converges (serialDevice port line other) (fun n => serialRead n port) (u, q) a (t, q) ∧
      SerialProgress line u [] [a] t := by
  obtain ⟨b, v, hloop, hprog, hsome⟩ := receiveLoop_progress port other hopen q
    (hline u.reads)
  have hopen' : v.setup.Open := hprog.setup ▸ hopen
  obtain ⟨a, rest, hfifo⟩ := List.exists_cons_of_ne_nil hsome
  obtain ⟨hbyte, hread⟩ := readData_progress line hopen' hfifo
  have hin := inb_uart port line other (k := 0) (by decide) v q
  have hzero : port + 0 = port := BitVec.add_zero port
  rw [hzero, hbyte] at hin
  exact ⟨a, _, hloop.bind (.const hin), hprog.trans hread⟩

inductive SerialCall where
  | put (a : BitVec 8)
  | write (data : List (BitVec 8))
  | read
deriving DecidableEq, Repr

def SerialCall.bytes : SerialCall → List (BitVec 8)
  | .put a => [a]
  | .write data => data
  | .read => []

def SerialCall.code (fuel : Nat) (port : BitVec 16) : SerialCall → PortM (Option (BitVec 8))
  | .put a => do
    serialPut fuel port a
    return none
  | .write data => do
    serialWrite fuel port data
    return none
  | .read => do
    let a ← serialRead fuel port
    return some a

def serialCalls (fuel : Nat) (port : BitVec 16) : List SerialCall → PortM (List (BitVec 8))
  | [] => pure []
  | c :: calls => do
    let a ← c.code fuel port
    let rest ← serialCalls fuel port calls
    return a.toList ++ rest

def serialSession (fuel : Nat) (port : BitVec 16) (calls : List SerialCall) :
    PortM (List (BitVec 8)) := do
  serialInit port
  serialCalls fuel port calls

theorem SerialCall.progress (port : BitVec 16) (other : PortDevice σ) (hempties : line.Empties)
    (harrives : line.Arrives) (hopen : u.setup.Open) (call : SerialCall) (q : σ) :
    ∃ a t, Converges (serialDevice port line other) (fun n => call.code n port) (u, q) a (t, q) ∧
      SerialProgress line u call.bytes a.toList t ∧
      a.toList.length = if call = .read then 1 else 0 := by
  cases call with
  | put a =>
    obtain ⟨t, hput, hprog⟩ := serialPut_progress port other hempties hopen a q
    exact ⟨none, t, hput.bind (.const rfl), hprog, rfl⟩
  | write data =>
    obtain ⟨t, hwrite, hprog, -⟩ := serialWrite_progress port other hempties hopen data q
    exact ⟨none, t, hwrite.bind (.const rfl), hprog, rfl⟩
  | read =>
    obtain ⟨a, t, hread, hprog⟩ := serialRead_progress port other harrives hopen q
    exact ⟨some a, t, hread.bind (.const rfl), hprog, rfl⟩

theorem serialCalls_progress (port : BitVec 16) (other : PortDevice σ) (hempties : line.Empties)
    (harrives : line.Arrives) (hopen : u.setup.Open) (calls : List SerialCall) (q : σ) :
    ∃ got t, Converges (serialDevice port line other) (fun n => serialCalls n port calls) (u, q) got
        (t, q) ∧ SerialProgress line u (calls.flatMap SerialCall.bytes) got t ∧
      got.length = calls.count .read := by
  induction calls generalizing u with
  | nil => exact ⟨[], u, .const rfl, .refl line u, rfl⟩
  | cons call calls ih =>
    obtain ⟨a, v, hcall, hprog, hlen⟩ :=
      call.progress port other hempties harrives hopen q
    have hopen' : v.setup.Open := hprog.setup ▸ hopen
    obtain ⟨got, t, hrest, hprog', hcount⟩ := ih hopen'
    refine ⟨a.toList ++ got, t, hcall.bind (hrest.bind (.const rfl)), hprog.trans hprog', ?_⟩
    rw [List.length_append, hlen, hcount, List.count_cons, Nat.add_comm]
    simp only [beq_iff_eq]

/-- From `serial_init` on, whatever the port was set to, any calls send their bytes in order and
nothing else, of which the transmitter loses none, and read what has come in, in order and once; a
byte is missing only where the FIFO had no room for it. The port keeps its setup. -/
theorem serial_sessions (port : BitVec 16) (line : SerialLine) (hempties : line.Empties)
    (harrives : line.Arrives) (other : PortDevice σ) (u : Uart16550) (q : σ)
    (calls : List SerialCall) :
    ∃ got t, Converges (serialDevice port line other) (fun n => serialSession n port calls) (u, q)
        got (t, q) ∧
      t.setup = serialSetup u.setup ∧ t.output = u.sent ++ calls.flatMap SerialCall.bytes ∧
      got.length = calls.count .read ∧
      (got ++ t.fifo).Sublist (line.between u.reads t.reads) ∧
      (t.overruns = u.overruns → got ++ t.fifo = line.between u.reads t.reads) := by
  obtain ⟨got, t, hcalls, hprog, hcount⟩ := serialCalls_progress port other
    (u := { u with setup := serialSetup u.setup, fifo := [], waiting := [] }) hempties harrives
    (serialSetup_open u.setup) calls q
  have houtput : t.output = u.sent ++ calls.flatMap SerialCall.bytes := by
    rw [hprog.output, Uart16550.output, List.append_nil]
  refine ⟨got, t, ?_, hprog.setup, houtput, hcount, hprog.order, hprog.complete⟩
  exact (Converges.const (serialInit_run port line other u q)).bind hcalls

def echoLine : SerialLine where
  status _ := 0x60
  arrivals _ := [0x41]

def latchedUart : Uart16550 where
  setup := { ier := 0x0F, lcr := 0x80, fcr := 0, mcr := 0, divisorLow := 1, divisorHigh := 0 }
  reads := 0
  fifo := []
  overruns := 0
  waiting := []
  sent := []

theorem echoLine_ready : echoLine.Empties ∧ echoLine.Arrives := by
  have hstatus : (0x60 : BitVec 8) &&& 0x20 ≠ 0 := by decide
  exact ⟨fun n => ⟨n, Nat.le_refl n, hstatus⟩, fun n => ⟨n, Nat.le_refl n, List.cons_ne_nil _ _⟩⟩

/-- A line whose transmitter is busy at every other look. -/
def slowLine : SerialLine where
  status n := if n % 2 = 0 then 0x00 else 0x60
  arrivals _ := [0x41]

theorem slowLine_empties : slowLine.Empties := by
  intro n
  have hodd : (2 * n + 1) % 2 ≠ 0 := by omega
  have hstatus : slowLine.status (2 * n + 1) = 0x60 := if_neg hodd
  refine ⟨2 * n + 1, by omega, ?_⟩
  rw [hstatus]
  decide

/-- More bytes than the transmitter holds, after one that waits and is lost when it is set up. -/
theorem serial_sessions_latched :
    ∃ got t, Converges (serialDevice serialCom1 slowLine emptyBus)
        (fun n => serialSession n serialCom1 [.write (List.replicate 20 0x42), .read, .put 0x43])
        ({ latchedUart with waiting := [0x7F] }, ()) got (t, ()) ∧
      t.setup = serialSetup latchedUart.setup ∧
      t.output = List.replicate 20 0x42 ++ [0x43] ∧ got.length = 1 ∧
      (got ++ t.fifo).Sublist (slowLine.between 0 t.reads) ∧
      (t.overruns = 0 → got ++ t.fifo = slowLine.between 0 t.reads) :=
  serial_sessions serialCom1 slowLine slowLine_empties
    (fun n => ⟨n, Nat.le_refl n, List.cons_ne_nil _ _⟩) emptyBus
    { latchedUart with waiting := [0x7F] } () [.write (List.replicate 20 0x42), .read, .put 0x43]

end BordOS
