import BordOS.Drivers.VgaCode
import BordOS.Drivers.VgaTerminal
import BordOS.Kernel.LoggerRuns

namespace BordOS
open Library
set_option autoImplicit true
set_option relaxedAutoImplicit false

/-! ### What a call may do -/

/-- An access of video memory stays in its 2000 cells, and an update of a coordinate fits its
byte. -/
def Inside (e : ScreenEvent (Screen σ)) : Prop :=
  match e.op with
  | .load8 a | .store8 a _ => ∃ k < 2000,
    a = vgaCellAddr (BitVec.ofNat 32 k) ∨ a = vgaCellAddr (BitVec.ofNat 32 k) + 1
  | .store16 a _ => ∃ k < 2000, a = vgaCellAddr (BitVec.ofNat 32 k)
  | .setX v | .setY v => v.toNat < 256
  | _ => True

def OnScreen (s : Screen σ) : Prop := s.vga.data.x.toNat < 80 ∧ s.vga.data.y.toNat < 25

def CursorOn (s : Screen σ) : Prop :=
  OnScreen s ∧ s.vga.crt.cursor.toNat = 80 * s.vga.data.y.toNat + s.vga.data.x.toNat

variable {b : Beyond} {ports : PortDevice σ} {s t : Screen σ} {m : VgaMachine}

/-! ### The coordinates inside a call -/

/-- The bounds that the cases of `vga_put` leave: one column or one row too far, not both. -/
theorem vgaHandle_bounds (c : BitVec 8) (hx : m.data.x.toNat < 80) (hy : m.data.y.toNat < 25) :
    (vgaHandle c m).data.x.toNat ≤ 80 ∧ (vgaHandle c m).data.y.toNat ≤ 25 ∧
      (80 ≤ (vgaHandle c m).data.x.toNat → (vgaHandle c m).data.y.toNat < 25) := by
  have htab := tab_toNat hx
  simp only [vgaHandle]
  split_ifs
  · simp only
    bv_omega
  · exact ⟨by omega, by omega, by omega⟩
  · simp only
    omega
  · simp only
    bv_omega
  · simp only
    bv_omega
  · simp only
    bv_omega
  · exact ⟨by omega, by omega, by omega⟩

theorem vgaWrap_bounds (hx : m.data.x.toNat ≤ 80) (hy : m.data.y.toNat ≤ 25)
    (hxy : 80 ≤ m.data.x.toNat → m.data.y.toNat < 25) :
    (vgaWrap m).data.x.toNat < 80 ∧ (vgaWrap m).data.y.toNat ≤ 25 := by
  by_cases hend : vgaWidth ≤ m.data.x.setWidth 32
  · rw [vgaWrap, if_pos hend]
    simp only [vgaWidth] at hend ⊢
    bv_omega
  · rw [vgaWrap, if_neg hend]
    simp only [vgaWidth] at hend
    bv_omega

theorem vgaScroll_bounds (hx : m.data.x.toNat < 80) (hy : m.data.y.toNat ≤ 25) :
    (vgaScroll m).data.x.toNat < 80 ∧ (vgaScroll m).data.y.toNat < 25 := by
  by_cases hlast : m.data.y = 25
  · rw [(vgaScroll_cells hlast).1]
    exact ⟨hx, Nat.lt_succ_self 24⟩
  · rw [vgaScroll_of_lt (by bv_omega)]
    exact ⟨hx, by bv_omega⟩

theorem vgaMoveCursor_on (hx : m.data.x.toNat < 80) (hy : m.data.y.toNat < 25) (s : Screen σ) :
    CursorOn (s.setVga (vgaMoveCursor m)) := by
  have hshown : CursorShown (vgaMoveCursor m) := vgaMoveCursor_shown m
  refine ⟨⟨hx, hy⟩, ?_⟩
  rw [Screen.setVga_vga, hshown]
  simp only [vgaMoveCursor, vgaWidth]
  bv_omega

/-! ### The accesses of a call -/

def AccessesInside (b : Beyond) (ports : PortDevice σ) (p : ScreenM α) (s : Screen σ) : Prop :=
  ∀ e ∈ p.events (screenDevice b ports) s, Inside e

theorem AccessesInside.pure (a : α) : AccessesInside b ports (pure a) s :=
  fun _ he => absurd he List.not_mem_nil

theorem AccessesInside.perform (op : ScreenOp)
    (h : Inside (⟨s, op, (screenDevice b ports op s).1⟩ : ScreenEvent (Screen σ))) :
    AccessesInside b ports (.perform op) s := by
  intro e he
  rw [Prog.events_perform, List.mem_singleton] at he
  rw [he]
  exact h

theorem AccessesInside.bind {p : ScreenM α} {f : α → ScreenM β} {a : α}
    (hp : AccessesInside b ports p s) (hrun : p.run (screenDevice b ports) s = .ok a t)
    (hf : AccessesInside b ports (f a) t) : AccessesInside b ports (p >>= f) s := by
  intro e he
  rw [Prog.events_bind, hrun] at he
  rcases List.mem_append.1 he with he | he
  · exact hp e he
  · exact hf e he

theorem AccessesInside.data {f : VgaData → ScreenM α}
    (h : AccessesInside b ports (f s.vga.data) s) : AccessesInside b ports (vgaData >>= f) s :=
  (perform .data trivial).bind rfl h

theorem setX_inside {v : BitVec 32} (h : v.toNat < 256) : AccessesInside b ports (setX v) s :=
  .perform (.setX v) h

theorem setY_inside {v : BitVec 32} (h : v.toNat < 256) : AccessesInside b ports (setY v) s :=
  .perform (.setY v) h

theorem store16_inside {k : Nat} (h : k < 2000) (v : BitVec 16) :
    AccessesInside b ports (store16 (vgaCellAddr (BitVec.ofNat 32 k)) v) s :=
  .perform (.store16 _ v) ⟨k, h, rfl⟩

theorem crtOutb_inside (port : BitVec 16) (val : BitVec 8) :
    AccessesInside b ports (crtOutb port val) s :=
  .perform (.outb port val) trivial

theorem cellByte_of_offset {a : BitVec 32} (h : (a - vgaBuffer).toNat < 4000) :
    ∃ k < 2000,
      a = vgaCellAddr (BitVec.ofNat 32 k) ∨ a = vgaCellAddr (BitVec.ofNat 32 k) + 1 := by
  refine ⟨(a - vgaBuffer).toNat / 2, by omega, ?_⟩
  simp only [vgaCellAddr, vgaBuffer] at h ⊢
  bv_omega

theorem memcpyCode_inside {dst src : BitVec 32} {n : Nat}
    (hdst : (dst - vgaBuffer).toNat + n ≤ 4000) (hsrc : (src - vgaBuffer).toNat + n ≤ 4000)
    (s : Screen σ) : AccessesInside b ports (memcpyCode dst src n) s := by
  induction n generalizing dst src s with
  | zero => exact .pure ()
  | succ n ih =>
    have hload : AccessesInside b ports (.perform (ScreenOp.load8 src)) s :=
      .perform _ (cellByte_of_offset (by omega))
    apply hload.bind rfl
    have hstore : AccessesInside b ports (.perform (ScreenOp.store8 dst (s.vga.mem src))) s :=
      .perform _ (cellByte_of_offset (by omega))
    refine hstore.bind rfl (ih ?_ ?_ _)
    · clear ih hload hstore hsrc
      simp only [vgaBuffer] at hdst ⊢
      bv_omega
    · clear ih hload hstore hdst
      simp only [vgaBuffer] at hsrc ⊢
      bv_omega

theorem vgaFillCode_inside {first n : Nat} (h : first + n ≤ 2000) (blank : BitVec 16)
    (s : Screen σ) : AccessesInside b ports (vgaFillCode (BitVec.ofNat 32 first) blank n) s := by
  induction n with
  | zero => exact .pure ()
  | succ n ih =>
    apply (ih (by omega)).bind (vgaFillCode_run _ _ _ _)
    rw [← BitVec.ofNat_add]
    exact store16_inside (by omega) blank

theorem vgaClearRowsCode_inside {n : Nat} (h : n ≤ 25) (blank : BitVec 16) (s : Screen σ) :
    AccessesInside b ports (vgaClearRowsCode blank n) s := by
  induction n with
  | zero => exact .pure ()
  | succ n ih =>
    have hrow : BitVec.ofNat 32 n * vgaWidth = BitVec.ofNat 32 (n * 80) := by
      rw [BitVec.ofNat_mul]
      rfl
    apply (ih (by omega)).bind (vgaClearRowsCode_run _ _ _)
    rw [hrow]
    exact vgaFillCode_inside (by omega) blank _

theorem vgaMoveCursorCode_inside (s : Screen σ) : AccessesInside b ports vgaMoveCursorCode s := by
  apply AccessesInside.data
  apply (crtOutb_inside _ _).bind rfl
  apply (crtOutb_inside _ _).bind rfl
  apply (crtOutb_inside _ _).bind rfl
  exact crtOutb_inside _ _

theorem vgaScrollCode_inside (hy : s.vga.data.y.toNat ≤ 25) :
    AccessesInside b ports vgaScrollCode s := by
  apply AccessesInside.data
  by_cases hlast : s.vga.data.y = 25
  -- one row: 3840 bytes from cell 80 on, then the blanks of row 24
  · have hge : vgaHeight ≤ (25 : BitVec 8).setWidth 32 := by decide
    have htemp : (25 : BitVec 8).setWidth 32 - vgaHeight + 1 = 1 := by decide
    have hsrc : 1 * vgaWidth = 80 := by decide
    have hrow : (vgaHeight - 1) * vgaWidth = BitVec.ofNat 32 1920 := by decide
    have hlen : (BitVec.ofNat 32 1920 * 2).toNat = 3840 := by decide
    simp only [hlast, hge, ↓reduceIte, htemp, hsrc, hrow, hlen]
    have hcopy : AccessesInside b ports (memcpyCode vgaBuffer (vgaCellAddr 80) 3840) s :=
      memcpyCode_inside (by decide) (by decide) s
    apply hcopy.bind (memcpyCode_run _ _ _ _)
    apply (vgaFillCode_inside (by omega) _ _).bind (vgaFillCode_run _ _ _ _)
    exact setY_inside (by decide)
  · have hlt : ¬ vgaHeight ≤ s.vga.data.y.setWidth 32 := by
      simp only [vgaHeight]
      bv_omega
    simp only [if_neg hlt]
    exact .pure ()

theorem vgaWrapCode_inside (hy : s.vga.data.y.toNat ≤ 25) :
    AccessesInside b ports vgaWrapCode s := by
  apply AccessesInside.data
  split_ifs
  · apply (setX_inside (by decide)).bind rfl
    exact setY_inside (by bv_omega)
  · exact .pure ()

theorem tab_fits (x : BitVec 8) (hx : x.toNat < 80) :
    ((x.setWidth 32 + 8) &&& ~~~(8 - 1)).toNat < 256 := by
  revert x
  decide

theorem vgaHandleCode_inside (c : BitVec 8) (h : OnScreen s) :
    AccessesInside b ports (vgaHandleCode c) s := by
  obtain ⟨hx, hy⟩ := h
  have hcell : s.vga.data.y.setWidth 32 * vgaWidth + s.vga.data.x.setWidth 32 =
      BitVec.ofNat 32 (80 * s.vga.data.y.toNat + s.vga.data.x.toNat) := by
    simp only [vgaWidth]
    bv_omega
  apply AccessesInside.data
  split_ifs with hbs hx0
  · exact setX_inside (by bv_omega)
  · exact .pure ()
  · exact setX_inside (tab_fits _ hx)
  · exact setX_inside (by decide)
  · apply (setX_inside (by decide)).bind rfl
    exact setY_inside (by bv_omega)
  · rw [hcell]
    apply (store16_inside (by omega) _).bind rfl
    exact setX_inside (by bv_omega)
  · exact .pure ()

theorem vgaPutCode_inside (c : BitVec 8) (h : OnScreen s) :
    AccessesInside b ports (vgaPutCode c) s := by
  obtain ⟨hx, hy, hxy⟩ := vgaHandle_bounds c h.1 h.2
  obtain ⟨hx', hy'⟩ := vgaWrap_bounds hx hy hxy
  have hwrap : AccessesInside b ports vgaWrapCode (s.setVga (vgaHandle c s.vga)) :=
    vgaWrapCode_inside hy
  have hscroll : AccessesInside b ports vgaScrollCode
      (s.setVga (vgaWrap (vgaHandle c s.vga))) :=
    vgaScrollCode_inside hy'
  apply (vgaHandleCode_inside c h).bind (vgaHandleCode_run c s)
  apply hwrap.bind (vgaWrapCode_run _)
  apply hscroll.bind (vgaScrollCode_run _)
  exact vgaMoveCursorCode_inside _

/-- The wrap and the scroll bring the cursor back on the screen. -/
theorem vgaPut_cursorOn (c : BitVec 8) (h : OnScreen s) :
    CursorOn (s.setVga (vgaPut c s.vga)) := by
  obtain ⟨hx, hy, hxy⟩ := vgaHandle_bounds c h.1 h.2
  obtain ⟨hx', hy'⟩ := vgaWrap_bounds hx hy hxy
  obtain ⟨hx'', hy''⟩ := vgaScroll_bounds hx' hy'
  exact vgaMoveCursor_on hx'' hy'' s

theorem vgaHome_inside {rows : ScreenM Unit} (hrows : AccessesInside b ports rows s)
    (hrun : rows.run (screenDevice b ports) s = .ok () t) :
    AccessesInside b ports (rows >>= fun _ => do
      setX 0
      setY 0
      vgaMoveCursorCode) s := by
  apply hrows.bind hrun
  apply (setX_inside (by decide)).bind rfl
  apply (setY_inside (by decide)).bind rfl
  exact vgaMoveCursorCode_inside _

theorem vgaClearCode_inside (s : Screen σ) : AccessesInside b ports vgaClearCode s := by
  apply AccessesInside.data
  exact vgaHome_inside (vgaClearRowsCode_inside (Nat.le_refl 25) _ s)
    (vgaClearRowsCode_run _ 25 s)

theorem vgaClear_cursorOn (s : Screen σ) : CursorOn (s.setVga (vgaClear s.vga)) := by
  simp only [vgaClear]
  apply vgaMoveCursor_on
  · exact Nat.zero_lt_succ 79
  · exact Nat.zero_lt_succ 24

/-! ### Programs on the screen -/

/-- A program keeps an invariant if its accesses are inside and it returns in the invariant. -/
theorem triple_of_inside {P : Screen σ → Prop} {Q : α → Screen σ → Prop} {p : ScreenM α}
    (h : ∀ s, P s → AccessesInside b ports p s ∧
      ∃ a t, p.run (screenDevice b ports) s = .ok a t ∧ Q a t) :
    Prog.Triple (screenDevice b ports) Inside P p Q := by
  intro s hs
  obtain ⟨hin, a, t, hrun, hQ⟩ := h s hs
  refine ⟨hin, ?_⟩
  intro a' t' hrun'
  rw [hrun] at hrun'
  cases hrun'
  exact hQ

theorem vgaPutCode_triple (c : BitVec 8) :
    Prog.Triple (screenDevice b ports) Inside OnScreen (vgaPutCode c) fun _ => CursorOn :=
  triple_of_inside fun s hs =>
    ⟨vgaPutCode_inside c hs, (), _, vgaPutCode_run c s, vgaPut_cursorOn c hs⟩

/-- A printer on the screen keeps its cursor there, whatever it prints. -/
theorem onScreen_triple {P : Screen σ → Prop} (hP : ∀ s, P s → OnScreen s)
    (hcursor : ∀ s, CursorOn s → P s) (hports : ∀ s q, P s → P { s with ports := q })
    (p : ConsoleM α) :
    Prog.Triple (screenDevice b ports) Inside P (onScreen p) fun _ => P := by
  apply Prog.Triple.translate
  intro op
  cases op with
  | vgaPut c => exact (vgaPutCode_triple c).weaken hP fun _ t ht => hcursor t ht
  | charAt str i => exact .perform fun s hs => ⟨trivial, hports s _ hs⟩
  | vaArg ap => exact .perform fun s hs => ⟨trivial, hports s _ hs⟩
  | serialPut port a => exact .perform fun s hs => ⟨trivial, hports s _ hs⟩
  | serialDrain port => exact .perform fun s hs => ⟨trivial, hports s _ hs⟩
  | port op => exact .perform fun s hs => ⟨trivial, hports s _ hs⟩

theorem onScreen_cursorOn (p : ConsoleM α) :
    Prog.Triple (screenDevice b ports) Inside CursorOn (onScreen p) fun _ => CursorOn :=
  onScreen_triple (fun _ h => h.1) (fun _ h => h) (fun _ _ h => h) p

/-- The screen as one device: a call of `vga_put` is its function. -/
def screenConsole (b : Beyond) (ports : PortDevice σ) :
    Device ConsoleOp ConsoleOp.Reply (Screen σ)
  | .vgaPut c, s => ((), s.setVga (vgaPut c s.vga))
  | op, s => ((consoleDevice b ports op s.ports).1,
    { s with ports := (consoleDevice b ports op s.ports).2 })

theorem onScreen_run (p : ConsoleM α) (s : Screen σ) :
    (onScreen p).run (screenDevice b ports) s = p.run (screenConsole b ports) s := by
  apply Prog.translate_run
  intro op s
  cases op with
  | vgaPut c => exact vgaPutCode_run c s
  | charAt str i => rfl
  | vaArg ap => rfl
  | serialPut port a => rfl
  | serialDrain port => rfl
  | port op => rfl

theorem screenConsole_answers (b : Beyond) (ports : PortDevice σ) (op : ConsoleOp) (q : σ)
    (t : Screen σ) (h : t.ports = q) :
    (screenConsole b ports op t).1 = (consoleDevice b ports op q).1 ∧
      (screenConsole b ports op t).2.ports = (consoleDevice b ports op q).2 := by
  subst h
  cases op with
  | vgaPut c => exact ⟨rfl, rfl⟩
  | charAt str i => exact ⟨rfl, rfl⟩
  | vaArg ap => exact ⟨rfl, rfl⟩
  | serialPut port a => exact ⟨rfl, rfl⟩
  | serialDrain port => exact ⟨rfl, rfl⟩
  | port op => exact ⟨rfl, rfl⟩

theorem onScreen_returns {p : Nat → ConsoleM α} {a : α} {s : Screen σ} {q : σ}
    {tr : List (ConsoleEvent σ)}
    (h : Prog.Settles (consoleDevice b ports) p s.ports (.ok a q) tr) :
    ∃ t, Prog.Converges (screenDevice b ports) (fun n => onScreen (p n)) s a t := by
  obtain ⟨N, hN⟩ := h.replay (screenConsole_answers b ports) (t := s) rfl
  exact ⟨_, N, fun n hn => (onScreen_run (p n) s).trans (hN n hn)⟩

/-! ### Sessions -/

inductive ScreenCall where
  | put (c : BitVec 8)
  | writeStr (addr : BitVec 32) (str : CString) (given : addr ≠ 0)
  | writeNb (nb : BitVec 32) (base : BitVec 8) (low : 2 ≤ base.toNat) (high : base.toNat ≤ 16)
  | setcolor (fg bg : VgaColor)
  | clear

def ScreenCall.code (fuel : Nat) : ScreenCall → ScreenM Unit
  | .put c => vgaPutCode c
  | .writeStr addr str _ => onScreen (vgaWriteStr fuel { word := addr, str := str })
  | .writeNb nb base _ _ => onScreen (vgaWriteNb fuel nb base)
  | .setcolor fg bg => vgaSetcolorCode fg bg
  | .clear => vgaClearCode

def screenSession (fuel : Nat) : List ScreenCall → ScreenM Unit
  | [] => pure ()
  | call :: calls => do
    call.code fuel
    screenSession fuel calls

theorem ScreenCall.triple (call : ScreenCall) (n : Nat) :
    Prog.Triple (screenDevice b ports) Inside CursorOn (call.code n) fun _ => CursorOn := by
  cases call with
  | put c => exact (vgaPutCode_triple c).weaken (fun _ h => h.1) fun _ _ h => h
  | writeStr addr str given => exact onScreen_cursorOn _
  | writeNb nb base low high => exact onScreen_cursorOn _
  | setcolor fg bg => exact .perform fun s hs => ⟨trivial, hs⟩
  | clear =>
    apply triple_of_inside
    intro s _
    exact ⟨vgaClearCode_inside s, (), _, vgaClearCode_run s, vgaClear_cursorOn s⟩

theorem ScreenCall.returns (call : ScreenCall) (b : Beyond) (ports : PortDevice σ)
    (s : Screen σ) :
    ∃ t, Prog.Converges (screenDevice b ports) (fun n => call.code n) s () t := by
  cases call with
  | put c => exact ⟨_, .const (vgaPutCode_run c s)⟩
  | writeStr addr str given =>
    have hprints : Prints b ports (fun n => vgaWriteStr n ⟨addr, str⟩) s.ports (.ok () s.ports)
        (str.chars.map .vga) :=
      vgaWriteStr_prints given
    obtain ⟨tr, hset, -⟩ := hprints
    exact onScreen_returns hset
  | writeNb nb base low high =>
    have hprints : Prints b ports (fun n => vgaWriteNb n nb base) s.ports (.ok () s.ports)
        ((writtenDigits base.toNat nb.toNat).map .vga) :=
      vgaWriteNb_prints low high nb
    obtain ⟨tr, hset, -⟩ := hprints
    exact onScreen_returns hset
  | setcolor fg bg => exact ⟨_, .const (vgaSetcolorCode_run fg bg s)⟩
  | clear => exact ⟨_, .const (vgaClearCode_run s)⟩

theorem screenSession_triple (n : Nat) (calls : List ScreenCall) :
    Prog.Triple (screenDevice b ports) Inside CursorOn (screenSession n calls)
      fun _ => CursorOn := by
  induction calls with
  | nil => exact .pure fun _ h => h
  | cons call calls ih => exact (call.triple n).bind fun _ => ih

theorem screenSession_returns (b : Beyond) (ports : PortDevice σ) (calls : List ScreenCall)
    (s : Screen σ) :
    ∃ t, Prog.Converges (screenDevice b ports) (fun n => screenSession n calls) s () t := by
  induction calls generalizing s with
  | nil => exact ⟨s, .const rfl⟩
  | cons call calls ih =>
    obtain ⟨t, ht⟩ := call.returns b ports s
    obtain ⟨u, hu⟩ := ih t
    exact ⟨u, ht.bind hu⟩

theorem vgaInitCode_triple (n : Nat) (r : Rodata) (k : Klogger) :
    Prog.Triple (screenDevice b ports) Inside OnScreen (vgaInitCode n r k) fun _ => CursorOn := by
  apply Prog.Triple.bind (onScreen_triple (P := OnScreen) (fun _ h => h) (fun _ h => h.1)
    (fun _ _ h => h) _)
  intro _
  have hclear : Prog.Triple (screenDevice b ports) Inside OnScreen vgaClearCode
      fun _ => CursorOn :=
    triple_of_inside fun s _ =>
      ⟨vgaClearCode_inside s, (), _, vgaClearCode_run s, vgaClear_cursorOn s⟩
  exact hclear.bind fun _ => .perform fun s hs => ⟨trivial, hs⟩

theorem vgaInitCode_returns {values : CmosStream} (hclock : GivesMonths values) (b : Beyond)
    (r : Rodata) (k : Klogger) (s : Screen CmosChip) :
    ∃ t, Prog.Converges (screenDevice b (cmosDevice values)) (fun n => vgaInitCode n r k) s ()
      t := by
  have hfmt : FormatAccepted b.arg (.lit "Initializing VGA screen\n\r") [] :=
    ⟨by decide, trivial⟩
  have hcall : (KloggerCall.log .info (.lit "Initializing VGA screen\n\r") []).Accepted b.arg :=
    hfmt
  obtain ⟨rec, st, hcall, hnext⟩ := LoggerNext.returns hclock r hcall ⟨k, s.ports⟩
  cases hnext with
  | setLevel level => cases hcall
  | setOutput output => cases hcall
  | log hset =>
    cases hcall
    obtain ⟨t, ht⟩ := onScreen_returns hset
    exact ⟨_, ht.bind ((Prog.Converges.const (vgaClearCode_run t)).bind
      (.const (vgaSetcolorCode_run _ _ _)))⟩

/-- The screen at boot: `vga_data` is zero, and nothing is known of the hardware. -/
def bootScreen (mem : Memory) (crt : Crt) (q : σ) : Screen σ where
  vga := { data := { x := 0, y := 0, attr := 0 }, mem, crt }
  ports := q

/-- From boot, `vga_init` and every call after it access video memory inside its cells and leave
the cursor on the screen, where the CRT controller shows it. -/
theorem vga_sessions_inside (b : Beyond) (values : CmosStream) (r : Rodata) (k : Klogger)
    (mem : Memory) (crt : Crt) (chip : CmosChip) :
    (GivesMonths values → ∃ t, Prog.Converges (screenDevice b (cmosDevice values))
        (fun n => vgaInitCode n r k) (bootScreen mem crt chip) () t) ∧
      (∀ n, AccessesInside b (cmosDevice values) (vgaInitCode n r k)
        (bootScreen mem crt chip)) ∧
      ∀ n t, (vgaInitCode n r k).run (screenDevice b (cmosDevice values))
          (bootScreen mem crt chip) = .ok () t →
        CursorOn t ∧ ∀ calls,
          (∀ m, AccessesInside b (cmosDevice values) (screenSession m calls) t) ∧
            ∃ u, Prog.Converges (screenDevice b (cmosDevice values))
              (fun m => screenSession m calls) t () u ∧ CursorOn u := by
  have hboot : OnScreen (bootScreen mem crt chip) :=
    ⟨Nat.zero_lt_succ 79, Nat.zero_lt_succ 24⟩
  refine ⟨fun hclock => vgaInitCode_returns hclock b r k _,
    fun n => (vgaInitCode_triple n r k _ hboot).1, fun n t hrun => ?_⟩
  have ht := (vgaInitCode_triple n r k _ hboot).2 () t hrun
  refine ⟨ht, fun calls => ⟨fun m => (screenSession_triple m calls t ht).1, ?_⟩⟩
  obtain ⟨u, N, hN⟩ := screenSession_returns b (cmosDevice values) calls t
  exact ⟨u, ⟨N, hN⟩, (screenSession_triple N calls t ht).2 () u (hN N (Nat.le_refl N))⟩

end BordOS
