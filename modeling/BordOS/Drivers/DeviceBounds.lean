import BordOS.Drivers.Device

namespace BordOS
open Library
set_option autoImplicit true
set_option relaxedAutoImplicit false

/-- What an add must do: a descriptor that it copies goes to an entry of the table, and so does each
id that it returns as valid; it writes to no other place but the counter, and to neither if the
table is full. -/
structure AddInside (symbols : DeviceSymbols) (m : Memory) (copied : Option (BitVec 32))
    (id : BitVec 32) (m' : Memory) : Prop where
  index : ∀ a, copied = some a → ∃ i < maxDevice, a = deviceGet symbols (BitVec.ofNat 32 i)
  entry : id.msb = false →
    ∃ i < maxDevice, deviceGet symbols id = deviceGet symbols (BitVec.ofNat 32 i)
  writes : ∀ a, ¬ symbols.InTable a → ¬ symbols.InCounter a → m' a = m a
  full : (deviceGetNb symbols m).toNat = maxDevice →
    (∀ a, symbols.InTable a → m' a = m a) ∧ deviceGetNb symbols m' = deviceGetNb symbols m

/-- `device_add` copies to `&devices[device_last_id]` always. -/
def DeviceInside (symbols : DeviceSymbols) (step : Step (DeviceState σ) DeviceCall) : Prop :=
  match step.label with
  | .add _ id =>
    AddInside symbols step.pre.mem (some (deviceSlot symbols step.pre.mem)) id step.post.mem
  | _ => True

def addsOf : List (Step (DeviceState σ) DeviceCall) → Nat
  | [] => 0
  | step :: l =>
    match step.label with
    | .add _ _ => addsOf l + 1
    | _ => addsOf l

variable {symbols : DeviceSymbols} {m : Memory} {dev : BitVec 32} {k : Nat}

theorem entry_outside (hk : k < maxDevice) {a : BitVec 32} (ha : ¬ symbols.InTable a) :
    28 ≤ (a - (symbols.devices + deviceSize * BitVec.ofNat 32 k)).toNat := by
  have hentry : (deviceSize * BitVec.ofNat 32 k).toNat = 28 * k := by
    simp only [maxDevice, deviceSize] at *
    bv_omega
  simp only [DeviceSymbols.InTable, maxDevice] at ha hk
  have hle : deviceSize * BitVec.ofNat 32 k ≤ a - symbols.devices := by
    rw [BitVec.le_def, hentry]
    omega
  rw [← BitVec.sub_sub, BitVec.toNat_sub_of_le hle, hentry]
  omega

theorem counter_outside {a : BitVec 32} (ha : symbols.InCounter a) : ¬ symbols.InTable a := by
  have hapart := symbols.apart
  have hapart' := symbols.apart'
  simp only [DeviceSymbols.InCounter, DeviceSymbols.InTable, maxDevice] at *
  bv_omega

theorem getNb_congr {m' : Memory} (h : ∀ a, symbols.InCounter a → m' a = m a) :
    deviceGetNb symbols m' = deviceGetNb symbols m := by
  apply Memory.load32_congr
  intro i hi
  apply h
  rw [DeviceSymbols.InCounter]
  bv_omega

theorem deviceSlot_eq (hnb : deviceGetNb symbols m = BitVec.ofNat 32 k) :
    deviceSlot symbols m = deviceGet symbols (BitVec.ofNat 32 k) :=
  congrArg (symbols.devices + deviceSize * ·) hnb

theorem deviceCopied_outside (hnb : deviceGetNb symbols m = BitVec.ofNat 32 k)
    (hk : k < maxDevice) {a : BitVec 32} (htable : ¬ symbols.InTable a) :
    m.copyUp (deviceSlot symbols m) dev 28 a = m a := by
  apply Memory.copyUp_outside
  rw [deviceSlot_eq hnb]
  exact entry_outside hk htable

theorem deviceAdded_outside (hnb : deviceGetNb symbols m = BitVec.ofNat 32 k)
    (hk : k < maxDevice) {a : BitVec 32} (htable : ¬ symbols.InTable a)
    (hcounter : ¬ symbols.InCounter a) : deviceAdded symbols m dev a = m a := by
  rw [deviceAdded, Memory.store32_outside _ (Nat.le_of_not_lt hcounter)]
  exact deviceCopied_outside hnb hk htable

theorem deviceAdded_getNb (hnb : deviceGetNb symbols m = BitVec.ofNat 32 k)
    (hk : k < maxDevice) :
    deviceGetNb symbols (deviceAdded symbols m dev) = BitVec.ofNat 32 (k + 1) := by
  have hkept := @getNb_congr symbols m _ fun a ha =>
    @deviceCopied_outside symbols m dev k hnb hk a (counter_outside ha)
  rw [deviceGetNb] at hkept
  rw [deviceGetNb, deviceAdded, Memory.load32_store32_same, hkept, hnb]
  bv_omega

theorem deviceAdded_inside (hnb : deviceGetNb symbols m = BitVec.ofNat 32 k)
    (hk : k < maxDevice) :
    AddInside symbols m (some (deviceSlot symbols m))
      (deviceGetNb symbols (deviceAdded symbols m dev) - 1) (deviceAdded symbols m dev) := by
  have hid : deviceGetNb symbols (deviceAdded symbols m dev) - 1 = BitVec.ofNat 32 k := by
    rw [deviceAdded_getNb hnb hk]
    bv_omega
  refine ⟨?_, fun _ => ⟨k, hk, by rw [hid]⟩, fun a => deviceAdded_outside hnb hk, ?_⟩
  · rintro a ⟨⟩
    exact ⟨k, hk, deviceSlot_eq hnb⟩
  · intro hfull
    rw [hnb] at hfull
    simp only [maxDevice] at hk hfull
    bv_omega

theorem not_inside_of_full {id : BitVec 32} {m' : Memory}
    (hnb : deviceGetNb symbols m = BitVec.ofNat 32 maxDevice) :
    ¬ AddInside symbols m (some (deviceSlot symbols m)) id m' := by
  intro h
  obtain ⟨i, hi, hslot⟩ := h.index _ rfl
  rw [deviceSlot_eq hnb] at hslot
  simp only [deviceGet, deviceSize, maxDevice] at hi hslot
  bv_omega

variable {b : Beyond} {r : Rodata} {ports : PortDevice σ}

/-- Up to the first add on a full table the counter counts the adds. -/
theorem device_run_inside_iff {st st' : DeviceState σ}
    {l : List (Step (DeviceState σ) DeviceCall)} (h : Run (DeviceNext b r ports symbols) st l st')
    (hk : k ≤ maxDevice) (hnb : deviceGetNb symbols st.mem = BitVec.ofNat 32 k) :
    (∀ step ∈ l, DeviceInside symbols step) ↔ k + addsOf l ≤ maxDevice := by
  induction h generalizing k with
  | nil => exact ⟨fun _ => hk, fun _ _ hs => absurd hs List.not_mem_nil⟩
  | @cons st t u call l hn hr ih =>
    rw [List.forall_mem_cons]
    cases hn with
    | @add dev id m w tr hset =>
      obtain ⟨rfl, rfl⟩ := deviceAdd_run hset
      rcases Nat.lt_or_eq_of_le hk with hlt | rfl
      · have hinside := @deviceAdded_inside symbols st.mem dev k hnb hlt
        have hrest := ih hlt (deviceAdded_getNb hnb hlt)
        rw [Nat.succ_add_eq_add_succ] at hrest
        exact ⟨fun hall => hrest.mp hall.2, fun hcount => ⟨hinside, hrest.mpr hcount⟩⟩
      · constructor
        · intro hall
          exact absurd hall.1 (not_inside_of_full hnb)
        · intro hcount
          simp only [addsOf] at hcount
          omega
    | getNb => exact (iff_of_eq (true_and _)).trans (ih hk hnb)
    | get id => exact (iff_of_eq (true_and _)).trans (ih hk hnb)
    | other hother =>
      have hkept := getNb_congr fun a ha => hother a (.inr ha)
      exact (iff_of_eq (true_and _)).trans (ih hk (hkept.trans hnb))

/-- Runs from the start, where the counter is 0 and the table is empty or not. All adds stay inside
the table exactly when there are `MAX_DEVICE` of them at most. -/
theorem device_table_inside_iff (b : Beyond) (r : Rodata) (ports : PortDevice σ)
    (symbols : DeviceSymbols) {st st' : DeviceState σ} (hboot : deviceGetNb symbols st.mem = 0)
    {l : List (Step (DeviceState σ) DeviceCall)}
    (h : Run (DeviceNext b r ports symbols) st l st') :
    (∀ step ∈ l, DeviceInside symbols step) ↔ addsOf l ≤ maxDevice := by
  rw [device_run_inside_iff h (Nat.zero_le _) hboot, Nat.zero_add]

theorem addsOf_append (l l' : List (Step (DeviceState σ) DeviceCall)) :
    addsOf (l ++ l') = addsOf l + addsOf l' := by
  induction l with
  | nil => exact (Nat.zero_add _).symm
  | cons step l ih =>
    obtain ⟨s, call, t⟩ := step
    cases call with
    | add dev id =>
      simp only [List.cons_append, addsOf, ih]
      omega
    | _ => exact ih

theorem deviceAdded_load32 (hnb : deviceGetNb symbols m = BitVec.ofNat 32 k) (hk : k < maxDevice)
    {a : BitVec 32}
    (hapart : ∀ i < 4, ¬ symbols.InTable (a + i) ∧ ¬ symbols.InCounter (a + i)) :
    (deviceAdded symbols m dev).load32 a = m.load32 a := by
  apply Memory.load32_congr
  intro i hi
  exact deviceAdded_outside hnb hk (hapart i hi).1 (hapart i hi).2

theorem deviceAdd_next {values : CmosStream} (hclock : GivesMonths values)
    {st : DeviceState CmosChip} (hdev : dev ≠ 0)
    (hname : st.mem.load32 dev ≠ 0 ∨ ¬ st.klogger.Sends .info)
    (hnb : deviceGetNb symbols st.mem = BitVec.ofNat 32 k) (hk : k < maxDevice) :
    ∃ c', DeviceNext b r (cmosDevice values) symbols st (.add dev (BitVec.ofNat 32 k))
      ⟨deviceAdded symbols st.mem dev, st.klogger, c'⟩ := by
  obtain ⟨c', tr, hset⟩ := @deviceAdd_returns symbols b values hclock r st.klogger st.mem dev
    hdev hname st.world
  have hid : deviceGetNb symbols (deviceAdded symbols st.mem dev) - 1 = BitVec.ofNat 32 k := by
    rw [deviceAdded_getNb hnb hk]
    bv_omega
  rw [hid] at hset
  exact ⟨c', .add hset⟩

theorem device_adds_exist {values : CmosStream} (hclock : GivesMonths values) (hdev : dev ≠ 0)
    (hapart : ∀ i < 4, ¬ symbols.InTable (dev + i) ∧ ¬ symbols.InCounter (dev + i))
    {name : BitVec 32} (hnamed : name ≠ 0) {st : DeviceState CmosChip}
    (hname : st.mem.load32 dev = name) (hnb : deviceGetNb symbols st.mem = BitVec.ofNat 32 k)
    {n : Nat} (hn : k + n ≤ maxDevice) :
    ∃ l st', Run (DeviceNext b r (cmosDevice values) symbols) st l st' ∧ addsOf l = n ∧
      st'.mem.load32 dev = name ∧ deviceGetNb symbols st'.mem = BitVec.ofNat 32 (k + n) := by
  induction n generalizing k st with
  | zero => exact ⟨[], st, .nil st, rfl, hname, hnb⟩
  | succ n ih =>
    have hk : k < maxDevice := by omega
    have hstr : st.mem.load32 dev ≠ 0 := by
      rw [hname]
      exact hnamed
    obtain ⟨c', hadd⟩ := @deviceAdd_next symbols dev k b r _ hclock st hdev (.inl hstr) hnb hk
    have hsame : (deviceAdded symbols st.mem dev).load32 dev = st.mem.load32 dev :=
      deviceAdded_load32 hnb hk hapart
    obtain ⟨l, st', hl, hadds, hkept, hcount⟩ := @ih (k + 1) ⟨_, st.klogger, c'⟩
      (hsame.trans hname) (deviceAdded_getNb hnb hk) (by omega)
    rw [Nat.succ_add_eq_add_succ] at hcount
    exact ⟨_, st', .cons hadd hl, congrArg (· + 1) hadds, hkept, hcount⟩

/-- The counter directly follows the table. -/
def tableThenCounter : DeviceSymbols where
  devices := 0x200000
  deviceLastId := 0x200700
  table_fits := by decide
  apart := by decide
  apart' := by decide

/-- A descriptor at 0x1000 whose name is at 0x2000. -/
def oneDescriptor : Memory := Memory.store32 (fun _ => 0) 0x1000 0x2000

theorem december_months : GivesMonths (monthClock 0x12) := monthClock_months (.inr (by decide))

theorem oneDescriptor_adds {n : Nat} (hn : n ≤ maxDevice) :
    ∃ l st', Run (DeviceNext zerosBeyond rodataAt (cmosDevice (monthClock 0x12)) tableThenCounter)
        ⟨oneDescriptor, gKlogger, { index := 0, reads := 0 }⟩ l st' ∧ addsOf l = n ∧
      st'.mem.load32 0x1000 = 0x2000 ∧
      deviceGetNb tableThenCounter st'.mem = BitVec.ofNat 32 n := by
  have hapart (i : BitVec 32) (hi : i < 4) : ¬ tableThenCounter.InTable (0x1000 + i) ∧
      ¬ tableThenCounter.InCounter (0x1000 + i) := by
    simp only [DeviceSymbols.InTable, DeviceSymbols.InCounter, tableThenCounter, maxDevice]
    constructor <;> bv_omega
  have hadds := @device_adds_exist tableThenCounter 0x1000 0 zerosBeyond rodataAt _
    december_months (by decide) hapart 0x2000 (by decide)
    ⟨oneDescriptor, gKlogger, { index := 0, reads := 0 }⟩ (by decide) (by decide) n
  rw [Nat.zero_add] at hadds
  exact hadds hn

theorem device_table_inside_one :
    ∃ l st', Run (DeviceNext zerosBeyond rodataAt (cmosDevice (monthClock 0x12)) tableThenCounter)
        ⟨oneDescriptor, gKlogger, { index := 0, reads := 0 }⟩ l st' ∧ addsOf l = 1 ∧
      ((∀ step ∈ l, DeviceInside tableThenCounter step) ↔ addsOf l ≤ maxDevice) := by
  obtain ⟨l, st', hl, hadds, -⟩ := oneDescriptor_adds (n := 1) (by decide)
  exact ⟨l, st', hl, hadds, device_table_inside_iff zerosBeyond rodataAt
    (cmosDevice (monthClock 0x12)) tableThenCounter (by decide) hl⟩

/-- Behind the table the name of the descriptor takes the place of the counter. -/
theorem tableThenCounter_overwritten {m : Memory}
    (hnb : deviceGetNb tableThenCounter m = BitVec.ofNat 32 maxDevice) :
    deviceGetNb tableThenCounter (deviceAdded tableThenCounter m 0x1000) =
      m.load32 0x1000 + 1 := by
  have hcopy := @Memory.load32_copyUp m 0x200700 0x1000 28 (by decide) (by decide)
  rw [deviceGetNb, deviceAdded, Memory.load32_store32_same, deviceSlot_eq hnb]
  exact congrArg (· + 1) hcopy

/-- The add after the table is full writes on, here over the counter. -/
theorem device_table_overrun :
    ∃ l st', Run (DeviceNext zerosBeyond rodataAt (cmosDevice (monthClock 0x12)) tableThenCounter)
        ⟨oneDescriptor, gKlogger, { index := 0, reads := 0 }⟩ l st' ∧ addsOf l = 65 ∧
      (¬ ∀ step ∈ l, DeviceInside tableThenCounter step) ∧
      deviceGetNb tableThenCounter st'.mem = 0x2001 := by
  obtain ⟨l, st, hl, hadds, hname, hnb⟩ := oneDescriptor_adds (n := maxDevice) (Nat.le_refl _)
  have hnamed : st.mem.load32 0x1000 ≠ 0 := by
    rw [hname]
    decide
  obtain ⟨c', tr, hset⟩ := @deviceAdd_returns tableThenCounter zerosBeyond _
    december_months rodataAt st.klogger st.mem 0x1000 (by decide) (.inl hnamed)
    st.world
  have hlast := hl.append (.cons (.add hset) (.nil _))
  refine ⟨_, _, hlast, (addsOf_append _ _).trans (congrArg (· + 1) hadds), ?_, ?_⟩
  · intro hall
    exact not_inside_of_full hnb (hall _ (List.mem_append_right _ (.head _)))
  · rw [tableThenCounter_overwritten hnb, hname]
    rfl

end BordOS
