import BordOS.Drivers.DeviceBounds

namespace BordOS
open Library
set_option autoImplicit true
set_option relaxedAutoImplicit false

/-! ### Descriptors -/

/-- A `struct device_t`. Its pointers are words. -/
structure DeviceT where
  name : BitVec 32
  uniqueId : BitVec 32
  devType : BitVec 32
  fs : BitVec 32
  read : BitVec 32
  write : BitVec 32
  priv : BitVec 32
deriving DecidableEq

def Library.Memory.deviceT (m : Memory) (a : BitVec 32) : DeviceT where
  name := m.load32 a
  uniqueId := m.load32 (a + 4)
  devType := m.load32 (a + 8)
  fs := m.load32 (a + 12)
  read := m.load32 (a + 16)
  write := m.load32 (a + 20)
  priv := m.load32 (a + 24)

theorem Library.Memory.deviceT_congr {m m' : Memory} {a b : BitVec 32}
    (h : ∀ i < 28, m (a + i) = m' (b + i)) : m.deviceT a = m'.deviceT b := by
  have hfield (o : BitVec 32) (ho : o.toNat + 4 ≤ 28) : m.load32 (a + o) = m'.load32 (b + o) := by
    apply Memory.load32_congr
    intro i hi
    rw [BitVec.add_assoc, BitVec.add_assoc]
    apply h
    bv_omega
  have hname : m.load32 a = m'.load32 b := Memory.load32_congr fun i hi => h i (by bv_omega)
  rw [deviceT, deviceT, hname, hfield 4 (by decide), hfield 8 (by decide), hfield 12 (by decide),
    hfield 16 (by decide), hfield 20 (by decide), hfield 24 (by decide)]

variable {symbols : DeviceSymbols} {m m' : Memory} {dev : BitVec 32} {k j : Nat}

/-- A `struct device_t` of the kernel: it lies outside the table or is one of its entries. -/
def DeviceSymbols.IsObject (symbols : DeviceSymbols) (dev : BitVec 32) : Prop :=
  (∀ i < 28, ¬ symbols.InTable (dev + i)) ∨
    ∃ j < maxDevice, dev = deviceGet symbols (BitVec.ofNat 32 j)

/-! ### Entries -/

theorem entry_offset (hj : j < maxDevice) {i : BitVec 32} (hi : i < 28) :
    (deviceGet symbols (BitVec.ofNat 32 j) + i - symbols.devices).toNat = 28 * j + i.toNat := by
  simp only [maxDevice] at hj
  simp only [deviceGet, deviceSize]
  bv_omega

theorem entry_inTable (hj : j < maxDevice) {i : BitVec 32} (hi : i < 28) :
    symbols.InTable (deviceGet symbols (BitVec.ofNat 32 j) + i) := by
  rw [DeviceSymbols.InTable, entry_offset hj hi]
  simp only [maxDevice] at *
  bv_omega

theorem entry_distance (hj : j < maxDevice) (hk : k < maxDevice) {i : BitVec 32} (hi : i < 28) :
    (deviceGet symbols (BitVec.ofNat 32 j) + i -
      deviceGet symbols (BitVec.ofNat 32 k)).toNat =
      (2 ^ 32 - 28 * k + (28 * j + i.toNat)) % 2 ^ 32 := by
  have hentry : (deviceSize * BitVec.ofNat 32 k).toNat = 28 * k := by
    simp only [maxDevice, deviceSize] at *
    bv_omega
  have hsub : deviceGet symbols (BitVec.ofNat 32 j) + i - deviceGet symbols (BitVec.ofNat 32 k) =
      deviceGet symbols (BitVec.ofNat 32 j) + i - symbols.devices -
        deviceSize * BitVec.ofNat 32 k :=
    (BitVec.sub_sub _ _ _).symm
  rw [hsub, BitVec.toNat_sub, hentry, entry_offset hj hi]

theorem entry_distance_of_le (hkj : k ≤ j) (hj : j < maxDevice) {i : BitVec 32} (hi : i < 28) :
    (deviceGet symbols (BitVec.ofNat 32 j) + i -
      deviceGet symbols (BitVec.ofNat 32 k)).toNat = 28 * (j - k) + i.toNat := by
  have hlt : i.toNat < 28 := hi
  rw [entry_distance hj (Nat.lt_of_le_of_lt hkj hj) hi]
  simp only [maxDevice] at hj
  have hsum : 2 ^ 32 - 28 * k + (28 * j + i.toNat) = 28 * (j - k) + i.toNat + 2 ^ 32 := by
    omega
  rw [hsum, Nat.add_mod_right]
  exact Nat.mod_eq_of_lt (by omega)

theorem entry_distance_of_lt (hjk : j < k) (hk : k < maxDevice) {i : BitVec 32} (hi : i < 28) :
    (deviceGet symbols (BitVec.ofNat 32 j) + i -
      deviceGet symbols (BitVec.ofNat 32 k)).toNat = 2 ^ 32 - 28 * (k - j) + i.toNat := by
  have hlt : i.toNat < 28 := hi
  rw [entry_distance (Nat.lt_trans hjk hk) hk hi]
  simp only [maxDevice] at hk
  rw [Nat.mod_eq_of_lt (by omega)]
  omega

theorem entry_apart (hjk : j < k) (hk : k < maxDevice) {i : BitVec 32} (hi : i < 28) :
    28 ≤ (deviceGet symbols (BitVec.ofNat 32 j) + i -
      deviceGet symbols (BitVec.ofNat 32 k)).toNat := by
  rw [entry_distance_of_lt hjk hk hi]
  simp only [maxDevice] at hk
  omega

/-- A descriptor does not run into an entry behind its start. -/
theorem DeviceSymbols.IsObject.ahead (h : symbols.IsObject dev) (hk : k < maxDevice) :
    (dev - deviceGet symbols (BitVec.ofNat 32 k)).toNat + 28 ≤ 2 ^ 32 := by
  rcases h with houtside | ⟨j, hj, rfl⟩
  · by_contra hrun
    have hinside : symbols.InTable (deviceGet symbols (BitVec.ofNat 32 k) + 0#32) :=
      entry_inTable hk (by decide)
    apply houtside (deviceGet symbols (BitVec.ofNat 32 k) - dev)
    · bv_omega
    · rw [BitVec.add_comm, BitVec.sub_add_cancel]
      rw [BitVec.add_zero] at hinside
      exact hinside
  · have hstart : (deviceGet symbols (BitVec.ofNat 32 j)) =
        deviceGet symbols (BitVec.ofNat 32 j) + 0#32 := (BitVec.add_zero _).symm
    rw [hstart]
    rcases Nat.lt_or_ge j k with hbefore | hbehind
    · rw [entry_distance_of_lt hbefore hk (by decide), BitVec.toNat_zero]
      simp only [maxDevice] at hk
      omega
    · rw [entry_distance_of_le hbehind hj (by decide), BitVec.toNat_zero]
      simp only [maxDevice] at hj
      omega

/-! ### One add -/

theorem deviceAdded_entry (hnb : deviceGetNb symbols m = BitVec.ofNat 32 k) (hk : k < maxDevice)
    (hdev : symbols.IsObject dev) :
    (deviceAdded symbols m dev).deviceT (deviceGet symbols (BitVec.ofNat 32 k)) =
      m.deviceT dev := by
  apply Memory.deviceT_congr
  intro i hi
  have hcounter : ¬ symbols.InCounter (deviceGet symbols (BitVec.ofNat 32 k) + i) :=
    fun h => counter_outside h (entry_inTable hk hi)
  have hoff : deviceGet symbols (BitVec.ofNat 32 k) + i - deviceGet symbols (BitVec.ofNat 32 k) =
      i := by
    rw [BitVec.add_comm, BitVec.add_sub_cancel]
  have hlt : i.toNat < 28 := hi
  rw [deviceAdded, Memory.store32_outside _ (Nat.le_of_not_lt hcounter), deviceSlot_eq hnb]
  rw [Memory.copyUp_apply (hdev.ahead hk), hoff, if_pos hlt]

theorem deviceAdded_kept (hnb : deviceGetNb symbols m = BitVec.ofNat 32 k) (hk : k < maxDevice)
    (hj : j < k) :
    (deviceAdded symbols m dev).deviceT (deviceGet symbols (BitVec.ofNat 32 j)) =
      m.deviceT (deviceGet symbols (BitVec.ofNat 32 j)) := by
  have hj' : j < maxDevice := Nat.lt_trans hj hk
  apply Memory.deviceT_congr
  intro i hi
  have hcounter : ¬ symbols.InCounter (deviceGet symbols (BitVec.ofNat 32 j) + i) :=
    fun h => counter_outside h (entry_inTable hj' hi)
  rw [deviceAdded, Memory.store32_outside _ (Nat.le_of_not_lt hcounter), deviceSlot_eq hnb]
  exact Memory.copyUp_outside (entry_apart hj hk hi)

/-! ### A registry

What the device layer is for: a list of descriptors that only grows. -/

/-- The table holds these descriptors under their ids, and the counter counts them. -/
structure Registered (symbols : DeviceSymbols) (ds : List DeviceT) (m : Memory) : Prop where
  count : deviceGetNb symbols m = BitVec.ofNat 32 ds.length
  entry : ∀ i d, ds[i]? = some d → m.deviceT (deviceGet symbols (BitVec.ofNat 32 i)) = d

/-- What a call has to answer when these descriptors were added. The fields of a descriptor are
those at the address that `device_get` returns. -/
def DeviceCall.Answers (ds : List DeviceT) (m : Memory) : DeviceCall → Prop
  | .add _ id => id = BitVec.ofNat 32 ds.length
  | .getNb nb => nb = BitVec.ofNat 32 ds.length
  | .get id addr => ∀ d, ds[id.toNat]? = some d → m.deviceT addr = d
  | .other => True

def DeviceCall.descriptors (m : Memory) : DeviceCall → List DeviceT
  | .add dev _ => [m.deviceT dev]
  | .getNb _ | .get _ _ | .other => []

/-- The descriptors that a run added, as they were at the time. -/
def registered (l : List (Step (DeviceState σ) DeviceCall)) : List DeviceT :=
  l.flatMap fun step => step.label.descriptors step.pre.mem

def DeviceCall.AddsObject (symbols : DeviceSymbols) : DeviceCall → Prop
  | .add dev _ => symbols.IsObject dev
  | _ => True

variable {ds : List DeviceT}

theorem registered_nil (hboot : deviceGetNb symbols m = 0) : Registered symbols [] m where
  count := hboot
  entry i d h := by
    rw [List.getElem?_nil] at h
    cases h

theorem Registered.congr (h : Registered symbols ds m) (hlength : ds.length ≤ maxDevice)
    (heq : ∀ a, symbols.InTable a ∨ symbols.InCounter a → m' a = m a) :
    Registered symbols ds m' where
  count := (getNb_congr fun a ha => heq a (.inr ha)).trans h.count
  entry i d hd := by
    rw [← h.entry i d hd]
    obtain ⟨hi, -⟩ := List.getElem?_eq_some_iff.mp hd
    apply Memory.deviceT_congr
    intro o ho
    exact heq _ (.inl (entry_inTable (Nat.lt_of_lt_of_le hi hlength) ho))

theorem Registered.add (h : Registered symbols ds m) (hlength : ds.length < maxDevice)
    (hdev : symbols.IsObject dev) :
    Registered symbols (ds ++ [m.deviceT dev]) (deviceAdded symbols m dev) where
  count := by
    rw [deviceAdded_getNb h.count hlength, List.length_append]
    rfl
  entry i d hd := by
    rcases Nat.lt_or_ge i ds.length with hi | hi
    · rw [List.getElem?_append_left hi] at hd
      rw [deviceAdded_kept h.count hlength hi]
      exact h.entry i d hd
    · rw [List.getElem?_append_right hi] at hd
      obtain ⟨hlast, -⟩ := List.getElem?_eq_some_iff.mp hd
      rw [List.length_singleton] at hlast
      have hindex : i = ds.length := by omega
      rw [hindex, Nat.sub_self] at hd
      cases hd
      rw [hindex]
      exact deviceAdded_entry h.count hlength hdev

/-! ### Runs -/

variable {b : Beyond} {r : Rodata} {ports : PortDevice σ}

/-- The step lemma: the calls of the device layer are those of a registry. -/
theorem DeviceNext.registers {st st' : DeviceState σ} {call : DeviceCall}
    (h : DeviceNext b r ports symbols st call st') (hds : Registered symbols ds st.mem)
    (hlength : (ds ++ call.descriptors st.mem).length ≤ maxDevice)
    (hobject : call.AddsObject symbols) :
    call.Answers ds st.mem ∧ Registered symbols (ds ++ call.descriptors st.mem) st'.mem := by
  cases h with
  | @add dev id m w tr hset =>
    obtain ⟨rfl, rfl⟩ := deviceAdd_run hset
    have hlt : ds.length < maxDevice := by
      rw [List.length_append] at hlength
      exact hlength
    refine ⟨?_, hds.add hlt hobject⟩
    rw [DeviceCall.Answers, deviceAdded_getNb hds.count hlt]
    bv_omega
  | getNb =>
    rw [DeviceCall.descriptors, List.append_nil]
    exact ⟨hds.count, hds⟩
  | get id =>
    rw [DeviceCall.descriptors, List.append_nil]
    refine ⟨?_, hds⟩
    intro d hd
    have hentry := hds.entry id.toNat d hd
    rw [BitVec.ofNat_toNat, BitVec.setWidth_eq] at hentry
    exact hentry
  | other heq =>
    rw [DeviceCall.descriptors, List.append_nil] at hlength ⊢
    exact ⟨trivial, hds.congr hlength heq⟩

theorem registered_append (l l' : List (Step (DeviceState σ) DeviceCall)) :
    registered (l ++ l') = registered l ++ registered l' :=
  List.flatMap_append

theorem registered_length (l : List (Step (DeviceState σ) DeviceCall)) :
    (registered l).length = addsOf l := by
  induction l with
  | nil => rfl
  | cons step l ih =>
    obtain ⟨s, call, t⟩ := step
    cases call with
    | add dev id => exact congrArg (· + 1) ih
    | _ => exact ih

theorem device_run_registered {st st' : DeviceState σ}
    {l : List (Step (DeviceState σ) DeviceCall)} (h : Run (DeviceNext b r ports symbols) st l st')
    (hds : Registered symbols ds st.mem) (hlength : (ds ++ registered l).length ≤ maxDevice)
    (hobjects : ∀ step ∈ l, step.label.AddsObject symbols) :
    Registered symbols (ds ++ registered l) st'.mem := by
  induction h generalizing ds with
  | nil =>
    rw [registered, List.flatMap_nil, List.append_nil]
    exact hds
  | @cons st t u call l hn hr ih =>
    have hcons : ds ++ registered (⟨st, call, t⟩ :: l) =
        ds ++ call.descriptors st.mem ++ registered l := by
      rw [List.append_assoc, registered, List.flatMap_cons]
      rfl
    rw [hcons] at hlength ⊢
    rw [List.forall_mem_cons] at hobjects
    have hfirst : (ds ++ call.descriptors st.mem).length ≤ maxDevice := by
      rw [List.length_append] at hlength
      omega
    exact ih (hn.registers hds hfirst hobjects.1).2 hlength hobjects.2

/-- No device of a run is lost: every call answers from the descriptors that were added before it,
the table ends up with all of them, and a next add returns. -/
structure KeepsDevices (b : Beyond) (r : Rodata) (values : CmosStream) (symbols : DeviceSymbols)
    (l : List (Step (DeviceState CmosChip) DeviceCall)) (st' : DeviceState CmosChip) : Prop where
  answers : ∀ before step after, l = before ++ step :: after →
    step.label.Answers (registered before) step.pre.mem
  kept : Registered symbols (registered l) st'.mem
  adds : addsOf l < maxDevice → ∀ dev, dev ≠ 0 →
    (st'.mem.load32 dev ≠ 0 ∨ ¬ st'.klogger.Sends .info) →
      ∃ st'', DeviceNext b r (cmosDevice values) symbols st'
        (.add dev (BitVec.ofNat 32 (addsOf l))) st''

/-- Up to `MAX_DEVICE` adds the device layer is a registry. The name of a descriptor may be null if
its report is sent nowhere. -/
theorem device_registrations_kept (b : Beyond) (r : Rodata) (values : CmosStream)
    (hclock : GivesMonths values) (symbols : DeviceSymbols) {st st' : DeviceState CmosChip}
    (hboot : deviceGetNb symbols st.mem = 0) {l : List (Step (DeviceState CmosChip) DeviceCall)}
    (h : Run (DeviceNext b r (cmosDevice values) symbols) st l st') (hadds : addsOf l ≤ maxDevice)
    (hobjects : ∀ step ∈ l, step.label.AddsObject symbols) :
    KeepsDevices b r values symbols l st' := by
  have hstart := registered_nil hboot
  have hkept : Registered symbols (registered l) st'.mem := by
    apply device_run_registered h hstart _ hobjects
    rw [List.nil_append, registered_length]
    exact hadds
  refine ⟨?_, hkept, ?_⟩
  · rintro before step after rfl
    obtain ⟨hbefore, hstep, -⟩ := h.split
    have hlength :
        (registered before ++ step.label.descriptors step.pre.mem).length ≤ maxDevice := by
      have hlast : registered before ++ step.label.descriptors step.pre.mem =
          registered (before ++ [step]) := by
        rw [registered_append, registered, registered, List.flatMap_singleton]
      rw [List.append_cons, addsOf_append] at hadds
      rw [hlast, registered_length]
      omega
    have hds : Registered symbols (registered before) step.pre.mem := by
      apply device_run_registered hbefore hstart
      · rw [List.length_append] at hlength
        rw [List.nil_append]
        omega
      · intro x hx
        exact hobjects x (List.mem_append_left _ hx)
    have hobject := hobjects step (List.mem_append_right _ (.head _))
    exact (hstep.registers hds hlength hobject).1
  · intro hroom dev hdev hname
    have hcount := hkept.count
    rw [registered_length] at hcount
    obtain ⟨c', hadd⟩ := deviceAdd_next hclock hdev hname hcount hroom
    exact ⟨_, hadd⟩

theorem lowDescriptor_object {dev : BitVec 32} (h : dev < 0x200000 - 28) :
    tableThenCounter.IsObject dev := by
  left
  intro i hi
  simp only [DeviceSymbols.InTable, tableThenCounter, maxDevice]
  bv_omega

theorem lowWord_apart {a : BitVec 32} (h : a < 0x200000 - 4) :
    ∀ i < 4, ¬ tableThenCounter.InTable (a + i) ∧ ¬ tableThenCounter.InCounter (a + i) := by
  intro i hi
  simp only [DeviceSymbols.InTable, DeviceSymbols.InCounter, tableThenCounter, maxDevice]
  constructor <;> bv_omega

/-- The descriptor of before and one at 0x1100 whose name is at 0x3000. -/
def twoDescriptors : Memory := oneDescriptor.store32 0x1100 0x3000

/-- Between the adds the caller overwrites its copy of the first descriptor and looks it up. -/
theorem device_registrations_kept_two :
    ∃ l st', Run (DeviceNext zerosBeyond rodataAt (cmosDevice (monthClock 0x12)) tableThenCounter)
        ⟨twoDescriptors, gKlogger, { index := 0, reads := 0 }⟩ l st' ∧
      l.map Step.label = [.add 0x1000 0, .other, .get 0 0x200000, .add 0x1100 1, .getNb 2] ∧
      st'.mem.load32 0x1000 = 0x4444 ∧ (registered l).map DeviceT.name = [0x2000, 0x3000] ∧
      KeepsDevices zerosBeyond rodataAt (monthClock 0x12) tableThenCounter l st' := by
  have hboot : deviceGetNb tableThenCounter twoDescriptors = BitVec.ofNat 32 0 := by decide
  have hname : twoDescriptors.load32 0x1000 ≠ 0 := by decide
  obtain ⟨c, hfirst⟩ := @deviceAdd_next tableThenCounter 0x1000 0 zerosBeyond rodataAt _
    december_months ⟨twoDescriptors, gKlogger, { index := 0, reads := 0 }⟩ (by decide)
    (.inl hname) hboot (by decide)
  -- The memory between the adds.
  let m := (deviceAdded tableThenCounter twoDescriptors 0x1000).store32 0x1000 0x4444
  have hothers : ∀ a, tableThenCounter.InTable a ∨ tableThenCounter.InCounter a →
      m a = deviceAdded tableThenCounter twoDescriptors 0x1000 a := by
    intro a ha
    apply Memory.store32_outside
    simp only [DeviceSymbols.InTable, DeviceSymbols.InCounter, tableThenCounter, maxDevice] at ha
    bv_omega
  have hnb : deviceGetNb tableThenCounter m = BitVec.ofNat 32 1 :=
    (getNb_congr fun a ha => hothers a (.inr ha)).trans (deviceAdded_getNb hboot (by decide))
  have hwritten : m.load32 0x1000 = 0x4444 := by
    rw [Memory.load32_store32_same]
  have hname' : m.load32 0x1100 = 0x3000 := by
    rw [Memory.load32_store32_other _ (by decide) (by decide),
      deviceAdded_load32 hboot (by decide) (lowWord_apart (by decide))]
    decide
  have hnamed : m.load32 0x1100 ≠ 0 := by
    rw [hname']
    decide
  obtain ⟨c', hsecond⟩ := @deviceAdd_next tableThenCounter 0x1100 1 zerosBeyond rodataAt _
    december_months ⟨m, gKlogger, c⟩ (by decide) (.inl hnamed) hnb (by decide)
  have hnb' : deviceGetNb tableThenCounter (deviceAdded tableThenCounter m 0x1100) = 2 :=
    deviceAdded_getNb hnb (by decide)
  have hcount := @DeviceNext.getNb _ zerosBeyond rodataAt (cmosDevice (monthClock 0x12))
    tableThenCounter ⟨deviceAdded tableThenCounter m 0x1100, gKlogger, c'⟩
  rw [hnb'] at hcount
  have hrun := Run.cons hfirst <| .cons (.other hothers) <| .cons (.get _ 0) <|
    .cons hsecond <| .cons hcount (.nil _)
  refine ⟨_, _, hrun, rfl, ?_, ?_, ?_⟩
  · have hkept := @deviceAdded_load32 tableThenCounter m 0x1100 1 hnb (by decide) 0x1000
      (lowWord_apart (by decide))
    exact hkept.trans hwritten
  · have hfirstName : twoDescriptors.load32 0x1000 = 0x2000 := by decide
    exact congrArg₂ (fun x y => [x, y]) hfirstName hname'
  · have htwo : 2 ≤ maxDevice := by decide
    apply device_registrations_kept zerosBeyond rodataAt (monthClock 0x12) december_months
      tableThenCounter (by exact hboot) hrun htwo
    simp only [List.forall_mem_cons, DeviceCall.AddsObject]
    exact ⟨lowDescriptor_object (by decide), trivial, trivial, lowDescriptor_object (by decide),
      trivial, fun _ h => absurd h List.not_mem_nil⟩

/-- A descriptor without a name is not added when its report is sent. -/
theorem device_add_nameless_stops :
    GivesMonths (monthClock 0x12) ∧ deviceGetNb tableThenCounter (fun _ => 0) = 0 ∧
      tableThenCounter.IsObject 0x1000 ∧
      ∃ f c', Prog.Ends (consoleDevice zerosBeyond (cmosDevice (monthClock 0x12)))
        (fun n => deviceAdd tableThenCounter n rodataAt gKlogger (fun _ => 0) 0x1000)
        { index := 0, reads := 0 } (.error f c') := by
  have hsend : gKlogger.Sends .info := ⟨by decide, .inl (by decide)⟩
  exact ⟨december_months, by decide, (lowDescriptor_object (by decide)),
    deviceAdd_stops december_months rodataAt hsend (by decide) (by decide) _⟩

end BordOS
