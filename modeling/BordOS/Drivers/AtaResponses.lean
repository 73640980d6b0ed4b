import Mathlib.Data.Nat.Find
import BordOS.Drivers.AtaSpec
import BordOS.Drivers.Cmos

namespace BordOS
open Library Prog
set_option autoImplicit true
set_option relaxedAutoImplicit false

/-- What a drive answers: to each read of its status, and to each read of its data port. -/
structure Responses where
  status : Nat → BitVec 8
  data : Nat → BitVec 16

/-- How often the status and the data port were read, the words sent to the drive, and the state
of everything else. -/
structure AtaStream (σ : Type) where
  polls : Nat
  words : Nat
  sent : List (BitVec 16)
  world : σ

def responseDevice (resp : Responses) (bus : BitVec 16) (other : PortDevice σ) :
    PortDevice (AtaStream σ)
  | .inb port, s =>
    if port = bus + 7 then (resp.status s.polls, { s with polls := s.polls + 1 })
    else ((other (.inb port) s.world).1, { s with world := (other (.inb port) s.world).2 })
  | .inw port, s =>
    if port = bus then (resp.data s.words, { s with words := s.words + 1 })
    else ((other (.inw port) s.world).1, { s with world := (other (.inw port) s.world).2 })
  | .outw port w, s =>
    if port = bus then ((), { s with sent := s.sent ++ [w] })
    else ((), { s with world := (other (.outw port w) s.world).2 })
  | op, s => ((other op s.world).1, { s with world := (other op s.world).2 })

def Responses.BusyClears (resp : Responses) : Prop :=
  ∀ n, ∃ p, n ≤ p ∧ resp.status p &&& ataSrBsy = 0

/-- The first status read from number `n` on with BSY clear is number `p`. -/
structure FirstReady (status : Nat → BitVec 8) (n p : Nat) : Prop where
  le : n ≤ p
  ready : status p &&& ataSrBsy = 0
  busy : ∀ i, n ≤ i → i < p → status i &&& ataSrBsy ≠ 0

theorem FirstReady.of_ready {status : Nat → BitVec 8} {n : Nat}
    (h : ∃ p, n ≤ p ∧ status p &&& ataSrBsy = 0) : ∃ p, FirstReady status n p := by
  classical
  obtain ⟨hle, hready⟩ := Nat.find_spec h
  refine ⟨_, hle, hready, ?_⟩
  intro i hni hi hclear
  exact Nat.find_min h hi ⟨hni, hclear⟩

theorem Responses.BusyClears.first {resp : Responses} (h : resp.BusyClears) (n : Nat) :
    ∃ p, FirstReady resp.status n p :=
  FirstReady.of_ready (h n)

structure AtaStream.At (polls words : Nat) (sent : List (BitVec 16)) (s : AtaStream σ) : Prop where
  polls : s.polls = polls
  words : s.words = words
  sent : s.sent = sent

variable {resp : Responses} {bus : BitVec 16} {other : PortDevice σ} {n p w : Nat}
  {sent : List (BitVec 16)}

def Anything (_ : PortEvent (AtaStream σ)) : Prop := True

theorem readStatus_responds :
    Spec (responseDevice resp bus other) Anything (AtaStream.At n w sent)
      (fun _ => inb (bus + ataRegStatus))
      (fun status s => status = resp.status n ∧ s.At (n + 1) w sent) := by
  apply Spec.perform
  intro s hs
  simp only [responseDevice, ataRegStatus, ↓reduceIte]
  exact ⟨trivial, congrArg resp.status hs.polls, congrArg (· + 1) hs.polls, hs.words, hs.sent⟩

theorem altstatus_responds :
    Spec (responseDevice resp bus other) Anything (AtaStream.At n w sent)
      (fun _ => inb (bus + ataRegAltstatus)) (fun _ => AtaStream.At n w sent) := by
  have hport : bus + ataRegAltstatus ≠ bus + 7 := by
    simp [ataRegAltstatus]
  apply Spec.perform
  intro s hs
  simp only [responseDevice, hport, ↓reduceIte]
  exact ⟨trivial, hs.polls, hs.words, hs.sent⟩

theorem outb_responds (port : BitVec 16) (val : BitVec 8) :
    Spec (responseDevice resp bus other) Anything (AtaStream.At n w sent)
      (fun _ => outb port val) (fun _ => AtaStream.At n w sent) :=
  .perform fun _ hs => ⟨trivial, hs.polls, hs.words, hs.sent⟩

theorem pollStatus_responds (hp : FirstReady resp.status n p) :
    Spec (responseDevice resp bus other) Anything (AtaStream.At n w sent)
      (Prog.loopWhile (inb (bus + ataRegStatus)) (fun status => status &&& ataSrBsy != 0)
        Fault.outOfFuel)
      (fun status s => status = resp.status p ∧ s.At (p + 1) w sent) := by
  have hloop : Spec (responseDevice resp bus other) Anything
      (fun s => n ≤ s.polls ∧ s.polls ≤ p ∧ s.At s.polls w sent)
      (Prog.loopWhile (inb (bus + ataRegStatus)) (fun status => status &&& ataSrBsy != 0)
        Fault.outOfFuel)
      (fun status s => status = resp.status p ∧ s.At (p + 1) w sent) := by
    apply Spec.loopWhile fun s => p - s.polls
    rintro s ⟨hn, hle, hs⟩
    refine ⟨fun _ _ => trivial, resp.status s.polls, { s with polls := s.polls + 1 }, ?_, ?_⟩
    · simp only [inb, run_perform, responseDevice, ataRegStatus, ↓reduceIte]
    · by_cases hlast : s.polls = p
      · rw [hlast, hp.ready]
        exact ⟨rfl, rfl, hs.words, hs.sent⟩
      · have hbusy := hp.busy s.polls hn (by omega)
        rw [if_pos (bne_iff_ne.2 hbusy)]
        refine ⟨⟨by simp only; omega, by simp only; omega, rfl, hs.words, hs.sent⟩, ?_⟩
        simp only
        omega
  apply hloop.weaken
  · intro s hs
    rw [hs.polls]
    exact ⟨Nat.le_refl n, hp.le, hs⟩
  · exact fun _ _ h => h

theorem ataWaitReady_responds (hp : FirstReady resp.status n p) :
    Spec (responseDevice resp bus other) Anything (AtaStream.At n w sent)
      (fun k => ataWaitReady k bus) (fun _ => AtaStream.At (p + 1) w sent) :=
  (pollStatus_responds hp).bind fun _ => .pure fun _ h => h.2

theorem delay400ns_responds :
    Spec (responseDevice resp bus other) Anything (AtaStream.At n w sent)
      (fun _ => delay400ns bus) (fun _ => AtaStream.At n w sent) :=
  altstatus_responds.bind fun _ => altstatus_responds.bind fun _ => altstatus_responds.bind fun _ =>
    altstatus_responds.bind fun _ => .pure fun _ h => h

theorem ataWait_responds (hp : FirstReady resp.status n p) :
    Spec (responseDevice resp bus other) Anything (AtaStream.At n w sent)
      (fun k => ataWait k bus 0) (fun _ => AtaStream.At (p + 1) w sent) := by
  apply delay400ns_responds.bind
  intro _
  apply (pollStatus_responds hp).bind
  intro _
  exact .pure fun _ h => h.2

theorem ataWait_advanced_responds (hp : FirstReady resp.status n p) :
    Spec (responseDevice resp bus other) Anything (AtaStream.At n w sent)
      (fun k => ataWait k bus 1)
      (fun error s => error = ataWaitResult (resp.status (p + 1)) ∧ s.At (p + 2) w sent) := by
  apply delay400ns_responds.bind
  intro _
  apply ((pollStatus_responds hp).weaken (fun _ h => h) fun _ _ h => h.2).bind
  intro _
  apply readStatus_responds.bind
  intro status
  exact .pure fun _ h => ⟨congrArg ataWaitResult h.1, h.2⟩

theorem cmosRTC_moves_nothing {date : CmosRtc} {s t : AtaStream σ}
    {tr : List (PortEvent (AtaStream σ))}
    (h : Settles (responseDevice resp bus other) cmosRTC s (.ok date t) tr) :
    t.words = s.words ∧ t.sent = s.sent := by
  have hkept (n : Nat) : Triple (responseDevice resp bus other) Anything
      (fun t => t.words = s.words ∧ t.sent = s.sent) (cmosRTC n)
      (fun _ t => t.words = s.words ∧ t.sent = s.sent) := by
    apply (cmosRTC_uses n).triple
    rintro op t (⟨port, rfl⟩ | ⟨port, val, rfl⟩) ht
    · refine ⟨trivial, ?_⟩
      simp only [responseDevice]
      split_ifs <;> exact ht
    · exact ⟨trivial, ht⟩
  obtain ⟨N, hN⟩ := h
  exact (hkept N s ⟨rfl, rfl⟩).2 date t (hN N (Nat.le_refl N)).1

def Buffer.received (data : Nat → BitVec 16) (w : Nat) (buf : Buffer) : Nat → Buffer
  | 0 => buf
  | k + 1 => (buf.received data w k).setWord k (data (w + k))

theorem repinsw_responds (buf : Buffer) (k : Nat) :
    Spec (responseDevice resp bus other) Anything (AtaStream.At n w sent)
      (fun _ => repinsw bus buf k)
      (fun buf' s => buf' = buf.received resp.data w k ∧ s.At n (w + k) sent) := by
  induction k with
  | zero => exact .pure fun _ hs => ⟨rfl, hs⟩
  | succ k ih =>
    apply ih.bind
    intro buf'
    apply Spec.bind (R := fun word s => buf'.setWord k word = buf.received resp.data w (k + 1) ∧
      s.At n (w + (k + 1)) sent)
    · apply Spec.perform
      rintro s ⟨rfl, hs⟩
      simp only [responseDevice, ↓reduceIte]
      refine ⟨trivial, ?_, hs.polls, congrArg (· + 1) hs.words, hs.sent⟩
      rw [hs.words]
      rfl
    · intro word
      exact .pure fun _ hs => hs

theorem repoutsw_responds (buf : Buffer) (k : Nat) :
    Spec (responseDevice resp bus other) Anything (AtaStream.At n w sent)
      (fun _ => repoutsw bus buf k)
      (fun _ => AtaStream.At n w (sent ++ (List.range k).map buf.word)) := by
  induction k with
  | zero =>
    simp only [List.range_zero, List.map_nil, List.append_nil]
    exact .pure fun _ hs => hs
  | succ k ih =>
    apply ih.bind
    intro _
    apply Spec.perform
    intro s hs
    simp only [responseDevice, ↓reduceIte]
    refine ⟨trivial, hs.polls, hs.words, ?_⟩
    rw [hs.sent, List.range_succ, List.map_append, List.append_assoc]
    rfl

theorem Buffer.received_word (data : Nat → BitVec 16) (buf : Buffer) {j k : Nat} (h : j < k) :
    (buf.received data w k).word j = data (w + j) := by
  induction k with
  | zero => omega
  | succ k ih =>
    rw [received]
    by_cases hlast : j = k
    · rw [hlast, word_setWord]
    · rw [word_setWord_of_ne _ hlast, ih (by omega)]

theorem Buffer.received_eq_iff (data : Nat → BitVec 16) (buf : Buffer) (k : Nat) :
    buf.received data w k = buf ↔ ∀ j < k, data (w + j) = buf.word j := by
  constructor
  · intro h j hj
    rw [← received_word data buf hj, h]
  · intro h
    induction k with
    | zero => rfl
    | succ k ih =>
      rw [received, ih fun j hj => h j (by omega), h k (Nat.lt_succ_self k), setWord_word]

end BordOS
