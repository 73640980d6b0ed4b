import BordOS.Library.Program

namespace BordOS.Library
set_option autoImplicit true
set_option relaxedAutoImplicit false

namespace Prog

variable {ι : Type} {ρ : ι → Type} {ε σ α β : Type} {d : Device ι ρ σ}

def Converges (d : Device ι ρ σ) (p : Nat → Prog ι ρ ε α) (s : σ) (a : α) (t : σ) : Prop :=
  ∃ N, ∀ n, N ≤ n → (p n).run d s = .ok a t

theorem Converges.const {p : Prog ι ρ ε α} {s t : σ} {a : α} (h : p.run d s = .ok a t) :
    Converges d (fun _ => p) s a t :=
  ⟨0, fun _ _ => h⟩

theorem Converges.unique {p : Nat → Prog ι ρ ε α} {s t u : σ} {a b : α}
    (h : Converges d p s a t) (h' : Converges d p s b u) : a = b := by
  obtain ⟨N, hN⟩ := h
  obtain ⟨M, hM⟩ := h'
  have hrun := hN (max N M) (by omega)
  rw [hM (max N M) (by omega)] at hrun
  cases hrun
  rfl

theorem Converges.unique_state {p : Nat → Prog ι ρ ε α} {s t u : σ} {a b : α}
    (h : Converges d p s a t) (h' : Converges d p s b u) : t = u := by
  obtain ⟨N, hN⟩ := h
  obtain ⟨M, hM⟩ := h'
  have hrun := hN (max N M) (by omega)
  rw [hM (max N M) (by omega)] at hrun
  cases hrun
  rfl

theorem Converges.bind {p : Nat → Prog ι ρ ε α} {f : Nat → α → Prog ι ρ ε β} {s t u : σ} {a : α}
    {b : β} (hp : Converges d p s a t) (hf : Converges d (fun n => f n a) t b u) :
    Converges d (fun n => p n >>= f n) s b u := by
  obtain ⟨N, hN⟩ := hp
  obtain ⟨M, hM⟩ := hf
  refine ⟨max N M, ?_⟩
  intro n hn
  simp only [run_bind, hN n (by omega)]
  exact hM n (by omega)

theorem Converges.loopWhile_stop {body : Prog ι ρ ε β} {again : β → Bool} {e : ε} {s t : σ} {b : β}
    (h : body.run d s = .ok b t) (hb : again b = false) :
    Converges d (loopWhile body again e) s b t := by
  refine ⟨1, ?_⟩
  intro n hn
  obtain ⟨m, rfl⟩ := Nat.exists_eq_add_of_le' hn
  simp [loopWhile, h, hb]

theorem Converges.loopWhile_again {body : Prog ι ρ ε β} {again : β → Bool} {e : ε} {s t u : σ}
    {b c : β} (h : body.run d s = .ok b t) (hb : again b = true)
    (hl : Converges d (loopWhile body again e) t c u) :
    Converges d (loopWhile body again e) s c u := by
  obtain ⟨N, hN⟩ := hl
  refine ⟨N + 1, ?_⟩
  intro n hn
  obtain ⟨m, rfl⟩ := Nat.exists_eq_add_of_le' (Nat.le_of_add_left_le hn)
  simp only [loopWhile, run_bind, h, hb, ↓reduceIte]
  exact hN m (by omega)

/-- Enough fuel gives the result `r`, which may be a fault. -/
def Ends (d : Device ι ρ σ) (p : Nat → Prog ι ρ ε α) (s : σ) (r : EStateM.Result ε σ α) : Prop :=
  ∃ N, ∀ n, N ≤ n → (p n).run d s = r

theorem Ends.bind {p : Nat → Prog ι ρ ε α} {f : Nat → α → Prog ι ρ ε β} {s t : σ} {a : α}
    {r : EStateM.Result ε σ β} (hp : Converges d p s a t) (hf : Ends d (fun n => f n a) t r) :
    Ends d (fun n => p n >>= f n) s r := by
  obtain ⟨N, hN⟩ := hp
  obtain ⟨M, hM⟩ := hf
  refine ⟨max N M, ?_⟩
  intro n hn
  simp only [run_bind, hN n (by omega)]
  exact hM n (by omega)

theorem Ends.bind_error {p : Nat → Prog ι ρ ε α} {f : Nat → α → Prog ι ρ ε β} {s t : σ} {e : ε}
    (hp : Ends d p s (.error e t)) : Ends d (fun n => p n >>= f n) s (.error e t) := by
  obtain ⟨N, hN⟩ := hp
  refine ⟨N, ?_⟩
  intro n hn
  simp only [run_bind, hN n hn]

/-- Enough fuel gives the result `r`, which may be a fault, after the operations `tr`. -/
def Settles (d : Device ι ρ σ) (p : Nat → Prog ι ρ ε α) (s : σ) (r : EStateM.Result ε σ α)
    (tr : List (Event ι ρ σ)) : Prop :=
  ∃ N, ∀ n, N ≤ n → (p n).run d s = r ∧ (p n).events d s = tr

theorem Settles.const (d : Device ι ρ σ) (p : Prog ι ρ ε α) (s : σ) :
    Settles d (fun _ => p) s (p.run d s) (p.events d s) :=
  ⟨0, fun _ _ => ⟨rfl, rfl⟩⟩

theorem Settles.of_run {p : Prog ι ρ ε α} {s : σ} {r : EStateM.Result ε σ α}
    (h : p.run d s = r) : Settles d (fun _ => p) s r (p.events d s) :=
  h ▸ .const d p s

theorem Settles.bind {p : Nat → Prog ι ρ ε α} {f : Nat → α → Prog ι ρ ε β} {s t : σ} {a : α}
    {r : EStateM.Result ε σ β} {tr tr' : List (Event ι ρ σ)} (hp : Settles d p s (.ok a t) tr)
    (hf : Settles d (fun n => f n a) t r tr') :
    Settles d (fun n => p n >>= f n) s r (tr ++ tr') := by
  obtain ⟨N, hN⟩ := hp
  obtain ⟨M, hM⟩ := hf
  refine ⟨max N M, ?_⟩
  intro n hn
  obtain ⟨hrun, hevents⟩ := hN n (by omega)
  obtain ⟨hrun', hevents'⟩ := hM n (by omega)
  simp only [run_bind, events_bind, hrun, hevents, hrun', hevents', and_self]

theorem Settles.bind_error {p : Nat → Prog ι ρ ε α} {f : Nat → α → Prog ι ρ ε β} {s t : σ} {e : ε}
    {tr : List (Event ι ρ σ)} (hp : Settles d p s (.error e t) tr) :
    Settles d (fun n => p n >>= f n) s (.error e t) tr := by
  obtain ⟨N, hN⟩ := hp
  refine ⟨N, ?_⟩
  intro n hn
  obtain ⟨hrun, hevents⟩ := hN n hn
  simp only [run_bind, events_bind, hrun, hevents, List.append_nil, and_self]

theorem Settles.succ {p : Nat → Prog ι ρ ε α} {s : σ} {r : EStateM.Result ε σ α}
    {tr : List (Event ι ρ σ)} (h : Settles d (fun n => p (n + 1)) s r tr) : Settles d p s r tr := by
  obtain ⟨N, hN⟩ := h
  refine ⟨N + 1, ?_⟩
  intro n hn
  obtain ⟨m, rfl⟩ := Nat.exists_eq_add_of_le' (Nat.le_of_add_left_le hn)
  exact hN m (by omega)

theorem Settles.loopWhile_stop {body : Prog ι ρ ε β} {again : β → Bool} {e : ε} {s t : σ} {b : β}
    (h : body.run d s = .ok b t) (hb : again b = false) :
    Settles d (loopWhile body again e) s (.ok b t) (body.events d s) := by
  refine ⟨1, ?_⟩
  intro n hn
  obtain ⟨m, rfl⟩ := Nat.exists_eq_add_of_le' hn
  simp [loopWhile, h, hb]

theorem Settles.loopWhile_again {body : Prog ι ρ ε β} {again : β → Bool} {e : ε} {s t : σ} {b : β}
    {r : EStateM.Result ε σ β} {tr : List (Event ι ρ σ)} (h : body.run d s = .ok b t)
    (hb : again b = true) (hl : Settles d (loopWhile body again e) t r tr) :
    Settles d (loopWhile body again e) s r (body.events d s ++ tr) := by
  obtain ⟨N, hN⟩ := hl
  refine ⟨N + 1, ?_⟩
  intro n hn
  obtain ⟨m, rfl⟩ := Nat.exists_eq_add_of_le' (Nat.le_of_add_left_le hn)
  obtain ⟨hrun, hevents⟩ := hN m (by omega)
  simp only [loopWhile, run_bind, events_bind, h, hb, ↓reduceIte, hrun, hevents, and_self]

theorem Settles.converges {p : Nat → Prog ι ρ ε α} {s t : σ} {a : α} {tr : List (Event ι ρ σ)}
    (h : Settles d p s (.ok a t) tr) : Converges d p s a t := by
  obtain ⟨N, hN⟩ := h
  exact ⟨N, fun n hn => (hN n hn).1⟩

theorem Settles.ends {p : Nat → Prog ι ρ ε α} {s : σ} {r : EStateM.Result ε σ α}
    {tr : List (Event ι ρ σ)} (h : Settles d p s r tr) : Ends d p s r := by
  obtain ⟨N, hN⟩ := h
  exact ⟨N, fun n hn => (hN n hn).1⟩

theorem Settles.unique {p : Nat → Prog ι ρ ε α} {s : σ} {r r' : EStateM.Result ε σ α}
    {tr tr' : List (Event ι ρ σ)} (h : Settles d p s r tr) (h' : Settles d p s r' tr') :
    r = r' ∧ tr = tr' := by
  obtain ⟨N, hN⟩ := h
  obtain ⟨M, hM⟩ := h'
  obtain ⟨hr, htr⟩ := hN (max N M) (by omega)
  obtain ⟨hr', htr'⟩ := hM (max N M) (by omega)
  exact ⟨hr.symm.trans hr', htr.symm.trans htr'⟩

theorem Settles.replay {τ : Type} {d' : Device ι ρ τ} {R : σ → τ → Prop}
    (hd : ∀ op s t, R s t → (d' op t).1 = (d op s).1 ∧ R (d op s).2 (d' op t).2)
    {p : Nat → Prog ι ρ ε α} {s s' : σ} {t : τ} {a : α} {tr : List (Event ι ρ σ)} (hR : R s t)
    (h : Settles d p s (.ok a s') tr) : Converges d' p t a (Prog.replay d' tr t) := by
  obtain ⟨N, hN⟩ := h
  refine ⟨N, ?_⟩
  intro n hn
  obtain ⟨hrun, hevents⟩ := hN n hn
  rw [← hevents]
  exact run_replay hd (p n) hR hrun

/-- The invariant of a counting loop holds before each round, at the number of the round. -/
theorem mapM_range'_run {body : Nat → Prog ι ρ ε α} {f : Nat → α} {I : Nat → σ → Prop} {k m : Nat}
    (hbody : ∀ i s, k ≤ i → i < k + m → I i s →
      ∃ t, (body i).run d s = .ok (f i) t ∧ I (i + 1) t)
    {s : σ} (hs : I k s) :
    ∃ t, ((List.range' k m).mapM body).run d s = .ok ((List.range' k m).map f) t ∧
      I (k + m) t := by
  induction m generalizing k s with
  | zero => exact ⟨s, rfl, hs⟩
  | succ m ih =>
    obtain ⟨t, hrun, ht⟩ := hbody k s (Nat.le_refl k) (by omega) hs
    have hrest (i : Nat) (s : σ) (hk : k + 1 ≤ i) (hi : i < k + 1 + m) :=
      hbody i s (by omega) (by omega)
    obtain ⟨u, hrun', hu⟩ := ih hrest ht
    rw [Nat.add_right_comm] at hu
    refine ⟨u, ?_, hu⟩
    simp only [List.range'_succ, List.mapM_cons, run_bind, hrun, hrun', run_pure, List.map_cons]

/-- The triple holds at every fuel, and from each of its states enough fuel makes the program
return. -/
structure Spec (d : Device ι ρ σ) (E : Event ι ρ σ → Prop) (P : σ → Prop)
    (p : Nat → Prog ι ρ ε α) (Q : α → σ → Prop) : Prop where
  triple : ∀ n, Triple d E P (p n) Q
  returns : ∀ s, P s → ∃ a t, Converges d p s a t

variable {E : Event ι ρ σ → Prop} {P : σ → Prop}

theorem Spec.post {p : Nat → Prog ι ρ ε α} {Q : α → σ → Prop} (h : Spec d E P p Q) {s : σ}
    (hs : P s) : ∃ a t, Converges d p s a t ∧ Q a t := by
  obtain ⟨a, t, N, hN⟩ := h.returns s hs
  exact ⟨a, t, ⟨N, hN⟩, (h.triple N s hs).2 a t (hN N (Nat.le_refl N))⟩

theorem Spec.pure {a : α} {Q : α → σ → Prop} (h : ∀ s, P s → Q a s) :
    Spec d E P (fun _ => (Pure.pure a : Prog ι ρ ε α)) Q where
  triple _ := .pure h
  returns s _ := ⟨a, s, .const rfl⟩

theorem Spec.perform {op : ι} {Q : ρ op → σ → Prop}
    (h : ∀ s, P s → E ⟨s, op, (d op s).1⟩ ∧ Q (d op s).1 (d op s).2) :
    Spec d E P (fun _ => (Prog.perform op : Prog ι ρ ε _)) Q where
  triple _ := .perform h
  returns s _ := ⟨(d op s).1, (d op s).2, .const rfl⟩

theorem Spec.bind {p : Nat → Prog ι ρ ε α} {f : Nat → α → Prog ι ρ ε β} {R : α → σ → Prop}
    {Q : β → σ → Prop} (hp : Spec d E P p R) (hf : ∀ a, Spec d E (R a) (fun n => f n a) Q) :
    Spec d E P (fun n => p n >>= f n) Q where
  triple n := (hp.triple n).bind fun a => (hf a).triple n
  returns s hs := by
    obtain ⟨a, t, hc, hR⟩ := hp.post hs
    obtain ⟨b, u, hc'⟩ := (hf a).returns t hR
    exact ⟨b, u, hc.bind hc'⟩

theorem Spec.weaken {p : Nat → Prog ι ρ ε α} {P' : σ → Prop} {Q Q' : α → σ → Prop}
    (h : Spec d E P p Q) (hP : ∀ s, P' s → P s) (hQ : ∀ a t, Q a t → Q' a t) :
    Spec d E P' p Q' where
  triple n := (h.triple n).weaken hP hQ
  returns s hs := h.returns s (hP s hs)

theorem Spec.assume {p : Nat → Prog ι ρ ε α} {Q : α → σ → Prop}
    (h : (∃ s, P s) → Spec d E P p Q) : Spec d E P p Q where
  triple n s hs := (h ⟨s, hs⟩).triple n s hs
  returns s hs := (h ⟨s, hs⟩).returns s hs

/-- A loop whose rounds keep the invariant and lower a measure as long as they go on. -/
theorem Spec.loopWhile {body : Prog ι ρ ε β} {again : β → Bool} {e : ε} {Q : β → σ → Prop}
    (m : σ → Nat)
    (h : ∀ s, P s → (∀ x ∈ body.events d s, E x) ∧ ∃ b t, body.run d s = .ok b t ∧
      if again b then P t ∧ m t < m s else Q b t) :
    Spec d E P (Prog.loopWhile body again e) Q where
  triple n := by
    refine Triple.loopWhile (fun s hs => ?_) n
    obtain ⟨hE, b, t, hrun, hb⟩ := h s hs
    refine ⟨hE, ?_⟩
    intro b' t' hrun'
    rw [hrun] at hrun'
    cases hrun'
    by_cases ha : again b = true
    · rw [if_pos ha] at hb ⊢
      exact hb.1
    · rw [if_neg ha] at hb ⊢
      exact hb
  returns s hs := by
    generalize hk : m s = k
    induction k using Nat.strongRecOn generalizing s with
    | ind k ih =>
      obtain ⟨-, b, t, hrun, hb⟩ := h s hs
      by_cases ha : again b = true
      · rw [if_pos ha] at hb
        obtain ⟨c, u, hc⟩ := ih (m t) (by omega) t hb.1 rfl
        exact ⟨c, u, hc.loopWhile_again hrun ha⟩
      · exact ⟨b, t, .loopWhile_stop hrun (Bool.not_eq_true _ ▸ ha)⟩

/-- From every state of `P`, enough fuel makes the program perform an operation that satisfies
`E`. -/
def Performs (d : Device ι ρ σ) (E : Event ι ρ σ → Prop) (P : σ → Prop)
    (p : Nat → Prog ι ρ ε α) : Prop :=
  ∀ s, P s → ∃ N, ∀ n, N ≤ n → ∃ x ∈ (p n).events d s, E x

theorem Performs.here {op : ι} {f : Nat → ρ op → Prog ι ρ ε α}
    (h : ∀ s, P s → E ⟨s, op, (d op s).1⟩) :
    Performs d E P (fun n => (Prog.perform op : Prog ι ρ ε _) >>= f n) := by
  intro s hs
  exact ⟨0, fun n _ => ⟨_, by simp, h s hs⟩⟩

theorem Performs.left {p : Nat → Prog ι ρ ε α} {f : Nat → α → Prog ι ρ ε β}
    (hp : Performs d E P p) : Performs d E P (fun n => p n >>= f n) := by
  intro s hs
  obtain ⟨N, hN⟩ := hp s hs
  refine ⟨N, ?_⟩
  intro n hn
  obtain ⟨x, hx, hE⟩ := hN n hn
  exact ⟨x, by simp [hx], hE⟩

theorem Performs.right {E' : Event ι ρ σ → Prop} {p : Nat → Prog ι ρ ε α}
    {f : Nat → α → Prog ι ρ ε β} {R : α → σ → Prop} (hp : Spec d E' P p R)
    (hf : ∀ a, Performs d E (R a) (fun n => f n a)) :
    Performs d E P (fun n => p n >>= f n) := by
  intro s hs
  obtain ⟨a, t, ⟨N, hN⟩, hR⟩ := hp.post hs
  obtain ⟨M, hM⟩ := hf a t hR
  refine ⟨max N M, ?_⟩
  intro n hn
  obtain ⟨x, hx, hE⟩ := hM n (by omega)
  refine ⟨x, ?_, hE⟩
  simp only [events_bind, hN n (by omega), List.mem_append]
  exact .inr hx

def Visits (d : Device ι ρ σ) (E : Event ι ρ σ → Prop) (p : Prog ι ρ ε α) : Prop :=
  ∀ s a t, p.run d s = .ok a t → ∃ x ∈ p.events d s, E x

theorem Visits.perform {op : ι} (h : ∀ s, E ⟨s, op, (d op s).1⟩) :
    Visits d E (Prog.perform op : Prog ι ρ ε _) :=
  fun s _ _ _ => ⟨_, List.mem_singleton.2 rfl, h s⟩

theorem Visits.left {p : Prog ι ρ ε α} {f : α → Prog ι ρ ε β} (h : Visits d E p) :
    Visits d E (p >>= f) := by
  intro s b u hrun
  rw [run_bind] at hrun
  cases hp : p.run d s with
  | ok a t =>
    obtain ⟨x, hx, hE⟩ := h s a t hp
    exact ⟨x, by simp [hx], hE⟩
  | error e t =>
    rw [hp] at hrun
    cases hrun

theorem Visits.right {p : Prog ι ρ ε α} {f : α → Prog ι ρ ε β} (h : ∀ a, Visits d E (f a)) :
    Visits d E (p >>= f) := by
  intro s b u hrun
  rw [run_bind] at hrun
  cases hp : p.run d s with
  | ok a t =>
    rw [hp] at hrun
    obtain ⟨x, hx, hE⟩ := h a t b u hrun
    refine ⟨x, ?_, hE⟩
    rw [events_bind, hp]
    exact List.mem_append_right _ hx
  | error e t =>
    rw [hp] at hrun
    cases hrun

end Prog

end BordOS.Library
