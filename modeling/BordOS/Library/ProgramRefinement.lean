import BordOS.Library.ProgramSpec

namespace BordOS.Library
set_option autoImplicit true
set_option relaxedAutoImplicit false

namespace Prog

variable {ι κ : Type} {ρ : ι → Type} {τ : κ → Type} {ε σ υ α β : Type}

def withState (t : υ) : EStateM.Result ε σ α → EStateM.Result ε υ α
  | .ok a _ => .ok a t
  | .error e _ => .error e t

def endState : EStateM.Result ε σ α → σ
  | .ok _ s => s
  | .error _ s => s

/-- Programs `h` for the operations of one device run on another one. After the operations of a
trace, `R` relates the states of the two. -/
structure CarriesOut (d : Device ι ρ σ) (d' : Device κ τ υ)
    (h : Nat → (op : ι) → Prog κ τ ε (ρ op)) (ok : ι → Prop)
    (R : List (Event ι ρ σ) → σ → υ → Prop) : Prop where
  step : ∀ {tr s t} (op : ι), ok op → R tr s t →
    ∃ t', Converges d' (fun n => h n op) t (d op s).1 t' ∧
      R (tr ++ [⟨s, op, (d op s).1⟩]) (d op s).2 t'

variable {d : Device ι ρ σ} {d' : Device κ τ υ} {h : Nat → (op : ι) → Prog κ τ ε (ρ op)}
  {ok : ι → Prop} {R : List (Event ι ρ σ) → σ → υ → Prop}

theorem events_cons {e : Event ι ρ σ} {tr : List (Event ι ρ σ)} {p : Prog ι ρ ε α} {s : σ}
    (hp : p.events d s = e :: tr) :
    ∃ next, p = .call e.op next ∧ e = ⟨s, e.op, (d e.op s).1⟩ ∧
      (next (d e.op s).1).events d (d e.op s).2 = tr := by
  cases p with
  | ret a => cases hp
  | fail f => cases hp
  | call op next =>
    obtain ⟨rfl, rfl⟩ := List.cons.inj hp
    exact ⟨next, rfl, rfl, rfl⟩

/-- The fuel that the operations of a trace need serves every program with that trace. -/
theorem CarriesOut.run (hc : CarriesOut d d' h ok R) {tr tr' : List (Event ι ρ σ)}
    {p : Prog ι ρ ε α} {s : σ} {t : υ} {r : EStateM.Result ε σ α} (hR : R tr s t)
    (hrun : p.run d s = r) (hevents : p.events d s = tr') (hok : ∀ e ∈ tr', ok e.op) :
    ∃ t' N, R (tr ++ tr') (endState r) t' ∧ ∀ n, N ≤ n → ∀ q : Prog ι ρ ε α,
      q.run d s = r → q.events d s = tr' → (q.translate (h n)).run d' t = withState t' r := by
  induction tr' generalizing tr p s t with
  | nil =>
    have hstay (q : Prog ι ρ ε α) (hq : q.run d s = r) (hnil : q.events d s = []) :
        s = endState r ∧ ∀ n, (q.translate (h n)).run d' t = withState t r := by
      subst hq
      cases q with
      | ret a => exact ⟨rfl, fun _ => rfl⟩
      | fail e => exact ⟨rfl, fun _ => rfl⟩
      | call op next => cases hnil
    refine ⟨t, 0, ?_, fun n _ q hq hnil => (hstay q hq hnil).2 n⟩
    rw [List.append_nil, ← (hstay p hrun hevents).1]
    exact hR
  | cons e tr' ih =>
    obtain ⟨next, rfl, he, hnext⟩ := events_cons hevents
    obtain ⟨u, ⟨M, hM⟩, hu⟩ := hc.step e.op (hok e (.head _)) hR
    rw [← he] at hu
    obtain ⟨t', N, ht', hN⟩ := ih hu hrun hnext fun e' he' => hok e' (.tail _ he')
    refine ⟨t', max M N, ?_, ?_⟩
    · rw [List.append_assoc] at ht'
      exact ht'
    · intro n hn q hq hqe
      obtain ⟨next', rfl, -, hnext'⟩ := events_cons hqe
      change (h n e.op >>= fun x => (next' x).translate (h n)).run d' t = _
      rw [run_bind, hM n (by omega)]
      exact hN n (by omega) _ hq hnext'

theorem CarriesOut.settles (hc : CarriesOut d d' h ok R) {tr tr' : List (Event ι ρ σ)}
    {p : Nat → Prog ι ρ ε α} {s : σ} {t : υ} {r : EStateM.Result ε σ α} (hR : R tr s t)
    (hp : Settles d p s r tr') (hok : ∀ e ∈ tr', ok e.op) :
    ∃ t', Ends d' (fun n => (p n).translate (h n)) t (withState t' r) ∧
      R (tr ++ tr') (endState r) t' := by
  obtain ⟨M, hM⟩ := hp
  obtain ⟨hrun, hevents⟩ := hM M (Nat.le_refl M)
  obtain ⟨t', N, ht', hN⟩ := hc.run hR hrun hevents hok
  refine ⟨t', ⟨max M N, fun n hn => ?_⟩, ht'⟩
  obtain ⟨hrun', hevents'⟩ := hM n (by omega)
  exact hN n (by omega) (p n) hrun' hevents'

end Prog

end BordOS.Library
