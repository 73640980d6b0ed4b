import BordOS.Library.ProgramSpec

namespace BordOS.Library
set_option autoImplicit true
set_option relaxedAutoImplicit false

namespace Prog

variable {ι κ : Type} {ρ : ι → Type} {τ : κ → Type} {ε ε' σ α β : Type} {d : Device ι ρ σ}

def recover (h : ε → Prog ι ρ ε' α) : Prog ι ρ ε α → Prog ι ρ ε' α
  | .ret a => .ret a
  | .fail e => h e
  | .call op next => .call op fun r => (next r).recover h

@[simp] theorem run_recover (h : ε → Prog ι ρ ε' α) (p : Prog ι ρ ε α) (s : σ) :
    (p.recover h).run d s =
      match p.run d s with
      | .ok a t => .ok a t
      | .error e t => (h e).run d t := by
  induction p generalizing s with
  | ret a => rfl
  | fail e => rfl
  | call op next ih => exact ih _ _

@[simp] theorem events_recover (h : ε → Prog ι ρ ε' α) (p : Prog ι ρ ε α) (s : σ) :
    (p.recover h).events d s = p.events d s ++
      match p.run d s with
      | .ok _ _ => []
      | .error e t => (h e).events d t := by
  induction p generalizing s with
  | ret a => rfl
  | fail e => rfl
  | call op next ih => exact congrArg (List.cons _) (ih _ _)

theorem Converges.recover {p : Nat → Prog ι ρ ε α} {s t : σ} {a : α} (hp : Converges d p s a t)
    (h : Nat → ε → Prog ι ρ ε' α) : Converges d (fun n => (p n).recover (h n)) s a t := by
  obtain ⟨N, hN⟩ := hp
  refine ⟨N, ?_⟩
  intro n hn
  rw [run_recover, hN n hn]

/-- `for (;;) op` -/
def forever (op : ι) (e : ε) : Nat → Prog ι ρ ε α
  | 0 => fail e
  | n + 1 => do
    let _ ← perform op
    forever op e n

/-- With enough fuel the program comes to do only operations of `E`, as many as one likes, and ends
there with the fault `e`. So it never returns. -/
def Idles (d : Device ι ρ σ) (E : Event ι ρ σ → Prop) (e : ε) (p : Nat → Prog ι ρ ε α) (s : σ) :
    Prop :=
  ∀ k, ∃ N, ∀ n, N ≤ n → ∃ pre rest t, (p n).events d s = pre ++ rest ∧ k ≤ rest.length ∧
    (∀ x ∈ rest, E x) ∧ (p n).run d s = .error e t

theorem forever_run {op : ι} {s : σ} (hstay : (d op s).2 = s) (e : ε) (n : Nat) :
    (forever op e n : Prog ι ρ ε α).run d s = .error e s ∧
      (forever op e n : Prog ι ρ ε α).events d s = List.replicate n ⟨s, op, (d op s).1⟩ := by
  induction n with
  | zero => exact ⟨rfl, rfl⟩
  | succ n ih =>
    obtain ⟨hrun, hevents⟩ := ih
    simp only [forever, run_bind, run_perform, events_bind, events_perform, hstay, hrun, hevents,
      List.singleton_append, List.replicate_succ, and_self]

theorem forever_idles {op : ι} {s : σ} (hstay : (d op s).2 = s) (e : ε) :
    Idles d (fun x => x.op = op ∧ x.before = s) e
      (forever op e : Nat → Prog ι ρ ε α) s := by
  intro k
  refine ⟨k, ?_⟩
  intro n hn
  obtain ⟨hrun, hevents⟩ := forever_run (α := α) hstay e n
  refine ⟨[], _, s, hevents, ?_, ?_, hrun⟩
  · rw [List.length_replicate]
    exact hn
  · intro x hx
    obtain rfl := List.eq_of_mem_replicate hx
    exact ⟨rfl, rfl⟩

variable {E : Event ι ρ σ → Prop} {e : ε}

theorem Idles.after {p : Nat → Prog ι ρ ε α} {f : Nat → α → Prog ι ρ ε β} {s t : σ} {a : α}
    (hp : Converges d p s a t) (hf : Idles d E e (fun n => f n a) t) :
    Idles d E e (fun n => p n >>= f n) s := by
  intro k
  obtain ⟨N, hN⟩ := hp
  obtain ⟨M, hM⟩ := hf k
  refine ⟨max N M, ?_⟩
  intro n hn
  have hrun := hN n (by omega)
  obtain ⟨pre, rest, u, hevents, hlen, hrest, hend⟩ := hM n (by omega)
  refine ⟨(p n).events d s ++ pre, rest, u, ?_, hlen, hrest, ?_⟩
  · simp only [events_bind, hrun, hevents, List.append_assoc]
  · simp only [run_bind, hrun, hend]

/-- What comes after a program that stops is never reached. -/
theorem Idles.bind {p : Nat → Prog ι ρ ε α} {s : σ} (hp : Idles d E e p s)
    (f : Nat → α → Prog ι ρ ε β) : Idles d E e (fun n => p n >>= f n) s := by
  intro k
  obtain ⟨N, hN⟩ := hp k
  refine ⟨N, ?_⟩
  intro n hn
  obtain ⟨pre, rest, t, hevents, hlen, hrest, hend⟩ := hN n hn
  refine ⟨pre, rest, t, ?_, hlen, hrest, ?_⟩
  · simp only [events_bind, hend, hevents, List.append_nil]
  · simp only [run_bind, hend]

theorem Idles.of_fault {e' : ε'} {p : Nat → Prog ι ρ ε α} {h : Nat → ε → Prog ι ρ ε' α} {s t : σ}
    (hp : Ends d p s (.error e t)) (hh : Idles d E e' (fun n => h n e) t) :
    Idles d E e' (fun n => (p n).recover (h n)) s := by
  intro k
  obtain ⟨N, hN⟩ := hp
  obtain ⟨M, hM⟩ := hh k
  refine ⟨max N M, ?_⟩
  intro n hn
  have hrun := hN n (by omega)
  obtain ⟨pre, rest, u, hevents, hlen, hrest, hend⟩ := hM n (by omega)
  refine ⟨(p n).events d s ++ pre, rest, u, ?_, hlen, hrest, ?_⟩
  · simp only [events_recover, hrun, hevents, List.append_assoc]
  · simp only [run_recover, hrun, hend]

theorem Idles.recover {e' : ε'} {p : Nat → Prog ι ρ ε α} {h : Nat → ε → Prog ι ρ ε' α} {s : σ}
    (hp : Idles d E e p s) (hh : ∀ n, h n e = .fail e') :
    Idles d E e' (fun n => (p n).recover (h n)) s := by
  intro k
  obtain ⟨N, hN⟩ := hp k
  refine ⟨N, ?_⟩
  intro n hn
  obtain ⟨pre, rest, t, hevents, hlen, hrest, hend⟩ := hN n hn
  refine ⟨pre, rest, t, ?_, hlen, hrest, ?_⟩
  · simp only [events_recover, hend, hevents, hh, events_fail, List.append_nil]
  · simp only [run_recover, hend, hh, run_fail]

theorem Idles.succ {p : Nat → Prog ι ρ ε α} {s : σ} (h : Idles d E e (fun n => p (n + 1)) s) :
    Idles d E e p s := by
  intro k
  obtain ⟨N, hN⟩ := h k
  refine ⟨N + 1, ?_⟩
  intro n hn
  obtain ⟨m, rfl⟩ := Nat.exists_eq_add_of_le' (Nat.le_of_add_left_le hn)
  exact hN m (by omega)

theorem Idles.not_converges {p : Nat → Prog ι ρ ε α} {s : σ} (h : Idles d E e p s) (a : α)
    (t : σ) : ¬ Converges d p s a t := by
  rintro ⟨N, hN⟩
  obtain ⟨M, hM⟩ := h 0
  obtain ⟨pre, rest, u, -, -, -, hend⟩ := hM (max N M) (by omega)
  rw [hN (max N M) (by omega)] at hend
  cases hend

end Prog

end BordOS.Library
