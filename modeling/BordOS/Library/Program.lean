import Mathlib.Tactic.Common

namespace BordOS.Library
set_option autoImplicit true
set_option relaxedAutoImplicit false

/-- Programs that act through an interface: `ι` are its operations, `ρ` the types of their replies
and `ε` the faults that end a program. -/
inductive Prog (ι : Type) (ρ : ι → Type) (ε α : Type) : Type where
  | ret (a : α)
  | fail (e : ε)
  | call (op : ι) (next : ρ op → Prog ι ρ ε α)

/-- The other side of the interface: what it replies to an operation, and its next state. -/
abbrev Device (ι : Type) (ρ : ι → Type) (σ : Type) := (op : ι) → σ → ρ op × σ

structure Event (ι : Type) (ρ : ι → Type) (σ : Type) where
  before : σ
  op : ι
  reply : ρ op

variable {ι : Type} {ρ : ι → Type} {ε σ α β : Type}

namespace Prog

def bind : Prog ι ρ ε α → (α → Prog ι ρ ε β) → Prog ι ρ ε β
  | .ret a, f => f a
  | .fail e, _ => .fail e
  | .call op next, f => .call op fun r => (next r).bind f

instance : Monad (Prog ι ρ ε) where
  pure := .ret
  bind := .bind

instance : LawfulMonad (Prog ι ρ ε) :=
  LawfulMonad.mk' _
    (fun p => by
      change p.bind .ret = p
      induction p with
      | ret a => rfl
      | fail e => rfl
      | call op next ih => exact congrArg (Prog.call op) (funext ih))
    (fun _ _ => rfl)
    (fun p f g => by
      change (p.bind f).bind g = p.bind fun a => (f a).bind g
      induction p with
      | ret a => rfl
      | fail e => rfl
      | call op next ih => exact congrArg (Prog.call op) (funext ih))

def perform (op : ι) : Prog ι ρ ε (ρ op) := .call op .ret

def run (d : Device ι ρ σ) : Prog ι ρ ε α → σ → EStateM.Result ε σ α
  | .ret a, s => .ok a s
  | .fail e, s => .error e s
  | .call op next, s => (next (d op s).1).run d (d op s).2

/-- The operations that a run performs, in order, up to its return or its fault. -/
def events (d : Device ι ρ σ) : Prog ι ρ ε α → σ → List (Event ι ρ σ)
  | .ret _, _ => []
  | .fail _, _ => []
  | .call op next, s => ⟨s, op, (d op s).1⟩ :: (next (d op s).1).events d (d op s).2

variable {d : Device ι ρ σ}

@[simp] theorem run_pure (a : α) (s : σ) : (pure a : Prog ι ρ ε α).run d s = .ok a s := rfl

@[simp] theorem run_fail (e : ε) (s : σ) : (fail e : Prog ι ρ ε α).run d s = .error e s := rfl

@[simp] theorem run_perform (op : ι) (s : σ) :
    (perform op : Prog ι ρ ε _).run d s = .ok (d op s).1 (d op s).2 := rfl

@[simp] theorem events_pure (a : α) (s : σ) : (pure a : Prog ι ρ ε α).events d s = [] := rfl

@[simp] theorem events_fail (e : ε) (s : σ) : (fail e : Prog ι ρ ε α).events d s = [] := rfl

@[simp] theorem events_perform (op : ι) (s : σ) :
    (perform op : Prog ι ρ ε _).events d s = [⟨s, op, (d op s).1⟩] := rfl

@[simp] theorem run_bind (p : Prog ι ρ ε α) (f : α → Prog ι ρ ε β) (s : σ) :
    (p >>= f).run d s =
      match p.run d s with
      | .ok a t => (f a).run d t
      | .error e t => .error e t := by
  change (p.bind f).run d s = _
  induction p generalizing s with
  | ret a => rfl
  | fail e => rfl
  | call op next ih => exact ih _ _

@[simp] theorem events_bind (p : Prog ι ρ ε α) (f : α → Prog ι ρ ε β) (s : σ) :
    (p >>= f).events d s = p.events d s ++
      match p.run d s with
      | .ok a t => (f a).events d t
      | .error _ _ => [] := by
  change (p.bind f).events d s = _
  induction p generalizing s with
  | ret a => rfl
  | fail e => rfl
  | call op next ih => exact congrArg (List.cons _) (ih _ _)

theorem run_of_events_nil {p : Prog ι ρ ε α} {s t : σ} {a : α} (h : p.events d s = [])
    (hrun : p.run d s = .ok a t) : t = s := by
  cases p with
  | ret b =>
    cases hrun
    rfl
  | fail e => cases hrun
  | call op next => cases h

/-- `do b = body; while (again(b))`, with `n` rounds of fuel. -/
def loopWhile (body : Prog ι ρ ε β) (again : β → Bool) (e : ε) : Nat → Prog ι ρ ε β
  | 0 => fail e
  | n + 1 => do
    let b ← body
    if again b then loopWhile body again e n else pure b

/-- Every operation is carried out by a program over the other interface. -/
def translate {κ : Type} {τ : κ → Type} (h : (op : ι) → Prog κ τ ε (ρ op)) :
    Prog ι ρ ε α → Prog κ τ ε α
  | .ret a => .ret a
  | .fail e => .fail e
  | .call op next => (h op).bind fun r => (next r).translate h

section Translate

variable {κ : Type} {τ : κ → Type} {h : (op : ι) → Prog κ τ ε (ρ op)}

@[simp] theorem translate_fail (e : ε) : (fail e : Prog ι ρ ε α).translate h = fail e := rfl

theorem translate_perform (op : ι) : (perform op : Prog ι ρ ε _).translate h = h op :=
  bind_pure (h op)

theorem translate_bind (p : Prog ι ρ ε α) (f : α → Prog ι ρ ε β) :
    (p >>= f).translate h = p.translate h >>= fun a => (f a).translate h := by
  change (p.bind f).translate h = (p.translate h).bind fun a => (f a).translate h
  induction p with
  | ret a => rfl
  | fail e => rfl
  | call op next ih =>
    change ((h op).bind fun r => ((next r).bind f).translate h) =
      ((h op).bind fun r => (next r).translate h).bind fun a => (f a).translate h
    simp only [ih]
    exact (bind_assoc (h op) (fun r => (next r).translate h) fun a => (f a).translate h).symm

/-- If every operation is carried out as the device of the first interface does, then so is a
program. -/
theorem translate_run {d : Device ι ρ σ} {d' : Device κ τ σ}
    (hd : ∀ op s, (h op).run d' s = .ok (d op s).1 (d op s).2) (p : Prog ι ρ ε α) (s : σ) :
    (p.translate h).run d' s = p.run d s := by
  induction p generalizing s with
  | ret a => rfl
  | fail e => rfl
  | call op next ih =>
    change (h op >>= fun r => (next r).translate h).run d' s = _
    rw [run_bind, hd op s]
    exact ih _ _

end Translate

def replay {τ : Type} (d : Device ι ρ τ) (tr : List (Event ι ρ σ)) (t : τ) : τ :=
  tr.foldl (fun t e => (d e.op t).2) t

/-- A device that answers as another one does, in related states, runs a program alike. -/
theorem run_replay {τ : Type} {d : Device ι ρ σ} {d' : Device ι ρ τ} {R : σ → τ → Prop}
    (hd : ∀ op s t, R s t → (d' op t).1 = (d op s).1 ∧ R (d op s).2 (d' op t).2)
    (p : Prog ι ρ ε α) {s s' : σ} {t : τ} {a : α} (hR : R s t) (h : p.run d s = .ok a s') :
    p.run d' t = .ok a (replay d' (p.events d s) t) := by
  induction p generalizing s t with
  | ret b =>
    cases h
    rfl
  | fail e => cases h
  | call op next ih =>
    obtain ⟨hreply, hnext⟩ := hd op s t hR
    have hrun := ih _ hnext h
    rw [← hreply] at hrun
    simp only [run, events, replay, List.foldl_cons, hrun]
    rw [hreply]

/-- From a state that satisfies `P` every operation satisfies `E`, whether or not the program
returns, and if it returns then with `Q`. -/
def Triple (d : Device ι ρ σ) (E : Event ι ρ σ → Prop) (P : σ → Prop) (p : Prog ι ρ ε α)
    (Q : α → σ → Prop) : Prop :=
  ∀ s, P s → (∀ e ∈ p.events d s, E e) ∧ ∀ a t, p.run d s = .ok a t → Q a t

variable {E : Event ι ρ σ → Prop} {P : σ → Prop}

theorem Triple.pure {Q : α → σ → Prop} {a : α} (h : ∀ s, P s → Q a s) :
    Triple d E P (pure a : Prog ι ρ ε α) Q := by
  intro s hs
  refine ⟨by simp, ?_⟩
  intro b t ht
  simp only [run_pure, EStateM.Result.ok.injEq] at ht
  rw [← ht.1, ← ht.2]
  exact h s hs

theorem Triple.fail {Q : α → σ → Prop} (e : ε) : Triple d E P (fail e : Prog ι ρ ε α) Q := by
  intro s _
  exact ⟨by simp, fun a t ht => by simp at ht⟩

theorem Triple.perform {op : ι} {Q : ρ op → σ → Prop}
    (h : ∀ s, P s → E ⟨s, op, (d op s).1⟩ ∧ Q (d op s).1 (d op s).2) :
    Triple d E P (perform op : Prog ι ρ ε _) Q := by
  intro s hs
  refine ⟨by simpa using (h s hs).1, ?_⟩
  intro b t ht
  simp only [run_perform, EStateM.Result.ok.injEq] at ht
  rw [← ht.1, ← ht.2]
  exact (h s hs).2

theorem Triple.bind {p : Prog ι ρ ε α} {f : α → Prog ι ρ ε β} {R : α → σ → Prop}
    {Q : β → σ → Prop} (hp : Triple d E P p R) (hf : ∀ a, Triple d E (R a) (f a) Q) :
    Triple d E P (p >>= f) Q := by
  intro s hs
  obtain ⟨he, hr⟩ := hp s hs
  cases hrun : p.run d s with
  | ok a t =>
    obtain ⟨he', hr'⟩ := hf a t (hr a t hrun)
    simp only [events_bind, run_bind, hrun]
    refine ⟨fun e hm => ?_, hr'⟩
    rcases List.mem_append.1 hm with hm | hm
    · exact he e hm
    · exact he' e hm
  | error e t =>
    simp only [events_bind, run_bind, hrun, List.append_nil]
    exact ⟨he, fun b u hu => by cases hu⟩

theorem Triple.weaken {p : Prog ι ρ ε α} {P' : σ → Prop} {Q Q' : α → σ → Prop}
    (h : Triple d E P p Q) (hP : ∀ s, P' s → P s) (hQ : ∀ a t, Q a t → Q' a t) :
    Triple d E P' p Q' := by
  intro s hs
  obtain ⟨he, hr⟩ := h s (hP s hs)
  exact ⟨he, fun a t ht => hQ a t (hr a t ht)⟩

/-- The invariant of a loop holds before each round. It ends on a reply that stops it. -/
theorem Triple.loopWhile {body : Prog ι ρ ε β} {again : β → Bool} {e : ε} {Q : β → σ → Prop}
    (h : Triple d E P body fun b t => if again b then P t else Q b t) (n : Nat) :
    Triple d E P (loopWhile body again e n) Q := by
  induction n with
  | zero => exact .fail e
  | succ n ih =>
    apply Triple.bind h
    intro b
    by_cases hb : again b = true
    · simpa only [hb, ↓reduceIte] using ih
    · simp only [hb]
      exact .pure fun s hs => hs

theorem Triple.translate {κ : Type} {τ : κ → Type} {h : (op : ι) → Prog κ τ ε (ρ op)}
    {d : Device κ τ σ} {E : Event κ τ σ → Prop}
    (hd : ∀ op, Triple d E P (h op) fun _ => P) (p : Prog ι ρ ε α) :
    Triple d E P (p.translate h) fun _ => P := by
  induction p with
  | ret a => exact .pure fun _ hs => hs
  | fail e => exact .fail e
  | call op next ih => exact Triple.bind (hd op) ih

/-- Every operation of the program satisfies `ok`, whatever the replies to the earlier ones are. -/
inductive Uses (ok : ι → Prop) : Prog ι ρ ε α → Prop where
  | pure (a : α) : Uses ok (pure a)
  | fail (e : ε) : Uses ok (fail e)
  | call {op : ι} {next : ρ op → Prog ι ρ ε α} : ok op → (∀ r, Uses ok (next r)) →
      Uses ok (call op next)

variable {ok : ι → Prop}

theorem Uses.perform {op : ι} (h : ok op) : (perform op : Prog ι ρ ε _).Uses ok :=
  .call h fun r => .pure r

theorem Uses.bind {p : Prog ι ρ ε α} {f : α → Prog ι ρ ε β} (hp : p.Uses ok)
    (hf : ∀ a, (f a).Uses ok) : (p >>= f).Uses ok := by
  induction hp with
  | pure a => exact hf a
  | fail e => exact .fail e
  | call hop _ ih => exact .call hop ih

theorem Uses.loopWhile {body : Prog ι ρ ε β} {again : β → Bool} {e : ε} (h : body.Uses ok)
    (n : Nat) : (loopWhile body again e n).Uses ok := by
  induction n with
  | zero => exact .fail e
  | succ n ih =>
    apply h.bind
    intro b
    split_ifs
    · exact ih
    · exact .pure b

theorem Uses.mono {ok' : ι → Prop} (hok : ∀ op, ok op → ok' op) {p : Prog ι ρ ε α}
    (h : p.Uses ok) : p.Uses ok' := by
  induction h with
  | pure a => exact .pure a
  | fail e => exact .fail e
  | call hop _ ih => exact .call (hok _ hop) ih

theorem Uses.triple (hok : ∀ op s, ok op → P s → E ⟨s, op, (d op s).1⟩ ∧ P (d op s).2)
    {p : Prog ι ρ ε α} (h : p.Uses ok) : Triple d E P p fun _ => P := by
  induction h with
  | pure a => exact .pure fun _ hs => hs
  | fail e => exact .fail e
  | @call op next hop _ ih =>
    have hfirst : Triple d E P (Prog.perform op : Prog ι ρ ε _) fun _ => P :=
      .perform fun s hs => hok op s hop hs
    exact hfirst.bind ih

theorem Uses.translate_eq {κ : Type} {τ : κ → Type} {h h' : (op : ι) → Prog κ τ ε (ρ op)}
    (hok : ∀ op, ok op → h op = h' op) {p : Prog ι ρ ε α} (hp : p.Uses ok) :
    p.translate h = p.translate h' := by
  induction hp with
  | pure a => rfl
  | fail e => rfl
  | call hop _ ih =>
    rw [Prog.translate, Prog.translate, hok _ hop]
    congr 1
    funext r
    exact ih r

end Prog

end BordOS.Library
