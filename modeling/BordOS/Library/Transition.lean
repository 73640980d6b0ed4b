import Mathlib.Data.List.Basic

namespace BordOS.Library
set_option autoImplicit true
set_option relaxedAutoImplicit false

structure Step (σ α : Type) where
  pre : σ
  label : α
  post : σ

/-- Finite runs of a labelled step relation, with every step they take. -/
inductive Run (next : σ → α → σ → Prop) : σ → List (Step σ α) → σ → Prop where
  | nil (s : σ) : Run next s [] s
  | cons {s t u : σ} {a : α} {l : List (Step σ α)} :
      next s a t → Run next t l u → Run next s (⟨s, a, t⟩ :: l) u

def labels (l : List (Step σ α)) : List α := l.map Step.label

@[simp] theorem labels_nil : labels ([] : List (Step σ α)) = [] := rfl

@[simp] theorem labels_cons (st : Step σ α) (l : List (Step σ α)) :
    labels (st :: l) = st.label :: labels l := rfl

theorem Run.append {next : σ → α → σ → Prop} (h : Run next s l t) (h' : Run next t l' u) :
    Run next s (l ++ l') u := by
  induction h with
  | nil => exact h'
  | cons hn hr ih => exact .cons hn (ih h')

theorem Run.map {next : σ → α → σ → Prop} {next' : τ → α → τ → Prop} {f : σ → τ}
    (hf : ∀ s a t, next s a t → next' (f s) a (f t)) (h : Run next s l t) :
    Run next' (f s) (l.map fun st => ⟨f st.pre, st.label, f st.post⟩) (f t) := by
  induction h with
  | nil s => exact .nil (f s)
  | cons hn hr ih => exact .cons (hf _ _ _ hn) ih

theorem Run.split {next : σ → α → σ → Prop} {st : Step σ α} (h : Run next s (l ++ st :: l') t) :
    Run next s l st.pre ∧ next st.pre st.label st.post ∧ Run next st.post l' t := by
  induction l generalizing s with
  | nil =>
    cases h with
    | cons hn hr => exact ⟨.nil _, hn, hr⟩
  | cons st' l ih =>
    cases h with
    | cons hn hr =>
      obtain ⟨hl, hst, hl'⟩ := ih hr
      exact ⟨.cons hn hl, hst, hl'⟩

/-- A property that holds at the start and that every step of the run keeps holds before and
after each of its steps, and at its end. -/
theorem Run.invariant {next : σ → α → σ → Prop} {I : σ → Prop} (h : Run next s l t)
    (hs : I s) (hstep : ∀ st ∈ l, next st.pre st.label st.post → I st.pre → I st.post) :
    I t ∧ ∀ st ∈ l, I st.pre ∧ I st.post := by
  induction h with
  | nil => exact ⟨hs, fun st hst => by cases hst⟩
  | cons hn hr ih =>
    have ht := hstep _ (.head _) hn hs
    obtain ⟨hu, hl⟩ := ih ht (fun st hst => hstep st (.tail _ hst))
    refine ⟨hu, ?_⟩
    intro st hst
    rcases List.mem_cons.1 hst with he | hm
    · subst he; exact ⟨hs, ht⟩
    · exact hl st hm

theorem Run.invariant_end {next : σ → α → σ → Prop} {I : σ → Prop} (h : Run next s l t)
    (hs : I s) (hstep : ∀ s a t, next s a t → I s → I t) : I t :=
  (h.invariant hs fun st _ hn => hstep st.pre st.label st.post hn).1

/-- Where every step of one kind adds one to `w` and every step of another kind takes one from it,
the steps of a run are in balance with `w`. -/
theorem Run.balance {next : σ → α → σ → Prop} {up down : Step σ α → Bool} {w : σ → Nat}
    (h : Run next s l t) (hstep : ∀ s a t, next s a t →
      (up ⟨s, a, t⟩).toNat + w s = (down ⟨s, a, t⟩).toNat + w t) :
    l.countP up + w s = l.countP down + w t := by
  induction h with
  | nil => rfl
  | @cons s u t a l hn hr ih =>
    have hfirst := hstep s a u hn
    have hcount (p : Step σ α → Bool) :
        (⟨s, a, u⟩ :: l).countP p = l.countP p + (p ⟨s, a, u⟩).toNat := by
      rw [List.countP_cons]
      cases p ⟨s, a, u⟩ <;> rfl
    rw [hcount, hcount]
    omega

end BordOS.Library
