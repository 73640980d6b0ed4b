import Mathlib.Data.Set.Card
import BordOS.Library.Transition

namespace BordOS.Library
set_option autoImplicit true
set_option relaxedAutoImplicit false

inductive AllocOp (ι : Type) where
  | alloc (result : Option ι)
  | free (x : ι)

/-- An allocator over a set of elements in use. It hands out only elements that are not in use
and refuses a request only when every element is. -/
inductive AllocStep : Set ι → AllocOp ι → Set ι → Prop where
  | alloc {used : Set ι} {x : ι} : x ∉ used → AllocStep used (.alloc (some x)) (insert x used)
  | full {used : Set ι} : used = Set.univ → AllocStep used (.alloc none) used
  | free {used : Set ι} {x : ι} : x ∈ used → AllocStep used (.free x) (used \ {x})

def AllocOp.held : AllocOp ι → Set ι → Set ι
  | .alloc none, held => held
  | .alloc (some x), held => insert x held
  | .free x, held => held \ {x}

def AllocOp.Honest : AllocOp ι → Set ι → Prop
  | .alloc _, _ => True
  | .free x, held => x ∈ held

/-- An element that a client holds is in use, and the rest of what is in use never changes. -/
structure Ledger (reserved used held : Set ι) : Prop where
  used_eq : used = reserved ∪ held
  not_reserved : ∀ x ∈ held, x ∉ reserved

variable {ι : Type} {reserved used used' held : Set ι}

theorem AllocStep.not_mem {x : ι} (h : AllocStep used (.alloc (some x)) used') : x ∉ used := by
  cases h with
  | alloc hx => exact hx

theorem AllocStep.mem {x : ι} (h : AllocStep used (.alloc (some x)) used') : x ∈ used' := by
  cases h with
  | alloc hx => exact Set.mem_insert x used

theorem AllocStep.subset {r : Option ι} (h : AllocStep used (.alloc r) used') : used ⊆ used' := by
  cases h with
  | alloc hx => exact Set.subset_insert _ _
  | full hu => exact subset_rfl

theorem AllocStep.eq_univ (h : AllocStep used (.alloc none) used') : used = Set.univ := by
  cases h with
  | full hu => exact hu

theorem AllocStep.eq_remove {x : ι} (h : AllocStep used (.free x) used') : used' = used \ {x} := by
  cases h with
  | free hx => rfl

theorem Ledger.start : Ledger reserved reserved ∅ :=
  ⟨(Set.union_empty _).symm, fun _ hx => hx.elim⟩

theorem Ledger.step {op : AllocOp ι} (h : Ledger reserved used held)
    (hs : AllocStep used op used') (hh : op.Honest held) :
    Ledger reserved used' (op.held held) := by
  obtain ⟨he, hd⟩ := h
  cases hs with
  | @alloc x hx =>
    rw [he] at hx ⊢
    refine ⟨(Set.union_insert).symm, ?_⟩
    rintro y (rfl | hy) hr
    · exact hx (.inl hr)
    · exact hd y hy hr
  | full hu => exact ⟨he, hd⟩
  | @free x hx =>
    have hr : x ∉ reserved := hd x hh
    refine ⟨?_, fun y hy => hd y hy.1⟩
    rw [he, Set.union_sdiff_distrib, Set.sdiff_singleton_eq_self hr]
    rfl

theorem Ledger.fresh {x : ι} (h : Ledger reserved used held) (hx : x ∉ used) :
    x ∉ reserved ∧ x ∉ held := by
  rw [h.used_eq] at hx
  exact ⟨fun hr => hx (.inl hr), fun hh => hx (.inr hh)⟩

/-- As many requests as there are free elements get each of these once. -/
theorem AllocStep.drain [Finite ι] {l : List (Step (Set ι) (AllocOp ι))} {rs : List (Option ι)}
    (h : Run AllocStep used l used') (hl : labels l = rs.map .alloc)
    (hc : rs.length = (usedᶜ).ncard) :
    ∃ xs : List ι, rs = xs.map some ∧ xs.Nodup ∧ {x | x ∈ xs} = usedᶜ ∧ used' = Set.univ := by
  induction h generalizing rs with
  | nil s =>
    obtain rfl : rs = [] := List.map_eq_nil_iff.1 hl.symm
    have he : sᶜ = ∅ := (Set.ncard_eq_zero (Set.toFinite _)).1 hc.symm
    refine ⟨[], rfl, .nil, ?_, Set.compl_empty_iff.1 he⟩
    rw [he]
    ext x
    simp
  | @cons s t u a l hn hr ih =>
    cases rs with
    | nil => cases hl
    | cons r rs =>
      rw [labels_cons, List.map_cons, List.cons.injEq] at hl
      obtain ⟨rfl, hl⟩ := hl
      cases hn with
      | @alloc x hx =>
        have hcompl : (insert x s)ᶜ = sᶜ \ {x} := by
          ext y
          simp [and_comm]
        have hcard : rs.length = ((insert x s)ᶜ).ncard := by
          rw [hcompl, Set.ncard_sdiff_singleton_of_mem hx, ← hc]
          rfl
        obtain ⟨xs, rfl, hnd, hset, hu⟩ := ih hl hcard
        rw [hcompl] at hset
        have hfresh : x ∉ xs := fun hxs => (hset.le hxs).2 rfl
        have hcons : {y | y ∈ x :: xs} = insert x {y | y ∈ xs} := by
          ext y
          simp
        refine ⟨x :: xs, rfl, List.nodup_cons.2 ⟨hfresh, hnd⟩, ?_, hu⟩
        rw [hcons, hset, Set.insert_sdiff_singleton, Set.insert_eq_of_mem hx]
      | full hu =>
        rw [hu, Set.compl_univ, Set.ncard_empty] at hc
        cases hc

end BordOS.Library
