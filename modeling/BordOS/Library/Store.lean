import Mathlib.Data.List.Basic
import Mathlib.Logic.Function.Basic

namespace BordOS.Library
set_option autoImplicit true
set_option relaxedAutoImplicit false

variable {κ ν : Type} [DecidableEq κ]

inductive StoreOp (κ ν : Type) where
  | put (k : κ) (v : ν)
  | get (k : κ)

namespace StoreOp

def after : List (StoreOp κ ν) → (κ → ν) → κ → ν
  | [], m => m
  | put k v :: ops, m => after ops (Function.update m k v)
  | get _ :: ops, m => after ops m

/-- What the store answers to those that ask for a value. -/
def answers : List (StoreOp κ ν) → (κ → ν) → List ν
  | [], _ => []
  | put k v :: ops, m => answers ops (Function.update m k v)
  | get k :: ops, m => m k :: answers ops m

def lastPut (k : κ) : List (StoreOp κ ν) → Option ν
  | [] => none
  | put j v :: ops => (lastPut k ops).or (if j = k then some v else none)
  | get _ :: ops => lastPut k ops

def gets : List (StoreOp κ ν) → Nat
  | [] => 0
  | put _ _ :: ops => gets ops
  | get _ :: ops => gets ops + 1

theorem after_eq (ops : List (StoreOp κ ν)) (m : κ → ν) (k : κ) :
    after ops m k = (lastPut k ops).getD (m k) := by
  induction ops generalizing m with
  | nil => rfl
  | cons op ops ih =>
    cases op with
    | get j => exact ih m
    | put j v =>
      rw [after, lastPut, ih]
      cases lastPut k ops with
      | some w => rfl
      | none =>
        by_cases hj : j = k
        · subst hj
          simp
        · simp [hj, Function.update_of_ne (Ne.symm hj)]

theorem length_answers (ops : List (StoreOp κ ν)) (m : κ → ν) :
    (answers ops m).length = gets ops := by
  induction ops generalizing m with
  | nil => rfl
  | cons op ops ih =>
    cases op with
    | put k v => exact ih _
    | get k => exact congrArg (· + 1) (ih m)

theorem answers_append (ops ops' : List (StoreOp κ ν)) (m : κ → ν) :
    answers (ops ++ ops') m = answers ops m ++ answers ops' (after ops m) := by
  induction ops generalizing m with
  | nil => rfl
  | cons op ops ih =>
    cases op with
    | put k v => exact ih _
    | get k => exact congrArg (m k :: ·) (ih m)

theorem answers_get (ops ops' : List (StoreOp κ ν)) (k : κ) (m : κ → ν) :
    (answers (ops ++ get k :: ops') m)[gets ops]? = some ((lastPut k ops).getD (m k)) := by
  rw [answers_append, ← length_answers ops m, List.getElem?_append_right (Nat.le_refl _),
    Nat.sub_self, answers, List.getElem?_cons_zero, after_eq]

end StoreOp

end BordOS.Library
