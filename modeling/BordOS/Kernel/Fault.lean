import Mathlib.Tactic.Common

namespace BordOS
set_option autoImplicit true
set_option relaxedAutoImplicit false

/-- How a kernel routine stops instead of returning. A failed `assert` calls `abort_handler`
with the text of its condition and halts; the others have no defined meaning in the source. -/
inductive Fault where
  | assertion (cond : String)
  | outOfBounds (index : Nat)
  | unmapped (addr : BitVec 32)
  | divideError
  | outOfFuel
deriving DecidableEq, Repr

/-- Kernel code over the static data `σ` of its file. A fault keeps the state it stopped in. -/
abbrev KernelM (σ : Type) := EStateM Fault σ

def kassert (cond : Bool) (text : String) : KernelM σ Unit :=
  if cond then pure () else throw (.assertion text)

@[simp] theorem kassert_true (text : String) (s : σ) :
    (kassert true text).run s = .ok () s := rfl

@[simp] theorem kassert_false (text : String) (s : σ) :
    (kassert false text).run s = .error (.assertion text) s := rfl

@[simp] theorem kernelM_run_throw (e : Fault) (s : σ) :
    (throw e : KernelM σ α).run s = .error e s := rfl

end BordOS
