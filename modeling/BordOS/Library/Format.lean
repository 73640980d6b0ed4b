import Mathlib.Tactic.Common

namespace BordOS.Library
set_option autoImplicit true
set_option relaxedAutoImplicit false

/-- A language of format strings: a mark that starts a directive, and the letters that may follow
it with what they stand for. -/
structure FormatSyntax (α κ : Type) where
  mark : α
  conv : α → Option κ

/-- A piece of a format string: a character that stands for itself, or a directive. -/
inductive FormatPiece (α κ : Type) where
  | literal (c : α)
  | directive (k : κ)
deriving DecidableEq, Repr

def FormatPiece.directive? : FormatPiece α κ → Option κ
  | .literal _ => none
  | .directive k => some k

def directives (ps : List (FormatPiece α κ)) : List κ := ps.filterMap FormatPiece.directive?

/-- How the pieces of a string end: at its end, with a mark alone in the last place, or at a mark
that no letter of the language follows. -/
inductive FormatEnd where
  | done
  | mark
  | unsupported
deriving DecidableEq, Repr

inductive FormatSyntax.Reads (f : FormatSyntax α κ) :
    List α → List (FormatPiece α κ) → FormatEnd → Prop where
  | done : Reads f [] [] .done
  | mark : Reads f [f.mark] [] .mark
  | unsupported {c : α} {cs : List α} (hc : f.conv c = none) :
      Reads f (f.mark :: c :: cs) [] .unsupported
  | literal {c : α} {cs : List α} {ps : List (FormatPiece α κ)} {e : FormatEnd}
      (hc : c ≠ f.mark) (h : Reads f cs ps e) : Reads f (c :: cs) (.literal c :: ps) e
  | directive {c : α} {k : κ} {cs : List α} {ps : List (FormatPiece α κ)} {e : FormatEnd}
      (hc : f.conv c = some k) (h : Reads f cs ps e) :
      Reads f (f.mark :: c :: cs) (.directive k :: ps) e

namespace FormatSyntax

variable {α κ : Type} {f : FormatSyntax α κ} {cs : List α}

theorem Reads.unique {ps ps' : List (FormatPiece α κ)} {e e' : FormatEnd} (h : f.Reads cs ps e)
    (h' : f.Reads cs ps' e') : ps = ps' ∧ e = e' := by
  induction h generalizing ps' e' with
  | done =>
    cases h'
    exact ⟨rfl, rfl⟩
  | mark =>
    cases h' with
    | mark => exact ⟨rfl, rfl⟩
    | literal hc _ => exact absurd rfl hc
  | unsupported hc =>
    cases h' with
    | unsupported _ => exact ⟨rfl, rfl⟩
    | literal hc' _ => exact absurd rfl hc'
    | directive hc' _ =>
      rw [hc] at hc'
      cases hc'
  | literal hc _ ih =>
    cases h' with
    | mark => exact absurd rfl hc
    | unsupported _ => exact absurd rfl hc
    | directive _ _ => exact absurd rfl hc
    | literal _ h' =>
      obtain ⟨rfl, rfl⟩ := ih h'
      exact ⟨rfl, rfl⟩
  | directive hc _ ih =>
    cases h' with
    | unsupported hc' =>
      rw [hc] at hc'
      cases hc'
    | literal hc' _ => exact absurd rfl hc'
    | directive hc' h' =>
      rw [hc] at hc'
      cases hc'
      obtain ⟨rfl, rfl⟩ := ih h'
      exact ⟨rfl, rfl⟩

variable [DecidableEq α]

def read (f : FormatSyntax α κ) : List α → List (FormatPiece α κ) × FormatEnd
  | [] => ([], .done)
  | [c] => if c = f.mark then ([], .mark) else ([.literal c], .done)
  | c :: c' :: cs =>
    if c = f.mark then
      match f.conv c' with
      | none => ([], .unsupported)
      | some k =>
        let rest := f.read cs
        (.directive k :: rest.1, rest.2)
    else
      let rest := f.read (c' :: cs)
      (.literal c :: rest.1, rest.2)

theorem read_reads (f : FormatSyntax α κ) (cs : List α) :
    f.Reads cs (f.read cs).1 (f.read cs).2 := by
  induction cs using read.induct f with
  | case1 => exact .done
  | case2 =>
    rw [read, if_pos rfl]
    exact .mark
  | case3 c hc =>
    rw [read, if_neg hc]
    exact .literal hc .done
  | case4 c cs hk =>
    rw [read, if_pos rfl, hk]
    exact .unsupported hk
  | case5 c cs k hk ih =>
    rw [read, if_pos rfl, hk]
    exact .directive hk ih
  | case6 c c' cs hc ih =>
    rw [read, if_neg hc]
    exact .literal hc ih

end FormatSyntax

end BordOS.Library
