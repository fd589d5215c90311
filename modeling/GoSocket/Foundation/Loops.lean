import Mathlib.Data.Nat.Basic
import Mathlib.Tactic.Common

/-!
# Loops that end

A `while` loop is given fuel, of which each pass of its body takes one.  The body
may fail, and so may the loop.  `EndsIn` says that the loop ends after so many
passes, whatever more it is given.
-/

namespace GoSocket.Foundation

universe u v

variable {σ : Type u} {α : Type v}

def whileLoop (cond : σ → Bool) (body : σ → Option σ) : Nat → σ → Option σ
  | 0, _ => none
  | fuel + 1, s => if cond s then (body s).bind (whileLoop cond body fuel) else some s

def EndsIn (cond : σ → Bool) (body : σ → Option σ) (passes : Nat) (s t : σ) : Prop :=
  ∀ fuel, passes < fuel → whileLoop cond body fuel s = some t

namespace EndsIn

variable {cond : σ → Bool} {body : σ → Option σ} {passes : Nat} {s t u : σ}

theorem done (passes : Nat) (h : cond s = false) : EndsIn cond body passes s s := by
  intro fuel hfuel
  cases fuel with
  | zero => exact absurd hfuel (Nat.not_lt_zero _)
  | succ fuel => simp [whileLoop, h]

theorem next (hcond : cond s = true) (hbody : body s = some t)
    (h : EndsIn cond body passes t u) : EndsIn cond body (passes + 1) s u := by
  intro fuel hfuel
  cases fuel with
  | zero => exact absurd hfuel (Nat.not_lt_zero _)
  | succ fuel =>
      rw [whileLoop, if_pos hcond, hbody]
      exact h fuel (Nat.lt_of_succ_lt_succ hfuel)

end EndsIn

theorem drop_induction (size : Nat) (hsize : 0 < size) {P : List α → Prop}
    (pass : ∀ l, (l ≠ [] → P (l.drop size)) → P l) (l : List α) : P l := by
  induction hn : l.length using Nat.strong_induction_on generalizing l with
  | _ n ih =>
      subst hn
      refine pass l fun hne => ih _ ?_ _ rfl
      have hpos := List.length_pos_iff.mpr hne
      rw [List.length_drop]
      omega

theorem length_drop_div {size : Nat} (hsize : 0 < size) {l : List α}
    (h : size ≤ l.length) : (l.drop size).length / size + 1 = l.length / size := by
  rw [List.length_drop, ← Nat.add_div_right _ hsize, Nat.sub_add_cancel h]

end GoSocket.Foundation
