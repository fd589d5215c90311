import GoSocket.Foundation.Fallible

/-!
# Computations whose input is cut

Two states hold the same input, but in the second one the input ends earlier.
A computation does the same in both, unless it misses in the second state what
was cut off, and then it stops there for that reason.
-/

namespace GoSocket.Foundation

universe u

variable {ε σ τ α β : Type u}

/-- From related states `y` stops, or returns what `x` returns or fails with the
error of `x`, and leaves related states. -/
def Cuts (R : σ → τ → Prop) (Stop : ε → Prop) (x : Fallible ε σ α)
    (y : Fallible ε τ α) : Prop :=
  ∀ s t, R s t →
    (∃ e t', exec y t = (.error e, t') ∧ Stop e) ∨
      ∃ outcome s' t', exec x s = (outcome, s') ∧ exec y t = (outcome, t') ∧ R s' t'

namespace Cuts

variable {R : σ → τ → Prop} {Stop : ε → Prop} {x : Fallible ε σ α}
  {y : Fallible ε τ α}

theorem pure (a : α) :
    Cuts R Stop (Pure.pure a : Fallible ε σ α) (Pure.pure a : Fallible ε τ α) :=
  fun s t h => .inr ⟨.ok a, s, t, rfl, rfl, h⟩

theorem throw (e : ε) :
    Cuts R Stop (throwThe ε e : Fallible ε σ α) (throwThe ε e : Fallible ε τ α) :=
  fun s t h => .inr ⟨.error e, s, t, rfl, rfl, h⟩

theorem bind_of {f : α → Fallible ε σ β} {g : α → Fallible ε τ β}
    (h : Cuts R Stop x y)
    (hf : ∀ a s s', exec x s = (.ok a, s') → Cuts R Stop (f a) (g a)) :
    Cuts R Stop (x >>= f) (y >>= g) := by
  intro s t hst
  rcases h s t hst with ⟨e, t', hy, hstop⟩ | ⟨outcome, s', t', hx, hy, hst'⟩
  · exact .inl ⟨e, t', exec_bind_of_error hy, hstop⟩
  · cases outcome with
    | ok a =>
        rw [exec_bind_of_ok hx, exec_bind_of_ok hy]
        exact hf a s s' hx s' t' hst'
    | error e =>
        rw [exec_bind_of_error hx, exec_bind_of_error hy]
        exact .inr ⟨.error e, s', t', rfl, rfl, hst'⟩

theorem bind {f : α → Fallible ε σ β} {g : α → Fallible ε τ β}
    (h : Cuts R Stop x y) (hf : ∀ a, Cuts R Stop (f a) (g a)) :
    Cuts R Stop (x >>= f) (y >>= g) :=
  h.bind_of fun a _ _ _ => hf a

end Cuts

end GoSocket.Foundation
