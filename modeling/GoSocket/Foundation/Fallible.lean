import Mathlib.Tactic.Common

/-!
# Computations that fail and keep their state

A computation reads and updates a state and may end early with an error.  The
state reached before the error survives it, so that what a failing run did to
its environment can still be stated.
-/

namespace GoSocket.Foundation

universe u

variable {ε σ α β : Type u}

abbrev Fallible (ε σ α : Type u) := ExceptT ε (StateM σ) α

def exec (x : Fallible ε σ α) (s : σ) : Except ε α × σ := x.run.run s

@[simp] theorem exec_pure (a : α) (s : σ) :
    exec (pure a : Fallible ε σ α) s = (.ok a, s) := rfl

@[simp] theorem exec_throw (e : ε) (s : σ) :
    exec (throw e : Fallible ε σ α) s = (.error e, s) := rfl

theorem exec_bind (x : Fallible ε σ α) (f : α → Fallible ε σ β) (s : σ) :
    exec (x >>= f) s =
      match exec x s with
      | (.ok a, t) => exec (f a) t
      | (.error e, t) => (.error e, t) := by
  unfold exec
  rw [ExceptT.run_bind, StateT.run_bind]
  change (match x.run.run s with | (a, t) => _) = _
  cases x.run.run s with
  | mk outcome t => cases outcome <;> rfl

theorem exec_bind_of_ok {x : Fallible ε σ α} {f : α → Fallible ε σ β}
    {s t : σ} {a : α} (h : exec x s = (.ok a, t)) :
    exec (x >>= f) s = exec (f a) t := by
  rw [exec_bind, h]

theorem exec_bind_of_error {x : Fallible ε σ α} {f : α → Fallible ε σ β}
    {s t : σ} {e : ε} (h : exec x s = (.error e, t)) :
    exec (x >>= f) s = (.error e, t) := by
  rw [exec_bind, h]

theorem exec_bind_eq_ok {x : Fallible ε σ α} {f : α → Fallible ε σ β}
    {s t : σ} {b : β} :
    exec (x >>= f) s = (.ok b, t) ↔
      ∃ a u, exec x s = (.ok a, u) ∧ exec (f a) u = (.ok b, t) := by
  constructor
  · intro h
    cases hx : exec x s with
    | mk outcome u =>
        cases outcome with
        | ok a => exact ⟨a, u, rfl, by rwa [exec_bind_of_ok hx] at h⟩
        | error e =>
            rw [exec_bind_of_error hx] at h
            simp at h
  · rintro ⟨a, u, hx, hf⟩
    rw [exec_bind_of_ok hx, hf]

theorem exec_tryCatch (x : Fallible ε σ α) (handler : ε → Fallible ε σ α) (s : σ) :
    exec (tryCatch x handler) s =
      match exec x s with
      | (.ok a, t) => (.ok a, t)
      | (.error e, t) => exec (handler e) t := by
  unfold exec
  have hrun : (tryCatch x handler).run = x.run >>= fun outcome =>
      match outcome with
      | .ok a => pure (.ok a)
      | .error e => (handler e).run := rfl
  rw [hrun, StateT.run_bind]
  change (match x.run.run s with | (a, t) => _) = _
  cases x.run.run s with
  | mk outcome t => cases outcome <;> rfl

/-! ## One computation over two kinds of state -/

/-- From related states `x` does what `y` does: it returns the same and leaves
related states, or both fail, with failures that `E` relates. -/
def Relates {τ : Type u} (R : σ → τ → Prop) (E : ε × σ → ε × τ → Prop)
    (x : Fallible ε σ α) (y : Fallible ε τ α) : Prop :=
  ∀ s t, R s t →
    (∃ a s' t', exec x s = (.ok a, s') ∧ exec y t = (.ok a, t') ∧ R s' t') ∨
      ∃ e s' e' t', exec x s = (.error e, s') ∧ exec y t = (.error e', t') ∧
        E (e, s') (e', t')

/-- From related states `x` does what `y` does: it returns the same and leaves
related states, or fails where `y` fails. -/
def Simulates {τ : Type u} (R : σ → τ → Prop) (x : Fallible ε σ α)
    (y : Fallible ε τ α) : Prop :=
  ∀ s t, R s t →
    (∃ a s' t', exec x s = (.ok a, s') ∧ exec y t = (.ok a, t') ∧ R s' t') ∨
      ∃ e s' e' t', exec x s = (.error e, s') ∧ exec y t = (.error e', t')

theorem simulates_iff_relates {τ : Type u} {R : σ → τ → Prop} {x : Fallible ε σ α}
    {y : Fallible ε τ α} :
    Simulates R x y ↔ Relates R (fun _ _ => True) x y := by
  simp [Simulates, Relates]

namespace Relates

variable {τ : Type u} {R : σ → τ → Prop} {E : ε × σ → ε × τ → Prop}
  {x : Fallible ε σ α} {y : Fallible ε τ α}

theorem pure (a : α) :
    Relates R E (Pure.pure a : Fallible ε σ α) (Pure.pure a : Fallible ε τ α) :=
  fun s t h => .inl ⟨a, s, t, rfl, rfl, h⟩

theorem throw {e : ε} (hthrow : ∀ s t, R s t → E (e, s) (e, t)) :
    Relates R E (throwThe ε e : Fallible ε σ α) (throwThe ε e : Fallible ε τ α) :=
  fun s t h => .inr ⟨e, s, e, t, rfl, rfl, hthrow s t h⟩

theorem bind {f : α → Fallible ε σ β} {g : α → Fallible ε τ β}
    (h : Relates R E x y) (hf : ∀ a, Relates R E (f a) (g a)) :
    Relates R E (x >>= f) (y >>= g) := by
  intro s t hst
  rcases h s t hst with ⟨a, s', t', hx, hy, hst'⟩ | ⟨e, s', e', t', hx, hy, hfail⟩
  · rw [exec_bind_of_ok hx, exec_bind_of_ok hy]
    exact hf a s' t' hst'
  · rw [exec_bind_of_error hx, exec_bind_of_error hy]
    exact .inr ⟨e, s', e', t', rfl, rfl, hfail⟩

theorem map (f : α → β) (h : Relates R E x y) :
    Relates R E (f <$> x) (f <$> y) := by
  rw [map_eq_pure_bind, map_eq_pure_bind]
  exact h.bind fun a => .pure (f a)

end Relates

end GoSocket.Foundation
