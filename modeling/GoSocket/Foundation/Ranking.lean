import GoSocket.Foundation.Transition

/-!
# Runs that end

A rank that every step lowers bounds the length of a run.  The rank may depend on
a witness that the steps of the run carry along.
-/

namespace GoSocket.Foundation

universe u v w

variable {σ : Type u} {α : Type v} {β : Type w}
variable {step : σ → α → Option σ} {ok : σ → α → Prop}

/-- No run whose steps meet the condition is longer than `bound`. -/
def EndsWithin (step : σ → α → Option σ) (ok : σ → α → Prop) (s : σ)
    (bound : Nat) : Prop :=
  ∀ actions t, Meets step ok s actions → run step s actions = some t →
    actions.length ≤ bound

theorem EndsWithin.mono {s : σ} {bound bound' : Nat}
    (h : EndsWithin step ok s bound) (hle : bound ≤ bound') :
    EndsWithin step ok s bound' :=
  fun actions t hmeets hrun => Nat.le_trans (h actions t hmeets hrun) hle

theorem EndsWithin.of_rank {I : σ → β → Prop} {rank : σ → β → Nat}
    (hstep : ∀ s a t b, I s b → ok s a → step s a = some t →
      ∃ b', I t b' ∧ rank t b' < rank s b) {s : σ} {b : β} (h : I s b) :
    EndsWithin step ok s (rank s b) := by
  intro actions
  induction actions generalizing s b with
  | nil => exact fun _ _ _ => Nat.zero_le _
  | cons a rest ih =>
      intro t hmeets hrun
      rw [run] at hrun
      cases hs : step s a with
      | none =>
          rw [hs] at hrun
          cases hrun
      | some u =>
          rw [hs] at hrun
          obtain ⟨hok, hrest⟩ := hmeets u hs
          obtain ⟨b', h', hlt⟩ := hstep s a u b h hok hs
          exact Nat.lt_of_le_of_lt (ih h' t hrest hrun) hlt

end GoSocket.Foundation
