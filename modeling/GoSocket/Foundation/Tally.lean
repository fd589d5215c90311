import GoSocket.Foundation.Transition

/-!
# What a run leaves behind

Each step adds a list to what is left behind.  What holds of the state and that
list before a run holds of them behind it.
-/

namespace GoSocket.Foundation

universe u v w

variable {σ : Type u} {α : Type v} {β : Type w}

def tally (step : σ → α → Option σ) (adds : σ → α → List β) (s : σ) :
    List α → List β
  | [] => []
  | a :: rest =>
      match step s a with
      | some t => tally step adds t rest ++ adds s a
      | none => []

/-- What each step that meets a condition keeps of a state and of what is left behind, a
run keeps. -/
theorem tally_run {step : σ → α → Option σ} {adds : σ → α → List β}
    {ok : σ → α → Prop} {I : σ → List β → Prop}
    (hstep : ∀ s a t left, I s left → ok s a → step s a = some t → I t (adds s a ++ left))
    {s t : σ} {actions : List α} {left : List β} (h : I s left)
    (hmeets : Meets step ok s actions) (hrun : run step s actions = some t) :
    I t (tally step adds s actions ++ left) := by
  induction actions generalizing s left with
  | nil =>
      cases hrun
      exact h
  | cons a rest ih =>
      rw [run] at hrun
      cases hs : step s a with
      | none =>
          rw [hs] at hrun
          cases hrun
      | some u =>
          rw [hs] at hrun
          obtain ⟨hok, hrest⟩ := hmeets u hs
          have hleft := ih (hstep s a u left h hok hs) hrest hrun
          rw [tally, hs]
          dsimp only
          rw [List.append_assoc]
          exact hleft

theorem tally_eq_nil_iff {step : σ → α → Option σ} {adds : σ → α → List β}
    {ok : σ → α → Prop} (hadds : ∀ s a, adds s a = [] ↔ ok s a) (s : σ)
    (actions : List α) : tally step adds s actions = [] ↔ Meets step ok s actions := by
  induction actions generalizing s with
  | nil => simp [tally, Meets]
  | cons a rest ih =>
      cases hs : step s a with
      | none => simp [tally, Meets, hs]
      | some t => simp [tally, Meets, hs, ih, hadds, and_comm]

end GoSocket.Foundation
