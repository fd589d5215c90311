import Mathlib.Tactic.Common

/-!
# Labelled transition systems

A system is an executable step function: the action is taken from the state,
or cannot be taken there.  `Reachable` allows only the steps that meet a
condition; with the condition `AnyStep` it is reachability over all runs.
-/

namespace GoSocket.Foundation

universe u v w x

variable {σ : Type u} {α : Type v} {τ : Type w} {β : Type x}

def AnyStep : σ → α → Prop := fun _ _ => True

/-- The states reached from `s` by steps that meet the condition. -/
inductive Reachable (step : σ → α → Option σ) (ok : σ → α → Prop) (s : σ) :
    σ → Prop
  | refl : Reachable step ok s s
  | tail {t u : σ} (a : α) (h : Reachable step ok s t) (hok : ok t a)
      (hstep : step t a = some u) : Reachable step ok s u

def run (step : σ → α → Option σ) (s : σ) : List α → Option σ
  | [] => some s
  | a :: rest =>
      match step s a with
      | some t => run step t rest
      | none => none

def Throughout (step : σ → α → Option σ) (P : σ → Prop) (s : σ) :
    List α → Prop
  | [] => P s
  | a :: rest => P s ∧ ∀ t, step s a = some t → Throughout step P t rest

def Meets (step : σ → α → Option σ) (ok : σ → α → Prop) (s : σ) :
    List α → Prop
  | [] => True
  | a :: rest => ∀ t, step s a = some t → ok s a ∧ Meets step ok t rest

theorem meets_anyStep {step : σ → α → Option σ} (s : σ) (actions : List α) :
    Meets step AnyStep s actions := by
  induction actions generalizing s with
  | nil => trivial
  | cons a rest ih => exact fun t _ => ⟨trivial, ih t⟩

instance decidableMeets {step : σ → α → Option σ} {ok : σ → α → Prop}
    [∀ s a, Decidable (ok s a)] :
    (actions : List α) → (s : σ) → Decidable (Meets step ok s actions)
  | [], _ => .isTrue trivial
  | a :: rest, s =>
      match hs : step s a with
      | none => .isTrue fun t ht => by cases hs.symm.trans ht
      | some t =>
          have : Decidable (Meets step ok t rest) := decidableMeets rest t
          decidable_of_iff (ok s a ∧ Meets step ok t rest)
            ⟨fun h u hu => by cases hs.symm.trans hu; exact h, fun h => h t hs⟩

/-- Where a step keeps the property exactly if it meets the condition, a run
does; an invariant of all runs may be used. -/
theorem throughout_iff_meets {step : σ → α → Option σ} {I P : σ → Prop}
    {ok : σ → α → Prop}
    (hinv : ∀ s a t, I s → step s a = some t → I t)
    (hstep : ∀ s a t, I s → P s → step s a = some t → (P t ↔ ok s a)) {s : σ}
    (hi : I s) (hs : P s) (actions : List α) :
    Throughout step P s actions ↔ Meets step ok s actions := by
  induction actions generalizing s with
  | nil => simp [Throughout, Meets, hs]
  | cons a rest ih =>
      simp only [Throughout, Meets, hs, true_and]
      refine forall_congr' fun t => forall_congr' fun ht => ?_
      have hit := hinv s a t hi ht
      constructor
      · intro hrest
        have hPt : P t := by
          cases rest with
          | nil => exact hrest
          | cons b rest => exact hrest.1
        exact ⟨(hstep s a t hi hs ht).mp hPt, (ih hit hPt).mp hrest⟩
      · rintro ⟨hok, hrest⟩
        exact (ih hit ((hstep s a t hi hs ht).mpr hok)).mpr hrest

/-- Where each step takes a witness to another one, clean exactly if the first was
and the step meets the condition, a run does. -/
theorem clean_iff_meets {step : σ → α → Option σ} {ok : σ → α → Prop}
    {I : σ → β → Prop} {clean : β → Prop}
    (hstep : ∀ s a t b, I s b → step s a = some t →
      ∃ b', I t b' ∧ (clean b' ↔ clean b ∧ ok s a))
    {s t : σ} {actions : List α} {b : β} (h : I s b)
    (hrun : run step s actions = some t) :
    ∃ b', I t b' ∧ (clean b' ↔ clean b ∧ Meets step ok s actions) := by
  induction actions generalizing s b with
  | nil =>
      cases hrun
      exact ⟨b, h, by simp [Meets]⟩
  | cons a rest ih =>
      rw [run] at hrun
      cases hs : step s a with
      | none =>
          rw [hs] at hrun
          cases hrun
      | some u =>
          rw [hs] at hrun
          obtain ⟨b₁, h₁, hclean₁⟩ := hstep s a u b h hs
          obtain ⟨b₂, h₂, hclean₂⟩ := ih h₁ hrun
          exact ⟨b₂, h₂, by simp [hclean₂, hclean₁, Meets, hs, and_assoc]⟩

theorem Throughout.of_run {step : σ → α → Option σ} {P : σ → Prop} {s t : σ}
    {actions : List α} (h : Throughout step P s actions)
    (hrun : run step s actions = some t) : P t := by
  induction actions generalizing s with
  | nil =>
      cases hrun
      exact h
  | cons a rest ih =>
      rw [run] at hrun
      cases hs : step s a with
      | none =>
          rw [hs] at hrun
          cases hrun
      | some u =>
          rw [hs] at hrun
          exact ih (h.2 u hs) hrun

namespace Reachable

variable {step : σ → α → Option σ} {ok ok' : σ → α → Prop} {s t u : σ}

theorem single (a : α) (hok : ok s a) (hstep : step s a = some t) :
    Reachable step ok s t :=
  .tail a .refl hok hstep

theorem trans (h : Reachable step ok s t) (h' : Reachable step ok t u) :
    Reachable step ok s u := by
  induction h' with
  | refl => exact h
  | tail a _ hok hstep ih => exact ih.tail a hok hstep

theorem mono (hok : ∀ s a, ok s a → ok' s a) (h : Reachable step ok s t) :
    Reachable step ok' s t := by
  induction h with
  | refl => exact .refl
  | tail a _ ha hstep ih => exact ih.tail a (hok _ a ha) hstep

/-- What one step preserves, a run preserves; the step may use that its state
was reached. -/
theorem invariant {inv : σ → Prop} (hinit : inv s)
    (hstep : ∀ t a u, Reachable step ok s t → inv t → ok t a →
      step t a = some u → inv u)
    (h : Reachable step ok s t) : inv t := by
  induction h with
  | refl => exact hinit
  | tail a h hok hs ih => exact hstep _ a _ h ih hok hs

/-- A run of one system is a run of another one that it projects to, when each
of its steps is. -/
theorem project {step' : τ → β → Option τ} {ok' : τ → β → Prop} (f : σ → τ)
    (hstep : ∀ t a u, Reachable step ok s t → ok t a → step t a = some u →
      Reachable step' ok' (f t) (f u))
    (h : Reachable step ok s t) : Reachable step' ok' (f s) (f t) := by
  induction h with
  | refl => exact .refl
  | tail a h hok hs ih => exact ih.trans (hstep _ a _ h hok hs)

theorem of_meets {actions : List α} (hmeets : Meets step ok s actions)
    (h : run step s actions = some t) : Reachable step ok s t := by
  induction actions generalizing s with
  | nil =>
      cases h
      exact .refl
  | cons a rest ih =>
      rw [run] at h
      cases hs : step s a with
      | none =>
          rw [hs] at h
          cases h
      | some u =>
          rw [hs] at h
          obtain ⟨hok, hrest⟩ := hmeets u hs
          exact (single a hok hs).trans (ih hrest h)

theorem of_run {actions : List α} (h : run step s actions = some t) :
    Reachable step AnyStep s t :=
  of_meets (meets_anyStep s actions) h

theorem of_run_map {actions : List α} {f : σ → β} {b : β}
    (h : (run step s actions).map f = some b) :
    ∃ t, Reachable step AnyStep s t ∧ f t = b := by
  obtain ⟨t, hrun, hf⟩ := Option.map_eq_some_iff.mp h
  exact ⟨t, of_run hrun, hf⟩

end Reachable

end GoSocket.Foundation
