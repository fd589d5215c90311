import Mathlib.Data.List.Infix

/-!
# Traces that go in rounds

A trace is whole where it is made of rounds, and begins well where whole rounds
can follow on it.
-/

namespace GoSocket.Foundation

universe u

variable {α : Type u} {round : List α → Prop} {l r p : List α}

/-- Rounds, one behind the other. -/
inductive Rounds (round : List α → Prop) : List α → Prop
  | nil : Rounds round []
  | snoc {l r : List α} (h : Rounds round l) (hr : round r) :
      Rounds round (l ++ r)

/-- The beginning of such a trace. -/
def BeginsRounds (round : List α → Prop) (l : List α) : Prop :=
  ∃ whole, Rounds round whole ∧ l <+: whole

theorem Rounds.begins (h : Rounds round l) : BeginsRounds round l :=
  ⟨l, h, List.prefix_refl l⟩

theorem Rounds.begins_append (h : Rounds round l) (hr : round r) (hp : p <+: r) :
    BeginsRounds round (l ++ p) :=
  ⟨l ++ r, h.snoc hr, (List.prefix_append_right_inj l).mpr hp⟩

theorem BeginsRounds.of_prefix (h : BeginsRounds round l) (hp : p <+: l) :
    BeginsRounds round p := by
  obtain ⟨whole, hwhole, hl⟩ := h
  exact ⟨whole, hwhole, hp.trans hl⟩

end GoSocket.Foundation
