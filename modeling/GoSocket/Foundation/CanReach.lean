import GoSocket.Foundation.Transition

/-!
# What some run comes to

`CanReach` says that there is a way out, where an invariant says that there is
none.  Ways are put together one behind the other, and a rank that some step lowers
gives a way.
-/

namespace GoSocket.Foundation

universe u v w

variable {σ : Type u} {α : Type v} {β : Type w}
variable {step : σ → α → Option σ} {P Q I : σ → Prop} {s t : σ}

/-- Some run from the state comes to one with the property. -/
def CanReach (step : σ → α → Option σ) (P : σ → Prop) (s : σ) : Prop :=
  ∃ t, Reachable step AnyStep s t ∧ P t

namespace CanReach

theorem here (h : P s) : CanReach step P s := ⟨s, .refl, h⟩

theorem next {a : α} (hs : step s a = some t) (h : CanReach step P t) :
    CanReach step P s := by
  obtain ⟨u, hreach, hu⟩ := h
  exact ⟨u, (Reachable.single a trivial hs).trans hreach, hu⟩

theorem bind (h : CanReach step P s) (hnext : ∀ t, P t → CanReach step Q t) :
    CanReach step Q s := by
  obtain ⟨t, hreach, ht⟩ := h
  obtain ⟨u, hreach', hu⟩ := hnext t ht
  exact ⟨u, hreach.trans hreach', hu⟩

/-- From every state of `I`, some step comes to the goal or to a state of `I` whose
rank is lower. -/
theorem of_rank {lower : β → β → Prop} (hwf : WellFounded lower) (rank : σ → β)
    (hstep : ∀ s, I s → P s ∨ ∃ a t, step s a = some t ∧
      (P t ∨ I t ∧ lower (rank t) (rank s)))
    (h : I s) : CanReach step P s := by
  have hall (b : β) : ∀ s, rank s = b → I s → CanReach step P s := by
    induction b using hwf.induction with
    | _ b ih =>
        rintro s rfl h
        rcases hstep s h with hp | ⟨a, t, hs, hp | ⟨ht, hlower⟩⟩
        · exact here hp
        · exact next hs (here hp)
        · exact next hs (ih _ hlower t rfl ht)
  exact hall _ s rfl h

end CanReach

end GoSocket.Foundation
