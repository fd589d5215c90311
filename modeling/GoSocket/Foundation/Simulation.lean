import GoSocket.Foundation.Transition

/-!
# Runs that one sees a part of

Some actions of a system are visible, as actions of another one; the rest is its
environment's.  What the visible part of a run comes to is decided in the other
system, as long as its actions meet a condition there.
-/

namespace GoSocket.Foundation

universe u v w x

variable {σ : Type u} {α : Type v} {τ : Type w} {β : Type x}
  {step : σ → α → Option σ} {step' : τ → β → Option τ} {visible : α → Option β}
  {ok : τ → β → Prop} {R : σ → τ → Prop}

theorem run_append {s t : σ} {actions : List α} (h : run step s actions = some t)
    (more : List α) : run step s (actions ++ more) = run step t more := by
  induction actions generalizing s with
  | nil =>
      cases h
      rfl
  | cons a rest ih =>
      rw [run] at h
      rw [List.cons_append, run]
      cases hs : step s a with
      | none =>
          rw [hs] at h
          cases h
      | some u =>
          rw [hs] at h
          exact ih h

theorem Meets.of_prefix {actions actions' : List α} {ok : σ → α → Prop} {s : σ}
    (h : Meets step ok s actions) (hpre : actions' <+: actions) :
    Meets step ok s actions' := by
  induction actions' generalizing s actions with
  | nil => trivial
  | cons a rest ih =>
      obtain ⟨more, rfl⟩ := hpre
      intro t ht
      obtain ⟨hok, hrest⟩ := h t ht
      exact ⟨hok, ih hrest (List.prefix_append rest more)⟩

theorem Meets.append {s t : σ} {actions more : List α} {ok : σ → α → Prop}
    (h : Meets step ok s actions) (hrun : run step s actions = some t)
    (hmore : Meets step ok t more) : Meets step ok s (actions ++ more) := by
  induction actions generalizing s with
  | nil =>
      cases hrun
      exact hmore
  | cons a rest ih =>
      intro u hu
      obtain ⟨hok, hrest⟩ := h u hu
      rw [run, hu] at hrun
      exact ⟨hok, ih hrest hrun⟩

/-- Where each step is one of the other system, or none that is visible, a run is a run
of the other system. -/
theorem run_visible
    (hhidden : ∀ s t a s', R s t → visible a = none → step s a = some s' → R s' t)
    (hvisible : ∀ s t a b s', R s t → visible a = some b → step s a = some s' →
      ∃ t', step' t b = some t' ∧ (ok t b → R s' t'))
    {s s' : σ} {t : τ} {actions : List α} (h : R s t)
    (hmeets : Meets step' ok t (actions.filterMap visible))
    (hrun : run step s actions = some s') :
    ∃ t', run step' t (actions.filterMap visible) = some t' ∧ R s' t' := by
  induction actions generalizing s t with
  | nil =>
      cases hrun
      exact ⟨t, rfl, h⟩
  | cons a rest ih =>
      rw [run] at hrun
      cases hs : step s a with
      | none =>
          rw [hs] at hrun
          cases hrun
      | some u =>
          rw [hs] at hrun
          cases hv : visible a with
          | none =>
              rw [List.filterMap_cons_none hv] at hmeets ⊢
              exact ih (hhidden s t a u h hv hs) hmeets hrun
          | some b =>
              rw [List.filterMap_cons_some hv] at hmeets ⊢
              obtain ⟨t', ht', hR⟩ := hvisible s t a b u h hv hs
              obtain ⟨hok, hrest⟩ := hmeets t' ht'
              rw [run, ht']
              exact ih (hR hok) hrest hrun

/-- Where each step of the other system is the visible part of a run, its runs are; what
does not meet the condition is found behind the part that does. -/
theorem exists_run_visible
    (hrealise : ∀ s t b t', R s t → ok t b → step' t b = some t' →
      ∃ a s', visible a = some b ∧ step s a = some s' ∧ R s' t')
    {s : σ} {t : τ} {calls : List β} (h : R s t) (hnot : ¬ Meets step' ok t calls) :
    ∃ actions s' t' b, run step s actions = some s' ∧ R s' t' ∧
      actions.filterMap visible ++ [b] <+: calls ∧ ¬ ok t' b := by
  induction calls generalizing s t with
  | nil => exact absurd trivial hnot
  | cons b rest ih =>
      by_cases hok : ok t b
      · cases ht : step' t b with
        | none =>
            refine absurd (fun t' ht' => ?_) hnot
            rw [ht] at ht'
            cases ht'
        | some t' =>
            obtain ⟨a, u, hv, hs, hR⟩ := hrealise s t b t' h hok ht
            have hrest : ¬ Meets step' ok t' rest := by
              intro hmeets
              refine hnot fun u' hu' => ⟨hok, ?_⟩
              cases ht.symm.trans hu'
              exact hmeets
            obtain ⟨actions, s', v, b', hrun, hRv, hpre, hbad⟩ := ih hR hrest
            refine ⟨a :: actions, s', v, b', by rw [run, hs]; exact hrun, hRv, ?_, hbad⟩
            rw [List.filterMap_cons_some hv, List.cons_append]
            exact List.cons_prefix_cons.mpr ⟨rfl, hpre⟩
      · exact ⟨[], s, t, b, rfl, h, List.cons_prefix_cons.mpr ⟨rfl, List.nil_prefix⟩, hok⟩

end GoSocket.Foundation
