import Mathlib.Data.List.Basic
import Mathlib.Data.List.Nodup
import Mathlib.Data.List.Perm.Subperm

/-!
# Lists with a key

Entries are found by their key.  Where no key comes twice, the order of the
entries does not matter.
-/

namespace GoSocket.Foundation

universe u v w

variable {α : Type u} {β : Type v} {κ : Type w} [DecidableEq κ]

def upsert (key : α → κ) (k : κ) (change : α → α) (new : α) : List α → List α
  | [] => [new]
  | a :: rest =>
      if key a = k then change a :: rest else a :: upsert key k change new rest

section Upsert

variable {key : α → κ} {k : κ} {change : α → α} {new : α}

theorem mem_keys_upsert (hchange : ∀ a, key (change a) = key a)
    (hnew : key new = k) (l : List α) (j : κ) :
    j ∈ (upsert key k change new l).map key ↔ j = k ∨ j ∈ l.map key := by
  induction l with
  | nil => simp [upsert, hnew]
  | cons a rest ih =>
      unfold upsert
      split
      · next hk =>
          rw [List.map_cons, List.map_cons, hchange, hk]
          simp
      · rw [List.map_cons, List.map_cons, List.mem_cons, List.mem_cons, ih]
        tauto

theorem nodup_upsert (hchange : ∀ a, key (change a) = key a)
    (hnew : key new = k) {l : List α} (h : (l.map key).Nodup) :
    ((upsert key k change new l).map key).Nodup := by
  induction l with
  | nil => simp [upsert]
  | cons a rest ih =>
      rw [List.map_cons, List.nodup_cons] at h
      unfold upsert
      split
      · rw [List.map_cons, hchange, List.nodup_cons]
        exact h
      · next hne =>
          rw [List.map_cons, List.nodup_cons, mem_keys_upsert hchange hnew]
          refine ⟨?_, ih h.2⟩
          rintro (hk | hmem)
          · exact hne hk
          · exact h.1 hmem

theorem find?_upsert_self (hchange : ∀ a, key (change a) = key a)
    (hnew : key new = k) (l : List α) :
    (upsert key k change new l).find? (key · = k) =
      some (match l.find? (key · = k) with
        | some a => change a
        | none => new) := by
  induction l with
  | nil => simp [upsert, hnew]
  | cons a rest ih =>
      unfold upsert
      by_cases hk : key a = k
      · simp [hk, hchange]
      · simpa [hk] using ih

theorem find?_upsert_of_ne (hchange : ∀ a, key (change a) = key a)
    (hnew : key new = k) (l : List α) {j : κ} (hj : j ≠ k) :
    (upsert key k change new l).find? (key · = j) = l.find? (key · = j) := by
  induction l with
  | nil => simp [upsert, hnew, Ne.symm hj]
  | cons a rest ih =>
      unfold upsert
      by_cases hk : key a = k
      · simp [hk, hchange, Ne.symm hj]
      · rw [if_neg hk, List.find?_cons, List.find?_cons, ih]

theorem forall₂_upsert {key' : β → κ} {change' : β → β} {new' : β}
    {R : α → β → Prop} (hkey : ∀ a b, R a b → key a = key' b)
    (hchange : ∀ a b, R a b → R (change a) (change' b)) (hnew : R new new')
    {l : List α} {l' : List β} (h : List.Forall₂ R l l') :
    List.Forall₂ R (upsert key k change new l)
      (upsert key' k change' new' l') := by
  induction h with
  | nil => exact .cons hnew .nil
  | cons hab hrest ih =>
      unfold upsert
      rw [hkey _ _ hab]
      split
      · exact .cons (hchange _ _ hab) hrest
      · exact .cons hab ih

end Upsert

section Find

variable {key : α → κ} {l l' : List α}

theorem find?_eq_some_iff_of_nodup (h : (l.map key).Nodup) {k : κ} {a : α} :
    l.find? (key · = k) = some a ↔ a ∈ l ∧ key a = k := by
  constructor
  · intro hfind
    exact ⟨List.mem_of_find?_eq_some hfind, by simpa using List.find?_some hfind⟩
  · rintro ⟨hmem, rfl⟩
    cases hfind : l.find? (key · = key a) with
    | none => simpa using List.find?_eq_none.mp hfind a hmem
    | some b =>
        have hkey : key b = key a := by simpa using List.find?_some hfind
        rw [List.inj_on_of_nodup_map h (List.mem_of_find?_eq_some hfind) hmem hkey]

theorem find?_eq_none_iff_notMem {k : κ} :
    l.find? (key · = k) = none ↔ k ∉ l.map key := by
  simp [List.find?_eq_none]

theorem find?_eq_of_perm (hperm : l.Perm l') (h : (l.map key).Nodup) (k : κ) :
    l.find? (key · = k) = l'.find? (key · = k) := by
  have h' : (l'.map key).Nodup := (hperm.map key).nodup_iff.mp h
  apply Option.ext
  intro a
  rw [find?_eq_some_iff_of_nodup h, find?_eq_some_iff_of_nodup h', hperm.mem_iff]

omit [DecidableEq κ] in
theorem keys_filterMap_sublist {key' : β → κ} {f : α → Option β}
    (hf : ∀ a b, f a = some b → key' b = key a) (l : List α) :
    ((l.filterMap f).map key').Sublist (l.map key) := by
  induction l with
  | nil => exact .slnil
  | cons a rest ih =>
      rw [List.filterMap_cons, List.map_cons]
      cases hfa : f a with
      | none => exact ih.cons _
      | some b =>
          dsimp only
          rw [List.map_cons, hf a b hfa]
          exact ih.cons_cons _

theorem find?_filterMap_of_nodup {key' : β → κ} {f : α → Option β}
    (hf : ∀ a b, f a = some b → key' b = key a) (h : (l.map key).Nodup) (k : κ) :
    (l.filterMap f).find? (key' · = k) = (l.find? (key · = k)).bind f := by
  induction l with
  | nil => rfl
  | cons a rest ih =>
      rw [List.map_cons, List.nodup_cons] at h
      rw [List.filterMap_cons, List.find?_cons]
      by_cases hk : key a = k
      · have hnone : rest.find? (key · = k) = none := by
          rw [find?_eq_none_iff_notMem, ← hk]
          exact h.1
        cases hfa : f a with
        | none => simp [ih h.2, hnone, hk, hfa]
        | some b => simp [hk, hfa, hf a b hfa]
      · cases hfa : f a with
        | none => simp [ih h.2, hk]
        | some b => simp [ih h.2, hk, hf a b hfa]

theorem find?_filter_of_nodup (p : α → Bool) (h : (l.map key).Nodup) (k : κ) :
    (l.filter p).find? (key · = k) = (l.find? (key · = k)).filter p := by
  rw [← List.filterMap_eq_filter, find?_filterMap_of_nodup _ h]
  · cases l.find? (key · = k) <;> rfl
  · intro a b hab
    rw [Option.guard_eq_some_iff] at hab
    rw [hab.1]

omit [DecidableEq κ] in
theorem nodup_keys_of_subperm (hsub : l'.Subperm l) (h : (l.map key).Nodup) :
    (l'.map key).Nodup := by
  obtain ⟨m, hperm, hsublist⟩ := hsub
  exact (hperm.map key).nodup_iff.mp ((hsublist.map key).nodup h)

omit [DecidableEq κ] in
theorem forall₂_keys {key' : β → κ} {R : α → β → Prop} {m : List β}
    (hkey : ∀ a b, R a b → key a = key' b) (h : List.Forall₂ R l m) :
    l.map key = m.map key' := by
  induction h with
  | nil => rfl
  | cons hab _ ih => rw [List.map_cons, List.map_cons, hkey _ _ hab, ih]

theorem forall₂_find? {key' : β → κ} {R : α → β → Prop} {m : List β}
    (hkey : ∀ a b, R a b → key a = key' b) (h : List.Forall₂ R l m) (k : κ) :
    l.find? (key · = k) = none ∧ m.find? (key' · = k) = none ∨
      ∃ a b, l.find? (key · = k) = some a ∧ m.find? (key' · = k) = some b ∧
        R a b := by
  induction h with
  | nil => exact .inl ⟨rfl, rfl⟩
  | @cons a b _ _ hab hrest ih =>
      by_cases hk : key a = k
      · refine .inr ⟨a, b, ?_, ?_, hab⟩
        · simp [hk]
        · simp [← hkey a b hab, hk]
      · have hk' : ¬ key' b = k := hkey a b hab ▸ hk
        simpa [List.find?_cons, hk, hk'] using ih

omit [DecidableEq κ] in
theorem length_le_of_keys_subset {key' : β → κ} {m : List β}
    (h : (l.map key).Nodup) (hsub : l.map key ⊆ m.map key') :
    l.length ≤ m.length := by
  have hle := (List.subperm_of_subset h hsub).length_le
  rwa [List.length_map, List.length_map] at hle

end Find

end GoSocket.Foundation
