import GoSocket.Foundation.Transition

/-!
# One-shot tokens

Tokens are handed out by number, lie in places, move from place to place and
are used up.  A move takes the token along, so no token is in two places or
used twice, whatever the order of the moves.  A token gets lost only when
another one is put on top of it.
-/

namespace GoSocket.Foundation

universe u v

@[ext]
structure Ledger (π : Type u) (ε : Type v) where
  place : π → Option Nat
  issued : Nat
  used : List (Nat × ε)

inductive LedgerAction (π : Type u) (ε : Type v) where
  -- a number that no token gets
  | skip
  | issue (p : π)
  | move (p q : π)
  | use (p : π) (e : ε)

namespace Ledger

variable {π : Type u} {ε : Type v} [DecidableEq π]

def step (L : Ledger π ε) : LedgerAction π ε → Option (Ledger π ε)
  | .skip => some { L with issued := L.issued + 1 }
  | .issue p =>
      some { L with
        place := Function.update L.place p (some L.issued)
        issued := L.issued + 1 }
  | .move p q =>
      some { L with
        place := Function.update (Function.update L.place q (L.place p)) p none }
  | .use p e =>
      (L.place p).map fun n =>
        { L with
          place := Function.update L.place p none
          used := (n, e) :: L.used }

/-- Every token is in one place at most, or used, and then once. -/
structure Linear (L : Ledger π ε) : Prop where
  lt_issued : ∀ p n, L.place p = some n → n < L.issued
  used_lt_issued : ∀ n ∈ L.used.map Prod.fst, n < L.issued
  unique : ∀ p q n, L.place p = some n → L.place q = some n → p = q
  not_used : ∀ p n, L.place p = some n → n ∉ L.used.map Prod.fst
  nodup : (L.used.map Prod.fst).Nodup

namespace Linear

variable {L L' : Ledger π ε}

omit [DecidableEq π] in
theorem empty : Linear ({ place := fun _ => none, issued := 0, used := [] } :
    Ledger π ε) := by
  constructor <;> simp

omit [DecidableEq π] in
private theorem skip (h : L.Linear) :
    Linear { L with issued := L.issued + 1 } where
  lt_issued p n hp := Nat.lt_succ_of_lt (h.lt_issued p n hp)
  used_lt_issued n hn := Nat.lt_succ_of_lt (h.used_lt_issued n hn)
  unique := h.unique
  not_used := h.not_used
  nodup := h.nodup

private theorem of_update {f : π → Option Nat} {p q : π} {x : Option Nat} {n : Nat}
    (h : Function.update f p x q = some n) :
    q = p ∧ x = some n ∨ q ≠ p ∧ f q = some n := by
  by_cases hq : q = p
  · subst hq
    rw [Function.update_self] at h
    exact .inl ⟨rfl, h⟩
  · rw [Function.update_of_ne hq] at h
    exact .inr ⟨hq, h⟩

private theorem issue (h : L.Linear) (p : π) :
    Linear { L with
      place := Function.update L.place p (some L.issued)
      issued := L.issued + 1 } := by
  have hfresh (q : π) : L.place q ≠ some L.issued := fun hq =>
    absurd (h.lt_issued q _ hq) (Nat.lt_irrefl _)
  constructor
  case lt_issued =>
    intro q n hq
    rcases of_update hq with ⟨-, hn⟩ | ⟨-, hn⟩
    · cases hn
      exact Nat.lt_succ_self _
    · exact Nat.lt_succ_of_lt (h.lt_issued q n hn)
  case used_lt_issued =>
    exact fun n hn => Nat.lt_succ_of_lt (h.used_lt_issued n hn)
  case unique =>
    intro q r n hq hr
    rcases of_update hq with ⟨rfl, hn⟩ | ⟨-, hn⟩ <;>
      rcases of_update hr with ⟨rfl, hm⟩ | ⟨-, hm⟩
    · rfl
    · cases hn
      exact absurd hm (hfresh r)
    · cases hm
      exact absurd hn (hfresh q)
    · exact h.unique q r n hn hm
  case not_used =>
    intro q n hq
    rcases of_update hq with ⟨-, hn⟩ | ⟨-, hn⟩
    · cases hn
      exact fun hused => absurd (h.used_lt_issued _ hused) (Nat.lt_irrefl _)
    · exact h.not_used q n hn
  case nodup => exact h.nodup

private theorem of_move {p q r : π} {n : Nat}
    (h : Function.update (Function.update L.place q (L.place p)) p none r =
      some n) :
    r = q ∧ L.place p = some n ∨ r ≠ q ∧ r ≠ p ∧ L.place r = some n := by
  rcases of_update h with ⟨-, hn⟩ | ⟨hp, hn⟩
  · cases hn
  · rcases of_update hn with ⟨hq, hn⟩ | ⟨hq, hn⟩
    · exact .inl ⟨hq, hn⟩
    · exact .inr ⟨hq, hp, hn⟩

private theorem move (h : L.Linear) (p q : π) :
    Linear { L with
      place := Function.update (Function.update L.place q (L.place p)) p none } := by
  constructor
  case lt_issued =>
    intro r n hr
    rcases of_move hr with ⟨-, hn⟩ | ⟨-, -, hn⟩
    · exact h.lt_issued p n hn
    · exact h.lt_issued r n hn
  case used_lt_issued => exact h.used_lt_issued
  case unique =>
    intro r r' n hr hr'
    rcases of_move hr with ⟨rfl, hn⟩ | ⟨-, hrp, hn⟩ <;>
      rcases of_move hr' with ⟨rfl, hm⟩ | ⟨-, hrp', hm⟩
    · rfl
    · exact absurd (h.unique r' p n hm hn) hrp'
    · exact absurd (h.unique r p n hn hm) hrp
    · exact h.unique r r' n hn hm
  case not_used =>
    intro r n hr
    rcases of_move hr with ⟨-, hn⟩ | ⟨-, -, hn⟩
    · exact h.not_used p n hn
    · exact h.not_used r n hn
  case nodup => exact h.nodup

private theorem use (h : L.Linear) {p : π} {n : Nat} (hp : L.place p = some n)
    (e : ε) :
    Linear { L with
      place := Function.update L.place p none, used := (n, e) :: L.used } := by
  constructor
  case lt_issued =>
    intro q m hq
    rcases of_update hq with ⟨-, hm⟩ | ⟨-, hm⟩
    · cases hm
    · exact h.lt_issued q m hm
  case used_lt_issued =>
    intro m hm
    rcases List.mem_cons.mp hm with rfl | hm
    · exact h.lt_issued p _ hp
    · exact h.used_lt_issued m hm
  case unique =>
    intro q r m hq hr
    rcases of_update hq with ⟨-, hm⟩ | ⟨-, hm⟩
    · cases hm
    · rcases of_update hr with ⟨-, hm'⟩ | ⟨-, hm'⟩
      · cases hm'
      · exact h.unique q r m hm hm'
  case not_used =>
    intro q m hq hmem
    rcases of_update hq with ⟨-, hm⟩ | ⟨hne, hm⟩
    · cases hm
    · rcases List.mem_cons.mp hmem with rfl | hused
      · exact hne (h.unique q p _ hm hp)
      · exact h.not_used q m hm hused
  case nodup => exact List.nodup_cons.mpr ⟨h.not_used p n hp, h.nodup⟩

theorem step (h : L.Linear) {action : LedgerAction π ε}
    (hstep : L.step action = some L') : L'.Linear := by
  cases action with
  | skip =>
      cases hstep
      exact h.skip
  | issue p =>
      cases hstep
      exact h.issue p
  | move p q =>
      cases hstep
      exact h.move p q
  | use p e =>
      obtain ⟨n, hp, rfl⟩ := Option.map_eq_some_iff.mp hstep
      exact h.use hp e

theorem of_reachable {ok : Ledger π ε → LedgerAction π ε → Prop} (h : L.Linear)
    (hreach : Reachable Ledger.step ok L L') : L'.Linear :=
  hreach.invariant h fun _ _ _ _ hL _ hstep => hL.step hstep

end Linear

/-! ## No token gets lost -/

/-- The token is in some place, or used. -/
def Kept (L : Ledger π ε) (n : Nat) : Prop :=
  (∃ p, L.place p = some n) ∨ n ∈ L.used.map Prod.fst

def Careful (L : Ledger π ε) : LedgerAction π ε → Prop
  | .issue p => L.place p = none
  | .move _ q => L.place q = none
  | _ => True

namespace Kept

variable {L L' : Ledger π ε} {n : Nat}

theorem step (h : L.Kept n) {action : LedgerAction π ε} (hok : L.Careful action)
    (hstep : L.step action = some L') : L'.Kept n := by
  rcases h with ⟨r, hr⟩ | hused
  · cases action with
    | skip =>
        cases hstep
        exact .inl ⟨r, hr⟩
    | issue p =>
        cases hstep
        have hne : r ≠ p := by
          rintro rfl
          cases hok.symm.trans hr
        exact .inl ⟨r, (Function.update_of_ne hne _ _).trans hr⟩
    | move p q =>
        cases hstep
        have hq : r ≠ q := by
          rintro rfl
          cases hok.symm.trans hr
        by_cases hp : r = p
        · subst hp
          refine .inl ⟨q, ?_⟩
          simp only [Function.update_of_ne hq.symm, Function.update_self, hr]
        · refine .inl ⟨r, ?_⟩
          simp only [Function.update_of_ne hp, Function.update_of_ne hq, hr]
    | use p e =>
        obtain ⟨m, hm, rfl⟩ := Option.map_eq_some_iff.mp hstep
        by_cases hp : r = p
        · subst hp
          cases hm.symm.trans hr
          exact .inr (List.mem_cons_self)
        · exact .inl ⟨r, (Function.update_of_ne hp _ _).trans hr⟩
  · right
    cases action with
    | skip =>
        cases hstep
        exact hused
    | issue p =>
        cases hstep
        exact hused
    | move p q =>
        cases hstep
        exact hused
    | use p e =>
        obtain ⟨m, -, rfl⟩ := Option.map_eq_some_iff.mp hstep
        exact List.mem_cons_of_mem _ hused

theorem of_reachable (h : L.Kept n)
    (hreach : Reachable Ledger.step Careful L L') : L'.Kept n := by
  induction hreach with
  | refl => exact h
  | tail action _ hok hstep ih => exact ih.step hok hstep

end Kept

end Ledger

end GoSocket.Foundation
