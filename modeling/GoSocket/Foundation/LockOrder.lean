import GoSocket.Foundation.Transition
import Mathlib.Data.List.Nodup
import Mathlib.Data.Set.Basic
import Mathlib.Logic.Function.Basic
import Mathlib.Order.WellFounded

/-!
# Programs that lock and join

Threads run programs over shared variables; a program locks and unlocks mutexes,
joins threads and starts them.  Where every program locks upwards in one order of
the locks, and joins downwards in one order of the threads and with no lock held,
no set of threads ever waits for itself.
-/

namespace GoSocket.Foundation

universe u v w x

inductive Program (κ : Type u) (ι : Type v) (σ : Type w) : Type (max u v w) where
  | skip
  | lock (k : κ)
  | unlock (k : κ)
  | join (i : ι)
  | spawn (i : ι)
  | modify (f : σ → σ)
  -- the variables decide
  | read (next : σ → Program κ ι σ)
  -- what the program does not say decides
  | choose (next : Nat → Program κ ι σ)
  | seq (first second : Program κ ι σ)
  -- any number of times
  | star (body : Program κ ι σ)

/-- A thread is what it has still to run: nothing when it has returned, and
`none` before it is started. -/
structure Machine (κ : Type u) (ι : Type v) (σ : Type w) where
  threads : ι → Option (List (Program κ ι σ))
  owner : κ → Option ι
  shared : σ

variable {κ : Type u} {ι : Type v} {σ : Type w} {α : Type x}

namespace Program

def either (first second : Program κ ι σ) : Program κ ι σ :=
  .choose fun n => if n = 0 then first else second

def optional (body : Program κ ι σ) : Program κ ι σ :=
  .either .skip body

def block : List (Program κ ι σ) → Program κ ι σ
  | [] => .skip
  | first :: rest => .seq first (block rest)

def leaving (body : List (Program κ ι σ)) : Program κ ι σ :=
  .choose fun n => block (body.take n)

def locked (k : κ) (body : Program κ ι σ) : Program κ ι σ :=
  block [.lock k, body, .unlock k]

end Program

namespace Machine

variable [DecidableEq κ] [DecidableEq ι]

def goOn (self : Machine κ ι σ) (i : ι) (rest : List (Program κ ι σ)) :
    Machine κ ι σ :=
  { self with threads := Function.update self.threads i (some rest) }

/-- The step of a thread; the number is what the program does not say. -/
def step (body : ι → Program κ ι σ) (self : Machine κ ι σ) :
    ι × Nat → Option (Machine κ ι σ)
  | (i, n) =>
    match self.threads i with
    | none => none
    | some [] => none
    | some (.skip :: rest) => some (self.goOn i rest)
    | some (.lock k :: rest) =>
        match self.owner k with
        | none =>
            some { self.goOn i rest with
              owner := Function.update self.owner k (some i) }
        | some _ => none
    | some (.unlock k :: rest) =>
        some { self.goOn i rest with owner := Function.update self.owner k none }
    | some (.join j :: rest) =>
        match self.threads j with
        | some [] => some (self.goOn i rest)
        | _ => none
    | some (.spawn j :: rest) =>
        match self.threads j with
        | none => some ((self.goOn i rest).goOn j [body j])
        | some _ => some (self.goOn i rest)
    | some (.modify f :: rest) =>
        some { self.goOn i rest with shared := f self.shared }
    | some (.read next :: rest) =>
        some (self.goOn i (next self.shared :: rest))
    | some (.choose next :: rest) => some (self.goOn i (next n :: rest))
    | some (.seq first second :: rest) =>
        some (self.goOn i (first :: second :: rest))
    | some (.star body :: rest) =>
        if n = 0 then some (self.goOn i rest)
        else some (self.goOn i (body :: .star body :: rest))

/-- `i` waits for a lock that `j` holds, or for the end of `j`. -/
def Waits (s : Machine κ ι σ) (i j : ι) : Prop :=
  (∃ k rest, s.threads i = some (.lock k :: rest) ∧ s.owner k = some j) ∨
    ∃ rest, s.threads i = some (.join j :: rest) ∧ s.threads j ≠ some []

def waitsFor (s : Machine κ ι σ) (i : ι) : Option ι :=
  match s.threads i with
  | some (.lock k :: _) => s.owner k
  | some (.join j :: _) =>
      match s.threads j with
      | some [] => none
      | _ => some j
  | _ => none

omit [DecidableEq κ] [DecidableEq ι] in
theorem waits_of_waitsFor {s : Machine κ ι σ} {i j : ι} (h : s.waitsFor i = some j) :
    s.Waits i j := by
  unfold waitsFor at h
  split at h
  · next k rest hi => exact .inl ⟨k, rest, hi, h⟩
  · next j' rest hi =>
      split at h
      · cases h
      · next hj =>
          cases h
          exact .inr ⟨rest, hi, hj⟩
  · cases h

/-- Each thread of the set waits for one of the set. -/
def Deadlocked (s : Machine κ ι σ) (threads : Set ι) : Prop :=
  threads.Nonempty ∧ ∀ i ∈ threads, ∃ j ∈ threads, s.Waits i j

/-- The thread has something left to run, and no step. -/
def Blocked (s : Machine κ ι σ) (body : ι → Program κ ι σ) (i : ι) : Prop :=
  (∃ c rest, s.threads i = some (c :: rest)) ∧ ∀ n, s.step body (i, n) = none

theorem Blocked.waits {s : Machine κ ι σ} {body : ι → Program κ ι σ} {i : ι}
    (h : s.Blocked body i) : ∃ j, s.Waits i j := by
  obtain ⟨⟨c, rest, hi⟩, hnone⟩ := h
  have hstep := hnone 0
  cases c with
  | lock k =>
      cases howner : s.owner k with
      | none => simp [step, hi, howner] at hstep
      | some j => exact ⟨j, .inl ⟨k, rest, hi, howner⟩⟩
  | join j =>
      refine ⟨j, .inr ⟨rest, hi, ?_⟩⟩
      intro hj
      simp [step, hi, hj] at hstep
  | spawn j => cases hj : s.threads j <;> simp [step, hi, hj] at hstep
  | _ => simp [step, hi] at hstep

end Machine

/-! ## The order of the locks -/

section Order

variable [DecidableEq κ] [LT α] (rank : κ → α) (mayJoin : ι → Prop)

/-- What must hold of the locks held before the program, for it to keep to the
order and `Q` to hold of those held behind it. -/
def Program.wp : Program κ ι σ → (List κ → Prop) → List κ → Prop
  | .skip, Q, held => Q held
  | .lock k, Q, held => (∀ k' ∈ held, rank k' < rank k) ∧ Q (k :: held)
  | .unlock k, Q, held => k ∈ held ∧ Q (held.erase k)
  | .join i, Q, held => held = [] ∧ mayJoin i ∧ Q held
  | .spawn _, Q, held => Q held
  | .modify _, Q, held => Q held
  | .read next, Q, held => ∀ s, (next s).wp Q held
  | .choose next, Q, held => ∀ n, (next n).wp Q held
  | .seq first second, Q, held => first.wp (second.wp Q) held
  | .star body, Q, held => body.wp (· = held) held ∧ Q held

/-- The program keeps to the order, and leads from the locks held to others. -/
def Leads (held held' : List κ) (c : Program κ ι σ) : Prop :=
  c.wp rank mayJoin (· = held') held

/-- It leaves the locks as they were. -/
abbrev Keeps (held : List κ) (c : Program κ ι σ) : Prop :=
  Leads rank mayJoin held held c

/-- The same of what a thread has still to run; it returns with no lock held. -/
def Ordered : List (Program κ ι σ) → List κ → Prop
  | [], held => held = []
  | c :: rest, held => c.wp rank mayJoin (Ordered rest) held

variable {rank mayJoin}

theorem Program.wp_mono {c : Program κ ι σ} {P Q : List κ → Prop}
    (hPQ : ∀ held, P held → Q held) {held : List κ}
    (h : c.wp rank mayJoin P held) : c.wp rank mayJoin Q held := by
  induction c generalizing P Q held with
  | skip => exact hPQ held h
  | lock k => exact ⟨h.1, hPQ _ h.2⟩
  | unlock k => exact ⟨h.1, hPQ _ h.2⟩
  | join i => exact ⟨h.1, h.2.1, hPQ held h.2.2⟩
  | spawn i => exact hPQ held h
  | modify f => exact hPQ held h
  | read next ih => exact fun s => ih s hPQ (h s)
  | choose next ih => exact fun n => ih n hPQ (h n)
  | seq first second ih₁ ih₂ =>
      exact ih₁ (fun held hsecond => ih₂ hPQ hsecond) h
  | star body => exact ⟨h.1, hPQ held h.2⟩

/-! ### Rules -/

variable {held held' held'' : List κ} {c d : Program κ ι σ}

namespace Leads

theorem wp {Q : List κ → Prop} (h : Leads rank mayJoin held held' c) (hQ : Q held') :
    c.wp rank mayJoin Q held := by
  refine Program.wp_mono ?_ h
  rintro _ rfl
  exact hQ

theorem lock {k : κ} (hrank : ∀ k' ∈ held, rank k' < rank k) :
    Leads rank mayJoin held (k :: held) (.lock k : Program κ ι σ) :=
  ⟨hrank, rfl⟩

theorem unlock {k : κ} :
    Leads rank mayJoin (k :: held) held (.unlock k : Program κ ι σ) :=
  ⟨List.mem_cons_self, List.erase_cons_head k held⟩

theorem read {next : σ → Program κ ι σ}
    (h : ∀ s, Leads rank mayJoin held held' (next s)) :
    Leads rank mayJoin held held' (.read next) :=
  h

theorem choose {next : Nat → Program κ ι σ}
    (h : ∀ n, Leads rank mayJoin held held' (next n)) :
    Leads rank mayJoin held held' (.choose next) :=
  h

theorem either (hc : Leads rank mayJoin held held' c)
    (hd : Leads rank mayJoin held held' d) :
    Leads rank mayJoin held held' (.either c d) := by
  refine choose fun n => ?_
  split
  · exact hc
  · exact hd

theorem seq (hc : Leads rank mayJoin held held' c)
    (hd : Leads rank mayJoin held' held'' d) :
    Leads rank mayJoin held held'' (.seq c d) :=
  hc.wp hd

theorem cons {rest : List (Program κ ι σ)} (hc : Leads rank mayJoin held held' c)
    (hrest : Leads rank mayJoin held' held'' (.block rest)) :
    Leads rank mayJoin held held'' (.block (c :: rest)) :=
  hc.seq hrest

end Leads

namespace Keeps

theorem skip : Keeps rank mayJoin held (.skip : Program κ ι σ) := rfl

theorem spawn (i : ι) : Keeps rank mayJoin held (.spawn i : Program κ ι σ) := rfl

theorem modify (f : σ → σ) : Keeps rank mayJoin held (.modify f : Program κ ι σ) :=
  rfl

theorem join {i : ι} (hi : mayJoin i) :
    Keeps rank mayJoin [] (.join i : Program κ ι σ) :=
  ⟨rfl, hi, rfl⟩

theorem star (h : Keeps rank mayJoin held c) : Keeps rank mayJoin held (.star c) :=
  ⟨h, rfl⟩

theorem optional (h : Keeps rank mayJoin held c) :
    Keeps rank mayJoin held (.optional c) :=
  Leads.either skip h

theorem block {body : List (Program κ ι σ)}
    (h : body.Forall (Keeps rank mayJoin held)) :
    Keeps rank mayJoin held (.block body) := by
  induction body with
  | nil => exact skip
  | cons c rest ih =>
      obtain ⟨hc, hrest⟩ := List.forall_cons _ c rest |>.mp h
      exact hc.cons (ih hrest)

theorem leaving {body : List (Program κ ι σ)}
    (h : body.Forall (Keeps rank mayJoin held)) :
    Keeps rank mayJoin held (.leaving body) := by
  rw [List.forall_iff_forall_mem] at h
  refine Leads.choose fun n => block ?_
  rw [List.forall_iff_forall_mem]
  intro c hc
  exact h c (List.mem_of_mem_take hc)

theorem locked {k : κ} (hrank : ∀ k' ∈ held, rank k' < rank k)
    (h : Keeps rank mayJoin (k :: held) c) :
    Keeps rank mayJoin held (.locked k c) := by
  have hunlock : Leads rank mayJoin (k :: held) held
      (.block [.unlock k] : Program κ ι σ) :=
    Leads.unlock.cons skip
  exact (Leads.lock hrank).cons (h.cons hunlock)

end Keeps

end Order

/-! ## No deadlock -/

namespace Machine

variable [DecidableEq κ] [Preorder α] {rank : κ → α} {height : ι → Nat}
  {s t : Machine κ ι σ} {body : ι → Program κ ι σ}

/-- Joining goes downwards. -/
def Below (height : ι → Nat) (i j : ι) : Prop := height j < height i

/-- The locks that a thread holds are the ones that its program knows of. -/
structure KeepsOrder (rank : κ → α) (height : ι → Nat) (s : Machine κ ι σ)
    (held : ι → List κ) : Prop where
  ordered : ∀ i stack, s.threads i = some stack →
    Ordered rank (Below height i) stack (held i)
  unstarted : ∀ i, s.threads i = none → held i = []
  owns : ∀ i k, k ∈ held i ↔ s.owner k = some i
  nodup : ∀ i, (held i).Nodup

/-- Before the first step: no lock is held, and what is started is at its start. -/
structure Starts (s : Machine κ ι σ) (body : ι → Program κ ι σ) : Prop where
  threads : ∀ i stack, s.threads i = some stack → stack = [body i]
  owner : ∀ k, s.owner k = none

namespace KeepsOrder

variable {held : ι → List κ} {threads : Set ι}

theorem start (hstart : s.Starts body)
    (hbody : ∀ i, Keeps rank (Below height i) [] (body i)) :
    KeepsOrder rank height s fun _ => [] := by
  constructor
  case ordered =>
    intro i stack hi
    rw [hstart.threads i stack hi]
    exact (hbody i).wp rfl
  case unstarted =>
    intro i hi
    rfl
  case owns =>
    intro i k
    simp [hstart.owner k]
  case nodup =>
    intro i
    exact List.nodup_nil

theorem waits_for_lock (h : KeepsOrder rank height s held)
    (hdead : s.Deadlocked threads) :
    ∃ i ∈ threads, ∃ k rest, s.threads i = some (.lock k :: rest) := by
  obtain ⟨hsome, hwaits⟩ := hdead
  let i := Function.argminOn height threads hsome
  have hi : i ∈ threads := Function.argminOn_mem height threads hsome
  obtain ⟨j, hj, ⟨k, rest, hlock, -⟩ | ⟨rest, hjoin, -⟩⟩ := hwaits i hi
  · exact ⟨i, hi, k, rest, hlock⟩
  · obtain ⟨-, hbelow, -⟩ := h.ordered i _ hjoin
    have hleast := Function.not_lt_argminOn height threads hj
    exact absurd hbelow hleast

theorem above (h : KeepsOrder rank height s held) (hdead : s.Deadlocked threads)
    {i : ι} (hi : i ∈ threads) {k : κ} {rest : List (Program κ ι σ)}
    (hlock : s.threads i = some (.lock k :: rest)) :
    ∃ j ∈ threads, ∃ k' rest', s.threads j = some (.lock k' :: rest') ∧
      rank k < rank k' := by
  have howned : ∃ j ∈ threads, k ∈ held j := by
    obtain ⟨j, hj, ⟨k', rest', hlock', howner⟩ | ⟨rest', hjoin, -⟩⟩ := hdead.2 i hi
    · rw [hlock] at hlock'
      cases hlock'
      exact ⟨j, hj, (h.owns j k).mpr howner⟩
    · rw [hlock] at hjoin
      cases hjoin
  obtain ⟨j, hj, hheld⟩ := howned
  obtain ⟨_, _, hwaits⟩ := hdead.2 j hj
  obtain ⟨k', rest', hlock', -⟩ | ⟨rest', hjoin, -⟩ := hwaits
  · obtain ⟨hrank, -⟩ := h.ordered j _ hlock'
    exact ⟨j, hj, k', rest', hlock', hrank k hheld⟩
  · -- who joins holds no lock
    obtain ⟨hnone, -⟩ := h.ordered j _ hjoin
    rw [hnone] at hheld
    cases hheld

theorem not_deadlocked [WellFoundedGT α] (h : KeepsOrder rank height s held)
    (threads : Set ι) : ¬ s.Deadlocked threads := by
  intro hdead
  obtain ⟨i, hi, k, rest, hlock⟩ := h.waits_for_lock hdead
  induction hrank : rank k using WellFoundedGT.induction generalizing i k rest with
  | ind a ih =>
      obtain ⟨j, hj, k', rest', hlock', habove⟩ := h.above hdead hi hlock
      rw [hrank] at habove
      exact ih (rank k') habove j hj k' rest' hlock' rfl

variable [DecidableEq ι] {i : ι} {rest : List (Program κ ι σ)}

theorem goOn (h : KeepsOrder rank height s held)
    (hrest : Ordered rank (Below height i) rest (held i)) :
    KeepsOrder rank height (s.goOn i rest) held := by
  constructor
  case ordered =>
    intro j stack hj
    dsimp only [Machine.goOn] at hj
    by_cases hji : j = i
    · subst hji
      rw [Function.update_self] at hj
      cases hj
      exact hrest
    · rw [Function.update_of_ne hji] at hj
      exact h.ordered j stack hj
  case unstarted =>
    intro j hj
    dsimp only [Machine.goOn] at hj
    by_cases hji : j = i
    · subst hji
      rw [Function.update_self] at hj
      cases hj
    · rw [Function.update_of_ne hji] at hj
      exact h.unstarted j hj
  case owns => exact h.owns
  case nodup => exact h.nodup

theorem set (h : KeepsOrder rank height s held)
    {locks : List κ} (hrest : Ordered rank (Below height i) rest locks)
    (hnodup : locks.Nodup) {owner : κ → Option ι}
    (howns : ∀ j k, k ∈ Function.update held i locks j ↔ owner k = some j) :
    KeepsOrder rank height { s.goOn i rest with owner }
      (Function.update held i locks) := by
  constructor
  case ordered =>
    intro j stack hj
    dsimp only [Machine.goOn] at hj
    by_cases hji : j = i
    · subst hji
      rw [Function.update_self] at hj ⊢
      cases hj
      exact hrest
    · rw [Function.update_of_ne hji] at hj ⊢
      exact h.ordered j stack hj
  case unstarted =>
    intro j hj
    dsimp only [Machine.goOn] at hj
    by_cases hji : j = i
    · subst hji
      rw [Function.update_self] at hj
      cases hj
    · rw [Function.update_of_ne hji] at hj ⊢
      exact h.unstarted j hj
  case owns => exact howns
  case nodup =>
    intro j
    by_cases hji : j = i
    · subst hji
      rw [Function.update_self]
      exact hnodup
    · rw [Function.update_of_ne hji]
      exact h.nodup j

theorem lock (h : KeepsOrder rank height s held) {k : κ}
    (hi : s.threads i = some (.lock k :: rest)) (hfree : s.owner k = none) :
    KeepsOrder rank height
      { s.goOn i rest with owner := Function.update s.owner k (some i) }
      (Function.update held i (k :: held i)) := by
  obtain ⟨hrank, hrest⟩ := h.ordered i _ hi
  have hnot (j : ι) : k ∉ held j := by
    rw [h.owns, hfree]
    simp
  refine h.set hrest ((h.nodup i).cons (hnot i)) fun j k' => ?_
  have howns := h.owns j k'
  by_cases hji : j = i
  · subst hji
    by_cases hk : k' = k
    · subst hk
      simp
    · simp [hk, howns]
  · rw [Function.update_of_ne hji]
    by_cases hk : k' = k
    · subst hk
      simp [hnot j, Ne.symm hji]
    · simp [hk, howns]

theorem unlock (h : KeepsOrder rank height s held) {k : κ}
    (hi : s.threads i = some (.unlock k :: rest)) :
    KeepsOrder rank height
      { s.goOn i rest with owner := Function.update s.owner k none }
      (Function.update held i ((held i).erase k)) := by
  obtain ⟨hheld, hrest⟩ := h.ordered i _ hi
  have hnodup := h.nodup i
  have howner := (h.owns i k).mp hheld
  refine h.set hrest (hnodup.erase k) fun j k' => ?_
  have howns := h.owns j k'
  by_cases hji : j = i
  · subst hji
    rw [Function.update_self, hnodup.mem_erase_iff]
    by_cases hk : k' = k
    · subst hk
      simp
    · simp [hk, howns]
  · rw [Function.update_of_ne hji, howns]
    by_cases hk : k' = k
    · subst hk
      simp [howner, Ne.symm hji]
    · simp [hk]

theorem spawn (h : KeepsOrder rank height s held) {j : ι}
    (hbody : ∀ i, Keeps rank (Below height i) [] (body i))
    (hi : s.threads i = some (.spawn j :: rest)) (hj : s.threads j = none) :
    KeepsOrder rank height ((s.goOn i rest).goOn j [body j]) held := by
  have hrest : Ordered rank (Below height i) (.spawn j :: rest) (held i) :=
    h.ordered i _ hi
  have hlocks : held j = [] := h.unstarted j hj
  have hgoes : KeepsOrder rank height (s.goOn i rest) held := h.goOn hrest
  refine hgoes.goOn ?_
  rw [hlocks]
  exact (hbody j).wp rfl

theorem step (h : KeepsOrder rank height s held)
    (hbody : ∀ i, Keeps rank (Below height i) [] (body i)) {a : ι × Nat}
    (hs : s.step body a = some t) : ∃ held', KeepsOrder rank height t held' := by
  obtain ⟨i, n⟩ := a
  dsimp only [Machine.step] at hs
  split at hs
  · cases hs
  · cases hs
  · next rest hi =>
      have hnow := h.ordered i _ hi
      cases hs
      exact ⟨held, h.goOn hnow⟩
  · next k rest hi =>
      split at hs
      · next hfree =>
          cases hs
          exact ⟨_, h.lock hi hfree⟩
      · cases hs
  · next k rest hi =>
      cases hs
      exact ⟨_, h.unlock hi⟩
  · next j rest hi =>
      have hnow := h.ordered i _ hi
      split at hs
      · cases hs
        exact ⟨held, h.goOn hnow.2.2⟩
      · cases hs
  · next j rest hi =>
      have hnow := h.ordered i _ hi
      split at hs
      · next hj =>
          cases hs
          exact ⟨held, h.spawn hbody hi hj⟩
      · cases hs
        exact ⟨held, h.goOn hnow⟩
  · next f rest hi =>
      have hnow := h.ordered i _ hi
      have hnext : KeepsOrder rank height (s.goOn i rest) held := h.goOn hnow
      cases hs
      exact ⟨held, hnext.ordered, hnext.unstarted, hnext.owns, hnext.nodup⟩
  · next next rest hi =>
      have hnow := h.ordered i _ hi
      cases hs
      exact ⟨held, h.goOn (hnow s.shared)⟩
  · next next rest hi =>
      have hnow := h.ordered i _ hi
      cases hs
      exact ⟨held, h.goOn (hnow n)⟩
  · next first second rest hi =>
      have hnow := h.ordered i _ hi
      cases hs
      exact ⟨held, h.goOn hnow⟩
  · next c rest hi =>
      obtain ⟨hc, hrest⟩ := h.ordered i _ hi
      split at hs
      · cases hs
        exact ⟨held, h.goOn hrest⟩
      · cases hs
        -- the body leaves the locks as they were, for the loop to go on with
        exact ⟨held, h.goOn (Leads.wp hc ⟨hc, hrest⟩)⟩

theorem of_reachable (hstart : s.Starts body)
    (hbody : ∀ i, Keeps rank (Below height i) [] (body i))
    {ok : Machine κ ι σ → ι × Nat → Prop}
    (hreach : Reachable (Machine.step body) ok s t) :
    ∃ held, KeepsOrder rank height t held := by
  induction hreach with
  | refl => exact ⟨_, start hstart hbody⟩
  | tail a _ _ hs ih =>
      obtain ⟨held, h⟩ := ih
      exact h.step hbody hs

end KeepsOrder

theorem never_deadlocked [DecidableEq ι] [WellFoundedGT α] (hstart : s.Starts body)
    (hbody : ∀ i, Keeps rank (Below height i) [] (body i))
    {ok : Machine κ ι σ → ι × Nat → Prop}
    (hreach : Reachable (Machine.step body) ok s t) (threads : Set ι) :
    ¬ t.Deadlocked threads := by
  obtain ⟨held, h⟩ := KeepsOrder.of_reachable hstart hbody hreach
  exact h.not_deadlocked threads

end Machine

end GoSocket.Foundation
