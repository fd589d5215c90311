import GoSocket.Foundation.Transition
import Mathlib.Data.List.Nodup

/-!
# Messages of sessions

Messages are accepted into a queue and delivered from its head; a delivered
message leaves the queue in a step of its own.  A new session drops what is
left of the old one.  What a session delivers is a prefix of what it accepted.
-/

namespace GoSocket.Foundation

universe u

structure Outbox (μ : Type u) where
  session : Nat := 0
  waiting : List μ := []
  -- the first message that waits has been delivered
  delivering : Bool := false
  -- behind their sessions, newest first
  accepted : List (Nat × μ) := []
  delivered : List (Nat × μ) := []

inductive OutboxAction (μ : Type u) where
  | accept (m : μ)
  | deliver
  | retire
  | renew

namespace Outbox

variable {μ : Type u}

def step (self : Outbox μ) : OutboxAction μ → Option (Outbox μ)
  | .accept m =>
      some { self with
        waiting := self.waiting ++ [m]
        accepted := (self.session, m) :: self.accepted }
  | .deliver =>
      match self.waiting, self.delivering with
      | m :: _, false =>
          some { self with
            delivering := true
            delivered := (self.session, m) :: self.delivered }
      | _, _ => none
  | .retire =>
      if self.delivering then
        some { self with delivering := false, waiting := self.waiting.tail }
      else none
  | .renew =>
      if self.delivering then none
      else some { self with session := self.session + 1, waiting := [] }

def Fresh (self : Outbox μ) : OutboxAction μ → Prop
  | .accept m => m ∉ self.accepted.map Prod.snd
  | _ => True

/-! ## The log of one session -/

def inSession (session : Nat) : List (Nat × μ) → List μ
  | [] => []
  | (k, m) :: rest =>
      if k = session then inSession session rest ++ [m]
      else inSession session rest

@[simp] theorem mem_inSession {session : Nat} {m : μ} {log : List (Nat × μ)} :
    m ∈ inSession session log ↔ (session, m) ∈ log := by
  induction log with
  | nil => simp [inSession]
  | cons entry rest ih =>
      obtain ⟨k, m'⟩ := entry
      rw [inSession]
      split
      · next hk =>
          subst hk
          simp [ih, or_comm]
      · next hk => simp [ih, Ne.symm hk]

theorem inSession_of_lt {session : Nat} {log : List (Nat × μ)}
    (h : ∀ entry ∈ log, entry.1 < session) : inSession session log = [] := by
  induction log with
  | nil => rfl
  | cons entry rest ih =>
      obtain ⟨k, m⟩ := entry
      have hk : k < session := h (k, m) (by simp)
      rw [inSession, if_neg (by omega)]
      exact ih fun entry hentry => h entry (by simp [hentry])

theorem nodup_inSession (session : Nat) {log : List (Nat × μ)}
    (h : (log.map Prod.snd).Nodup) : (inSession session log).Nodup := by
  induction log with
  | nil => exact .nil
  | cons entry rest ih =>
      obtain ⟨k, m⟩ := entry
      rw [List.map_cons, List.nodup_cons] at h
      rw [inSession]
      split
      · refine List.nodup_append.mpr ⟨ih h.2, by simp, ?_⟩
        intro a ha b hb hab
        subst hab
        rw [List.mem_singleton] at hb
        subst hb
        exact h.1 (List.mem_map.mpr ⟨_, mem_inSession.mp ha, rfl⟩)
      · exact ih h.2

theorem nodup_of_inSession {log : List (Nat × μ)}
    (h : ∀ session, (inSession session log).Nodup) : log.Nodup := by
  induction log with
  | nil => exact .nil
  | cons entry rest ih =>
      obtain ⟨k, m⟩ := entry
      have hrest (session : Nat) : (inSession session rest).Nodup := by
        have hlog := h session
        rw [inSession] at hlog
        split at hlog
        · exact (List.nodup_append.mp hlog).1
        · exact hlog
      refine List.nodup_cons.mpr ⟨fun hmem => ?_, ih hrest⟩
      have hlog := h k
      rw [inSession, if_pos rfl] at hlog
      exact (List.nodup_append.mp hlog).2.2 m (mem_inSession.mpr hmem) m
        (by simp) rfl

/-! ## What a run keeps -/

/-- What is accepted and not yet delivered. -/
def pending (self : Outbox μ) : List μ :=
  if self.delivering then self.waiting.tail else self.waiting

structure Sound (o : Outbox μ) : Prop where
  accepted_le : ∀ entry ∈ o.accepted, entry.1 ≤ o.session
  delivered_le : ∀ entry ∈ o.delivered, entry.1 ≤ o.session
  unique : (o.accepted.map Prod.snd).Nodup
  current : inSession o.session o.accepted =
    inSession o.session o.delivered ++ o.pending
  ordered : ∀ session,
    inSession session o.delivered <+: inSession session o.accepted

namespace Sound

variable {s t : Outbox μ}

theorem init : Sound ({} : Outbox μ) := by
  constructor <;> simp [inSession, pending]

theorem delivered_nodup (h : Sound s) : (s.delivered.map Prod.snd).Nodup := by
  have hsession (session : Nat) : (inSession session s.delivered).Nodup :=
    (nodup_inSession session h.unique).sublist (h.ordered session).sublist
  have haccepted {entry : Nat × μ} (hentry : entry ∈ s.delivered) :
      entry ∈ s.accepted :=
    mem_inSession.mp ((h.ordered entry.1).subset (mem_inSession.mpr hentry))
  refine List.Nodup.map_on ?_ (nodup_of_inSession hsession)
  intro entry hentry entry' hentry' heq
  exact List.inj_on_of_nodup_map h.unique (haccepted hentry) (haccepted hentry') heq

theorem delivered_before (h : Sound s) {session : Nat} {m : μ} {before after : List μ}
    (hm : m ∈ inSession session s.delivered)
    (haccepted : inSession session s.accepted = before ++ m :: after) :
    before ++ [m] <+: inSession session s.delivered := by
  have hdelivered := h.ordered session
  have hnodup := nodup_inSession session h.unique
  rw [haccepted] at hdelivered hnodup
  have hfront : before ++ [m] <+: before ++ m :: after :=
    ⟨after, by rw [List.append_assoc, List.singleton_append]⟩
  refine List.prefix_of_prefix_length_le hfront hdelivered ?_
  by_contra hshort
  have hbefore : inSession session s.delivered <+: before := by
    refine List.prefix_of_prefix_length_le hdelivered (List.prefix_append _ _) ?_
    rw [List.length_append, List.length_singleton] at hshort
    omega
  exact (List.nodup_append.mp hnodup).2.2 m (hbefore.subset hm) m (by simp) rfl

private theorem accept (h : Sound s) {m : μ}
    (hfresh : m ∉ s.accepted.map Prod.snd)
    (hdelivering : s.delivering = true → s.waiting ≠ []) :
    Sound { s with
      waiting := s.waiting ++ [m]
      accepted := (s.session, m) :: s.accepted } := by
  constructor
  case accepted_le =>
    intro entry hentry
    rcases List.mem_cons.mp hentry with rfl | hentry
    · exact Nat.le_refl _
    · exact h.accepted_le entry hentry
  case delivered_le => exact h.delivered_le
  case unique => exact List.nodup_cons.mpr ⟨hfresh, h.unique⟩
  case current =>
    have hpending : pending { s with
        waiting := s.waiting ++ [m]
        accepted := (s.session, m) :: s.accepted } = s.pending ++ [m] := by
      unfold pending
      split
      · next hd => exact List.tail_append_of_ne_nil (hdelivering hd)
      · rfl
    rw [hpending, inSession, if_pos rfl, h.current, List.append_assoc]
  case ordered =>
    intro session
    rw [inSession]
    split
    · exact (h.ordered session).trans (List.prefix_append _ _)
    · exact h.ordered session

private theorem deliver (h : Sound s) {m : μ} {rest : List μ}
    (hwaiting : s.waiting = m :: rest) (hdelivering : s.delivering = false) :
    Sound { s with
      delivering := true, delivered := (s.session, m) :: s.delivered } := by
  have hcurrent : inSession s.session s.accepted =
      inSession s.session ((s.session, m) :: s.delivered) ++ rest := by
    rw [h.current, inSession, if_pos rfl, pending, hdelivering, hwaiting]
    simp
  constructor
  case accepted_le => exact h.accepted_le
  case delivered_le =>
    intro entry hentry
    rcases List.mem_cons.mp hentry with rfl | hentry
    · exact Nat.le_refl _
    · exact h.delivered_le entry hentry
  case unique => exact h.unique
  case current =>
    change inSession s.session s.accepted = _ ++ s.waiting.tail
    rw [hcurrent, hwaiting, List.tail_cons]
  case ordered =>
    intro session
    by_cases hsession : session = s.session
    · subst hsession
      exact ⟨rest, hcurrent.symm⟩
    · change inSession session ((s.session, m) :: s.delivered) <+: _
      rw [inSession, if_neg (Ne.symm hsession)]
      exact h.ordered session

private theorem renew (h : Sound s) :
    Sound { s with
      session := s.session + 1, waiting := [], delivering := false } := by
  constructor
  case accepted_le =>
    exact fun entry hentry => Nat.le_succ_of_le (h.accepted_le entry hentry)
  case delivered_le =>
    exact fun entry hentry => Nat.le_succ_of_le (h.delivered_le entry hentry)
  case unique => exact h.unique
  case current =>
    have haccepted : inSession (s.session + 1) s.accepted = [] :=
      inSession_of_lt fun entry hentry =>
        Nat.lt_succ_of_le (h.accepted_le entry hentry)
    have hdelivered : inSession (s.session + 1) s.delivered = [] :=
      inSession_of_lt fun entry hentry =>
        Nat.lt_succ_of_le (h.delivered_le entry hentry)
    exact haccepted.trans (by simp [hdelivered, pending])
  case ordered => exact h.ordered

end Sound

/-- The first message waits until it is retired. -/
def Holding (self : Outbox μ) : Prop :=
  self.delivering = true → self.waiting ≠ []

theorem sound_step {s t : Outbox μ} (h : s.Sound ∧ s.Holding)
    {action : OutboxAction μ} (hok : s.Fresh action)
    (hs : s.step action = some t) : t.Sound ∧ t.Holding := by
  obtain ⟨hsound, hholding⟩ := h
  cases action with
  | accept m =>
      cases hs
      exact ⟨hsound.accept hok hholding, fun _ => by simp⟩
  | deliver =>
      simp only [step] at hs
      split at hs
      · next m rest hwaiting hdelivering =>
          cases hs
          exact ⟨hsound.deliver hwaiting hdelivering, fun _ => by simp [hwaiting]⟩
      · cases hs
  | retire =>
      simp only [step] at hs
      split at hs
      · next hdelivering =>
          cases hs
          refine ⟨⟨hsound.accepted_le, hsound.delivered_le, hsound.unique, ?_,
            hsound.ordered⟩, nofun⟩
          refine hsound.current.trans ?_
          simp [pending, hdelivering]
      · cases hs
  | renew =>
      simp only [step] at hs
      split at hs
      · cases hs
      · next hdelivering =>
          cases hs
          have hrenew := hsound.renew
          rw [Bool.not_eq_true] at hdelivering
          rw [← hdelivering] at hrenew
          exact ⟨hrenew, fun hd => absurd hd (by simp [hdelivering])⟩

theorem sound_of_reachable {s : Outbox μ}
    (h : Reachable step Fresh ({} : Outbox μ) s) : s.Sound :=
  (h.invariant ⟨Sound.init, nofun⟩
    fun _ _ _ _ hinv hok hs => sound_step hinv hok hs).1

end Outbox

end GoSocket.Foundation
