import GoSocket.Socket.Epoll

/-!
# The loop of ConnectImpatient

Each round of `ConnectImpatient` builds a `SocketSelect` on the breaker, polls,
and asks whether the breaker was among the events.  `Poll` clears the breaker
behind the wait in a step of its own, so a `Break` can come in between.  What the
connectors do to their sockets is the environment's; a round ends the loop or
does not.
-/

namespace GoSocket.Connect

open GoSocket.Foundation GoSocket.Socket

/-- Where a round stands; `error` is a negative result of `epoll_wait`. -/
inductive RoundPc where
  | preSelect
  | wait (sel : SocketEpoll)
  | clear (sel : SocketEpoll) (error : Bool)
  | afterSelect (sel : SocketEpoll) (error : Bool)
  | connectors
  | finished
  deriving DecidableEq, Repr

structure ConnectLoop where
  breaker : Breaker
  breakerFd : Nat
  pc : RoundPc := .preSelect
  round : Nat := 0
  -- the rounds that have asked `IsBreak`, and those where it said yes
  asked : Nat := 0
  seen : List Nat := []
  -- the rounds in which a `Break` returned true
  breaks : List Nat := []

inductive ConnectAction where
  | break_ (writes : Bool)
  -- the descriptors that the connectors register
  | preSelect (interests : List EpollEvent)
  | wait (ready : Nat → EventBits)
  | waitError
  | clear
  | afterSelect
  | connectors (done : Bool)

namespace ConnectLoop

def start (breakerFd : Nat) (broken : Bool) : ConnectLoop where
  breaker :=
    { broken
      pipe := some { bytes := if broken then 1 else 0, nonblocking := true } }
  breakerFd

def preSelect (self : ConnectLoop) (interests : List EpollEvent) : SocketEpoll :=
  interests.foldl (fun sel e => sel.add e.fd e.events)
    (SocketEpoll.new self.breakerFd).clearEvent

def ready (self : ConnectLoop) (others : Nat → EventBits) (fd : Nat) : EventBits :=
  if fd = self.breakerFd then { epollIn := self.breaker.readable } else others fd

def isBreak (self : ConnectLoop) (sel : SocketEpoll) : Bool :=
  sel.readFdIsSet self.breakerFd

def isException (self : ConnectLoop) (sel : SocketEpoll) : Bool :=
  sel.exceptionFdIsSet self.breakerFd

def step (self : ConnectLoop) : ConnectAction → Option ConnectLoop
  | .break_ writes =>
      let (breaker, ret) := self.breaker.break_ writes
      some { self with
        breaker
        breaks :=
          if ret ∧ self.pc ≠ .finished then self.round :: self.breaks
          else self.breaks }
  | .preSelect interests =>
      match self.pc with
      | .preSelect => some { self with pc := .wait (self.preSelect interests) }
      | _ => none
  | .wait others =>
      match self.pc with
      | .wait sel =>
          some { self with pc := .clear (sel.wait (self.ready others)) false }
      | _ => none
  | .waitError =>
      match self.pc with
      | .wait sel => some { self with pc := .clear sel true }
      | _ => none
  | .clear =>
      -- the pipe is open, so that nobody else has its number
      match self.pc, self.breaker.clear false with
      | .clear sel error, some (breaker, _) =>
          some { self with breaker, pc := .afterSelect sel error }
      | _, _ => none
  | .afterSelect =>
      match self.pc with
      | .afterSelect sel error =>
          if error || self.isException sel then
            some { self with pc := .finished }
          else if self.isBreak sel then
            some { self with
              pc := .finished
              asked := self.round + 1
              seen := self.round :: self.seen }
          else
            some { self with pc := .connectors, asked := self.round + 1 }
      | _ => none
  | .connectors done =>
      match self.pc with
      | .connectors =>
          if done then some { self with pc := .finished }
          else some { self with pc := .preSelect, round := self.round + 1 }
      | _ => none

/-! ## Signals reach the loop -/

/-- Where the round after a signal has asked, the signal was seen, in its own
round or in the next, and the loop has ended. -/
def NoSignalLost (s : ConnectLoop) : Prop :=
  ∀ r ∈ s.breaks, r + 1 < s.asked →
    (r ∈ s.seen ∨ r + 1 ∈ s.seen) ∧ s.pc = .finished

/-- No signal is given between a wait that has not seen the breaker and the
`Clear` behind it. -/
def NotBetween (s : ConnectLoop) : ConnectAction → Prop
  | .break_ writes =>
      (s.breaker.break_ writes).2 = true → ∀ sel error, s.pc = .clear sel error →
        error = true ∨ s.isBreak sel = true
  | _ => True

/-- The signal of round `r` is on its way to the loop. -/
def Coming (s : ConnectLoop) (r : Nat) : Prop :=
  match s.pc with
  | .preSelect => s.breaker.broken = true
  | .wait _ => s.breaker.broken = true
  | .clear sel error => error = true ∨ s.isBreak sel = true
  | .afterSelect sel error =>
      error = true ∨ s.isBreak sel = true ∨ r = s.round ∧ s.breaker.broken = true
  | .connectors => r = s.round ∧ s.breaker.broken = true
  | .finished => True

/-- The rounds that have asked, the current one included or not. -/
def Asked (s : ConnectLoop) : Prop :=
  match s.pc with
  | .connectors => s.asked = s.round + 1
  | .finished => s.asked ≤ s.round + 1
  | _ => s.asked = s.round

structure Watched (s : ConnectLoop) : Prop where
  intact : s.breaker.Intact
  watches : ∀ sel, s.pc = .wait sel → sel.Watches s.breakerFd
  asked : s.Asked
  unseen : s.pc ≠ .finished → s.seen = []
  coming : s.pc ≠ .finished → ∀ r ∈ s.breaks,
    r ≤ s.round ∧ s.round ≤ r + 1 ∧ s.Coming r
  heard : s.pc = .finished → s.NoSignalLost

variable {s t : ConnectLoop}

theorem watched_start (breakerFd : Nat) (broken : Bool) :
    Watched (start breakerFd broken) where
  intact := rfl
  watches := nofun
  asked := rfl
  unseen _ := rfl
  coming _ := nofun
  heard := nofun

theorem watches_preSelect (self : ConnectLoop) (interests : List EpollEvent) :
    (self.preSelect interests).Watches self.breakerFd := by
  have hfold : ∀ sel : SocketEpoll, sel.Watches self.breakerFd →
      (interests.foldl (fun sel e => sel.add e.fd e.events) sel).Watches
        self.breakerFd := by
    induction interests with
    | nil => exact fun _ h => h
    | cons e rest ih => exact fun _ h => ih _ (h.add e.fd e.events)
  exact hfold _ (SocketEpoll.watches_new self.breakerFd).clearEvent

theorem Watched.asked_le (h : Watched s) (hpc : s.pc ≠ .finished) :
    ∀ r ∈ s.breaks, s.asked ≤ r + 1 := by
  intro r hr
  obtain ⟨-, hge, hcoming⟩ := h.coming hpc r hr
  have hasked := h.asked
  cases hs : s.pc with
  | finished => exact absurd hs hpc
  | connectors =>
      simp only [Asked, hs] at hasked
      simp only [Coming, hs] at hcoming
      omega
  | _ =>
      simp only [Asked, hs] at hasked
      omega

theorem Watched.noSignalLost (h : Watched s) : s.NoSignalLost := by
  by_cases hpc : s.pc = .finished
  · exact h.heard hpc
  · intro r hr hlt
    have hle := h.asked_le hpc r hr
    omega

theorem Coming.congr {r : Nat} (h : Coming s r) (hpc : t.pc = s.pc)
    (hfd : t.breakerFd = s.breakerFd) (hround : t.round = s.round)
    (hbroken : s.breaker.broken = true → t.breaker.broken = true) :
    Coming t r := by
  unfold Coming isBreak at *
  rw [hpc, hfd, hround]
  split <;> simp_all
  tauto

theorem Watched.break_ (h : Watched s) (writes : Bool)
    (hok : NotBetween s (.break_ writes))
    (hstep : s.step (.break_ writes) = some t) : Watched t := by
  obtain ⟨hintact, hret⟩ := h.intact.break_ writes
  have hstays : s.breaker.broken = true →
      (s.breaker.break_ writes).1.broken = true := by
    intro hbroken
    simp [Breaker.break_, hbroken]
  simp only [step, Option.some.injEq] at hstep
  subst hstep
  refine ⟨hintact, h.watches, h.asked, h.unseen, ?_, ?_⟩
  · intro hpc r hr
    have hcases : (s.breaker.break_ writes).2 = true ∧ r = s.round ∨
        r ∈ s.breaks := by
      dsimp only at hr
      split at hr
      · next hcond => exact (List.mem_cons.mp hr).imp_left (⟨hcond.1, ·⟩)
      · exact .inr hr
    rcases hcases with ⟨htrue, rfl⟩ | hold
    · refine ⟨Nat.le_refl _, Nat.le_succ _, ?_⟩
      have hbroken := hret.trans htrue
      cases hs : s.pc with
      | clear sel error =>
          have hseen := hok htrue sel error hs
          simpa only [Coming, hs, isBreak] using hseen
      | finished => exact absurd hs hpc
      | _ => simp [Coming, hbroken]
    · obtain ⟨hle, hge, hcoming⟩ := h.coming hpc r hold
      exact ⟨hle, hge, hcoming.congr rfl rfl rfl hstays⟩
  · intro hpc r hr
    exact h.heard hpc r (by simpa [show s.pc = .finished from hpc] using hr)

theorem Watched.poll (h : Watched s) {sel sel' : SocketEpoll} {error : Bool}
    (hpc : s.pc = .wait sel)
    (hseen : s.breaker.broken = true →
      error = true ∨ s.isBreak sel' = true) :
    Watched { s with pc := .clear sel' error } where
  intact := h.intact
  watches := nofun
  asked := by simpa [Asked, hpc] using h.asked
  unseen _ := h.unseen (by simp [hpc])
  coming _ r hr := by
    obtain ⟨hle, hge, hcoming⟩ := h.coming (by simp [hpc]) r hr
    simp only [Coming, hpc] at hcoming
    exact ⟨hle, hge, hseen hcoming⟩
  heard := nofun

theorem Watched.clear (h : Watched s) (hstep : s.step .clear = some t) :
    Watched t := by
  simp only [step] at hstep
  split at hstep
  · next sel error breaker ret hpc hclear =>
      cases hstep
      obtain ⟨_, _, heq, hintact, -⟩ := h.intact.clear false
      rw [hclear] at heq
      cases heq
      refine ⟨hintact, nofun, ?_, fun _ => h.unseen (by simp [hpc]), ?_, nofun⟩
      · simpa [Asked, hpc] using h.asked
      · intro _ r hr
        obtain ⟨hle, hge, hcoming⟩ := h.coming (by simp [hpc]) r hr
        simp only [Coming, hpc] at hcoming
        exact ⟨hle, hge, hcoming.imp_right .inl⟩
  · cases hstep

/-- The loop ends in a round whose wait has failed, or where the connectors
are done. -/
theorem Watched.finish (h : Watched s) :
    Watched { s with pc := .finished } where
  intact := h.intact
  watches := nofun
  asked := by
    have hasked := h.asked
    unfold Asked at hasked
    simp only [Asked]
    split at hasked <;> omega
  unseen := nofun
  coming := nofun
  heard _ r hr hlt := ⟨(h.noSignalLost r hr hlt).1, rfl⟩

theorem Watched.afterSelect (h : Watched s)
    (hstep : s.step .afterSelect = some t) : Watched t := by
  simp only [step] at hstep
  split at hstep
  · next sel error hpc =>
      have hcoming : ∀ r ∈ s.breaks, r ≤ s.round ∧ s.round ≤ r + 1 ∧
          (error = true ∨ s.isBreak sel = true ∨
            r = s.round ∧ s.breaker.broken = true) := by
        intro r hr
        simpa only [Coming, hpc] using h.coming (by simp [hpc]) r hr
      split at hstep
      · cases hstep
        exact h.finish
      · next herror =>
          split at hstep
          · cases hstep
            refine ⟨h.intact, nofun, Nat.le_refl _, nofun, nofun, ?_⟩
            intro _ r hr _
            obtain ⟨hle, hge, -⟩ := hcoming r hr
            have hround : r = s.round ∨ r + 1 = s.round := by omega
            exact ⟨by simpa [h.unseen (by simp [hpc])] using hround, rfl⟩
          · next hbreak =>
              cases hstep
              refine ⟨h.intact, nofun, rfl, fun _ => h.unseen (by simp [hpc]),
                ?_, nofun⟩
              intro _ r hr
              obtain ⟨hle, hge, hways⟩ := hcoming r hr
              refine ⟨hle, hge, ?_⟩
              have hnoError : error ≠ true := by
                intro hce
                simp [hce] at herror
              exact (hways.resolve_left hnoError).resolve_left hbreak
  · cases hstep

theorem Watched.step (h : Watched s) (action : ConnectAction)
    (hok : NotBetween s action) (hstep : s.step action = some t) :
    Watched t := by
  cases action with
  | break_ writes => exact h.break_ writes hok hstep
  | clear => exact h.clear hstep
  | afterSelect => exact h.afterSelect hstep
  | preSelect interests =>
      simp only [ConnectLoop.step] at hstep
      split at hstep
      · next hpc =>
          cases hstep
          refine ⟨h.intact, ?_, ?_, fun _ => h.unseen (by simp [hpc]), ?_, nofun⟩
          · rintro sel ⟨⟩
            exact s.watches_preSelect interests
          · simpa [Asked, hpc] using h.asked
          · intro _ r hr
            simpa only [Coming, hpc] using h.coming (by simp [hpc]) r hr
      · cases hstep
  | wait others =>
      simp only [ConnectLoop.step] at hstep
      split at hstep
      · next sel hpc =>
          cases hstep
          refine h.poll hpc fun hbroken => .inr ?_
          apply (h.watches sel hpc).readFdIsSet_wait
          simp [ready, h.intact.readable, hbroken]
      · cases hstep
  | waitError =>
      simp only [ConnectLoop.step] at hstep
      split at hstep
      · next sel hpc =>
          cases hstep
          exact h.poll hpc fun _ => .inl rfl
      · cases hstep
  | connectors done =>
      simp only [ConnectLoop.step] at hstep
      split at hstep
      · next hpc =>
          split at hstep
          · cases hstep
            exact h.finish
          · cases hstep
            refine ⟨h.intact, nofun, ?_, fun _ => h.unseen (by simp [hpc]), ?_,
              nofun⟩
            · simpa [Asked, hpc] using h.asked
            · intro _ r hr
              obtain ⟨hle, hge, hcoming⟩ := h.coming (by simp [hpc]) r hr
              simp only [Coming, hpc] at hcoming
              obtain ⟨rfl, hbroken⟩ := hcoming
              exact ⟨Nat.le_succ _, Nat.le_refl _, hbroken⟩
      · cases hstep

/-- Where no signal is given between a wait that missed it and the `Clear`
behind that, the loop hears of every one, in its round or in the next. -/
theorem noSignalLost_of_notBetween (breakerFd : Nat) (broken : Bool)
    (h : Reachable step NotBetween (start breakerFd broken) s) :
    s.NoSignalLost := by
  have hwatched : Watched s := h.invariant (watched_start breakerFd broken)
    fun _ action _ _ hw hok hstep => hw.step action hok hstep
  exact hwatched.noSignalLost

theorem noSignalLost_nextRound : ∃ s : ConnectLoop,
    (s.breaks, s.asked, s.seen) = ([0], 2, [1]) ∧ s.NoSignalLost := by
  let others (_ : Nat) : EventBits := {}
  have hround : Reachable step NotBetween (start 3 false) _ :=
    .tail .afterSelect (.tail .clear (.tail (.wait others) (.tail (.preSelect [])
      (.tail (.connectors false) (.tail (.break_ true) (.tail .afterSelect
        (.tail .clear (.tail (.wait others) (.tail (.preSelect [])
          .refl trivial rfl) trivial rfl) trivial rfl) trivial rfl)
        (fun _ _ _ => nofun) rfl) trivial rfl) trivial rfl) trivial rfl)
      trivial rfl) trivial rfl
  exact ⟨_, rfl, noSignalLost_of_notBetween 3 false hround⟩

def missed : List ConnectAction :=
  let others (fd : Nat) : EventBits := { epollOut := fd = 4 }
  [.preSelect [{ fd := 4, events := { epollOut := true } }], .wait others,
    .break_ true, .clear, .afterSelect, .connectors false,
    .preSelect [{ fd := 4, events := { epollOut := true } }], .wait others,
    .clear, .afterSelect]

theorem missed_loses_signal :
    ¬ ∀ s, Reachable step AnyStep (start 3 false) s → s.NoSignalLost := by
  intro hall
  have hrun : (run step (start 3 false) missed).map
      (fun s => (s.breaks, s.asked, s.seen)) = some ([0], 2, []) := by
    decide
  obtain ⟨s, hreach, hs⟩ := Reachable.of_run_map hrun
  injection hs with hbreaks hrest
  injection hrest with hasked hseen
  have hlost := hall s hreach 0 (by simp [hbreaks]) (by omega)
  simp [hseen] at hlost

end ConnectLoop

end GoSocket.Connect
