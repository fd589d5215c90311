import GoSocket.Client.KeepAlive

/-!
# How long a reconnect waits

`__RunConnect` sleeps where many reconnects have come in a short time, and is to
start anew with the count behind a long one.  `BackOff` is the client, with
`_reconnectCount`, `_lastConnTick`, and the clock of `gettickcount`, which the
I/O thread looks at in two places.
-/

namespace GoSocket.Client

open GoSocket.Common GoSocket.Foundation

/-- What `__RunConnect` does before it connects. -/
structure Attempt where
  currentTick : UInt64
  -- when the previous connection was made
  previous : Option UInt64
  reconnectCount : Nat
  sleeps : Bool
  -- `_reconnectCount` behind that
  countLeft : Nat
  deriving DecidableEq, Repr

/-- What the I/O thread has done with the clock, where it stands. -/
inductive ClockPc where
  | unread
  | read (tick : UInt64)
  | used
  deriving DecidableEq, Repr

structure BackOff where
  client : TcpClient := .init
  reconnectCount : Nat := 0
  lastConnTick : UInt64 := 0
  -- the reconnect callback is about to count
  counting : Bool := false
  clock : ClockPc := .unread
  loopStartTick : Option UInt64 := none
  -- what `gettickcount` returns
  now : UInt64 := 0
  previous : Option UInt64 := none
  attempts : List Attempt := []

inductive BackOffAction where
  | client (action : Action)
  | tick (now : UInt64)
  deriving DecidableEq, Repr

namespace BackOff

def runConnect (self : BackOff) (currentTick : UInt64) : BackOff :=
  let lastConnDuration := currentTick - self.lastConnTick
  let again := lastConnDuration < 300000 || self.lastConnTick = 0
  let reconnectCount := if again then self.reconnectCount else 0
  { self with
    reconnectCount
    clock := .used
    attempts :=
      { currentTick
        previous := self.previous
        reconnectCount := self.reconnectCount
        sleeps := again && self.reconnectCount > 5
        countLeft := reconnectCount } :: self.attempts }

/-- The top of the loop of `__RunReadWrite`. -/
def resetCount (self : BackOff) (curTick loopStartTick : UInt64) : BackOff :=
  { self with
    reconnectCount :=
      if self.reconnectCount ≠ 0 && curTick - loopStartTick > 5 * 1000 then 0
      else self.reconnectCount
    clock := .used }

/-- A step of the client itself.  A connection is made where the I/O thread goes on
from a place of `made`. -/
def ioMove (made : IoPc → Bool) (self : BackOff) (event : IoEvent) : Option BackOff :=
  (self.client.step (.io event)).map fun client =>
    { self with
      client
      clock := .unread
      loopStartTick := if self.client.io.inLoop then self.loopStartTick else none
      previous := if made self.client.io then some self.now else self.previous }

def ioStep (made : IoPc → Bool) (self : BackOff) (event : IoEvent) : Option BackOff :=
  match self.client.io with
  | .runConnect =>
      match self.clock with
      | .unread => some { self with clock := .read self.now }
      | .read currentTick => some (self.runConnect currentTick)
      | .used => self.ioMove made event
  | .loop =>
      match self.clock, self.loopStartTick with
      | .unread, none => some { self with loopStartTick := some self.now }
      | .unread, some _ => some { self with clock := .read self.now }
      | .read curTick, some loopStartTick =>
          some (self.resetCount curTick loopStartTick)
      | _, _ => self.ioMove made event
  | _ => self.ioMove made event

def queueStep (self : BackOff) : Option BackOff :=
  if self.counting then
    some { self with reconnectCount := self.reconnectCount + 1, counting := false }
  else
    (self.client.step .queue).map fun client =>
      { self with
        client
        counting :=
          self.client.callback = .checkReconnect && self.client.shouldReconnect }

def step (made : IoPc → Bool) (self : BackOff) : BackOffAction → Option BackOff
  | .client (.io event) => self.ioStep made event
  | .client .queue => self.queueStep
  | .client action =>
      (self.client.step action).map fun client => { self with client }
  | .tick now => if self.now ≤ now then some { self with now } else none

end BackOff

/-! ## The rule -/

def isRecent (previous : Option UInt64) (currentTick : UInt64) : Bool :=
  previous.any fun tick => currentTick.toNat - tick.toNat < 300000

def isOld (previous : Option UInt64) (currentTick : UInt64) : Bool :=
  previous.any fun tick => 300000 ≤ currentTick.toNat - tick.toNat

structure Attempt.Follows (attempt : Attempt) : Prop where
  sleeps : attempt.sleeps = true ↔
    5 < attempt.reconnectCount ∧ isRecent attempt.previous attempt.currentTick = true
  resets : isOld attempt.previous attempt.currentTick = true →
    attempt.countLeft = 0 ∧ attempt.sleeps = false

namespace BackOff

/-- Every `__RunConnect` has followed the rule. -/
def Follows (s : BackOff) : Prop := ∀ attempt ∈ s.attempts, attempt.Follows

/-- A count above five is met soon behind a connection, and long behind one no
count. -/
def Fits (s : BackOff) (action : BackOffAction) : Prop :=
  match action, s.client.io, s.clock with
  | .client (.io _), .runConnect, .read currentTick =>
      (5 < s.reconnectCount → isRecent s.previous currentTick = true) ∧
        (isOld s.previous currentTick = true → s.reconnectCount = 0)
  | _, _, _ => True

instance (s : BackOff) (action : BackOffAction) : Decidable (Fits s action) := by
  unfold Fits
  split <;> infer_instance

variable {made : IoPc → Bool} {s t : BackOff}

/-- Only `__RunConnect` decides, and no function assigns `_lastConnTick`. -/
inductive Cases (s : BackOff) (action : BackOffAction) (t : BackOff) : Prop
  | decides (event : IoEvent) (currentTick : UInt64)
      (haction : action = .client (.io event)) (hio : s.client.io = .runConnect)
      (hclock : s.clock = .read currentTick) (hnext : t = s.runConnect currentTick)
  | other (hattempts : t.attempts = s.attempts)
      (htick : t.lastConnTick = s.lastConnTick) (hfits : Fits s action)

theorem ioMove_cases {event : IoEvent} (hs : s.ioMove made event = some t)
    (hfits : Fits s (.client (.io event))) : Cases s (.client (.io event)) t := by
  obtain ⟨client, -, rfl⟩ := Option.map_eq_some_iff.mp hs
  exact .other rfl rfl hfits

theorem ioStep_cases {event : IoEvent} (hs : s.ioStep made event = some t) :
    Cases s (.client (.io event)) t := by
  unfold ioStep at hs
  split at hs
  · next hio =>
      split at hs
      · next hclock =>
          cases hs
          exact .other rfl rfl (by simp [Fits, hio, hclock])
      · next currentTick hclock =>
          cases hs
          exact .decides event currentTick rfl hio hclock rfl
      · next hclock => exact ioMove_cases hs (by simp [Fits, hio, hclock])
  · next hio =>
      have hfits : Fits s (.client (.io event)) := by simp [Fits, hio]
      split at hs
      · cases hs
        exact .other rfl rfl hfits
      · cases hs
        exact .other rfl rfl hfits
      · cases hs
        exact .other rfl rfl hfits
      · exact ioMove_cases hs hfits
  · next hnot _ =>
      refine ioMove_cases hs ?_
      unfold Fits
      split
      · next hio _ => exact (hnot hio).elim
      · trivial

theorem step_cases {action : BackOffAction} (hs : s.step made action = some t) :
    Cases s action t := by
  unfold step at hs
  split at hs
  · exact ioStep_cases hs
  · unfold queueStep at hs
    split at hs
    · cases hs
      exact .other rfl rfl trivial
    · obtain ⟨client, -, rfl⟩ := Option.map_eq_some_iff.mp hs
      exact .other rfl rfl trivial
  · next hnot _ =>
      obtain ⟨client, -, rfl⟩ := Option.map_eq_some_iff.mp hs
      refine .other rfl rfl ?_
      unfold Fits
      split
      · next haction _ _ =>
          cases haction
          exact (hnot _ rfl).elim
      · trivial
  · split at hs
    · cases hs
      exact .other rfl rfl trivial
    · cases hs

theorem runConnect_attempts (h : s.lastConnTick = 0) (currentTick : UInt64) :
    (s.runConnect currentTick).attempts =
      { currentTick
        previous := s.previous
        reconnectCount := s.reconnectCount
        sleeps := s.reconnectCount > 5
        countLeft := s.reconnectCount } :: s.attempts := by
  unfold runConnect
  simp [h]

theorem follows_runConnect_iff (h : s.lastConnTick = 0) (hfollows : s.Follows)
    (currentTick : UInt64) :
    (s.runConnect currentTick).Follows ↔
      (5 < s.reconnectCount → isRecent s.previous currentTick = true) ∧
        (isOld s.previous currentTick = true → s.reconnectCount = 0) := by
  unfold Follows
  rw [runConnect_attempts h, List.forall_mem_cons]
  constructor
  · rintro ⟨hnew, -⟩
    have hsleeps := hnew.sleeps
    simp only [decide_eq_true_eq] at hsleeps
    exact ⟨fun hcount => (hsleeps.mp hcount).2, fun hold => (hnew.resets hold).1⟩
  · rintro ⟨hrecent, hold⟩
    refine ⟨⟨?_, ?_⟩, hfollows⟩
    · simp only [decide_eq_true_eq]
      exact ⟨fun hcount => ⟨hcount, hrecent hcount⟩, fun hboth => hboth.1⟩
    · intro hlong
      have hcount := hold hlong
      simp [hcount]

theorem follows_step_iff (h : s.lastConnTick = 0) (hfollows : s.Follows)
    {action : BackOffAction} (hs : s.step made action = some t) :
    t.Follows ↔ Fits s action := by
  cases step_cases hs with
  | decides event currentTick haction hio hclock hnext =>
      subst haction hnext
      rw [follows_runConnect_iff h hfollows]
      simp [Fits, hio, hclock]
  | other hattempts htick hfits =>
      unfold Follows
      rw [hattempts]
      exact iff_of_true hfollows hfits

theorem lastConnTick_step {action : BackOffAction} (hs : s.step made action = some t) :
    t.lastConnTick = s.lastConnTick := by
  cases step_cases hs with
  | decides event currentTick haction hio hclock hnext =>
      rw [hnext]
      rfl
  | other hattempts htick hfits => exact htick

theorem follows_init : Follows {} := by
  simp [Follows]

/-- The rule is followed throughout a run exactly if no `__RunConnect` of it meets a
count that the clock would change, or a high one without a recent connection. -/
theorem follows_iff (made : IoPc → Bool) (actions : List BackOffAction) :
    Throughout (step made) Follows {} actions ↔ Meets (step made) Fits {} actions :=
  throughout_iff_meets (I := fun s => s.lastConnTick = 0)
    (fun _ _ _ h hstep => (lastConnTick_step hstep).trans h)
    (fun _ _ _ h hfollows hstep => follows_step_iff h hfollows hstep) rfl
    follows_init actions

/-- A connection is made with each `__RunConnect`. -/
def everyConnect (io : IoPc) : Bool := io = .runConnect

def successfulConnect (io : IoPc) : Bool := io = .setConnectStatus .kRetConnSuccess

def clientSteps (actions : List Action) : List BackOffAction := actions.map .client

def losing : List BackOffAction :=
  clientSteps [.user .makeSureConnected, .user .proceed, .user .proceed] ++ [.tick 1] ++
    clientSteps (List.replicate 3 (.io .none) ++ [.io (.connected .kRetConnSuccess)] ++
      List.replicate 6 (.io .none) ++ [.io (.selected true false)] ++
      List.replicate 4 (.io .none) ++ [.io (.received none)] ++
      List.replicate 4 (.io .none))

def reconnecting : List BackOffAction :=
  clientSteps (List.replicate 17 .queue ++ List.replicate 3 (.io .none) ++
    [.io .noNet] ++ List.replicate 3 (.io .none) ++ List.replicate 15 .queue)

def returning : List BackOffAction :=
  .tick 300001 ::
    clientSteps ([.user .makeSureConnected, .user .proceed, .user .proceed] ++
      List.replicate 3 (.io .none))

/-- The reconnect is still counted. -/
theorem count_outlives_pause :
    (¬ ∀ actions, Throughout (step everyConnect) Follows {} actions) ∧
      ¬ ∀ actions, Throughout (step successfulConnect) Follows {} actions := by
  have refute (made : IoPc → Bool) (attempt : Attempt) (hnot : ¬ attempt.Follows)
      (hmap : (run (step made) {} (losing ++ reconnecting ++ returning)).map
        (fun s => decide (attempt ∈ s.attempts)) = some true) :
      ¬ ∀ actions, Throughout (step made) Follows {} actions := by
    intro hall
    obtain ⟨s, hrun, hmem⟩ := Option.map_eq_some_iff.mp hmap
    exact hnot ((hall _).of_run hrun attempt (by simpa using hmem))
  let attempt : Attempt :=
    { currentTick := 300001, previous := some 1, reconnectCount := 1
      sleeps := false, countLeft := 1 }
  have hnot : ¬ attempt.Follows := by
    intro hfollows
    have hzero := (hfollows.resets (by decide)).1
    cases hzero
  exact ⟨refute everyConnect attempt hnot (by decide +kernel),
    refute successfulConnect attempt hnot (by decide +kernel)⟩

end BackOff

end GoSocket.Client
