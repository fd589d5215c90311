import GoSocket.Client.Frames
import GoSocket.Client.Callbacks

/-!
# The ping alarm

The loop starts `_pingAlarm` at its top where it does not wait, and looks at its
bottom whether it has fired.  `KeepAlive` is the client, with what the loop has
sent since the alarm was started.
-/

namespace GoSocket.Client

open GoSocket.Common GoSocket.Foundation

/-- Inside `__RunReadWrite`, up to the end of its loop. -/
def IoPc.inLoop : IoPc → Bool
  | .finished => false
  | .start => false
  | .runConnect => false
  | .setConnectStatus _ => false
  | .leave => false
  | .leavePingTimeout => false
  | .setDisconnected => false
  | .startReconnect => false
  | _ => true

/-- A frame has been written, and the alarm not started since. -/
def IoPc.afterWrite : IoPc → Bool
  | .getAlarm _ _ => true
  | .setUserData _ _ _ => true
  | .setCallback _ _ _ => true
  | .startAlarm _ _ _ => true
  | .recordAlarm _ _ _ => true
  | .pop _ => true
  | .cancelPing _ => true
  | .restartPing _ => true
  | .resetPingTimeout => true
  | .startPingTimeout => true
  | _ => false

namespace TcpClient

def pingAlarm (self : TcpClient) : Alarm := self.timers.alarms .pingAlarm

def armsPing (self : TcpClient) (action : Action) : Bool :=
  match self.io, action with
  | .loop, .io .none => self.timers.canStart .pingAlarm
  | .restartPing _, .io .none => self.timers.canStart .pingAlarm
  | _, _ => false

/-- The closure of the ping alarm sets the status, for the `Start` with that
number. -/
def firesPing? (self : TcpClient) (action : Action) : Option Nat :=
  match action, self.callback, self.timers.queue.loop, self.timers.firing with
  | .queue, .idle, .calling _ { alarm := .pingAlarm, start } _, false =>
      if self.pingAlarm.messageId = 0 then none else some start
  | _, _, _, _ => none

end TcpClient

/-- `EncodeMessage` returns, of a message of the queue or of a `PingReq`. -/
def Action.writes : Action → Bool
  | .io (.encoded true) => true
  | _ => false

structure KeepAlive where
  client : TcpClient := .init
  -- the `Start`s of the ping alarm since which the loop has written nothing
  silent : List Nat := []
  -- the alarm of one of them has fired, and the loop has written nothing since
  fired : Bool := false
  -- the loop has armed the alarm again over that
  missed : Bool := false

namespace KeepAlive

open TcpClient

def step (self : KeepAlive) (action : Action) : Option KeepAlive :=
  (self.client.step action).map fun client =>
    { client
      silent :=
        if action.writes then []
        else if self.client.armsPing action then
          self.client.timers.starts :: self.silent
        else self.silent
      fired := client.io.inLoop && !action.writes &&
        (self.fired || (self.client.firesPing? action).any (self.silent.contains ·))
      missed := self.missed || (self.fired && self.client.armsPing action) }

/-- The alarm is not armed over a firing with nothing sent, and the firing is
still there for the bottom of the loop to see. -/
structure Heeded (s : KeepAlive) : Prop where
  missed : s.missed = false
  fired : s.fired = true → s.client.pingAlarm.isAlarm = true

/-- The alarm of a silent time does not fire between the bottom of the loop and
its top. -/
def FiresInTime (s : KeepAlive) (action : Action) : Prop :=
  s.client.io = .loop → ∀ start ∈ s.silent, s.client.firesPing? action ≠ some start

instance (s : KeepAlive) (action : Action) : Decidable (FiresInTime s action) :=
  inferInstanceAs (Decidable (s.client.io = .loop →
    ∀ start ∈ s.silent, s.client.firesPing? action ≠ some start))

theorem of_map {s t : KeepAlive} {action : Action} (hs : s.step action = some t) :
    s.client.step action = some t.client ∧
      t.silent = (if action.writes then [] else
        if s.client.armsPing action then s.client.timers.starts :: s.silent
        else s.silent) ∧
      t.fired = (t.client.io.inLoop && !action.writes && (s.fired ||
        (s.client.firesPing? action).any (s.silent.contains ·))) ∧
      t.missed = (s.missed || (s.fired && s.client.armsPing action)) := by
  obtain ⟨client, hclient, rfl⟩ := Option.map_eq_some_iff.mp hs
  exact ⟨hclient, rfl, rfl, rfl⟩

end KeepAlive

/-! ## What the threads do to the alarm -/

namespace TcpClient

variable {s t : TcpClient}

@[simp] theorem pingAlarm_proceed (s : TcpClient) (holder : Holder) (next : Section) :
    (s.proceed holder next).pingAlarm = s.pingAlarm := by
  rw [pingAlarm, proceed_timers, pingAlarm]

theorem pingAlarm_of_user {call : UserCall} (hs : s.userStep call = some t) :
    t.pingAlarm = s.pingAlarm := by
  cases userStep_cases hs with
  | enterSend type payload data hasCallback hfree =>
      obtain ⟨mutex, calls, invoked, heq⟩ :=
        s.enterSend_eq type payload data hasCallback
      rw [heq]
      rfl
  | enterPush message hfree =>
      obtain ⟨mutex, calls, heq⟩ := s.enterPush_eq message
      rw [heq]
      rfl
  | inside next hcall hmutex => exact pingAlarm_proceed s .user next
  | _ => rfl

theorem idle_of_firesPing? {action : Action} {start : Nat}
    (h : s.firesPing? action = some start) :
    action = .queue ∧ s.callback = .idle ∧ s.timers.firing = false ∧
      s.pingAlarm.messageId ≠ 0 ∧ ∃ messageId pass,
        s.timers.queue.loop = .calling messageId { alarm := .pingAlarm, start } pass := by
  unfold firesPing? at h
  split at h
  · next messageId start' pass hcallback hloop hfiring =>
      split at h
      · cases h
      · next hid =>
          cases h
          exact ⟨rfl, hcallback, hfiring, hid, _, _, hloop⟩
  · cases h

theorem loopAction_ne (loop : LoopPc (Posted ClientAlarm)) (a : ClientAlarm) :
    loopAction loop ≠ .cancel a ∧ (∀ afterSec, loopAction loop ≠ .start a afterSec) := by
  unfold loopAction
  split <;> simp

theorem pingAlarm_of_loop {timers : Alarms ClientAlarm}
    (hs : s.timers.step (loopAction s.timers.queue.loop) = some timers) :
    (s.pingAlarm.isAlarm = true → (timers.alarms .pingAlarm).isAlarm = true) ∧
      ∀ start, s.firesPing? .queue = some start →
        (timers.alarms .pingAlarm).isAlarm = true := by
  constructor
  · intro hfired
    obtain ⟨hcancel, hstart⟩ := loopAction_ne s.timers.queue.loop .pingAlarm
    generalize loopAction s.timers.queue.loop = action at hs hcancel hstart
    cases Alarms.step_alarm hs .pingAlarm with
    | same h => rwa [h]
    | setCallback h => rwa [h]
    | setUserData userData h => rwa [h]
    | start afterSec => exact absurd rfl (hstart afterSec)
    | cancel => exact absurd rfl hcancel
    | fire messageId start pass hid hfiring hloop h =>
        rw [h]
        rfl
  · intro start hfires
    obtain ⟨-, -, hfiring, hid, messageId, pass, hloop⟩ := idle_of_firesPing? hfires
    rw [hloop] at hs
    simp only [loopAction, Alarms.step, Alarms.fire, hloop, hfiring] at hs
    rw [if_neg (show ¬(s.timers.alarms .pingAlarm).messageId = 0 from hid)] at hs
    cases hs
    simp [Alarms.set, Alarm.isAlarm]

theorem pingAlarm_of_queue (hs : s.queueStep = some t) :
    (s.pingAlarm.isAlarm = true → t.pingAlarm.isAlarm = true) ∧
      ∀ start, s.firesPing? .queue = some start → t.pingAlarm.isAlarm = true := by
  have busy (hbusy : s.callback ≠ .idle) (hsame : t.pingAlarm = s.pingAlarm) :
      (s.pingAlarm.isAlarm = true → t.pingAlarm.isAlarm = true) ∧
        ∀ start, s.firesPing? .queue = some start → t.pingAlarm.isAlarm = true := by
    refine ⟨fun h => hsame ▸ h, fun start hfires => ?_⟩
    exact absurd (idle_of_firesPing? hfires).2.1 hbusy
  cases queueStep_cases hs with
  | loop timers hcallback hstep => exact pingAlarm_of_loop hstep
  | returned timers hcallback hstep =>
      have hreturned : s.timers.step .returned = some timers := hstep
      refine busy (by simp [hcallback]) ?_
      cases Alarms.step_alarm hreturned .pingAlarm with
      | same h => exact h
  | timer u callback htimer =>
      have halarm : u.pingAlarm = s.pingAlarm := htimer.timers.alarms (by simp)
      refine busy ?_ halarm
      cases htimer <;> simp [*]
  | move callback hmove =>
      refine busy ?_ rfl
      cases hmove <;> simp [*]
  | inside next hcallback hmutex =>
      refine busy ?_ ?_
      · rcases hcallback with h | h <;> simp [h]
      · exact pingAlarm_proceed s .queue next
  | _ => exact busy (by simp [*]) rfl

theorem ioStep_writes {event : IoEvent}
    (hio : (∃ readable, s.io = .encode readable) ∨ s.io = .sendPing)
    (hs : s.ioStep event = some t) : t.io = .leave ∨ event = .encoded true := by
  unfold ioStep at hs
  rcases hio with ⟨readable, hio⟩ | hio
  all_goals
    rw [hio] at hs
    cases event with
    | encoded ok =>
        cases ok with
        | false =>
            cases hs
            exact .inl rfl
        | true => exact .inr rfl
    | _ => cases hs

theorem afterWrite_of_io {event : IoEvent} (hs : s.ioStep event = some t)
    (hafter : t.io.afterWrite = true) : event = .encoded true ∨
      s.io.afterWrite = true ∧ ∀ readable, s.io ≠ .restartPing readable := by
  cases ioStep_cases hs with
  | move io hmove =>
      cases hmove with
      | sendPing hio =>
          rcases ioStep_writes (.inr hio) hs with hleave | hevent
          · cases hleave
          · exact .inl hevent
      | _ => cases hafter
  | alarm action timers io halarm hstep =>
      generalize s.io = pc at halarm ⊢
      cases halarm with
      | setUserData | setCallback | cancelPing | resetPingTimeout =>
          exact .inr ⟨rfl, nofun⟩
      | _ => cases hafter
  | status status io hstatus =>
      generalize s.io = pc at hstatus
      cases hstatus <;> cases hafter
  | timer u io htimer =>
      cases htimer with
      | cancelTimer => cases hafter
      | _ => exact .inr (by simp [*, IoPc.afterWrite])
  | encode readable queued rest hio hqueue =>
      rcases ioStep_writes (.inl ⟨readable, hio⟩) hs with hleave | hevent
      · unfold behindEncode at hleave
        simp only at hleave
        split at hleave <;> cases hleave
      · exact .inl hevent
  | pop readable hio hmutex => exact .inr (by simp [hio, IoPc.afterWrite])
  | inside next hio hmutex =>
      rcases s.io_proceed .io next with h | h
      · rw [h, hio] at hafter
        cases hafter
      · rw [h] at hafter
        cases hafter
  | _ => cases hafter

theorem loop_of_io {event : IoEvent} (hs : s.ioStep event = some t)
    (hloop : t.io = .loop) : s.io.inLoop = false ∨ s.pingAlarm.isAlarm = false ∨
      s.io.afterWrite = true := by
  cases ioStep_cases hs with
  | move io hmove =>
      cases hmove with
      | skipPing hio hfired => exact .inr (.inl hfired)
      | _ => cases hloop
  | alarm action timers io halarm hstep =>
      generalize s.io = pc at halarm ⊢
      cases halarm <;> first | exact .inr (.inr rfl) | cases hloop
  | status status io hstatus =>
      generalize s.io = pc at hstatus ⊢
      cases hstatus <;> exact .inl rfl
  | timer u io htimer => cases htimer <;> cases hloop
  | encode readable queued rest hio hqueue =>
      unfold behindEncode at hloop
      simp only at hloop
      split at hloop <;> cases hloop
  | inside next hio hmutex =>
      rcases s.io_proceed .io next with h | h
      · rw [h, hio] at hloop
        cases hloop
      · rw [h] at hloop
        cases hloop
  | _ => cases hloop

/-- The alarm is stopped or started behind a write, at the top of the loop and
behind its end. -/
theorem pingAlarm_of_io {event : IoEvent} (hs : s.ioStep event = some t)
    (hfired : s.pingAlarm.isAlarm = true) (hloop : s.io ≠ .loop)
    (hafter : s.io.afterWrite = false) (hinside : t.io.inLoop = true) :
    t.pingAlarm.isAlarm = true := by
  cases ioStep_cases hs with
  | alarm action timers io halarm hstep =>
      have hsame : timers.alarms .pingAlarm = s.timers.alarms .pingAlarm := by
        generalize s.io = pc at halarm hloop hafter
        cases halarm with
        | startPing => exact absurd rfl hloop
        | cancelPing => cases hafter
        | restartPing => cases hafter
        | leave => cases hinside
        | _ =>
            cases Alarms.step_alarm hstep .pingAlarm with
            | same h => exact h
      change (timers.alarms .pingAlarm).isAlarm = true
      rw [hsame]
      exact hfired
  | timer u io htimer =>
      have hsame : u.pingAlarm = s.pingAlarm := htimer.timers.alarms (by simp)
      change u.pingAlarm.isAlarm = true
      rw [hsame]
      exact hfired
  | inside next hio hmutex => rwa [pingAlarm_proceed]
  | _ => exact hfired

end TcpClient

namespace KeepAlive

open TcpClient

structure Tracked (s : KeepAlive) : Prop where
  missed : s.missed = false
  fired : s.fired = true → s.client.io.inLoop = true ∧ s.client.io ≠ .loop ∧
    s.client.pingAlarm.isAlarm = true
  sent : s.client.io.afterWrite = true → s.silent = [] ∧ s.fired = false

variable {s t : KeepAlive}

theorem armsPing_eq_true_iff (s : TcpClient) (action : Action) :
    s.armsPing action = true →
      action = .io .none ∧ (s.io = .loop ∨ ∃ readable, s.io = .restartPing readable) := by
  unfold armsPing
  split
  · next hio => exact fun _ => ⟨rfl, .inl hio⟩
  · next readable hio => exact fun _ => ⟨rfl, .inr ⟨readable, hio⟩⟩
  · nofun

namespace Tracked

theorem init : Tracked {} where
  missed := rfl
  fired := nofun
  sent := nofun

theorem unarmed (h : Tracked s) {action : Action} (hfired : s.fired = true) :
    s.client.armsPing action = false := by
  rw [Bool.eq_false_iff]
  intro harms
  obtain ⟨-, hloop, -⟩ := h.fired hfired
  rcases (armsPing_eq_true_iff _ _ harms).2 with hio | ⟨readable, hio⟩
  · exact hloop hio
  · have hnot := (h.sent (by rw [hio]; rfl)).2
    rw [hnot] at hfired
    cases hfired

theorem aside (h : Tracked s) {action : Action} (hok : FiresInTime s action)
    (hs : s.step action = some t) (hnot : ∀ event, action ≠ .io event) : Tracked t := by
  obtain ⟨hclient, hsilent, hfired, hmissed⟩ := of_map hs
  have hwrites : action.writes = false := by
    cases action with
    | io event => exact absurd rfl (hnot event)
    | _ => rfl
  have harms : s.client.armsPing action = false := by
    rw [Bool.eq_false_iff]
    intro harms
    exact hnot .none (armsPing_eq_true_iff _ _ harms).1
  have hio : t.client.io = s.client.io ∨ t.client.io = .start := by
    rcases io_step hclient with h | h | ⟨event, h, -⟩
    · exact .inl h
    · exact .inr h
    · exact absurd h (hnot event)
  rw [hwrites, harms] at hsilent
  simp only [Bool.false_eq_true, if_false] at hsilent
  constructor
  case missed => rw [hmissed, h.missed, harms, Bool.and_false, Bool.false_or]
  case sent =>
    intro hafter
    rcases hio with hsame | hstart
    · obtain ⟨hempty, hquiet⟩ := h.sent (hsame ▸ hafter)
      rw [hsilent, hfired, hempty, hquiet]
      cases s.client.firesPing? action <;> simp
    · rw [hstart] at hafter
      cases hafter
  case fired =>
    intro htrue
    rw [hfired, Bool.and_eq_true, Bool.and_eq_true, Bool.or_eq_true] at htrue
    obtain ⟨⟨hinside, -⟩, hcause⟩ := htrue
    have hsame : t.client.io = s.client.io := by
      rcases hio with hsame | hstart
      · exact hsame
      · rw [hstart] at hinside
        cases hinside
    rw [hsame] at hinside ⊢
    rcases hcause with hold | hany
    · refine ⟨hinside, (h.fired hold).2.1, ?_⟩
      have halarm := (h.fired hold).2.2
      cases action with
      | user call => rwa [pingAlarm_of_user hclient]
      | io event => exact absurd rfl (hnot event)
      | queue => exact (pingAlarm_of_queue hclient).1 halarm
      | tick nanoseconds =>
          rw [← Option.some.inj hclient]
          exact halarm
      | pipes ok =>
          rw [← Option.some.inj hclient]
          exact halarm
    · obtain ⟨start, hfires, hmem⟩ := (Option.any_eq_true _ _).mp hany
      have hqueue := (idle_of_firesPing? hfires).1
      subst hqueue
      refine ⟨hinside, ?_, (pingAlarm_of_queue hclient).2 start hfires⟩
      intro hloop
      exact hok hloop start (by simpa using hmem) hfires

theorem io (h : Tracked s) {event : IoEvent} (hs : s.step (.io event) = some t) :
    Tracked t := by
  obtain ⟨hclient, hsilent, hfired, hmissed⟩ := of_map hs
  have hnone : s.client.firesPing? (.io event) = none := rfl
  rw [hnone, Option.any_none, Bool.or_false] at hfired
  constructor
  case missed =>
    rw [hmissed, h.missed, Bool.false_or]
    cases hold : s.fired with
    | false => rfl
    | true => rw [h.unarmed hold, Bool.and_false]
  case sent =>
    intro hafter
    rcases afterWrite_of_io hclient hafter with rfl | ⟨hbefore, hnot⟩
    · exact ⟨hsilent, by rw [hfired]; simp [Action.writes]⟩
    · obtain ⟨hempty, hquiet⟩ := h.sent hbefore
      have harms : s.client.armsPing (.io event) = false := by
        rw [Bool.eq_false_iff]
        intro harms
        rcases (armsPing_eq_true_iff _ _ harms).2 with hio | ⟨readable, hio⟩
        · rw [hio] at hbefore
          cases hbefore
        · exact hnot readable hio
      rw [hsilent, hfired, harms, hempty, hquiet]
      simp
  case fired =>
    intro htrue
    rw [hfired, Bool.and_eq_true, Bool.and_eq_true] at htrue
    obtain ⟨⟨hinside, -⟩, hold⟩ := htrue
    obtain ⟨hbefore, hloop, halarm⟩ := h.fired hold
    have hafter : s.client.io.afterWrite = false := by
      rw [Bool.eq_false_iff]
      intro hafter
      rw [(h.sent hafter).2] at hold
      cases hold
    refine ⟨hinside, ?_, pingAlarm_of_io hclient halarm hloop hafter hinside⟩
    intro hnext
    rcases loop_of_io hclient hnext with h | h | h
    · rw [hbefore] at h
      cases h
    · rw [halarm] at h
      cases h
    · rw [hafter] at h
      cases h

theorem step (h : Tracked s) {action : Action} (hok : FiresInTime s action)
    (hs : s.step action = some t) : Tracked t := by
  cases action with
  | io event => exact h.io hs
  | _ => exact h.aside hok hs fun _ heq => nomatch heq

end Tracked

/-- Where the alarm does not fire between the bottom of the loop and its top, the
loop heeds it. -/
theorem heeded_of_firesInTime (h : Reachable KeepAlive.step FiresInTime {} s) :
    Heeded s := by
  have htracked : Tracked s := h.invariant .init
    fun _ action _ _ ht hok hstep => ht.step hok hstep
  exact ⟨htracked.missed, fun hfired => (htracked.fired hfired).2.2⟩

def waiting : List Action :=
  connecting ++ [.io .none, .io .none, .tick 60000000000, .queue, .queue, .queue]

def pinging : List Action :=
  [.queue, .io (.selected false false), .io .none, .io .none, .io .none, .io .none,
    .io .none, .io .none, .io (.encoded true)]

theorem heeded_of_firesInTime_ping : ∃ s : KeepAlive, s.silent = [] ∧
    s.client.pingAlarm.isAlarm = true ∧ Heeded s := by
  have hmap : (run step {} (waiting ++ pinging)).map (fun s =>
      (s.silent, s.client.pingAlarm.isAlarm)) = some ([], true) := by
    decide +kernel
  obtain ⟨s, hrun, hstate⟩ := Option.map_eq_some_iff.mp hmap
  simp only [Prod.mk.injEq] at hstate
  have hreach : Reachable step FiresInTime {} s := .of_meets (by decide +kernel) hrun
  exact ⟨s, hstate.1, hstate.2, heeded_of_firesInTime hreach⟩

/-- A message arrives as the minute ends: the loop has looked at the alarm when it
fires, and then arms it again. -/
def overwriting : List Action :=
  connecting ++ [.io .none, .io .none, .tick 60000000000, .io (.selected true false),
    .io .none, .io .none, .io .none, .io .none, .io (.received (some (.sendReq {}))),
    .io .none, .queue, .queue, .queue, .io .none]

theorem overwritten_alarm :
    ¬ ∀ s : KeepAlive, Reachable step AnyStep {} s → Heeded s := by
  intro hall
  have hmap : (run step {} overwriting).map (·.missed) = some true := by
    decide +kernel
  obtain ⟨s, hreach, hmissed⟩ := Reachable.of_run_map hmap
  have hnot := (hall s hreach).missed
  rw [hmissed] at hnot
  cases hnot

end KeepAlive

end GoSocket.Client
