import GoSocket.Client.Frames
import GoSocket.Common.LiveAlarms

/-!
# The timers of a client

A step of the client does to its timers what `TimerCases` says, so the timers of
every run of the client take a run of their own: what holds of alarms in all
interleavings holds of the client's alarms.
-/

namespace GoSocket.Client

open GoSocket.Common GoSocket.Foundation

/-- An alarm that is a member of the client, with a callback from
`InitHostAndPort` on. -/
def ClientAlarm.isMember : ClientAlarm → Bool
  | .request _ => false
  | _ => true

namespace TcpClient

variable {s t : TcpClient} {action : Action}

/-- What a step does to the timers. -/
inductive TimerCases (s : TcpClient) (action : Action) (t : TcpClient) : Prop
  | io (event : IoEvent) (haction : action = .io event) (a : AlarmAction ClientAlarm)
      (h : IoAlarm s.io a t.io) (hstep : s.timers.step a = some t.timers)
      (hcallback : t.callback = s.callback)
  -- also where nothing is done
  | requests (h : RequestsOnly s.timers t.timers)
      (hidle : t.callback = .idle → s.callback = .idle)
  | loop (haction : action = .queue) (hidle : s.callback = .idle)
      (hstep : s.timers.step (loopAction s.timers.queue.loop) = some t.timers)
      (hcallback : t.callback = innerCallback t.timers)
  | returned (hstep : s.timers.step .returned = some t.timers)
      (hbusy : s.callback = .returned) (hcallback : t.callback = .idle)
  | tick (nanoseconds : Nat)
      (hstep : s.timers.step (.tick nanoseconds) = some t.timers)
      (hcallback : t.callback = s.callback)

private theorem still (htimers : t.timers = s.timers)
    (hidle : t.callback = .idle → s.callback = .idle) : TimerCases s action t :=
  .requests (htimers ▸ .same) hidle

theorem QueueMove.notIdle {callback : CallbackPc} (h : QueueMove s callback) :
    callback ≠ .idle := by
  cases h <;> nofun

theorem QueueTimer.notIdle {u : TcpClient} {callback : CallbackPc}
    (h : QueueTimer s u callback) : callback ≠ .idle := by
  cases h <;> nofun

theorem userStep_aside {call : UserCall} (hs : s.userStep call = some t) :
    t.timers = s.timers ∧ t.callback = s.callback := by
  cases userStep_cases hs with
  | enterSend type payload data hasCallback hfree =>
      obtain ⟨mutex, calls, invoked, heq⟩ :=
        s.enterSend_eq type payload data hasCallback
      rw [heq]
      exact ⟨rfl, rfl⟩
  | enterPush message hfree =>
      obtain ⟨mutex, calls, heq⟩ := s.enterPush_eq message
      rw [heq]
      exact ⟨rfl, rfl⟩
  | inside next hcall hmutex =>
      exact ⟨s.proceed_timers .user next, s.proceed_callback .user next⟩
  | _ => exact ⟨rfl, rfl⟩

private theorem timer_cases_io {event : IoEvent} (hs : s.ioStep event = some t) :
    TimerCases s (.io event) t := by
  cases ioStep_cases hs with
  | alarm a timers io h hstep => exact .io event rfl a h hstep rfl
  | timer u io h =>
      have htimers := h.timers
      obtain ⟨timers, map, pool, created, armed, rfl⟩ := h.eq
      exact .requests htimers id
  | inside next hio hmutex =>
      obtain ⟨htimers, hcallback, -⟩ := s.proceed_aside .io next
      exact still htimers fun hidle => hcallback ▸ hidle
  | _ => exact still rfl id

private theorem timer_cases_queue (hs : s.queueStep = some t) :
    TimerCases s .queue t := by
  cases queueStep_cases hs with
  | move callback h => exact still rfl fun hidle => absurd hidle h.notIdle
  | loop timers hcallback hstep => exact .loop rfl hcallback hstep rfl
  | returned timers hcallback hstep => exact .returned hstep hcallback rfl
  | timer u callback h =>
      have htimers := h.timers
      have hnot := h.notIdle
      obtain ⟨timers, map, pool, canceled, rfl⟩ := h.eq
      exact .requests htimers fun hidle => absurd hidle hnot
  | inside next hcallback hmutex =>
      obtain ⟨htimers, hsame, -⟩ := s.proceed_aside .queue next
      exact still htimers fun hidle => hsame ▸ hidle
  | enterDisconnect | checkReconnect =>
      refine still rfl fun hidle => ?_
      dsimp only at hidle
      split at hidle <;> cases hidle
  | _ => exact still rfl nofun

theorem timer_cases (hs : s.step action = some t) : TimerCases s action t := by
  cases action with
  | user call =>
      obtain ⟨htimers, hcallback⟩ := userStep_aside hs
      exact still htimers fun hidle => hcallback ▸ hidle
  | io event => exact timer_cases_io hs
  | queue => exact timer_cases_queue hs
  | tick nanoseconds =>
      cases hs
      exact .tick nanoseconds rfl rfl
  | pipes ok =>
      cases hs
      exact still rfl id

theorem TimerCases.step (h : TimerCases s action t) :
    t.timers = s.timers ∨ ∃ a, s.timers.step a = some t.timers := by
  cases h with
  | io event haction a h hstep => exact .inr ⟨a, hstep⟩
  | requests h hidle =>
      generalize t.timers = timers at h
      cases h with
      | same => exact .inl rfl
      | start n afterSec => exact .inr ⟨_, step_start _ _ _⟩
      | cancel n => exact .inr ⟨_, step_cancel _ _⟩
  | loop haction hidle hstep => exact .inr ⟨_, hstep⟩
  | returned hstep => exact .inr ⟨_, hstep⟩
  | tick nanoseconds hstep => exact .inr ⟨_, hstep⟩

theorem init_timers : Reachable Alarms.step AnyStep {} init.timers := by
  have hrun : run Alarms.step ({} : Alarms ClientAlarm) [.setCallback .reconnectAlarm,
      .setCallback .pingAlarm, .setCallback .pingTimeoutAlarm] = some init.timers := rfl
  exact .of_run hrun

theorem timers_of_reachable {ok : TcpClient → Action → Prop}
    (h : Reachable step ok .init s) : Reachable Alarms.step AnyStep {} s.timers := by
  refine init_timers.trans (h.project TcpClient.timers fun u _ v _ _ hs => ?_)
  rcases (timer_cases hs).step with hsame | ⟨a, hstep⟩
  · rw [hsame]
    exact .refl
  · exact .single a trivial hstep

/-- The members have their callbacks for ever, and between two closures none of
them runs. -/
structure Timers (s : TcpClient) : Prop where
  hasCallback : ∀ a : ClientAlarm, a.isMember = true →
    (s.timers.alarms a).hasCallback = true
  idle : s.callback = .idle → s.timers.firing = false

namespace Timers

theorem init : Timers .init where
  hasCallback := by
    intro a ha
    cases a <;>
      simp_all [ClientAlarm.isMember, TcpClient.init, Alarms.setCallback, Alarms.set]
  idle _ := rfl

theorem step (h : Timers s) (hs : s.step action = some t) : Timers t where
  hasCallback a ha := by
    rcases (timer_cases hs).step with hsame | ⟨b, hstep⟩
    · rw [hsame]
      exact h.hasCallback a ha
    · exact Alarms.hasCallback_step (h.hasCallback a ha) hstep
  idle hidle := by
    cases timer_cases hs with
    | io event haction a halarm hstep hcallback =>
        rw [(halarm.loop hstep).1]
        exact h.idle (hcallback ▸ hidle)
    | requests hrequests hbefore =>
        rw [hrequests.loop.1]
        exact h.idle (hbefore hidle)
    | loop haction hbefore hstep hcallback =>
        rw [hcallback] at hidle
        unfold innerCallback at hidle
        split at hidle
        · split at hidle <;> cases hidle
        · next hnot => exact Bool.eq_false_iff.mpr hnot
    | returned hstep hbusy hcallback => exact Alarms.firing_returned hstep
    | tick nanoseconds hstep hcallback =>
        rw [← Option.some.inj hstep]
        exact h.idle (hcallback ▸ hidle)

end Timers

end TcpClient

end GoSocket.Client
