import GoSocket.Client.Threads
import GoSocket.Client.TimerSteps

/-!
# Who holds the lock of the client

Of the client's own threads only `DisconnectAsync` and `MakeSureConnected` take
`_mutex` for more than one step, and a callback runs inside a closure that the
queue's loop calls.
-/

namespace GoSocket.Client

open GoSocket.Common GoSocket.Foundation

namespace TcpClient

variable {s t : TcpClient} {action : Action}

structure Holders (s : TcpClient) : Prop where
  io : ∀ next, s.mutex = some (.io, next) → s.io = .disconnecting
  queue : ∀ next, s.mutex = some (.queue, next) →
    s.callback = .disconnecting ∨ s.callback = .connecting
  firing : s.callback ≠ .idle → s.timers.firing = true

theorem holder_proceed (s : TcpClient) (holder : Holder) (next : Section) :
    (s.proceed holder next).mutex = none ∨
      ∃ after, (s.proceed holder next).mutex = some (holder, after) := by
  cases next with
  | connect =>
      simp only [TcpClient.proceed]
      split
      · exact .inl rfl
      · exact .inr ⟨_, rfl⟩
  | breakConnect =>
      simp only [TcpClient.proceed]
      split
      · exact .inl rfl
      · exact .inr ⟨_, rfl⟩
  | assignThread | flagConnect | wakeUp => exact .inl rfl
  | _ => exact .inr ⟨_, rfl⟩

namespace Holders

theorem init : Holders .init := by
  constructor <;> simp [TcpClient.init]

private theorem io_aside (h : Holders s) (hio : s.io ≠ .disconnecting)
    (hmutex : t.mutex = s.mutex) (hcallback : t.callback = s.callback)
    (hfiring : t.timers.firing = s.timers.firing) : Holders t where
  io next hnext := absurd (h.io next (hmutex ▸ hnext)) hio
  queue next hnext := by
    rw [hcallback]
    exact h.queue next (hmutex ▸ hnext)
  firing hbusy := by
    rw [hfiring]
    exact h.firing (hcallback ▸ hbusy)

private theorem queue_aside (h : Holders s)
    (hcallback : s.callback ≠ .disconnecting ∧ s.callback ≠ .connecting)
    (hidle : s.callback ≠ .idle) (hmutex : t.mutex = s.mutex) (hio : t.io = s.io)
    (hfiring : t.timers.firing = s.timers.firing) : Holders t where
  io next hnext := by
    rw [hio]
    exact h.io next (hmutex ▸ hnext)
  queue next hnext := by
    rcases h.queue next (hmutex ▸ hnext) with hother | hother
    · exact absurd hother hcallback.1
    · exact absurd hother hcallback.2
  firing _ := hfiring.trans (h.firing hidle)

private theorem held {holder : Holder}
    (hmutex : t.mutex = none ∨ ∃ after, t.mutex = some (holder, after))
    (hio : holder = .io → t.io = .disconnecting)
    (hqueue : holder = .queue → t.callback = .disconnecting ∨ t.callback = .connecting)
    (hfiring : t.callback ≠ .idle → t.timers.firing = true) : Holders t := by
  refine ⟨fun next hnext => ?_, fun next hnext => ?_, hfiring⟩
  · rcases hmutex with hfree | ⟨after, hheld⟩
    · rw [hfree] at hnext
      cases hnext
    · rw [hheld] at hnext
      cases hnext
      exact hio rfl
  · rcases hmutex with hfree | ⟨after, hheld⟩
    · rw [hfree] at hnext
      cases hnext
    · rw [hheld] at hnext
      cases hnext
      exact hqueue rfl

private theorem mutex_enterConnect (s : TcpClient) (holder : Holder) :
    (s.enterConnect holder).mutex = none ∨
      ∃ after, (s.enterConnect holder).mutex = some (holder, after) := by
  unfold TcpClient.enterConnect
  dsimp only
  split
  · exact .inl rfl
  · exact .inr ⟨_, rfl⟩

private theorem mutex_enterDisconnect (s : TcpClient) (holder : Holder)
    (code : DisconnectCode) (shouldReconnect : Bool) :
    (s.enterDisconnect holder code shouldReconnect).mutex = none ∨
      ∃ after, (s.enterDisconnect holder code shouldReconnect).mutex =
        some (holder, after) := by
  unfold TcpClient.enterDisconnect
  dsimp only
  split
  · exact .inr ⟨_, rfl⟩
  · exact .inl rfl

private theorem userStep (h : Holders s) {call : UserCall}
    (hs : s.userStep call = some t) : Holders t := by
  obtain ⟨htimers, hcallback⟩ := userStep_aside hs
  have hfiring : t.callback ≠ .idle → t.timers.firing = true := by
    rw [htimers, hcallback]
    exact h.firing
  have user (hmutex : t.mutex = none ∨ ∃ after, t.mutex = some (.user, after)) :
      Holders t :=
    held hmutex (by simp) (by simp) hfiring
  cases userStep_cases hs with
  | enterConnect hfree => exact user (mutex_enterConnect s .user)
  | enterDisconnect code shouldReconnect hfree =>
      exact user (mutex_enterDisconnect s .user code shouldReconnect)
  | enterSend type payload data hasCallback hfree =>
      refine user ?_
      unfold enterSend
      dsimp only
      split
      · exact .inr ⟨_, rfl⟩
      · split <;> exact .inl hfree
  | enterPush message hfree =>
      refine user ?_
      unfold enterPush
      split
      · exact .inr ⟨_, rfl⟩
      · exact .inl hfree
  | inside next hcall hmutex => exact user (holder_proceed s .user next)

private theorem ioStep (h : Holders s) (hthreads : Threads s) {event : IoEvent}
    (hs : s.ioStep event = some t) : Holders t := by
  cases ioStep_cases hs with
  | move io hmove =>
      by_cases hio : s.io = .disconnecting
      · refine ⟨fun next hnext => ?_, h.queue, h.firing⟩
        cases hmove with
        | disconnected hio hmutex => exact absurd hnext (hmutex next)
        | _ => simp_all
      · exact h.io_aside hio rfl rfl rfl
  | alarm action timers io halarm hstep =>
      refine h.io_aside ?_ rfl rfl (halarm.loop hstep).1
      generalize s.io = pc at halarm
      cases halarm <;> simp
  | status status io hstatus =>
      refine h.io_aside ?_ rfl rfl rfl
      generalize s.io = pc at hstatus
      cases hstatus <;> simp
  | timer u io htimer =>
      have hfiring := htimer.timers.loop.1
      have hio : s.io ≠ .disconnecting := by cases htimer <;> simp [*]
      obtain ⟨timers, map, pool, created, armed, rfl⟩ := htimer.eq
      exact h.io_aside hio rfl rfl hfiring
  | enter hio hmutex =>
      exact held (mutex_enterDisconnect s .io .kDisCodeKickout false) (fun _ => rfl)
        (by simp) h.firing
  | inside next hio hmutex =>
      obtain ⟨htimers, hcallback, -⟩ := s.proceed_aside .io next
      refine held (holder_proceed s .io next) (fun _ => ?_) (by simp) ?_
      · rw [io_proceed_of_running hthreads hmutex (by rw [hio]; simp), hio]
      · rw [htimers, hcallback]
        exact h.firing
  | refuse | clear | pingTimeout | encode | pop | noCallback | takeCallback | callBack =>
      exact h.io_aside (by simp [*]) rfl rfl rfl

private theorem queueStep (h : Holders s) (hs : s.queueStep = some t) : Holders t := by
  cases queueStep_cases hs with
  | move callback hmove =>
      by_cases hcallback : s.callback = .disconnecting ∨ s.callback = .connecting
      · have hidle : s.callback ≠ .idle := by
          rcases hcallback with hcallback | hcallback <;> simp [hcallback]
        refine ⟨h.io, fun next hnext => ?_, fun _ => h.firing hidle⟩
        cases hmove with
        | disconnected hcallback hmutex => exact absurd hnext (hmutex next)
        | connected hcallback hmutex => exact absurd hnext (hmutex next)
        | _ => simp_all
      · have hidle : s.callback ≠ .idle := by cases hmove <;> simp [*]
        exact h.queue_aside (not_or.mp hcallback) hidle rfl rfl rfl
  | loop timers hcallback hstep =>
      refine ⟨h.io, fun next hnext => ?_, fun hbusy => ?_⟩
      · have hother := h.queue next hnext
        rw [hcallback] at hother
        simp at hother
      · dsimp only at hbusy ⊢
        unfold innerCallback at hbusy
        split at hbusy
        · assumption
        · exact absurd rfl hbusy
  | returned timers hcallback hstep =>
      refine ⟨h.io, fun next hnext => ?_, by simp⟩
      have hother := h.queue next hnext
      rw [hcallback] at hother
      simp at hother
  | timer u callback htimer =>
      have hfiring := htimer.timers.loop.1
      have hother : (s.callback ≠ .disconnecting ∧ s.callback ≠ .connecting) ∧
          s.callback ≠ .idle := by
        cases htimer <;> simp [*]
      obtain ⟨timers, map, pool, canceled, rfl⟩ := htimer.eq
      exact h.queue_aside hother.1 hother.2 rfl rfl hfiring
  | enterDisconnect hcallback hmutex =>
      have hfiring := h.firing (by rw [hcallback]; simp)
      refine ⟨fun next hnext => ?_, fun next hnext => ?_, fun _ => hfiring⟩
      · unfold TcpClient.enterDisconnect at hnext
        dsimp only at hnext
        split at hnext <;> cases hnext
      · unfold TcpClient.enterDisconnect at hnext
        dsimp only at hnext ⊢
        split at hnext
        · next hthread => exact .inl (if_pos hthread)
        · cases hnext
  | enterConnect hcallback hmutex =>
      exact held (mutex_enterConnect s .queue) (by simp) (fun _ => .inr rfl)
        fun _ => h.firing (by rw [hcallback]; simp)
  | inside next hcallback hmutex =>
      obtain ⟨htimers, hsame, -⟩ := s.proceed_aside .queue next
      refine held (holder_proceed s .queue next) (by simp) (fun _ => ?_) ?_
      · rw [hsame]
        exact hcallback
      · rw [htimers, hsame]
        exact h.firing
  | _ => exact h.queue_aside (by simp [*]) (by simp [*]) rfl rfl rfl

theorem step (h : Holders s) (hthreads : Threads s) (hs : s.step action = some t) :
    Holders t := by
  cases action with
  | user call => exact h.userStep hs
  | io event => exact h.ioStep hthreads hs
  | queue => exact h.queueStep hs
  | tick nanoseconds =>
      cases hs
      exact ⟨h.io, h.queue, h.firing⟩
  | pipes ok =>
      cases hs
      exact ⟨h.io, h.queue, h.firing⟩

theorem of_reachable {ok : TcpClient → Action → Prop}
    (h : Reachable TcpClient.step ok .init s) : Holders s :=
  h.invariant init fun _ _ _ hu hholders _ hs => hholders.step (.of_reachable hu) hs

end Holders

end TcpClient

end GoSocket.Client
