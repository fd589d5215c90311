import GoSocket.Client.Holders
import GoSocket.Client.Joins
import GoSocket.Client.WaitDisconnect
import GoSocket.Foundation.CanReach
import Mathlib.Data.List.TakeWhile

/-!
# A client can be brought back

As long as its last thread is not abandoned, a client comes to another session
whatever it is doing: the calls in progress go on, the connection fails, the
queue's loop comes round to the reconnect alarm, and the user asks again.
-/

namespace GoSocket.Client

open Std GoSocket.Common GoSocket.Foundation

/-! ## How far a thread has to go -/

/-- The steps that the holder of `_mutex` takes at most. -/
def Section.rank : Section → Nat
  | .connect => 2
  | .assignThread => 1
  | .disconnect _ _ => 7
  | .setShouldReconnect _ => 6
  | .breakReadWrite => 5
  | .closeReadWrite => 4
  | .flagReadWrite => 3
  | .breakConnect => 2
  | .flagConnect => 1
  | .register _ _ _ => 3
  | .pushSendReq _ _ => 2
  | .pushMessage _ _ => 2
  | .wakeUp => 1

/-- The steps up to the end of a callback, or to the join, with so many timers in
the map. -/
def CallbackPc.rank (timers : Nat) : CallbackPc → Nat
  | .idle => 0
  | .join => 0
  | .returned => 1
  | .breakPing => 2
  | .disconnecting => 2
  | .connecting => 2
  | .makeSureConnected => 5
  | .checkReconnect => 6
  | .waitDisconnect => 7
  | .reCreateConn _ => 7
  | .checkNewConnBreaker _ => 8
  | .reCreate _ => 9
  | .checkNewBreaker _ => 10
  | .getLost _ messageIds => 11 + 2 * messageIds.length
  | .callLost _ _ messageIds => 12 + 2 * messageIds.length
  | .cancelTimers _ messageIds => 12 + 2 * messageIds.length + 3 * timers
  | .lockTimers _ => 13 + 3 * timers
  | .clearThread _ => 14 + 3 * timers
  | .disconnectAsync => 10
  | .setTimeoutDisconnect => 11
  | .checkTimeoutDisconnect => 12
  | .checkStatus => 13
  | .callTimeout _ _ => 14
  | .getCallback _ _ => 15
  | .eraseTimer _ _ => 16
  | .getUserData _ _ => 17

def IoPc.rank : IoPc → Nat
  | .finished => 0
  | .startReconnect => 1
  | .setDisconnected => 2
  | .leavePingTimeout => 3
  | .leave => 4
  | .checkDisCode true _ _ => 5
  | .clear true _ _ => 6
  | .select _ => 7
  | .sample => 8
  | .loop => 9
  | .setConnectStatus _ => 10
  | .runConnect => 11
  | .start => 12
  | .startPingTimeout => 10
  | .resetPingTimeout => 11
  | .sendPing => 12
  | .checkPing => 13
  | .disconnecting => 14
  | .disconnectAsync => 22
  | .callBack _ => 14
  | .getCallback _ => 15
  | .cancelTimer _ => 16
  | .cancelPingTimeout => 14
  | .read _ => 14
  | .restartPing _ => 15
  | .cancelPing _ => 16
  | .pop _ => 17
  | .recordAlarm _ _ _ => 18
  | .startAlarm _ _ _ => 19
  | .setCallback _ _ _ => 20
  | .setUserData _ _ _ => 21
  | .getAlarm _ _ => 22
  | .encode _ => 23
  | .checkQueue _ _ => 24
  | .checkPingTimeout _ _ => 25
  | .checkDisCode false _ _ => 26
  | .clear false _ _ => 27

def IoPc.giveUp : IoPc → IoEvent
  | .runConnect => .noNet
  | .select _ => .selectError
  | .encode _ => .encoded false
  | .read true => .received none
  | .sendPing => .encoded false
  | _ => .none

namespace TcpClient

variable {s t : TcpClient} {action : Action}

def lockRank (self : TcpClient) : Nat :=
  match self.mutex with
  | some (_, next) => next.rank
  | none => 0

def callbackRank (self : TcpClient) : Nat :=
  self.callback.rank self.timeoutAlarmMap.keys.length + self.lockRank

theorem lockRank_of_free (hfree : s.mutex = none) : s.lockRank = 0 := by
  rw [lockRank, hfree]

theorem lockRank_of_held {holder : Holder} {next : Section}
    (hmutex : s.mutex = some (holder, next)) : s.lockRank = next.rank := by
  rw [lockRank, hmutex]

theorem lockRank_proceed (s : TcpClient) (holder : Holder) (next : Section) :
    (s.proceed holder next).lockRank < next.rank := by
  cases next with
  | connect =>
      simp only [TcpClient.proceed]
      split <;> simp [lockRank, Section.rank]
  | breakReadWrite =>
      simp only [TcpClient.proceed, lockRank]
      split <;> simp [Section.rank]
  | breakConnect =>
      simp only [TcpClient.proceed]
      split <;> simp [lockRank, Section.rank]
  | _ => simp [TcpClient.proceed, lockRank, Section.rank, push, request]

theorem callbackRank_proceed {holder : Holder} {next : Section}
    (hmutex : s.mutex = some (holder, next)) :
    (s.proceed holder next).callbackRank < s.callbackRank := by
  rw [callbackRank, callbackRank, proceed_timeoutAlarmMap, s.proceed_callback holder next,
    lockRank_of_held hmutex]
  exact Nat.add_lt_add_left (s.lockRank_proceed holder next) _

/-! ## A callback goes on -/

/-- The lock is nobody's, or the callback's own. -/
def Unhindered (self : TcpClient) : Prop :=
  self.mutex = none ∨ ∃ next, self.mutex = some (.queue, next)

theorem Unhindered.free (h : s.Unhindered) (hholders : Holders s)
    (hcallback : s.callback ≠ .disconnecting ∧ s.callback ≠ .connecting) :
    s.mutex = none := by
  rcases h with hfree | ⟨next, hheld⟩
  · exact hfree
  · rcases hholders.queue next hheld with hother | hother
    · exact absurd hother hcallback.1
    · exact absurd hother hcallback.2

theorem queueStep_goes (h : s.Unhindered) (hholders : Holders s)
    (hcalling : s.timers.firing = true → s.timers.queue.loop.isCalling = true)
    (hidle : s.callback ≠ .idle) (hjoin : s.callback ≠ .join) :
    ∃ t, s.queueStep = some t := by
  have hfiring := hholders.firing hidle
  have hfree := h.free hholders
  unfold queueStep
  cases hcallback : s.callback with
  | idle => exact absurd hcallback hidle
  | join => exact absurd hcallback hjoin
  | disconnectAsync | makeSureConnected =>
      rw [hcallback] at hfree
      simp [hfree]
  | returned =>
      have hloop := hcalling hfiring
      unfold LoopPc.isCalling at hloop
      split at hloop
      · next hcalled =>
          simp [Alarms.returned, hfiring, MessageQueue.returned, hcalled]
      · cases hloop
  | getCallback messageId start =>
      dsimp only
      split <;> exact ⟨_, rfl⟩
  | disconnecting | connecting =>
      dsimp only
      split <;> exact ⟨_, rfl⟩
  | checkStatus | checkTimeoutDisconnect | waitDisconnect =>
      dsimp only
      split <;> exact ⟨_, rfl⟩
  | checkNewConnBreaker session =>
      dsimp only
      split <;> exact ⟨_, rfl⟩
  | cancelTimers session messageIds =>
      dsimp only
      split <;> exact ⟨_, rfl⟩
  | getLost session messageIds =>
      cases messageIds with
      | nil => exact ⟨_, rfl⟩
      | cons messageId rest =>
          dsimp only
          split <;> exact ⟨_, rfl⟩
  | _ => exact ⟨_, rfl⟩

theorem callbackRank_queueStep (hidle : s.callback ≠ .idle) (hjoin : s.callback ≠ .join)
    (hs : s.queueStep = some t) : t.callbackRank < s.callbackRank := by
  cases queueStep_cases hs with
  | move callback hmove =>
      refine Nat.add_lt_add_right ?_ _
      cases hmove with
      | join hcallback hio => exact absurd hcallback hjoin
      | getLost session messageIds hcallback hnone =>
          simp only [hcallback, CallbackPc.rank]
          omega
      | _ => simp [*, CallbackPc.rank]
  | loop timers hcallback hstep => exact absurd hcallback hidle
  | returned timers hcallback hstep =>
      refine Nat.add_lt_add_right ?_ _
      simp [hcallback, CallbackPc.rank]
  | timer u callback htimer =>
      cases htimer with
      | eraseTimer messageId start hcallback =>
          obtain ⟨map, pool, heq⟩ := s.release_eq messageId
          rw [heq]
          refine Nat.add_lt_add_right ?_ _
          simp [hcallback, CallbackPc.rank]
      | cancelTimer session messageIds messageId rest hcallback hkeys =>
          have hrest := keys_erase hkeys (s.timer_loseTimer session messageId)
          have hlock : lockRank { (s.loseTimer session messageId).cancelTimer messageId with
              callback := .cancelTimers session (messageIds ++ [messageId]) } =
                s.lockRank := by
            obtain ⟨canceled, hlose⟩ := s.loseTimer_eq session messageId
            obtain ⟨timers, map, pool, heq⟩ :=
              (s.loseTimer session messageId).cancelTimer_eq messageId
            rw [heq, hlose]
            rfl
          simp only [callbackRank, hlock, hrest, hkeys, hcallback, CallbackPc.rank,
            List.length_append, List.length_cons, List.length_nil]
          omega
  | enterDisconnect hcallback hmutex =>
      simp only [callbackRank, hcallback, lockRank, hmutex, TcpClient.enterDisconnect]
      split <;> simp [CallbackPc.rank, Section.rank]
  | enterConnect hcallback hmutex =>
      simp only [callbackRank, hcallback, lockRank, hmutex, TcpClient.enterConnect]
      by_cases hconnected : s.connectStatus = .kConnected
      · simp [hconnected, CallbackPc.rank]
      · simp [hconnected, CallbackPc.rank, Section.rank]
  | checkReconnect hcallback =>
      refine Nat.add_lt_add_right ?_ _
      dsimp only
      split <;> simp [hcallback, CallbackPc.rank]
  | inside next hcallback hmutex => exact callbackRank_proceed hmutex
  | noLost session messageId messageIds hcallback hnone =>
      refine Nat.add_lt_add_right ?_ _
      simp only [TcpClient.tearDown, hcallback, CallbackPc.rank]
      omega
  | takeLost session call messageId messageIds hcallback hsome =>
      refine Nat.add_lt_add_right ?_ _
      simp only [hcallback, CallbackPc.rank, List.length_cons]
      omega
  | _ =>
      refine Nat.add_lt_add_right ?_ _
      simp [*, CallbackPc.rank, TcpClient.tearDown]

theorem Unhindered.queueStep (h : s.Unhindered) (hs : s.queueStep = some t) :
    t.Unhindered := by
  cases queueStep_cases hs with
  | timer u callback htimer =>
      obtain ⟨timers, map, pool, canceled, rfl⟩ := htimer.eq
      exact h
  | enterDisconnect hcallback hmutex =>
      unfold Unhindered TcpClient.enterDisconnect
      dsimp only
      split
      · exact .inr ⟨_, rfl⟩
      · exact .inl rfl
  | enterConnect hcallback hmutex =>
      unfold Unhindered TcpClient.enterConnect
      dsimp only
      split
      · exact .inl rfl
      · exact .inr ⟨_, rfl⟩
  | inside next hcallback hmutex => exact holder_proceed s .queue next
  | _ => exact h

private theorem starts_loopAction {timers timers' : Alarms ClientAlarm}
    (hstep : timers.step (loopAction timers.queue.loop) = some timers') :
    timers'.starts = timers.starts := by
  refine Alarms.starts_step_of_ne (fun a afterSec => ?_) hstep
  unfold loopAction
  split <;> simp

private theorem starts_cancelTimer (s : TcpClient) (messageId : UInt16) :
    (s.cancelTimer messageId).timers.starts = s.timers.starts := by
  unfold TcpClient.cancelTimer
  split
  · rw [release_timers]
    exact Alarms.starts_step_of_ne (by simp) (step_cancel _ _)
  · rfl

theorem starts_queueStep (hs : s.queueStep = some t) :
    t.timers.starts = s.timers.starts := by
  cases queueStep_cases hs with
  | loop timers hcallback hstep => exact starts_loopAction hstep
  | returned timers hcallback hstep =>
      unfold Alarms.returned at hstep
      split at hstep
      · obtain ⟨queue, -, rfl⟩ := Option.map_eq_some_iff.mp hstep
        rfl
      · cases hstep
  | timer u callback htimer =>
      cases htimer with
      | eraseTimer messageId start hcallback =>
          exact congrArg Alarms.starts (s.release_timers messageId)
      | cancelTimer session messageIds messageId rest hcallback hkeys =>
          obtain ⟨canceled, heq⟩ := s.loseTimer_eq session messageId
          have hcancel := (s.loseTimer session messageId).starts_cancelTimer messageId
          rwa [heq] at hcancel ⊢
  | inside next hcallback hmutex => rw [s.proceed_timers .queue next]
  | _ => rfl

/-! ## As long as the client is not abandoned -/

/-- A session has begun behind the first `sessions` ones. -/
def Begun (sessions : Nat) (self : TcpClient) : Prop :=
  sessions < self.history.sessions ∧ self.io = .start

/-- The client has not got beyond the last of the sessions, and need not stay there;
alarms have been started `starts` times at most. -/
structure Live (sessions starts : Nat) (s : TcpClient) : Prop where
  reached : Reachable step AnyStep init s
  saved : ¬s.Abandoned
  sessions : s.history.sessions = sessions
  starts : s.timers.starts ≤ starts

variable {sessions starts starts' : Nat}

theorem Live.step (h : Live sessions starts s) (hfirst : s.AssignedFirst action)
    (hs : s.step action = some t) (hstarts : t.timers.starts ≤ starts') :
    Begun sessions t ∨ Live sessions starts' t := by
  have hreached := h.reached.tail action trivial hs
  have hjoins := Joins.of_reachable h.reached
  have hsaved := (hjoins.awaits.abandoned_iff h.saved (hjoins.cases hs)).mpr hfirst
  have stays (hsame : t.history.sessions = s.history.sessions) :
      Begun sessions t ∨ Live sessions starts' t :=
    .inr ⟨hreached, hsaved, hsame.trans h.sessions, hstarts⟩
  cases SessionCases.of_step (.of_reachable h.reached) hs with
  | begins hio hnext hstatus hsessions =>
      refine .inl ⟨?_, hnext⟩
      rw [hsessions, h.sessions]
      exact Nat.lt_succ_self _
  | sets event haction hset hsessions => exact stays hsessions
  | returns hio hnext hstatus hsessions => exact stays hsessions
  | inside hio hrunning hnext hstored hstatus hsessions => exact stays hsessions
  | aside haction hio hstatus hsessions => exact stays hsessions

theorem assignedFirst_of_ne (hne : action ≠ .queue) : s.AssignedFirst action :=
  fun hskips => hne hskips.1

theorem Live.assignedFirst (h : Live sessions starts s) (hlock : s.Unhindered) :
    s.AssignedFirst .queue := by
  rintro ⟨-, hcallback, hthread⟩
  have hfree := hlock.free (.of_reachable h.reached) (by simp [hcallback])
  have hawaits := (Joins.of_reachable h.reached).awaits
  obtain ⟨-, hassigned | ⟨holder, hheld⟩⟩ := hawaits.owed (.inr (by rw [hcallback]; rfl))
  · rw [hthread] at hassigned
    cases hassigned
  · rw [hfree] at hheld
    cases hheld

theorem Live.noneLost (h : Live sessions starts s) (hfew : starts < 4294967294) :
    s.timers.NoneLost :=
  .of_reachable (timers_of_reachable h.reached) (Nat.lt_of_le_of_lt h.starts hfew)

theorem Live.queueStep (h : Live sessions starts s) (hfew : starts < 4294967294)
    (hlock : s.Unhindered) (hidle : s.callback ≠ .idle) (hjoin : s.callback ≠ .join) :
    ∃ t, s.step .queue = some t ∧ t.callbackRank < s.callbackRank ∧
      (Begun sessions t ∨ Live sessions starts t) := by
  obtain ⟨t, hs⟩ := queueStep_goes hlock (.of_reachable h.reached)
    (h.noneLost hfew).firing hidle hjoin
  refine ⟨t, hs, callbackRank_queueStep hidle hjoin hs, ?_⟩
  exact h.step (h.assignedFirst hlock) hs (by rw [starts_queueStep hs]; exact h.starts)

/-- Nobody holds the lock, and no callback runs but one that waits for the thread. -/
structure Settled (s : TcpClient) : Prop where
  free : s.mutex = none
  callback : s.callback = .idle ∨ s.callback = .join

theorem Live.settles (h : Live sessions starts s) (hfew : starts < 4294967294) :
    CanReach TcpClient.step
      (fun t => Begun sessions t ∨ Live sessions starts t ∧ t.Settled) s := by
  refine CanReach.of_rank Nat.lt_wfRel.wf callbackRank (fun u hu => ?_) h
  have inside (action : Action) {holder : Holder} {next : Section}
      (hmutex : u.mutex = some (holder, next)) (hfirst : u.AssignedFirst action)
      (hs : u.step action = some (u.proceed holder next)) :
      ∃ a t, u.step a = some t ∧
        ((Begun sessions t ∨ Live sessions starts t ∧ t.Settled) ∨
          Live sessions starts t ∧ t.callbackRank < u.callbackRank) := by
    refine ⟨action, _, hs, ?_⟩
    have hstarts : (u.proceed holder next).timers.starts ≤ starts := by
      rw [u.proceed_timers holder next]
      exact hu.starts
    rcases hu.step hfirst hs hstarts with hbegun | hlive
    · exact .inl (.inl hbegun)
    · exact .inr ⟨hlive, callbackRank_proceed hmutex⟩
  have outside (hlock : u.Unhindered) (hidle : u.callback ≠ .idle)
      (hjoin : u.callback ≠ .join) :
      ∃ a t, u.step a = some t ∧
        ((Begun sessions t ∨ Live sessions starts t ∧ t.Settled) ∨
          Live sessions starts t ∧ t.callbackRank < u.callbackRank) := by
    obtain ⟨t, hs, hrank, hnext⟩ := hu.queueStep hfew hlock hidle hjoin
    rcases hnext with hbegun | hlive
    · exact ⟨.queue, t, hs, .inl (.inl hbegun)⟩
    · exact ⟨.queue, t, hs, .inr ⟨hlive, hrank⟩⟩
  have hholders := Holders.of_reachable hu.reached
  cases hmutex : u.mutex with
  | some held =>
      obtain ⟨holder, next⟩ := held
      cases holder with
      | user =>
          refine .inr (inside (.user .proceed) hmutex (assignedFirst_of_ne nofun) ?_)
          simp [TcpClient.step, TcpClient.userStep, hmutex]
      | io =>
          have hio := hholders.io next hmutex
          refine .inr (inside (.io .none) hmutex (assignedFirst_of_ne nofun) ?_)
          unfold TcpClient.step ioStep
          rw [hio]
          dsimp only
          rw [hmutex]
      | queue =>
          have hcallback := hholders.queue next hmutex
          refine .inr (outside (.inr ⟨next, hmutex⟩) ?_ ?_) <;>
            rcases hcallback with hcallback | hcallback <;> simp [hcallback]
  | none =>
      by_cases hidle : u.callback = .idle
      · exact .inl (.inr ⟨hu, hmutex, .inl hidle⟩)
      · by_cases hjoin : u.callback = .join
        · exact .inl (.inr ⟨hu, hmutex, .inr hjoin⟩)
        · exact .inr (outside (.inl hmutex) hidle hjoin)

/-! ## The I/O thread ends -/

theorem rank_le (io : IoPc) : io.rank ≤ 27 := by
  cases io with
  | checkDisCode error readable writable => cases error <;> simp [IoPc.rank]
  | clear error readable writable => cases error <;> simp [IoPc.rank]
  | _ => simp [IoPc.rank]

theorem ioStep_giveUp (hcallback : s.callback = .idle) (hfree : s.mutex = none)
    (hrunning : s.io ≠ .finished) (henter : s.io ≠ .disconnectAsync) :
    ∃ t, s.ioStep s.io.giveUp = some t ∧ t.callback = .idle ∧ t.mutex = none ∧
      t.io.rank < s.io.rank := by
  have htimers : s.holdsTimers = false := by simp [holdsTimers, hcallback]
  unfold ioStep
  cases hio : s.io with
  | finished => exact absurd hio hrunning
  | disconnectAsync => exact absurd hio henter
  | loop =>
      dsimp only [IoPc.giveUp]
      split <;> exact ⟨_, rfl, hcallback, hfree, by simp [IoPc.rank]⟩
  | sample =>
      dsimp only [IoPc.giveUp]
      rw [if_neg (not_not.mpr hfree)]
      exact ⟨_, rfl, hcallback, hfree, by simp [IoPc.rank]⟩
  | setConnectStatus ret =>
      refine ⟨_, rfl, hcallback, hfree, ?_⟩
      dsimp only
      split <;> simp [IoPc.rank]
  | clear error readable writable =>
      exact ⟨_, rfl, hcallback, hfree, by cases error <;> simp [IoPc.rank]⟩
  | checkDisCode error readable writable =>
      dsimp only [IoPc.giveUp]
      cases error with
      | true =>
          rw [Bool.or_true, if_pos rfl]
          exact ⟨_, rfl, hcallback, hfree, by simp [IoPc.rank]⟩
      | false => split <;> exact ⟨_, rfl, hcallback, hfree, by simp [IoPc.rank]⟩
  | checkPingTimeout readable writable =>
      dsimp only [IoPc.giveUp]
      split <;> exact ⟨_, rfl, hcallback, hfree, by simp [IoPc.rank]⟩
  | checkQueue readable writable =>
      dsimp only [IoPc.giveUp]
      rw [if_neg (not_not.mpr hfree)]
      split <;> exact ⟨_, rfl, hcallback, hfree, by simp [IoPc.rank]⟩
  | getAlarm readable written =>
      obtain ⟨pool, created, heq⟩ := s.takeAlarm_eq
      refine ⟨{ s.takeAlarm.1 with io := .setUserData readable written s.takeAlarm.2 },
        rfl, ?_, ?_, by simp [IoPc.rank]⟩ <;> rw [heq] <;> assumption
  | startAlarm readable written alarm =>
      obtain ⟨timers, armed, heq⟩ := s.armAlarm_eq written.call alarm
      refine ⟨{ s.armAlarm written.call alarm with
        io := .recordAlarm readable written alarm },
        rfl, ?_, ?_, by simp [IoPc.rank]⟩ <;> rw [heq] <;> assumption
  | recordAlarm readable written alarm =>
      obtain ⟨map, pool, heq⟩ := s.recordAlarm_eq written alarm
      dsimp only [IoPc.giveUp]
      rw [htimers]
      refine ⟨{ s.recordAlarm written alarm with io := .pop readable },
        rfl, ?_, ?_, by simp [IoPc.rank]⟩ <;> rw [heq] <;> assumption
  | pop readable =>
      dsimp only [IoPc.giveUp]
      rw [if_neg (not_not.mpr hfree)]
      exact ⟨_, rfl, hcallback, hfree, by simp [IoPc.rank]⟩
  | read readable =>
      cases readable <;> exact ⟨_, rfl, hcallback, hfree, by simp [IoPc.rank]⟩
  | cancelTimer messageId =>
      obtain ⟨timers, map, pool, heq⟩ := s.cancelTimer_eq messageId
      dsimp only [IoPc.giveUp]
      rw [htimers]
      refine ⟨{ s.cancelTimer messageId with io := .getCallback messageId },
        rfl, ?_, ?_, by simp [IoPc.rank]⟩ <;> rw [heq] <;> assumption
  | getCallback messageId =>
      dsimp only [IoPc.giveUp]
      split <;> exact ⟨_, rfl, hcallback, hfree, by simp [IoPc.rank]⟩
  | disconnecting =>
      dsimp only [IoPc.giveUp]
      split
      · next hheld =>
          rw [hfree] at hheld
          cases hheld
      · exact ⟨_, rfl, hcallback, hfree, by simp [IoPc.rank]⟩
  | checkPing =>
      dsimp only [IoPc.giveUp]
      split <;> exact ⟨_, rfl, hcallback, hfree, by simp [IoPc.rank]⟩
  | _ => exact ⟨_, rfl, hcallback, hfree, by simp [IoPc.rank]⟩

def ioRank (self : TcpClient) : Nat := self.io.rank + self.lockRank

theorem starts_step (hs : s.step action = some t) :
    t.timers.starts ≤ s.timers.starts + 1 := by
  rcases (timer_cases hs).step with hsame | ⟨a, hstep⟩
  · rw [hsame]
    exact Nat.le_succ _
  · exact Alarms.starts_step_le hstep

/-- The I/O thread is on its way to the end, alone. -/
structure Ending (sessions starts : Nat) (s : TcpClient) : Prop where
  live : Live sessions starts s
  callback : s.callback = .idle
  lock : s.mutex = none ∨ ∃ next, s.mutex = some (.io, next)
  room : s.timers.starts + s.ioRank ≤ starts

theorem Ending.step (h : Ending sessions starts s) {event : IoEvent}
    (hs : s.step (.io event) = some t) (hcallback : t.callback = .idle)
    (hlock : t.mutex = none ∨ ∃ next, t.mutex = some (.io, next))
    (hrank : t.ioRank < s.ioRank) :
    ∃ a t, s.step a = some t ∧ (Begun sessions t ∨
      Ending sessions starts t ∧ t.ioRank < s.ioRank) := by
  have hroom := h.room
  have hstarts := starts_step hs
  refine ⟨_, t, hs, ?_⟩
  have hle : t.timers.starts ≤ starts := by omega
  rcases h.live.step (assignedFirst_of_ne (by simp)) hs hle with hbegun | hlive
  · exact .inl hbegun
  · exact .inr ⟨⟨hlive, hcallback, hlock, by omega⟩, hrank⟩

theorem Live.ends (h : Live sessions starts s) (hfree : s.mutex = none)
    (hcallback : s.callback = .idle) :
    CanReach TcpClient.step (fun t => Begun sessions t ∨
      Live sessions (starts + 27) t ∧ t.mutex = none ∧ t.callback = .idle ∧
        t.io = .finished) s := by
  have hroom : s.timers.starts + s.ioRank ≤ starts + 27 := by
    rw [ioRank, lockRank_of_free hfree]
    exact Nat.add_le_add h.starts (rank_le s.io)
  have hending : Ending sessions (starts + 27) s :=
    ⟨⟨h.reached, h.saved, h.sessions, Nat.le_trans h.starts (Nat.le_add_right _ _)⟩,
      hcallback, .inl hfree, hroom⟩
  refine CanReach.of_rank Nat.lt_wfRel.wf ioRank (fun u hu => ?_) hending
  have hholders := Holders.of_reachable hu.live.reached
  have goes : (∃ a t, u.step a = some t ∧ (Begun sessions t ∨
      Ending sessions (starts + 27) t ∧ t.ioRank < u.ioRank)) →
      ∃ a t, u.step a = some t ∧
        ((Begun sessions t ∨ Live sessions (starts + 27) t ∧ t.mutex = none ∧
          t.callback = .idle ∧ t.io = .finished) ∨
            Ending sessions (starts + 27) t ∧ t.ioRank < u.ioRank) := by
    rintro ⟨a, t, hs, hbegun | hnext⟩
    · exact ⟨a, t, hs, .inl (.inl hbegun)⟩
    · exact ⟨a, t, hs, .inr hnext⟩
  rcases hu.lock with hfree | ⟨next, hheld⟩
  · by_cases hfinished : u.io = .finished
    · exact .inl (.inr ⟨hu.live, hfree, hu.callback, hfinished⟩)
    by_cases henter : u.io = .disconnectAsync
    · have hs : u.step (.io .none) = some { u.enterDisconnect .io .kDisCodeKickout false with
          io := .disconnecting } := by
        unfold TcpClient.step ioStep
        rw [henter]
        exact if_neg (not_not.mpr hfree)
      refine .inr (goes (hu.step hs hu.callback ?_ ?_))
      · unfold TcpClient.enterDisconnect
        dsimp only
        split
        · exact .inr ⟨_, rfl⟩
        · exact .inl rfl
      · rw [ioRank, ioRank, lockRank_of_free hfree, henter]
        simp only [lockRank, TcpClient.enterDisconnect]
        by_cases hthread : u.thread = true <;> simp [hthread, IoPc.rank, Section.rank]
    · obtain ⟨t, hs, hcallback, hfree', hrank⟩ :=
        ioStep_giveUp hu.callback hfree hfinished henter
      refine .inr (goes (hu.step hs hcallback (.inl hfree') ?_))
      rw [ioRank, ioRank, lockRank_of_free hfree, lockRank_of_free hfree']
      exact hrank
  · have hio := hholders.io next hheld
    have hs : u.step (.io .none) = some (u.proceed .io next) := by
      unfold TcpClient.step ioStep
      rw [hio]
      dsimp only
      rw [hheld]
    refine .inr (goes (hu.step hs ?_ (holder_proceed u .io next) ?_))
    · rw [u.proceed_callback .io next]
      exact hu.callback
    · rw [ioRank, ioRank, lockRank_of_held hheld,
        io_proceed_of_running (.of_reachable hu.live.reached) hheld (by rw [hio]; simp)]
      exact Nat.add_lt_add_left (u.lockRank_proceed .io next) _

/-! ## The next session -/

theorem begins_of_free (hreached : Reachable step AnyStep init s) (hfree : s.mutex = none)
    (hio : s.io = .finished) (hthread : s.thread = false) :
    CanReach TcpClient.step (Begun s.history.sessions) s := by
  have hstatus := endsUnconnected_of_reachable hreached (.inl hio)
  have hmutex : (s.enterConnect .user).mutex = some (.user, .connect) := by
    simp [TcpClient.enterConnect, hstatus]
  have hcall : s.step (.user .makeSureConnected) = some (s.enterConnect .user) :=
    if_pos hfree
  have hproceed : (s.enterConnect .user).step (.user .proceed) =
      some ((s.enterConnect .user).proceed .user .connect) := by
    unfold TcpClient.step TcpClient.userStep
    dsimp only
    rw [hmutex]
  refine .next hcall (.next hproceed (.here ?_))
  have hnull : (s.enterConnect .user).thread = false := hthread
  simp only [TcpClient.proceed, hnull]
  exact ⟨Nat.lt_succ_self _, rfl⟩

theorem begins_of_joins (hreached : Reachable step AnyStep init s) (hlock : s.Unhindered)
    (hjoins : s.callback.joins = true) :
    CanReach TcpClient.step (Begun s.history.sessions) s := by
  obtain ⟨hio, hhas⟩ := (Joins.of_reachable hreached).awaits.owed (.inr hjoins)
  have hfree : s.mutex = none := by
    refine hlock.free (.of_reachable hreached) ?_
    constructor <;> intro hcallback <;> simp [hcallback, CallbackPc.joins] at hjoins
  have hthread : s.thread = true := by
    rcases hhas with hassigned | ⟨holder, hheld⟩
    · exact hassigned
    · rw [hfree] at hheld
      cases hheld
  have clears {u : TcpClient} {session : Nat} (hu : Reachable step AnyStep init u)
      (hfree : u.mutex = none) (hio : u.io = .finished)
      (hcallback : u.callback = .clearThread session) :
      CanReach TcpClient.step (Begun u.history.sessions) u := by
    have hs : u.step .queue =
        some { u with thread := false, callback := .lockTimers session } := by
      unfold TcpClient.step queueStep
      rw [hcallback]
    exact .next hs (begins_of_free (hu.tail .queue trivial hs) hfree hio rfl)
  have joined {u : TcpClient} (hu : Reachable step AnyStep init u)
      (hfree : u.mutex = none) (hio : u.io = .finished) (hcallback : u.callback = .join) :
      CanReach TcpClient.step (Begun u.history.sessions) u := by
    have hs : u.step .queue = some { u with callback := .clearThread u.history.sessions } := by
      unfold TcpClient.step queueStep
      rw [hcallback]
      exact if_pos hio
    exact .next hs (clears (hu.tail .queue trivial hs) hfree hio rfl)
  cases hcallback : s.callback with
  | waitDisconnect =>
      have hs : s.step .queue = some { s with callback := .join } := by
        unfold TcpClient.step queueStep
        rw [hcallback]
        exact if_pos hthread
      exact .next hs (joined (hreached.tail .queue trivial hs) hfree hio rfl)
  | join => exact joined hreached hfree hio hcallback
  | clearThread session => exact clears hreached hfree hio hcallback
  | _ =>
      rw [hcallback] at hjoins
      cases hjoins

/-! ## The queue's loop comes round -/

def loopRank (timers : Alarms ClientAlarm) : Nat :=
  match timers.queue.loop with
  | .top => 0
  | .waiting _ => 1
  | .next pass => 3 * pass.todo.length + 2
  | .calling _ _ pass => 3 * pass.todo.length + if timers.firing then 3 else 4

theorem loopAction_goes {timers : Alarms ClientAlarm} (hfiring : timers.firing = false)
    (hloop : timers.queue.loop ≠ .top) :
    ∃ timers', timers.step (loopAction timers.queue.loop) = some timers' ∧
      loopRank timers' < loopRank timers ∧
      timers'.queue.messages = timers.queue.messages := by
  cases hpc : timers.queue.loop with
  | top => exact absurd hpc hloop
  | waiting until? =>
      simp only [loopAction, Alarms.step, MessageQueue.wake, hpc, Option.map_some]
      exact ⟨_, rfl, by simp [loopRank, hpc], rfl⟩
  | next pass =>
      obtain ⟨todo, now, duration⟩ := pass
      cases todo with
      | nil =>
          simp only [loopAction, Alarms.step, MessageQueue.rest, hpc]
          split
          · exact ⟨_, rfl, by simp [loopRank, hpc], rfl⟩
          · split <;> exact ⟨_, rfl, by simp [loopRank, hpc], rfl⟩
      | cons kv todo =>
          simp only [loopAction, Alarms.step, MessageQueue.checkCanceled, hpc]
          split
          · exact ⟨_, rfl, by simp [loopRank, hpc], rfl⟩
          · refine ⟨_, rfl, ?_, rfl⟩
            simp only [loopRank, hpc, hfiring, List.length_cons]
            simp
            omega
  | calling messageId posted pass =>
      simp only [loopAction, Alarms.step, Alarms.fire, hpc, hfiring]
      split
      · exact ⟨_, rfl, by simp [loopRank, hpc, hfiring], rfl⟩
      · exact ⟨_, rfl, by simp [loopRank, hpc, hfiring, Alarms.set], rfl⟩

theorem callback_aside (hholders : Holders s) (hidle : s.callback ≠ .idle)
    (hs : s.queueStep = some t) : loopRank t.timers ≤ loopRank s.timers ∧
      (s.timers.queue.messages = [] → t.timers.queue.messages = []) := by
  have requests {timers : Alarms ClientAlarm} (h : RequestsOnly s.timers timers)
      (hstarts : timers.starts = s.timers.starts) :
      loopRank timers ≤ loopRank s.timers ∧
        (s.timers.queue.messages = [] → timers.queue.messages = []) := by
    refine ⟨Nat.le_of_eq ?_, fun hempty => ?_⟩
    · unfold loopRank
      rw [h.loop.1, h.loop.2]
    · cases h with
      | same => exact hempty
      | start n afterSec =>
          unfold Alarms.start at hstarts ⊢
          split
          · next hcan => simp [hcan] at hstarts
          · exact hempty
      | cancel n =>
          unfold Alarms.cancel
          split
          · exact hempty
          · simp [MessageQueue.cancelMessage, hempty, MessageQueue.removeMessage]
  cases queueStep_cases hs with
  | loop timers hcallback hstep => exact absurd hcallback hidle
  | returned timers hcallback hstep =>
      have hfiring := hholders.firing hidle
      unfold Alarms.returned at hstep
      rw [if_pos hfiring] at hstep
      obtain ⟨queue, hqueue, rfl⟩ := Option.map_eq_some_iff.mp hstep
      unfold MessageQueue.returned at hqueue
      split at hqueue
      · next hloop =>
          cases hqueue
          exact ⟨by simp [loopRank, hloop, hfiring], id⟩
      · cases hqueue
  | timer u callback htimer =>
      exact requests htimer.timers (starts_queueStep hs)
  | inside next hcallback hmutex =>
      rw [s.proceed_timers .queue next]
      exact ⟨Nat.le_refl _, id⟩
  | _ => exact ⟨Nat.le_refl _, id⟩

/-- The callback of the reconnect alarm is on its way, and nothing holds the loop up. -/
structure Coming (sessions starts : Nat) (s : TcpClient) : Prop where
  live : Live sessions starts s
  lock : s.Unhindered
  waits : s.reconnectWaits = true

/-- The callback runs, and has not deleted the thread. -/
structure Called (sessions starts : Nat) (s : TcpClient) : Prop where
  live : Live sessions starts s
  lock : s.Unhindered
  joins : s.callback.joins = true

theorem Coming.aside (h : Coming sessions starts s) :
    s.io = .finished ∧ s.HasThread ∧ s.callback.joins = false := by
  have hawaits := (Joins.of_reachable h.live.reached).awaits
  obtain ⟨hio, hhas⟩ := hawaits.owed (.inl h.waits)
  exact ⟨hio, hhas, hawaits.apart h.waits⟩

theorem Coming.step (h : Coming sessions starts s) (hs : s.step .queue = some t) :
    Begun sessions t ∨ Called sessions starts t ∨ Coming sessions starts t := by
  obtain ⟨hio, hhas, hnot⟩ := h.aside
  have hlock : t.Unhindered := h.lock.queueStep hs
  have hstarts : t.timers.starts ≤ starts := by
    rw [starts_queueStep hs]
    exact h.live.starts
  rcases h.live.step (h.live.assignedFirst h.lock) hs hstarts with hbegun | hlive
  · exact .inl hbegun
  refine .inr ?_
  cases (Joins.of_reachable h.live.reached).cases hs with
  | same hwaits => exact .inr ⟨hlive, hlock, hwaits.trans h.waits⟩
  | start hwaits hjoins hrunning hthread => exact absurd hhas hthread
  | finish hwaits hjoins hrunning => exact absurd hio hrunning
  | fire hwaiting hwaits hjoins => exact .inl ⟨hlive, hlock, hjoins⟩
  | clear hwaits hjoining =>
      rw [hnot] at hjoining
      cases hjoining
  | skip hskips hwaits hjoining =>
      rw [hnot] at hjoining
      cases hjoining

def queueRank (self : TcpClient) : Nat × Nat := (loopRank self.timers, self.callbackRank)

theorem Coming.goes (h : Coming sessions starts s) (hfew : starts < 4294967294)
    (hnot : ¬(s.callback = .idle ∧ s.timers.queue.loop = .top)) :
    ∃ t, s.step .queue = some t ∧
      Prod.Lex (· < ·) (· < ·) t.queueRank s.queueRank ∧
      (s.timers.queue.messages = [] → t.timers.queue.messages = []) := by
  obtain ⟨hio, hhas, hjoins⟩ := h.aside
  by_cases hidle : s.callback = .idle
  · have hfiring := (Joins.of_reachable h.live.reached).timers.idle hidle
    obtain ⟨timers, hstep, hrank, hmessages⟩ :=
      loopAction_goes hfiring fun hloop => hnot ⟨hidle, hloop⟩
    refine ⟨{ s with timers, callback := innerCallback timers }, ?_, .left _ _ hrank,
      fun hempty => hmessages.trans hempty⟩
    unfold TcpClient.step TcpClient.queueStep
    rw [hidle]
    simp only [loopStep, hstep, Option.map_some]
  · have hjoin : s.callback ≠ .join := by
      intro hcallback
      rw [hcallback] at hjoins
      cases hjoins
    obtain ⟨t, hs, hrank, -⟩ := h.live.queueStep hfew h.lock hidle hjoin
    obtain ⟨hle, hmessages⟩ := callback_aside (.of_reachable h.live.reached) hidle hs
    refine ⟨t, hs, ?_, hmessages⟩
    rcases Nat.lt_or_eq_of_le hle with hlt | heq
    · exact .left _ _ hlt
    · unfold queueRank
      rw [heq]
      exact .right _ hrank

private theorem lower_wf :
    WellFounded (Prod.Lex (· < ·) (· < ·) : Nat × Nat → Nat × Nat → Prop) :=
  (Prod.lex Nat.lt_wfRel Nat.lt_wfRel).wf

theorem Coming.called (h : Coming sessions starts s) (hfew : starts < 4294967294)
    (hempty : s.timers.queue.messages = []) :
    CanReach TcpClient.step
      (fun t => Begun sessions t ∨ Called sessions starts t) s := by
  refine CanReach.of_rank
    (I := fun u => Coming sessions starts u ∧ u.timers.queue.messages = [])
    lower_wf queueRank (fun u hu => .inr ?_) ⟨h, hempty⟩
  obtain ⟨hu, hempty⟩ := hu
  obtain ⟨-, start, deadline, -, hclosure⟩ :=
    (hu.live.noneLost hfew).waiting .reconnectAlarm hu.waits
  have hnot : ¬(u.callback = .idle ∧ u.timers.queue.loop = .top) := by
    rintro ⟨-, hloop⟩
    cases hclosure with
    | pending hmem =>
        rw [hempty] at hmem
        cases hmem
    | taken hmem hlive =>
        rw [hloop] at hmem
        cases hmem
    | called pass hcalling hfiring =>
        rw [hloop] at hcalling
        cases hcalling
  obtain ⟨t, hs, hrank, hmessages⟩ := hu.goes hfew hnot
  rcases hu.step hs with hbegun | hcalled | hcoming
  · exact ⟨.queue, t, hs, .inl (.inl hbegun)⟩
  · exact ⟨.queue, t, hs, .inl (.inr hcalled)⟩
  · exact ⟨.queue, t, hs, .inr ⟨⟨hcoming, hmessages hempty⟩, hrank⟩⟩

theorem Coming.top (h : Coming sessions starts s) (hfew : starts < 4294967294) :
    CanReach TcpClient.step (fun t => (Begun sessions t ∨ Called sessions starts t) ∨
      Coming sessions starts t ∧ t.callback = .idle ∧ t.timers.queue.loop = .top) s := by
  refine CanReach.of_rank lower_wf queueRank (fun u hu => ?_) h
  by_cases htop : u.callback = .idle ∧ u.timers.queue.loop = .top
  · exact .inl (.inr ⟨hu, htop⟩)
  · obtain ⟨t, hs, hrank, -⟩ := hu.goes hfew htop
    rcases hu.step hs with hbegun | hcalled | hcoming
    · exact .inr ⟨.queue, t, hs, .inl (.inl (.inl hbegun))⟩
    · exact .inr ⟨.queue, t, hs, .inl (.inl (.inr hcalled))⟩
    · exact .inr ⟨.queue, t, hs, .inr ⟨hcoming, hrank⟩⟩

private theorem exists_due (now : Int) (messages : List (Message (Posted ClientAlarm))) :
    ∃ nanoseconds : Nat, ∀ m ∈ messages,
      MessageQueue.isDue (now + nanoseconds) m = true := by
  obtain ⟨nanoseconds, hlate⟩ : ∃ nanoseconds : Nat, ∀ m ∈ messages,
      m.when ≤ now + nanoseconds := by
    induction messages with
    | nil => exact ⟨0, by simp⟩
    | cons m rest ih =>
        obtain ⟨nanoseconds, hlate⟩ := ih
        refine ⟨nanoseconds + (m.when - now).toNat, fun m' hm' => ?_⟩
        rcases List.mem_cons.mp hm' with rfl | hm'
        · omega
        · have hle := hlate m' hm'
          omega
  refine ⟨nanoseconds, fun m hm => ?_⟩
  have hle := hlate m hm
  exact decide_eq_true (Int.tdiv_nonneg (by omega) (by omega))

theorem drains (hidle : s.callback = .idle) (hloop : s.timers.queue.loop = .top)
    (hdue : ∀ m ∈ s.timers.queue.messages,
      MessageQueue.isDue s.timers.now m = true) :
    ∃ t, s.step .queue = some t ∧ t.timers.queue.messages = [] := by
  unfold TcpClient.step queueStep
  rw [hidle]
  simp only [loopStep, hloop, loopAction, Alarms.step, MessageQueue.drain, Option.map_some]
  exact ⟨_, rfl, List.dropWhile_eq_nil_iff.2 hdue⟩

theorem Coming.late (h : Coming sessions starts s) :
    ∃ action t, s.step action = some t ∧ Coming sessions starts t ∧
      t.callback = s.callback ∧ t.timers.queue.loop = s.timers.queue.loop ∧
      ∀ m ∈ t.timers.queue.messages, MessageQueue.isDue t.timers.now m = true := by
  obtain ⟨nanoseconds, hdue⟩ := exists_due s.timers.now s.timers.queue.messages
  have htick : s.step (.tick nanoseconds) = some { s with timers :=
      { s.timers with now := s.timers.now + nanoseconds } } := rfl
  refine ⟨_, _, htick, ?_, rfl, rfl, hdue⟩
  rcases h.live.step (assignedFirst_of_ne (by simp)) htick h.live.starts with
    hbegun | hlive
  · have hsame := h.live.sessions
    exact absurd hbegun.1 (by simp [hsame])
  · exact ⟨hlive, h.lock, h.waits⟩

theorem Coming.begins (h : Coming sessions starts s) (hfew : starts < 4294967294) :
    CanReach TcpClient.step
      (fun t => Begun sessions t ∨ Called sessions starts t) s := by
  refine (h.top hfew).bind fun u hu => ?_
  rcases hu with hdone | ⟨hcoming, hidle, hloop⟩
  · exact .here hdone
  obtain ⟨action, v, hlate, hv, hcallback, hsame, hdue⟩ := hcoming.late
  obtain ⟨t, hs, hempty⟩ := drains (hcallback.trans hidle) (hsame.trans hloop) hdue
  refine .next hlate (.next hs ?_)
  rcases hv.step hs with hbegun | hcalled | hagain
  · exact .here (.inl hbegun)
  · exact .here (.inr hcalled)
  · exact hagain.called hfew hempty

/-! ## All together -/

theorem Called.begins (h : Called sessions starts s) :
    CanReach TcpClient.step (Begun sessions) s :=
  h.live.sessions ▸ begins_of_joins h.live.reached h.lock h.joins

theorem Live.restarts (h : Live sessions starts s) (hfew : starts < 4294967294)
    (hsettled : s.Settled) (hio : s.io = .finished) :
    CanReach TcpClient.step (Begun sessions) s := by
  cases hthread : s.thread with
  | false => exact h.sessions ▸ begins_of_free h.reached hsettled.free hio hthread
  | true =>
      have hawaited : s.Awaited := by
        by_contra hnot
        exact h.saved ⟨hio, .inl hthread, hnot⟩
      rcases hawaited with hwaits | hjoins
      · have hcoming : Coming sessions starts s := ⟨h, .inl hsettled.free, hwaits⟩
        refine (hcoming.begins hfew).bind fun t ht => ?_
        rcases ht with hbegun | hcalled
        · exact .here hbegun
        · exact hcalled.begins
      · exact h.sessions ▸ begins_of_joins h.reached (.inl hsettled.free) hjoins

theorem Live.begins (h : Live sessions starts s) (hfew : starts + 27 < 4294967294) :
    CanReach TcpClient.step (Begun sessions) s := by
  refine (h.settles (by omega)).bind fun u hu => ?_
  rcases hu with hbegun | ⟨hlive, hsettled⟩
  · exact .here hbegun
  rcases hsettled.callback with hidle | hjoin
  · refine (hlive.ends hsettled.free hidle).bind fun t ht => ?_
    rcases ht with hbegun | ⟨hlive', hfree, hidle', hio⟩
    · exact .here hbegun
    · exact hlive'.restarts hfew ⟨hfree, .inl hidle'⟩ hio
  · have hawaits := (Joins.of_reachable hlive.reached).awaits
    have hio := (hawaits.owed (.inr (by rw [hjoin]; rfl))).1
    exact hlive.restarts (by omega) hsettled hio

theorem Begun.connects (h : Begun sessions s) :
    CanReach TcpClient.step (fun t => sessions < t.history.sessions ∧
      t.connectStatus = .kConnected) s := by
  have hstart : s.step (.io .none) = some { s with
      connectStatus := .kConnecting, io := .runConnect } := by
    unfold TcpClient.step ioStep
    rw [h.2]
  exact .next hstart (.next (a := .io (.connected .kRetConnSuccess)) rfl
    (.next (a := .io .none) rfl (.here ⟨h.1, rfl⟩)))

end TcpClient

end GoSocket.Client
