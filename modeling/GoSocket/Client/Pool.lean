import GoSocket.Client.Books

/-!
# Where the alarms of the pool are

An alarm that `ObjectPool::Get` has created lies in the pool, in
`_timeoutAlarmMap` or in the hand of the I/O thread: it is a token of a ledger,
which the deleter of `Get` moves back into the pool.
-/

namespace GoSocket.Client

open Std GoSocket.Common GoSocket.Foundation

/-- The alarm that `__RunReadWrite` has taken from the pool. -/
def IoPc.alarm? : IoPc → Option Nat
  | .setUserData _ _ alarm => some alarm
  | .setCallback _ _ alarm => some alarm
  | .startAlarm _ _ alarm => some alarm
  | .recordAlarm _ _ alarm => some alarm
  | _ => none

inductive AlarmPlace where
  -- an alarm of the pool has a place of its own there
  | pool (alarm : Nat)
  | map (messageId : UInt16)
  | io
  deriving DecidableEq, Repr

namespace TcpClient

def alarmAt (self : TcpClient) : AlarmPlace → Option Nat
  | .pool alarm => if alarm ∈ self.pool then some alarm else none
  | .map messageId => (self.timeoutAlarmMap[messageId]?).map (·.alarm)
  | .io => self.io.alarm?

def alarmLedger (self : TcpClient) : Ledger AlarmPlace Empty where
  place := self.alarmAt
  issued := self.created
  used := []

variable {s t : TcpClient}

structure Pooled (s : TcpClient) : Prop where
  linear : s.alarmLedger.Linear
  nodup : s.pool.Nodup

theorem IoMove.alarm {io : IoPc} (h : IoMove s io) : io.alarm? = s.io.alarm? := by
  cases h <;> simp [*, IoPc.alarm?]

theorem IoAlarm.alarm {io next : IoPc} {action : AlarmAction ClientAlarm}
    (h : IoAlarm io action next) : next.alarm? = io.alarm? := by
  cases h <;> rfl

theorem IoStatus.alarm {io next : IoPc} {status : ConnectStatus}
    (h : IoStatus io status next) : next.alarm? = io.alarm? := by
  cases h <;> rfl

namespace Pooled

theorem init : Pooled .init where
  linear := by
    have hempty : alarmLedger .init =
        { place := fun _ => none, issued := 0, used := [] } := by
      simp only [alarmLedger, TcpClient.init]
      congr 1
      funext place
      cases place <;> simp [alarmAt, IoPc.alarm?]
    rw [hempty]
    exact .empty
  nodup := .nil

private theorem congr (h : Pooled s) (hpool : t.pool = s.pool)
    (hcreated : t.created = s.created)
    (hmap : t.timeoutAlarmMap = s.timeoutAlarmMap)
    (hio : t.io.alarm? = s.io.alarm?) : Pooled t := by
  have hledger : t.alarmLedger = s.alarmLedger := by
    unfold alarmLedger
    rw [hcreated]
    congr 1
    funext place
    cases place <;> simp only [alarmAt, hpool, hmap, hio]
  refine ⟨?_, by rw [hpool]; exact h.nodup⟩
  rw [hledger]
  exact h.linear

theorem not_pool (h : Pooled s) {place : AlarmPlace} {alarm : Nat}
    (hplace : s.alarmAt place = some alarm)
    (hne : ∀ alarm, place ≠ .pool alarm) : alarm ∉ s.pool := by
  intro hpool
  have hthere : s.alarmAt (.pool alarm) = some alarm := by
    simp [alarmAt, hpool]
  exact hne alarm (h.linear.unique place (.pool alarm) alarm hplace hthere)

theorem release (h : Pooled s) (messageId : UInt16) :
    Pooled (s.release messageId) := by
  have htimers := s.timer_release messageId
  unfold TcpClient.release at htimers ⊢
  cases htimer : s.timeoutAlarmMap[messageId]? with
  | none => exact h
  | some timer =>
      rw [htimer] at htimers
      dsimp only at htimers ⊢
      have hplace : s.alarmAt (.map messageId) = some timer.alarm := by
        simp [alarmAt, htimer]
      have hmove : s.alarmLedger.step
          (.move (.map messageId) (.pool timer.alarm)) = some (alarmLedger
            { s with
              timeoutAlarmMap := s.timeoutAlarmMap.erase messageId
              pool := timer.alarm :: s.pool }) := by
        simp only [Ledger.step, alarmLedger, hplace, Option.some.injEq]
        congr 1
        funext place
        cases place with
        | pool alarm =>
            by_cases heq : alarm = timer.alarm
            · simp [alarmAt, heq]
            · simp [alarmAt, heq]
        | map messageId' =>
            simp only [alarmAt, htimers]
            by_cases heq : messageId' = messageId
            · simp [heq]
            · simp [heq, alarmAt]
        | io => simp [alarmAt]
      exact ⟨h.linear.step hmove,
        List.nodup_cons.mpr ⟨h.not_pool hplace (by simp), h.nodup⟩⟩

private theorem recordAlarm (h : Pooled s) {readable : Bool} {written : Written}
    {alarm : Nat} (hio : s.io = .recordAlarm readable written alarm) :
    Pooled { s.recordAlarm written alarm with io := .pop readable } := by
  have hreleased := h.release written.messageId
  obtain ⟨map, pool, heq⟩ := s.release_eq written.messageId
  unfold TcpClient.recordAlarm
  rw [heq] at hreleased ⊢
  have hmove : (alarmLedger { s with timeoutAlarmMap := map, pool }).step
      (.move .io (.map written.messageId)) = some (alarmLedger
        { s with
          timeoutAlarmMap := map.insert written.messageId
            { alarm, call := written.call }
          pool, io := .pop readable }) := by
    simp only [Ledger.step, alarmLedger, Option.some.injEq]
    congr 1
    funext place
    cases place with
    | pool alarm' => simp [alarmAt]
    | map messageId =>
        by_cases hid : messageId = written.messageId
        · simp [alarmAt, hid, hio, IoPc.alarm?]
        · simp [alarmAt, hid, getElem?_insert]
    | io => simp [alarmAt, IoPc.alarm?]
  exact ⟨hreleased.linear.step hmove, hreleased.nodup⟩

private theorem takeAlarm (h : Pooled s) {readable : Bool} {written : Written}
    (hio : s.io = .getAlarm readable written) :
    Pooled { s.takeAlarm.1 with
      io := .setUserData readable written s.takeAlarm.2 } := by
  have hhand : s.alarmAt .io = none := by simp [alarmAt, hio, IoPc.alarm?]
  cases hpool : s.pool with
  | nil =>
      have htake : s.takeAlarm = ({ s with created := s.created + 1 }, s.created) := by
        rw [TcpClient.takeAlarm, hpool]
      have hissue : s.alarmLedger.step (.issue .io) = some (alarmLedger
          { s with
            created := s.created + 1
            io := .setUserData readable written s.created }) := by
        simp only [Ledger.step, alarmLedger, Option.some.injEq]
        congr 1
        funext place
        cases place <;> simp [alarmAt, IoPc.alarm?]
      rw [htake]
      exact ⟨h.linear.step hissue, h.nodup⟩
  | cons alarm pool =>
      have htake : s.takeAlarm = ({ s with pool }, alarm) := by
        rw [TcpClient.takeAlarm, hpool]
      have hnodup := h.nodup
      rw [hpool, List.nodup_cons] at hnodup
      have hmove : s.alarmLedger.step (.move (.pool alarm) .io) = some
          (alarmLedger
            { s with pool, io := .setUserData readable written alarm }) := by
        simp only [Ledger.step, alarmLedger, Option.some.injEq]
        congr 1
        funext place
        cases place with
        | pool alarm' =>
            by_cases heq : alarm' = alarm
            · simp [alarmAt, heq, hnodup.1]
            · simp [alarmAt, heq, hpool]
        | map messageId => simp [alarmAt]
        | io => simp [alarmAt, hpool, IoPc.alarm?]
      rw [htake]
      exact ⟨h.linear.step hmove, hnodup.2⟩

private theorem proceed (h : Pooled s) (hthreads : Threads s) {holder : Holder}
    {next : Section} (hmutex : s.mutex = some (holder, next)) :
    Pooled (s.proceed holder next) := by
  cases next with
  | connect =>
      simp only [TcpClient.proceed]
      split
      · exact h.congr rfl rfl rfl rfl
      · next hnull =>
          have hio := hthreads.finished_of_connect hmutex
            (Bool.eq_false_iff.mpr hnull)
          exact h.congr rfl rfl rfl (by simp [hio, IoPc.alarm?])
  | _ => exact h.congr rfl rfl rfl rfl

private theorem userStep (h : Pooled s) (hthreads : Threads s) {call : UserCall}
    (hs : s.userStep call = some t) : Pooled t := by
  cases userStep_cases hs with
  | enterSend type payload data hasCallback hfree =>
      obtain ⟨mutex, calls, invoked, heq⟩ :=
        s.enterSend_eq type payload data hasCallback
      rw [heq]
      exact h.congr rfl rfl rfl rfl
  | enterPush message hfree =>
      obtain ⟨mutex, calls, heq⟩ := s.enterPush_eq message
      rw [heq]
      exact h.congr rfl rfl rfl rfl
  | inside next hcall hmutex => exact h.proceed hthreads hmutex
  | _ => exact h.congr rfl rfl rfl rfl

private theorem cancelTimer (h : Pooled s) (messageId : UInt16) :
    Pooled (s.cancelTimer messageId) := by
  unfold TcpClient.cancelTimer
  split
  · next timer _ =>
      have hcanceled : Pooled { s with
          timers := (s.timers.cancel (.request timer.alarm)).1 } :=
        h.congr rfl rfl rfl rfl
      exact hcanceled.release messageId
  · exact h

private theorem ioStep (h : Pooled s) (hthreads : Threads s) {event : IoEvent}
    (hs : s.ioStep event = some t) : Pooled t := by
  cases ioStep_cases hs with
  | move io hmove => exact h.congr rfl rfl rfl hmove.alarm
  | alarm action timers io halarm => exact h.congr rfl rfl rfl halarm.alarm
  | status status io hstatus => exact h.congr rfl rfl rfl hstatus.alarm
  | timer u io htimer =>
      cases htimer with
      | takeAlarm readable written hio => exact h.takeAlarm hio
      | startAlarm readable written alarm hio =>
          obtain ⟨timers, armed, heq⟩ := s.armAlarm_eq written.call alarm
          rw [heq]
          exact h.congr rfl rfl rfl (by simp [hio, IoPc.alarm?])
      | recordAlarm readable written alarm hio hfree => exact h.recordAlarm hio
      | cancelTimer messageId hio hfree =>
          have hcanceled := h.cancelTimer messageId
          obtain ⟨timers, map, pool, heq⟩ := s.cancelTimer_eq messageId
          rw [heq] at hcanceled ⊢
          exact hcanceled.congr rfl rfl rfl (by simp [hio, IoPc.alarm?])
  | encode readable queued rest hio hqueue =>
      refine h.congr rfl rfl rfl ?_
      rw [hio]
      unfold behindEncode
      split <;> rfl
  | inside next hio hmutex => exact h.proceed hthreads hmutex
  | refuse | clear | pingTimeout | pop | noCallback | takeCallback | callBack
    | enter =>
      exact h.congr rfl rfl rfl (by simp [*, IoPc.alarm?])

private theorem queueStep (h : Pooled s) (hthreads : Threads s)
    (hs : s.queueStep = some t) : Pooled t := by
  cases queueStep_cases hs with
  | timer u callback htimer =>
      cases htimer with
      | eraseTimer messageId start hcallback =>
          exact (h.release messageId).congr rfl rfl rfl rfl
      | cancelTimer session messageIds messageId rest hcallback hkeys =>
          obtain ⟨canceled, heq⟩ := s.loseTimer_eq session messageId
          rw [heq]
          have hlost : Pooled { s with history := { s.history with canceled } } :=
            h.congr rfl rfl rfl rfl
          exact (hlost.cancelTimer messageId).congr rfl rfl rfl rfl
  | inside next hcallback hmutex => exact h.proceed hthreads hmutex
  | _ => exact h.congr rfl rfl rfl rfl

theorem step (h : Pooled s) (hthreads : Threads s) {action : Action}
    (hs : s.step action = some t) : Pooled t := by
  cases action with
  | user call => exact h.userStep hthreads hs
  | io event => exact h.ioStep hthreads hs
  | queue => exact h.queueStep hthreads hs
  | tick nanoseconds =>
      cases hs
      exact h.congr rfl rfl rfl rfl
  | pipes ok =>
      cases hs
      exact h.congr rfl rfl rfl rfl

theorem of_reachable {ok : TcpClient → Action → Prop}
    (h : Reachable TcpClient.step ok .init s) : Pooled s :=
  h.invariant init fun _ _ _ hu hpooled _ hs =>
    hpooled.step (.of_reachable hu) hs

end Pooled

end TcpClient

end GoSocket.Client
