import GoSocket.Client.Pool
import Mathlib.Data.Fintype.Card

/-!
# How many alarms there are

`ObjectPool::Get` creates an alarm where the pool is empty.  No alarm gets lost:
the deleter of `Get` puts back whatever falls out of `_timeoutAlarmMap`.  So an
alarm is created only where every other one belongs to an entry of the map, which
has one for each message id at most.
-/

namespace GoSocket.Client

open Std GoSocket.Common GoSocket.Foundation

namespace TcpClient

variable {s t : TcpClient} {n : Nat}

/-- The alarm lies in some place. -/
def Placed (self : TcpClient) (n : Nat) : Prop :=
  ∃ place, self.alarmAt place = some n

theorem Placed.of_pool (h : n ∈ s.pool) : s.Placed n :=
  ⟨.pool n, by simp [alarmAt, h]⟩

theorem Placed.of_map {messageId : UInt16} {timer : Timer}
    (h : s.timeoutAlarmMap[messageId]? = some timer) : s.Placed timer.alarm :=
  ⟨.map messageId, by simp [alarmAt, h]⟩

theorem Placed.of_io (h : s.io.alarm? = some n) : s.Placed n :=
  ⟨.io, h⟩

theorem Placed.cases (h : s.Placed n) :
    n ∈ s.pool ∨ (∃ messageId : UInt16, ∃ timer : Timer,
      s.timeoutAlarmMap[messageId]? = some timer ∧ timer.alarm = n) ∨
        s.io.alarm? = some n := by
  obtain ⟨place, hplace⟩ := h
  cases place with
  | pool alarm =>
      simp only [alarmAt, Option.ite_none_right_eq_some, Option.some.injEq] at hplace
      exact .inl (hplace.2 ▸ hplace.1)
  | map messageId =>
      obtain ⟨timer, htimer, halarm⟩ := Option.map_eq_some_iff.mp hplace
      exact .inr (.inl ⟨messageId, timer, htimer, halarm⟩)
  | io => exact .inr (.inr hplace)

theorem Placed.mono (h : s.Placed n) (hpool : s.pool ⊆ t.pool)
    (hmap : ∀ messageId : UInt16, ∀ timer : Timer,
      s.timeoutAlarmMap[messageId]? = some timer → t.Placed timer.alarm)
    (hio : ∀ alarm, s.io.alarm? = some alarm → t.Placed alarm) : t.Placed n := by
  rcases h.cases with hmem | ⟨messageId, timer, htimer, rfl⟩ | hhand
  · exact .of_pool (hpool hmem)
  · exact hmap messageId timer htimer
  · exact hio n hhand

theorem Placed.congr (h : s.Placed n) (hpool : t.pool = s.pool)
    (hmap : t.timeoutAlarmMap = s.timeoutAlarmMap)
    (hio : t.io.alarm? = s.io.alarm?) : t.Placed n :=
  h.mono (hpool ▸ List.Subset.refl _)
    (fun _ _ htimer => .of_map (by rw [hmap]; exact htimer))
    (fun _ halarm => .of_io (hio.trans halarm))

theorem Placed.release (h : s.Placed n) (messageId : UInt16) :
    (s.release messageId).Placed n := by
  have hmap := s.timer_release messageId
  unfold TcpClient.release at hmap ⊢
  cases htimer : s.timeoutAlarmMap[messageId]? with
  | none => exact h
  | some timer =>
      rw [htimer] at hmap
      dsimp only at hmap ⊢
      refine h.mono (List.subset_cons_self _ _) (fun messageId' timer' htimer' => ?_)
        (fun alarm halarm => .of_io halarm)
      by_cases heq : messageId' = messageId
      · subst heq
        cases htimer.symm.trans htimer'
        exact .of_pool List.mem_cons_self
      · exact .of_map (by rw [hmap, if_neg heq]; exact htimer')

theorem Placed.cancelTimer (h : s.Placed n) (messageId : UInt16) :
    (s.cancelTimer messageId).Placed n := by
  unfold TcpClient.cancelTimer
  split
  · next timer _ =>
      have hcanceled : Placed { s with
          timers := (s.timers.cancel (.request timer.alarm)).1 } n :=
        h.congr rfl rfl rfl
      exact hcanceled.release messageId
  · exact h

theorem Placed.recordAlarm (h : s.Placed n) {readable : Bool} {written : Written}
    {alarm : Nat} (hio : s.io = .recordAlarm readable written alarm) :
    Placed { s.recordAlarm written alarm with io := .pop readable } n := by
  have hreleased := h.release written.messageId
  have hmap := s.timer_recordAlarm written alarm
  have hbehind := s.timer_release written.messageId
  obtain ⟨map, pool, heq⟩ := s.release_eq written.messageId
  unfold TcpClient.recordAlarm at hmap ⊢
  rw [heq] at hreleased hbehind hmap ⊢
  refine hreleased.mono (List.Subset.refl _) (fun messageId timer htimer => ?_)
    (fun alarm' halarm => ?_)
  · have hne : messageId ≠ written.messageId := by
      rintro rfl
      rw [hbehind, if_pos rfl] at htimer
      cases htimer
    rw [hbehind, if_neg hne] at htimer
    exact .of_map ((hmap messageId).trans ((if_neg hne).trans htimer))
  · rw [hio] at halarm
    cases halarm
    change Placed _ (Timer.mk alarm written.call).alarm
    exact .of_map ((hmap written.messageId).trans (if_pos rfl))

/-- The alarms that have been created, up to one for each message id and one that
the I/O thread is about to record. -/
structure Accounted (s : TcpClient) : Prop where
  placed : ∀ n < s.created, s.Placed n
  bounded : s.created ≤ 65537

namespace Accounted

theorem init : Accounted .init where
  placed := nofun
  bounded := by simp [TcpClient.init]

private theorem of_placed (h : Accounted s) (hcreated : t.created = s.created)
    (hplaced : ∀ n, s.Placed n → t.Placed n) : Accounted t where
  placed n hn := hplaced n (h.placed n (hcreated ▸ hn))
  bounded := hcreated ▸ h.bounded

private theorem congr (h : Accounted s) (hcreated : t.created = s.created)
    (hpool : t.pool = s.pool) (hmap : t.timeoutAlarmMap = s.timeoutAlarmMap)
    (hio : t.io.alarm? = s.io.alarm?) : Accounted t :=
  h.of_placed hcreated fun _ hn => hn.congr hpool hmap hio

private theorem created_le (h : Accounted s) (hpool : s.pool = [])
    (hhand : s.io.alarm? = none) : s.created ≤ 65536 := by
  have hmap (n : Fin s.created) : ∃ messageId : UInt16,
      (s.timeoutAlarmMap[messageId]?).map (·.alarm) = some n.val := by
    rcases (h.placed n.val n.isLt).cases with hmem | ⟨messageId, timer, htimer, halarm⟩ |
      hthere
    · rw [hpool] at hmem
      exact absurd hmem List.not_mem_nil
    · exact ⟨messageId, by rw [htimer, Option.map_some, halarm]⟩
    · rw [hhand] at hthere
      cases hthere
  choose messageId hmessageId using hmap
  have hinjective : Function.Injective fun n => (messageId n).toFin := by
    intro m n hsame
    have hid : messageId m = messageId n := UInt16.toFin_inj.mp hsame
    have hval := (hmessageId m).symm.trans (hid ▸ hmessageId n)
    exact Fin.ext (Option.some.inj hval)
  simpa using Fintype.card_le_of_injective _ hinjective

private theorem takeAlarm (h : Accounted s) {readable : Bool} {written : Written}
    (hio : s.io = .getAlarm readable written) :
    Accounted { s.takeAlarm.1 with
      io := .setUserData readable written s.takeAlarm.2 } := by
  have hhand : s.io.alarm? = none := by rw [hio]; rfl
  cases hpool : s.pool with
  | nil =>
      have htake : s.takeAlarm = ({ s with created := s.created + 1 }, s.created) := by
        rw [TcpClient.takeAlarm, hpool]
      rw [htake]
      refine ⟨fun n hn => ?_, Nat.succ_le_succ (h.created_le hpool hhand)⟩
      rcases Nat.lt_succ_iff_lt_or_eq.mp hn with hlt | rfl
      · refine (h.placed n hlt).mono (List.Subset.refl _)
          (fun _ _ htimer => .of_map htimer) (fun alarm halarm => ?_)
        rw [hhand] at halarm
        cases halarm
      · exact .of_io rfl
  | cons alarm pool =>
      have htake : s.takeAlarm = ({ s with pool }, alarm) := by
        rw [TcpClient.takeAlarm, hpool]
      rw [htake]
      refine h.of_placed rfl fun n hn => ?_
      rcases hn.cases with hmem | ⟨messageId, timer, htimer, rfl⟩ | hthere
      · rw [hpool] at hmem
        rcases List.mem_cons.mp hmem with rfl | hmem
        · exact .of_io rfl
        · exact .of_pool hmem
      · exact .of_map htimer
      · rw [hhand] at hthere
        cases hthere

private theorem proceed (h : Accounted s) (hthreads : Threads s) {holder : Holder}
    {next : Section} (hmutex : s.mutex = some (holder, next)) :
    Accounted (s.proceed holder next) := by
  cases next with
  | connect =>
      simp only [TcpClient.proceed]
      split
      · exact h.congr rfl rfl rfl rfl
      · next hnull =>
          have hio := hthreads.finished_of_connect hmutex
            (Bool.eq_false_iff.mpr hnull)
          exact h.congr rfl rfl rfl (by simp [hio, IoPc.alarm?])
  | _ => exact h.congr rfl rfl rfl rfl

private theorem userStep (h : Accounted s) (hthreads : Threads s) {call : UserCall}
    (hs : s.userStep call = some t) : Accounted t := by
  cases userStep_cases hs with
  | enterSend type payload data hasCallback hfree =>
      obtain ⟨mutex, calls, invoked, heq⟩ :=
        s.enterSend_eq type payload data hasCallback
      rw [heq]
      exact h.congr rfl rfl rfl rfl
  | enterPush message hfree =>
      obtain ⟨mutex, calls, heq⟩ := s.enterPush_eq message
      rw [heq]
      exact h.congr rfl rfl rfl rfl
  | inside next hcall hmutex => exact h.proceed hthreads hmutex
  | _ => exact h.congr rfl rfl rfl rfl

private theorem ioStep (h : Accounted s) (hthreads : Threads s) {event : IoEvent}
    (hs : s.ioStep event = some t) : Accounted t := by
  cases ioStep_cases hs with
  | move io hmove => exact h.congr rfl rfl rfl hmove.alarm
  | alarm action timers io halarm => exact h.congr rfl rfl rfl halarm.alarm
  | status status io hstatus => exact h.congr rfl rfl rfl hstatus.alarm
  | timer u io htimer =>
      cases htimer with
      | takeAlarm readable written hio => exact h.takeAlarm hio
      | startAlarm readable written alarm hio =>
          obtain ⟨timers, armed, heq⟩ := s.armAlarm_eq written.call alarm
          rw [heq]
          exact h.congr rfl rfl rfl (by simp [hio, IoPc.alarm?])
      | recordAlarm readable written alarm hio hfree =>
          refine h.of_placed ?_ fun n hn => hn.recordAlarm hio
          obtain ⟨map, pool, heq⟩ := s.recordAlarm_eq written alarm
          rw [heq]
      | cancelTimer messageId hio hfree =>
          refine h.of_placed ?_ fun n hn => (hn.cancelTimer messageId).congr rfl rfl ?_
          · obtain ⟨timers, map, pool, heq⟩ := s.cancelTimer_eq messageId
            rw [heq]
          · obtain ⟨timers, map, pool, heq⟩ := s.cancelTimer_eq messageId
            simp [heq, hio, IoPc.alarm?]
  | encode readable queued rest hio hqueue =>
      refine h.congr rfl rfl rfl ?_
      rw [hio]
      unfold behindEncode
      split <;> rfl
  | inside next hio hmutex => exact h.proceed hthreads hmutex
  | refuse | clear | pingTimeout | pop | noCallback | takeCallback | callBack
    | enter =>
      exact h.congr rfl rfl rfl (by simp [*, IoPc.alarm?])

private theorem queueStep (h : Accounted s) (hthreads : Threads s)
    (hs : s.queueStep = some t) : Accounted t := by
  cases queueStep_cases hs with
  | timer u callback htimer =>
      cases htimer with
      | eraseTimer messageId start hcallback =>
          refine h.of_placed ?_ fun n hn => (hn.release messageId).congr rfl rfl rfl
          obtain ⟨map, pool, heq⟩ := s.release_eq messageId
          rw [heq]
      | cancelTimer session messageIds messageId rest hcallback hkeys =>
          obtain ⟨canceled, heq⟩ := s.loseTimer_eq session messageId
          rw [heq]
          have hlost : Accounted { s with history := { s.history with canceled } } :=
            h.congr rfl rfl rfl rfl
          refine hlost.of_placed ?_ fun n hn =>
            (hn.cancelTimer messageId).congr rfl rfl rfl
          obtain ⟨timers, map, pool, heq'⟩ := TcpClient.cancelTimer_eq
            { s with history := { s.history with canceled } } messageId
          rw [heq']
  | inside next hcallback hmutex => exact h.proceed hthreads hmutex
  | _ => exact h.congr rfl rfl rfl rfl

theorem step (h : Accounted s) (hthreads : Threads s) {action : Action}
    (hs : s.step action = some t) : Accounted t := by
  cases action with
  | user call => exact h.userStep hthreads hs
  | io event => exact h.ioStep hthreads hs
  | queue => exact h.queueStep hthreads hs
  | tick nanoseconds =>
      cases hs
      exact h.congr rfl rfl rfl rfl
  | pipes ok =>
      cases hs
      exact h.congr rfl rfl rfl rfl

theorem of_reachable {ok : TcpClient → Action → Prop}
    (h : Reachable TcpClient.step ok .init s) : Accounted s :=
  h.invariant init fun _ _ _ hu haccounted _ hs =>
    haccounted.step (.of_reachable hu) hs

end Accounted

theorem alarmAt_unique (h : Reachable step AnyStep init s) (hn : n < s.created) :
    ∃! place, s.alarmAt place = some n := by
  obtain ⟨place, hplace⟩ := (Accounted.of_reachable h).placed n hn
  exact ⟨place, hplace, fun place' hplace' =>
    (Pooled.of_reachable h).linear.unique place' place n hplace' hplace⟩

end TcpClient

end GoSocket.Client
