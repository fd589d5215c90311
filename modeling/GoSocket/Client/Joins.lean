import GoSocket.Client.StatusTrace
import GoSocket.Client.TimerSteps
import GoSocket.Common.UncanceledAlarms

/-!
# Who joins the I/O thread

The I/O thread ends with a `Start` of the reconnect alarm, whose callback joins it.
A thread that has ended is owed that callback, and the callback finds `_thread`,
unless it looks for it before `MakeSureConnected` has assigned it.
-/

namespace GoSocket.Client

open GoSocket.Common GoSocket.Foundation

/-- The reconnect alarm's callback, up to the end of `_thread`. -/
def CallbackPc.joins : CallbackPc → Bool
  | .waitDisconnect => true
  | .join => true
  | .clearThread _ => true
  | _ => false

namespace TcpClient

/-- A thread was made and not deleted; `_thread` may not point to it yet. -/
def HasThread (self : TcpClient) : Prop :=
  self.thread = true ∨ ∃ holder, self.mutex = some (holder, .assignThread)

def reconnectWaits (self : TcpClient) : Bool :=
  (self.timers.alarms .reconnectAlarm).isWaiting

/-- The thread is about to be joined. -/
def Awaited (self : TcpClient) : Prop :=
  self.reconnectWaits = true ∨ self.callback.joins = true

/-- The thread has ended, and nothing is going to join it. -/
def Abandoned (self : TcpClient) : Prop :=
  self.io = .finished ∧ self.HasThread ∧ ¬self.Awaited

/-- `__WaitDisconnect` does not look at `_thread` before it is assigned. -/
def AssignedFirst (self : TcpClient) (action : Action) : Prop :=
  ¬(action = .queue ∧ self.callback = .waitDisconnect ∧ self.thread = false)

variable {s t : TcpClient} {action : Action}

/-! ## What a step does to the thread -/

inductive JoinCases (s : TcpClient) (action : Action) (t : TcpClient) : Prop
  | same (hwaits : t.reconnectWaits = s.reconnectWaits)
      (hjoins : t.callback.joins = s.callback.joins)
      (hio : t.io = .finished ↔ s.io = .finished)
      (hthread : t.HasThread ↔ s.HasThread)
      (hsessions : t.history.sessions = s.history.sessions)
      (hassigned : s.AssignedFirst action)
  | start (hwaits : t.reconnectWaits = s.reconnectWaits)
      (hjoins : t.callback.joins = s.callback.joins)
      (hio : t.io ≠ .finished) (hthread : ¬s.HasThread)
      (hassigned : s.AssignedFirst action)
  | finish (hwaits : t.reconnectWaits = true)
      (hjoins : t.callback.joins = s.callback.joins)
      (hrunning : s.io ≠ .finished) (hio : t.io = .finished)
      (hthread : t.HasThread ↔ s.HasThread) (hassigned : s.AssignedFirst action)
  | fire (hwaiting : s.reconnectWaits = true) (hwaits : t.reconnectWaits = false)
      (hjoins : t.callback.joins = true) (hio : t.io = s.io)
      (hthread : t.HasThread ↔ s.HasThread) (hassigned : s.AssignedFirst action)
  | clear (hwaits : t.reconnectWaits = s.reconnectWaits)
      (hjoining : s.callback.joins = true) (hjoins : t.callback.joins = false)
      (hthread : ¬t.HasThread) (hassigned : s.AssignedFirst action)
  | skip (hskips : ¬s.AssignedFirst action)
      (hwaits : t.reconnectWaits = s.reconnectWaits)
      (hjoining : s.callback.joins = true) (hjoins : t.callback.joins = false)
      (hio : t.io = s.io) (hthread : t.HasThread ↔ s.HasThread)

private theorem assignedFirst (hcallback : s.callback ≠ .waitDisconnect) :
    s.AssignedFirst action :=
  fun hskips => hcallback hskips.2.1

private theorem hasThread_lock (hthread : t.thread = s.thread)
    (hbefore : ∀ holder, s.mutex ≠ some (holder, .assignThread))
    (hbehind : ∀ holder, t.mutex ≠ some (holder, .assignThread)) :
    t.HasThread ↔ s.HasThread := by
  unfold HasThread
  rw [hthread]
  constructor
  · rintro (h | ⟨holder, h⟩)
    · exact .inl h
    · exact absurd h (hbehind holder)
  · rintro (h | ⟨holder, h⟩)
    · exact .inl h
    · exact absurd h (hbefore holder)

private theorem hasThread_congr (hthread : t.thread = s.thread)
    (hmutex : t.mutex = s.mutex) : t.HasThread ↔ s.HasThread := by
  unfold HasThread
  rw [hthread, hmutex]

theorem hasThread_proceed {holder : Holder} {next : Section}
    (hmutex : s.mutex = some (holder, next)) :
    ((s.proceed holder next).io = s.io ∧
        ((s.proceed holder next).HasThread ↔ s.HasThread) ∧
        (s.proceed holder next).history.sessions = s.history.sessions) ∨
      (s.proceed holder next).io = .start ∧ ¬s.HasThread := by
  have hbefore (hne : next ≠ .assignThread) (holder' : Holder) :
      s.mutex ≠ some (holder', .assignThread) := by
    rw [hmutex]
    rintro ⟨⟩
    exact hne rfl
  cases next with
  | connect =>
      simp only [TcpClient.proceed]
      split
      · exact .inl ⟨rfl, hasThread_lock rfl (hbefore (by simp)) (by simp), rfl⟩
      · next hthread =>
          refine .inr ⟨rfl, ?_⟩
          rintro (h | ⟨holder', h⟩)
          · exact hthread h
          · exact hbefore (by simp) holder' h
  | assignThread =>
      exact .inl ⟨rfl, ⟨fun _ => .inr ⟨holder, hmutex⟩, fun _ => .inl rfl⟩, rfl⟩
  | breakReadWrite =>
      refine .inl ⟨rfl, hasThread_lock rfl (hbefore (by simp)) ?_, rfl⟩
      simp only [TcpClient.proceed]
      split <;> simp
  | breakConnect =>
      refine .inl ⟨rfl, hasThread_lock rfl (hbefore (by simp)) ?_, rfl⟩
      simp only [TcpClient.proceed]
      split <;> simp
  | disconnect | setShouldReconnect | closeReadWrite | flagReadWrite | flagConnect
    | register | pushSendReq | pushMessage | wakeUp =>
      exact .inl ⟨rfl, hasThread_lock rfl (hbefore (by simp))
        (by simp [TcpClient.proceed]), rfl⟩

private theorem join_cases_proceed {holder : Holder} {next : Section}
    (hmutex : s.mutex = some (holder, next)) (hassigned : s.AssignedFirst action) :
    JoinCases s action (s.proceed holder next) := by
  obtain ⟨htimers, hcallback, -⟩ := s.proceed_aside holder next
  have hwaits : (s.proceed holder next).reconnectWaits = s.reconnectWaits := by
    unfold reconnectWaits
    rw [htimers]
  have hjoins : (s.proceed holder next).callback.joins = s.callback.joins := by
    rw [hcallback]
  rcases hasThread_proceed hmutex with ⟨hio, hthread, hsessions⟩ | ⟨hio, hthread⟩
  · exact .same hwaits hjoins (by rw [hio]) hthread hsessions hassigned
  · exact .start hwaits hjoins (by rw [hio]; nofun) hthread hassigned

private theorem free (hfree : s.mutex = none) (holder : Holder) :
    s.mutex ≠ some (holder, .assignThread) := by
  rw [hfree]
  nofun

private theorem hasThread_enterConnect (hfree : s.mutex = none) (holder : Holder) :
    (s.enterConnect holder).HasThread ↔ s.HasThread := by
  refine hasThread_lock rfl (free hfree) fun holder' hmutex => ?_
  unfold TcpClient.enterConnect at hmutex
  dsimp only at hmutex
  split at hmutex <;> cases hmutex

private theorem hasThread_enterDisconnect (hfree : s.mutex = none) (holder : Holder)
    (code : DisconnectCode) (shouldReconnect : Bool) :
    (s.enterDisconnect holder code shouldReconnect).HasThread ↔ s.HasThread := by
  refine hasThread_lock rfl (free hfree) fun holder' hmutex => ?_
  unfold TcpClient.enterDisconnect at hmutex
  dsimp only at hmutex
  split at hmutex <;> cases hmutex

private theorem join_cases_user {call : UserCall} (hs : s.userStep call = some t) :
    JoinCases s (.user call) t := by
  have hassigned : s.AssignedFirst (.user call) := fun hskips => nomatch hskips.1
  have still (hwaits : t.timers = s.timers) (hcallback : t.callback = s.callback)
      (hio : t.io = s.io) (hthread : t.HasThread ↔ s.HasThread)
      (hsessions : t.history.sessions = s.history.sessions) :
      JoinCases s (.user call) t :=
    .same (by rw [reconnectWaits, hwaits]; rfl) (by rw [hcallback]) (by rw [hio])
      hthread hsessions hassigned
  obtain ⟨htimers, hcallback⟩ := userStep_aside hs
  cases userStep_cases hs with
  | enterConnect hfree =>
      exact still htimers hcallback rfl (hasThread_enterConnect hfree .user) rfl
  | enterDisconnect code shouldReconnect hfree =>
      exact still htimers hcallback rfl
        (hasThread_enterDisconnect hfree .user code shouldReconnect) rfl
  | enterSend type payload data hasCallback hfree =>
      have hio : (s.enterSend type payload data hasCallback).io = s.io ∧
          ((s.enterSend type payload data hasCallback).HasThread ↔ s.HasThread) ∧
          (s.enterSend type payload data hasCallback).history.sessions =
            s.history.sessions := by
        unfold enterSend
        split
        · exact ⟨rfl, hasThread_lock rfl (free hfree) (by simp), rfl⟩
        · dsimp only
          split <;>
            exact ⟨rfl, hasThread_lock rfl (free hfree)
              (by simp [issue, callBack, hfree]), rfl⟩
      exact still htimers hcallback hio.1 hio.2.1 hio.2.2
  | enterPush message hfree =>
      have hio : (s.enterPush message).io = s.io ∧
          ((s.enterPush message).HasThread ↔ s.HasThread) ∧
          (s.enterPush message).history.sessions = s.history.sessions := by
        unfold enterPush
        split
        · exact ⟨rfl, hasThread_lock rfl (free hfree) (by simp), rfl⟩
        · exact ⟨rfl, hasThread_lock rfl (free hfree) (by simp [issue, hfree]), rfl⟩
      exact still htimers hcallback hio.1 hio.2.1 hio.2.2
  | inside next hcall hmutex => exact join_cases_proceed hmutex hassigned

private theorem reconnectAlarm_of_ioAlarm {a : AlarmAction ClientAlarm}
    {io next : IoPc} (h : IoAlarm io a next) {timers timers' : Alarms ClientAlarm}
    (hstep : timers.step a = some timers') :
    (next ≠ .finished ∧ timers'.alarms .reconnectAlarm = timers.alarms .reconnectAlarm) ∨
      a = .start .reconnectAlarm 0 ∧ next = .finished := by
  have halarm := Alarms.step_alarm hstep .reconnectAlarm
  cases h with
  | reconnect => exact .inr ⟨rfl, rfl⟩
  | _ =>
      refine .inl ⟨nofun, ?_⟩
      cases halarm with
      | same heq => exact heq

private theorem join_cases_io (htimers : Timers s) {event : IoEvent}
    (hs : s.ioStep event = some t) : JoinCases s (.io event) t := by
  have hassigned : s.AssignedFirst (.io event) := fun hskips => nomatch hskips.1
  have inside (hwaits : t.reconnectWaits = s.reconnectWaits)
      (hcallback : t.callback = s.callback) (hrunning : s.io ≠ .finished)
      (hio : t.io ≠ .finished) (hthread : t.HasThread ↔ s.HasThread)
      (hsessions : t.history.sessions = s.history.sessions) :
      JoinCases s (.io event) t :=
    .same hwaits (by rw [hcallback]) (iff_of_false hio hrunning) hthread hsessions
      hassigned
  cases ioStep_cases hs with
  | move io h =>
      exact inside rfl rfl h.running h.staysInside.1 (hasThread_congr rfl rfl) rfl
  | alarm a timers io h hstep =>
      rcases reconnectAlarm_of_ioAlarm h hstep with ⟨hio, hsame⟩ | ⟨rfl, rfl⟩
      · refine inside ?_ rfl h.running hio (hasThread_congr rfl rfl) rfl
        simp only [reconnectWaits, hsame]
      · refine .finish ?_ rfl h.running rfl (hasThread_congr rfl rfl) hassigned
        cases hstep
        exact Alarms.isWaiting_start (htimers.hasCallback .reconnectAlarm rfl) 0
  | status status io h =>
      refine inside rfl rfl h.running ?_ (hasThread_congr rfl rfl) rfl
      generalize s.io = pc at h
      cases h <;> nofun
  | timer u io h =>
      have hwaits : (u.timers.alarms .reconnectAlarm).isWaiting =
          (s.timers.alarms .reconnectAlarm).isWaiting := by
        rw [h.timers.alarms (by simp)]
      have hrunning := h.running
      have hio := h.staysInside.1
      obtain ⟨timers, map, pool, created, armed, rfl⟩ := h.eq
      exact inside hwaits rfl hrunning hio (hasThread_congr rfl rfl) rfl
  | encode readable queued rest hio hqueue =>
      refine inside rfl rfl (by simp [hio]) ?_ (hasThread_congr rfl rfl) rfl
      unfold behindEncode
      split <;> nofun
  | enter hio hfree =>
      refine inside rfl rfl (by simp [hio]) nofun ?_ rfl
      exact (hasThread_congr rfl rfl).trans
        (hasThread_enterDisconnect hfree .io .kDisCodeKickout false)
  | inside next hio hmutex => exact join_cases_proceed hmutex hassigned
  | refuse | clear | pingTimeout | pop | noCallback | takeCallback | callBack =>
      exact inside rfl rfl (by simp [*]) nofun (hasThread_congr rfl rfl) rfl

private theorem reconnectAlarm_of_loop (hsingle : s.timers.Single .reconnectAlarm)
    (hidle : s.timers.firing = false) {timers : Alarms ClientAlarm}
    (hstep : s.timers.step (loopAction s.timers.queue.loop) = some timers) :
    ((innerCallback timers).joins = false ∧
        timers.alarms .reconnectAlarm = s.timers.alarms .reconnectAlarm) ∨
      s.reconnectWaits = true ∧ (timers.alarms .reconnectAlarm).isWaiting = false ∧
        (innerCallback timers).joins = true := by
  have quiet (hfiring : timers.firing = false) : (innerCallback timers).joins = false := by
    simp [innerCallback, hfiring, CallbackPc.joins]
  have hqueue {next : Option (MessageQueue (Posted ClientAlarm))}
      (hmap : next.map (fun queue => { s.timers with queue }) = some timers) :
      timers.firing = false ∧
        timers.alarms .reconnectAlarm = s.timers.alarms .reconnectAlarm := by
    obtain ⟨queue, -, rfl⟩ := Option.map_eq_some_iff.mp hmap
    exact ⟨hidle, rfl⟩
  cases hloop : s.timers.queue.loop with
  | top =>
      rw [hloop] at hstep
      exact .inl ⟨quiet (hqueue hstep).1, (hqueue hstep).2⟩
  | next pass =>
      rw [hloop] at hstep
      unfold loopAction at hstep
      split at hstep <;>
        first | contradiction | exact .inl ⟨quiet (hqueue hstep).1, (hqueue hstep).2⟩
  | waiting until? =>
      rw [hloop] at hstep
      exact .inl ⟨quiet (hqueue hstep).1, (hqueue hstep).2⟩
  | calling messageId posted pass =>
      rw [hloop] at hstep
      simp only [loopAction, Alarms.step, Alarms.fire, hloop, hidle] at hstep
      split at hstep
      · cases hstep
        exact .inl ⟨quiet rfl, rfl⟩
      · cases hstep
        obtain ⟨a, start⟩ := posted
        cases a with
        | reconnectAlarm =>
            refine .inr ⟨(hsingle.calling messageId start pass hloop hidle).1, ?_, ?_⟩
            · simp [Alarms.set, Alarm.isWaiting]
            · simp [innerCallback, Alarms.set, hloop, CallbackPc.joins]
        | _ =>
            refine .inl ⟨?_, by simp [Alarms.set]⟩
            simp [innerCallback, Alarms.set, hloop, CallbackPc.joins]

private theorem join_cases_queue (hthreads : Threads s) (htimers : Timers s)
    (hsingle : s.timers.Single .reconnectAlarm) (hs : s.queueStep = some t) :
    JoinCases s .queue t := by
  have still (hwaits : t.reconnectWaits = s.reconnectWaits)
      (hjoining : s.callback.joins = false) (hjoins : t.callback.joins = false)
      (hio : t.io = s.io) (hthread : t.HasThread ↔ s.HasThread)
      (hsessions : t.history.sessions = s.history.sessions) : JoinCases s .queue t := by
    refine .same hwaits (hjoins.trans hjoining.symm) (by rw [hio]) hthread hsessions
      (assignedFirst fun hwait => ?_)
    rw [hwait] at hjoining
    cases hjoining
  cases queueStep_cases hs with
  | move callback h =>
      cases h with
      | waitDisconnect hcallback hthread =>
          refine .same rfl (by rw [hcallback]; rfl) .rfl (hasThread_congr rfl rfl) rfl ?_
          exact fun hskips => by rw [hthread] at hskips; exact nomatch hskips.2.2
      | skipWait hcallback hthread =>
          exact .skip (fun hassigned => hassigned ⟨rfl, hcallback, hthread⟩) rfl
            (by rw [hcallback]; rfl) rfl rfl (hasThread_congr rfl rfl)
      | join hcallback hio =>
          exact .same rfl (by rw [hcallback]; rfl) .rfl (hasThread_congr rfl rfl) rfl
            (assignedFirst (by rw [hcallback]; nofun))
      | _ =>
          exact still rfl (by simp [*, CallbackPc.joins]) rfl rfl
            (hasThread_congr rfl rfl) rfl
  | loop timers hcallback hstep =>
      have hidle := htimers.idle hcallback
      have hassigned : s.AssignedFirst .queue := assignedFirst (by rw [hcallback]; nofun)
      rcases reconnectAlarm_of_loop hsingle hidle hstep with
        ⟨hjoins, hsame⟩ | ⟨hwaiting, hwaits, hjoins⟩
      · refine still ?_ (by rw [hcallback]; rfl) hjoins rfl (hasThread_congr rfl rfl) rfl
        simp only [reconnectWaits, hsame]
      · exact .fire hwaiting hwaits hjoins rfl (hasThread_congr rfl rfl) hassigned
  | returned timers hcallback hstep =>
      have hreturned : s.timers.step .returned = some timers := hstep
      refine still ?_ (by rw [hcallback]; rfl) rfl rfl (hasThread_congr rfl rfl) rfl
      unfold reconnectWaits
      cases Alarms.step_alarm hreturned .reconnectAlarm with
      | same heq => exact congrArg Alarm.isWaiting heq
  | timer u callback h =>
      have hwaits : (u.timers.alarms .reconnectAlarm).isWaiting =
          (s.timers.alarms .reconnectAlarm).isWaiting := by
        rw [h.timers.alarms (by simp)]
      have hjoins : s.callback.joins = false ∧ callback.joins = false := by
        cases h <;> simp [*, CallbackPc.joins]
      obtain ⟨timers, map, pool, canceled, rfl⟩ := h.eq
      exact still hwaits hjoins.1 hjoins.2 rfl (hasThread_congr rfl rfl) rfl
  | clearThread session hcallback =>
      refine .clear rfl (by rw [hcallback]; rfl) rfl ?_
        (assignedFirst (by rw [hcallback]; nofun))
      rintro (h | ⟨holder, hassign⟩)
      · cases h
      · have hfalse := hthreads.assigning holder hassign
        rw [(hthreads.joined session hcallback).1] at hfalse
        cases hfalse
  | enterDisconnect hcallback hfree =>
      refine still rfl (by rw [hcallback]; rfl) ?_ rfl
        ((hasThread_congr rfl rfl).trans
          (hasThread_enterDisconnect hfree .queue .kDisCodeSendReqTimeout true)) rfl
      dsimp only
      split <;> rfl
  | enterConnect hcallback hfree =>
      exact still rfl (by rw [hcallback]; rfl) rfl rfl
        ((hasThread_congr rfl rfl).trans (hasThread_enterConnect hfree .queue)) rfl
  | checkReconnect hcallback =>
      refine still rfl (by rw [hcallback]; rfl) ?_ rfl (hasThread_congr rfl rfl) rfl
      dsimp only
      split <;> rfl
  | inside next hcallback hmutex =>
      refine join_cases_proceed hmutex (assignedFirst ?_)
      rcases hcallback with h | h <;> rw [h] <;> nofun
  | _ =>
      exact still rfl (by simp [*, CallbackPc.joins]) rfl rfl
        (hasThread_congr rfl rfl) rfl

theorem join_cases (hthreads : Threads s) (htimers : Timers s)
    (hsingle : s.timers.Single .reconnectAlarm) (hs : s.step action = some t) :
    JoinCases s action t := by
  cases action with
  | user call => exact join_cases_user hs
  | io event => exact join_cases_io htimers hs
  | queue => exact join_cases_queue hthreads htimers hsingle hs
  | tick nanoseconds =>
      cases hs
      exact .same rfl rfl .rfl (hasThread_congr rfl rfl) rfl fun hskips => nomatch hskips.1
  | pipes ok =>
      cases hs
      exact .same rfl rfl .rfl (hasThread_congr rfl rfl) rfl fun hskips => nomatch hskips.1

/-! ## The reconnect alarm and its callback -/

theorem single_init : init.timers.Single .reconnectAlarm := by
  have hset {timers : Alarms ClientAlarm} (hsingle : timers.Single .reconnectAlarm)
      (a : ClientAlarm) : (timers.setCallback a).Single .reconnectAlarm := by
    have hstep : timers.step (.setCallback a) = some (timers.setCallback a) := rfl
    exact hsingle.step (by simp) hstep
  exact hset (hset (hset .init _) _) _

theorem single_step (h : s.timers.Single .reconnectAlarm) (hcases : TimerCases s action t) :
    t.timers.Single .reconnectAlarm := by
  cases hcases with
  | io event haction a halarm hstep =>
      refine h.step ?_ hstep
      rintro rfl
      generalize s.io = pc at halarm
      cases halarm
  | requests hrequests =>
      generalize t.timers = timers at hrequests
      cases hrequests with
      | same => exact h
      | start n afterSec => exact h.step (by simp) (step_start _ _ _)
      | cancel n => exact h.step (by simp) (step_cancel _ _)
  | loop haction hidle hstep =>
      refine h.step ?_ hstep
      unfold loopAction
      split <;> nofun
  | returned hstep => exact h.step (by simp) hstep
  | tick nanoseconds hstep => exact h.step (by simp) hstep

/-- The callback is owed to a thread that has ended, and once. -/
structure Awaits (s : TcpClient) : Prop where
  owed : s.Awaited → s.io = .finished ∧ s.HasThread
  apart : s.reconnectWaits = true → s.callback.joins = false

namespace Awaits

theorem init : Awaits .init := by
  constructor <;>
    simp [Awaited, reconnectWaits, TcpClient.init, Alarms.setCallback, Alarms.set,
      Alarm.isWaiting, CallbackPc.joins]

theorem not_waiting (h : Awaits s) (hjoins : s.callback.joins = true) :
    s.reconnectWaits = false := by
  by_contra hwaits
  rw [Bool.not_eq_false] at hwaits
  rw [h.apart hwaits] at hjoins
  cases hjoins

private theorem not_awaited (hwaits : s.reconnectWaits = false)
    (hjoins : s.callback.joins = false) : ¬s.Awaited := by
  simp [Awaited, hwaits, hjoins]

private theorem idle (hwaits : t.reconnectWaits = false)
    (hjoins : t.callback.joins = false) : Awaits t :=
  ⟨fun hawaited => absurd hawaited (not_awaited hwaits hjoins), fun _ => hjoins⟩

private theorem of_not_awaited (hnot : ¬s.Awaited) :
    s.reconnectWaits = false ∧ s.callback.joins = false := by
  simpa [Awaited] using hnot

theorem step (h : Awaits s) (hthreads : Threads s) (hcases : JoinCases s action t) :
    Awaits t := by
  cases hcases with
  | same hwaits hjoins hio hthread =>
      refine ⟨fun hawaited => ?_, fun hwaiting => ?_⟩
      · unfold Awaited at hawaited
        rw [hwaits, hjoins] at hawaited
        exact ⟨hio.mpr (h.owed hawaited).1, hthread.mpr (h.owed hawaited).2⟩
      · rw [hjoins]
        exact h.apart (hwaits ▸ hwaiting)
  | start hwaits hjoins hio hthread =>
      obtain ⟨hnot, hother⟩ := of_not_awaited fun hawaited => hthread (h.owed hawaited).2
      exact idle (hwaits.trans hnot) (hjoins.trans hother)
  | finish hwaits hjoins hrunning hio hthread =>
      obtain ⟨-, hother⟩ := of_not_awaited fun hawaited => hrunning (h.owed hawaited).1
      refine ⟨fun _ => ⟨hio, hthread.mpr ?_⟩, fun _ => hjoins.trans hother⟩
      cases hassigned : s.thread with
      | true => exact .inl hassigned
      | false => exact .inr (hthreads.alone hassigned hrunning)
  | fire hwaiting hwaits hjoins hio hthread =>
      obtain ⟨hfinished, hhas⟩ := h.owed (.inl hwaiting)
      refine ⟨fun _ => ⟨hio.trans hfinished, hthread.mpr hhas⟩, fun hagain => ?_⟩
      rw [hwaits] at hagain
      cases hagain
  | clear hwaits hjoining hjoins hthread =>
      exact idle (hwaits.trans (h.not_waiting hjoining)) hjoins
  | skip hskips hwaits hjoining hjoins =>
      exact idle (hwaits.trans (h.not_waiting hjoining)) hjoins

theorem abandoned_iff (h : Awaits s) (hnot : ¬s.Abandoned)
    (hcases : JoinCases s action t) : ¬t.Abandoned ↔ s.AssignedFirst action := by
  unfold Abandoned at hnot ⊢
  cases hcases with
  | same hwaits hjoins hio hthread hsessions hassigned =>
      have hsame : t.Awaited ↔ s.Awaited := by
        unfold Awaited
        rw [hwaits, hjoins]
      rw [hio, hthread, hsame]
      exact iff_of_true hnot hassigned
  | start hwaits hjoins hio hthread hassigned =>
      exact iff_of_true (fun habandoned => hio habandoned.1) hassigned
  | finish hwaits hjoins hrunning hio hthread hassigned =>
      exact iff_of_true (fun habandoned => habandoned.2.2 (.inl hwaits)) hassigned
  | fire hwaiting hwaits hjoins hio hthread hassigned =>
      exact iff_of_true (fun habandoned => habandoned.2.2 (.inr hjoins)) hassigned
  | clear hwaits hjoining hjoins hthread hassigned =>
      exact iff_of_true (fun habandoned => hthread habandoned.2.1) hassigned
  | skip hskips hwaits hjoining hjoins hio hthread =>
      obtain ⟨hfinished, hhas⟩ := h.owed (.inr hjoining)
      refine iff_of_false (not_not.mpr ⟨hio.trans hfinished, hthread.mpr hhas, ?_⟩) hskips
      exact not_awaited (hwaits.trans (h.not_waiting hjoining)) hjoins

theorem abandoned_step (habandoned : s.Abandoned) (hcases : JoinCases s action t) :
    t.Abandoned ∧ t.history.sessions = s.history.sessions := by
  obtain ⟨hfinished, hhas, hnot⟩ := habandoned
  obtain ⟨hwaiting, hjoining⟩ := of_not_awaited hnot
  cases hcases with
  | same hwaits hjoins hio hthread hsessions =>
      refine ⟨⟨hio.mpr hfinished, hthread.mpr hhas, ?_⟩, hsessions⟩
      exact not_awaited (hwaits.trans hwaiting) (hjoins.trans hjoining)
  | start hwaits hjoins hio hthread => exact absurd hhas hthread
  | finish hwaits hjoins hrunning => exact absurd hfinished hrunning
  | fire hwaits =>
      rw [hwaiting] at hwaits
      cases hwaits
  | clear hwaits hjoins =>
      rw [hjoining] at hjoins
      cases hjoins
  | skip hskips hwaits hjoins =>
      rw [hjoining] at hjoins
      cases hjoins

end Awaits

/-- What the cases of a step rest on. -/
structure Joins (s : TcpClient) : Prop where
  threads : Threads s
  timers : Timers s
  single : s.timers.Single .reconnectAlarm
  awaits : Awaits s

namespace Joins

theorem init : Joins .init where
  threads := .init
  timers := .init
  single := single_init
  awaits := .init

theorem cases (h : Joins s) (hs : s.step action = some t) : JoinCases s action t :=
  join_cases h.threads h.timers h.single hs

theorem step (h : Joins s) (hs : s.step action = some t) : Joins t where
  threads := h.threads.step hs
  timers := h.timers.step hs
  single := single_step h.single (timer_cases hs)
  awaits := h.awaits.step h.threads (h.cases hs)

theorem of_reachable {ok : TcpClient → Action → Prop}
    (h : Reachable TcpClient.step ok .init s) : Joins s :=
  h.invariant init fun _ _ _ _ hjoins _ hs => hjoins.step hs

end Joins

/-- What the queue's thread joins has ended, and the alarm does not wait for a second
callback meanwhile: the thread that serves all timers is never held up by a session. -/
theorem joins_ended (h : Reachable step AnyStep init s)
    (hjoins : s.callback.joins = true) :
    s.io = .finished ∧ s.HasThread ∧ s.reconnectWaits = false := by
  have hawaits := (Joins.of_reachable h).awaits
  obtain ⟨hfinished, hhas⟩ := hawaits.owed (.inr hjoins)
  exact ⟨hfinished, hhas, hawaits.not_waiting hjoins⟩

def failedSession : List Action :=
  [.user .makeSureConnected, .user .proceed, .user .proceed, .io .none,
    .io (.connected .kRetConnFailed), .io .none, .io .none, .io .none] ++
      List.replicate 4 .queue

theorem joins_ended_failedSession :
    ∃ s : TcpClient, s.callback = .join ∧ s.io = .finished ∧ s.HasThread ∧
      s.reconnectWaits = false := by
  have hmap : (run step init failedSession).map (·.callback) = some .join := by
    decide +kernel
  obtain ⟨s, hreach, hcallback⟩ := Reachable.of_run_map hmap
  exact ⟨s, hcallback, joins_ended hreach (by rw [hcallback]; rfl)⟩

/-- In a run, the thread that has ended is always about to be joined exactly if the
callback never looks at `_thread` before it is assigned. -/
theorem never_abandoned_iff (actions : List Action) :
    Throughout step (fun s => ¬s.Abandoned) init actions ↔
      Meets step AssignedFirst init actions := by
  have hinit : ¬init.Abandoned := by
    rintro ⟨-, hthread | ⟨holder, hmutex⟩, -⟩
    · cases hthread
    · cases hmutex
  refine throughout_iff_meets (I := Joins) (fun _ _ _ h hs => h.step hs)
    (fun _ _ _ h hnot hs => ?_) .init hinit actions
  exact h.awaits.abandoned_iff hnot (h.cases hs)

/-! ## Behind that -/

/-- The thread ends with another status than `kConnected`. -/
def EndsUnconnected (self : TcpClient) : Prop :=
  self.io = .finished ∨ self.io = .startReconnect → self.connectStatus ≠ .kConnected

theorem EndsUnconnected.step (h : EndsUnconnected s) (hcases : SessionCases s action t) :
    EndsUnconnected t := by
  unfold EndsUnconnected at h ⊢
  cases hcases with
  | begins hio hnext hstatus =>
      rw [hstatus]
      exact fun _ => nofun
  | sets event haction hset =>
      generalize s.io = io, t.io = next, t.connectStatus = status at hset
      cases hset <;> simp
  | returns hio hnext hstatus =>
      rw [hstatus]
      exact fun _ => h (.inr hio)
  | inside hio hrunning hnext hstored hstatus =>
      rw [hstatus]
      rintro (hfinished | hreconnect)
      · exact absurd hfinished hnext.2
      · refine h (.inr ?_)
        rw [hreconnect] at hstored
        generalize s.io = io at hio hrunning hstored
        cases io <;> simp_all [IoPc.stored, IoPc.status?]
  | aside haction hio hstatus =>
      rw [hstatus, hio]
      exact h

theorem endsUnconnected_of_reachable {ok : TcpClient → Action → Prop}
    (h : Reachable step ok .init s) : EndsUnconnected s :=
  h.invariant (by simp [EndsUnconnected, TcpClient.init])
    fun _ _ _ hu hends _ hs => hends.step (SessionCases.of_step (.of_reachable hu) hs)

/-- Whatever is called then, the client stays abandoned: no session is begun, and no
call of `Send` is accepted. -/
theorem abandoned_for_ever (h : Reachable step AnyStep init s)
    (habandoned : s.Abandoned) (hrun : Reachable step AnyStep s t) :
    t.Abandoned ∧ t.history.sessions = s.history.sessions ∧
      t.connectStatus ≠ .kConnected := by
  have hstays : t.Abandoned ∧ t.history.sessions = s.history.sessions := by
    induction hrun with
    | refl => exact ⟨habandoned, rfl⟩
    | tail action hu _ hs ih =>
        have hcases := (Joins.of_reachable (h.trans hu)).cases hs
        obtain ⟨hnext, hsessions⟩ := Awaits.abandoned_step ih.1 hcases
        exact ⟨hnext, hsessions.trans ih.2⟩
  exact ⟨hstays.1, hstays.2,
    endsUnconnected_of_reachable (h.trans hrun) (.inl hstays.1.1)⟩

/-- The thread fails at once, and the callback looks for it before
`MakeSureConnected` has assigned it. -/
def earlyLook : List Action :=
  [.user .makeSureConnected, .user .proceed, .io .none,
    .io (.connected .kRetConnFailed), .io .none, .io .none, .io .none] ++
      List.replicate 4 .queue

def askAgain : List Action :=
  [.user .proceed, .user .makeSureConnected, .user .proceed, .queue, .queue, .queue]

theorem abandoned_for_ever_earlyLook :
    ∃ s t : TcpClient, run step s askAgain = some t ∧ t.history.requested = true ∧
      t.Abandoned ∧ t.history.sessions = s.history.sessions ∧
        t.connectStatus ≠ .kConnected := by
  have hmap : (run step init earlyLook).bind (fun s =>
      (run step s askAgain).map fun t =>
        (s.io, s.mutex, s.reconnectWaits, s.callback.joins, t.history.requested)) =
          some (.finished, some (.user, .assignThread), false, false, true) := by
    decide +kernel
  obtain ⟨s, hs, hmap⟩ := Option.bind_eq_some_iff.mp hmap
  obtain ⟨t, ht, hstate⟩ := Option.map_eq_some_iff.mp hmap
  simp only [Prod.mk.injEq] at hstate
  obtain ⟨hio, hmutex, hwaits, hjoins, hrequested⟩ := hstate
  have habandoned : s.Abandoned :=
    ⟨hio, .inr ⟨.user, hmutex⟩, by simp [Awaited, hwaits, hjoins]⟩
  exact ⟨s, t, ht, hrequested,
    abandoned_for_ever (.of_run hs) habandoned (.of_run ht)⟩

end TcpClient

end GoSocket.Client
