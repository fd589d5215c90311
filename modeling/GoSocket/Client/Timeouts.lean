import GoSocket.Client.MessageIds
import GoSocket.Client.Pool
import GoSocket.Client.Teardowns
import GoSocket.Common.AlarmSafety

/-!
# Timeouts of requests

`__RunReadWrite` starts an alarm for each request that it has written, and puts
it into `_timeoutAlarmMap` under the message id.  Every `SendNoReply` has the id
0, and ids of `Send` come back: the map then gives an alarm to the pool that
still waits.  Where it never does, an alarm of the pool can be started, and
what it times out is the request that it was started for.
-/

namespace GoSocket.Client

open Std GoSocket.Common GoSocket.Foundation

/-- The alarm that `__RunReadWrite` has taken and not yet started. -/
def IoPc.unstarted? : IoPc → Option Nat
  | .setUserData _ _ alarm => some alarm
  | .setCallback _ _ alarm => some alarm
  | .startAlarm _ _ alarm => some alarm
  | _ => none

def IoPc.marked? : IoPc → Option (Written × Nat)
  | .setCallback _ written alarm => some (written, alarm)
  | .startAlarm _ written alarm => some (written, alarm)
  | .recordAlarm _ written alarm => some (written, alarm)
  | _ => none

def IoPc.starting? : IoPc → Option ClientAlarm
  | .loop => some .pingAlarm
  | .startAlarm _ _ alarm => some (.request alarm)
  | .restartPing _ => some .pingAlarm
  | .startPingTimeout => some .pingTimeoutAlarm
  | .startReconnect => some .reconnectAlarm
  | _ => none

def ClientAlarm.isRequest : ClientAlarm → Bool
  | .request _ => true
  | _ => false

def CallbackPc.aside : CallbackPc → Bool
  | .idle => false
  | .getUserData _ _ => false
  | .eraseTimer _ _ => false
  | .getCallback _ _ => false
  | .callTimeout _ _ => false
  | _ => true

namespace TcpClient

/-! ## The condition -/

/-- The loop has taken that closure, which has not looked at its alarm. -/
def taken (self : TcpClient) (a : ClientAlarm) : Bool :=
  !self.timers.firing &&
    match self.timers.queue.loop with
    | .calling _ posted _ => posted.alarm = a
    | _ => false

/-- `Start` gets an id that is not in use, and a request's alarm has no closure
on its way. -/
def startsClean (self : TcpClient) (a : ClientAlarm) : Bool :=
  !self.timers.canStart a ||
    self.timers.queue.messages.all
      (·.messageId ≠ self.timers.queue.currentMsgId) &&
      !(a.isRequest && self.taken a)

def drainsOnTime (self : TcpClient) : Bool :=
  match self.timers.queue.loop with
  | .top =>
      (self.timers.queue.messages.takeWhile
        (MessageQueue.isDue self.timers.now)).all fun m =>
          m.when ≤ self.timers.now || !m.callback.any (·.alarm.isRequest)
  | _ => true

/-- The timer under that id, if there is one, does not wait. -/
def dropsIdle (self : TcpClient) (messageId : UInt16) : Bool :=
  (self.timeoutAlarmMap[messageId]?).all fun timer =>
    !(self.timers.alarms (.request timer.alarm)).isWaiting

/-- The message id that the timeout of a request is about, and its `Start`. -/
def timing? (self : TcpClient) : Option (UInt16 × Nat) :=
  match self.callback with
  | .getUserData alarm start =>
      some ((self.timers.alarms (.request alarm)).userData.toUInt32.toUInt16, start)
  | .eraseTimer messageId start => some (messageId, start)
  | .getCallback messageId start => some (messageId, start)
  | _ => none

/-- A request with that id has not been written, or its timer is running. -/
def inUse (self : TcpClient) (messageId : UInt16) : Bool :=
  self.messageQueue.any (fun queued =>
    match queued.message with
    | .sendReq sendReq => sendReq.messageId = messageId
    | _ => false) ||
  self.io.written?.any (·.messageId = messageId) ||
  !self.dropsIdle messageId ||
  self.timing?.any (·.1 = messageId)

/-- The callback has not yet read the user data of that alarm. -/
def readsUserData (self : TcpClient) (alarm : Nat) : Bool :=
  match self.callback with
  | .getUserData alarm' _ => alarm' = alarm
  | _ => false

def timesIo (self : TcpClient) : Bool :=
  self.io.starting?.all self.startsClean &&
    match self.io with
    | .setUserData _ _ alarm => !self.readsUserData alarm
    | .recordAlarm _ written _ => self.dropsIdle written.messageId
    | _ => true

def timesQueue (self : TcpClient) : Bool :=
  match self.callback with
  | .idle => self.drainsOnTime
  | .eraseTimer messageId _ => self.dropsIdle messageId
  | _ => true

def timesUser (self : TcpClient) : Bool :=
  match self.mutex with
  | some (_, .register _ true _) => !self.inUse self.currentMsgId
  | _ => true

def TimesNext (self : TcpClient) (action : Action) : Prop :=
  (action.thread? = some .user → self.timesUser = true) ∧
    (action.thread? = some .io → self.timesIo = true) ∧
    (action.thread? = some .queue → self.timesQueue = true)

instance (self : TcpClient) (action : Action) :
    Decidable (self.TimesNext action) :=
  inferInstanceAs (Decidable (_ ∧ _ ∧ _))

/-- The alarm of a request that has been written is free and gets started, and a
callback is told of a timeout where that alarm was started for its request and
`kSendReqTimeout` has passed since the request's frame. -/
structure TimesProperly (s : TcpClient) : Prop where
  free : ∀ alarm, s.io.unstarted? = some alarm →
    s.timers.pendingMessages (.request alarm) = []
  starts : ∀ readable written alarm, s.io = .startAlarm readable written alarm →
    (s.timers.start (.request alarm) kSendReqTimeout).2 = true
  told : ∀ call, (call, .kErrorCodeTimeout) ∈ s.history.invoked →
    ∃ start time, (call, start, time) ∈ s.history.timedOut
  armed : ∀ entry ∈ s.history.timedOut, (entry.2.1, entry.1) ∈ s.history.armed
  written : ∀ entry ∈ s.history.timedOut,
    ∃ frame ∈ s.history.written, frame.call = entry.1
  late : ∀ entry ∈ s.history.timedOut, ∀ frame ∈ s.history.written,
    frame.call = entry.1 →
      frame.time + kSendReqTimeout * 1000000000 ≤ entry.2.2

variable {s t : TcpClient} {action : Action}

/-! ## What the timers of requests wait for -/

/-- The callback under the message id is the call's, if there is one. -/
def Bound (self : TcpClient) (messageId : UInt16) (call : Nat) : Prop :=
  ∀ call', self.callback? messageId = some call' → call' = call

/-- That `Start` was for the call, long enough behind its frame. -/
structure Expires (history : History) (start call : Nat) (time : Int) : Prop where
  armed : (start, call) ∈ history.armed
  written : ∃ frame ∈ history.written, frame.call = call ∧
    frame.time + kSendReqTimeout * 1000000000 ≤ time

structure WaitsFor (s : TcpClient) (alarm : Nat) (written : Written) : Prop where
  due : ∃ start deadline,
    latest (.request alarm) s.timers.log = some (start, deadline) ∧
      Expires s.history start written.call deadline
  userData : (s.timers.alarms (.request alarm)).userData =
    written.messageId.toUInt32.toInt32
  bound : s.Bound written.messageId written.call
  placed : s.timeoutAlarmMap[written.messageId]? =
      some { alarm, call := written.call } ∨
    ∃ readable, s.io = .recordAlarm readable written alarm

structure Timed (s : TcpClient) : Prop where
  good : ∀ alarm, Alarms.Good (.request alarm) s.timers
  waiting : ∀ alarm, (s.timers.alarms (.request alarm)).isWaiting = true →
    ∃ written, s.WaitsFor alarm written
  queued : ∀ queued ∈ s.messageQueue, ∀ sendReq,
    queued.message = .sendReq sendReq → s.Bound sendReq.messageId queued.call
  pushing : ∀ holder call sendReq, s.mutex = some (holder, .pushSendReq call sendReq) →
    s.Bound s.currentMsgId call
  written : ∀ written, s.io.written? = some written →
    s.Bound written.messageId written.call ∧
      ∃ frame ∈ s.history.written, frame.call = written.call ∧
        frame.time ≤ s.timers.now
  marked : ∀ written alarm, s.io.marked? = some (written, alarm) →
    (s.timers.alarms (.request alarm)).userData = written.messageId.toUInt32.toInt32
  callback : ∀ readable written alarm, s.io = .startAlarm readable written alarm →
    (s.timers.alarms (.request alarm)).hasCallback = true
  idle : s.callback = .idle → s.timers.firing = false
  timing : ∀ messageId start, s.timing? = some (messageId, start) →
    ∃ call, s.Bound messageId call ∧ Expires s.history start call s.timers.now
  calling : ∀ call start, s.callback = .callTimeout call start →
    Expires s.history start call s.timers.now
  timedOut : ∀ entry ∈ s.history.timedOut, Expires s.history entry.2.1 entry.1 entry.2.2
  told : ∀ call, (call, .kErrorCodeTimeout) ∈ s.history.invoked →
    ∃ start time, (call, start, time) ∈ s.history.timedOut

namespace Timed

theorem init : Timed .init := by
  constructor
  case good =>
    intro alarm
    have hset {timers : Alarms ClientAlarm} (hgood : timers.Good (.request alarm))
        (a : ClientAlarm) : (timers.setCallback a).Good (.request alarm) := by
      have hstep : timers.step (.setCallback a) = some (timers.setCallback a) := rfl
      refine Alarms.Good.step hgood ?_ hstep
      trivial
    exact hset (hset (hset (.init _) _) _) _
  all_goals
    simp [TcpClient.init, Alarms.setCallback, Alarms.set, Alarm.isWaiting,
      timing?, IoPc.written?, IoPc.marked?]

theorem unstarted (h : Timed s) (hpooled : Pooled s) {alarm : Nat}
    (hio : s.io.unstarted? = some alarm) :
    (s.timers.alarms (.request alarm)).isWaiting = false := by
  by_contra hwaiting
  rw [Bool.not_eq_false] at hwaiting
  obtain ⟨written, hwaits⟩ := h.waiting alarm hwaiting
  rcases hwaits.placed with hmap | ⟨readable, hrecord⟩
  · have hhand : s.alarmAt .io = some alarm := by
      revert hio
      unfold alarmAt
      cases s.io <;> simp [IoPc.unstarted?, IoPc.alarm?]
    have hplace : s.alarmAt (.map written.messageId) = some alarm := by
      simp [alarmAt, hmap]
    cases hpooled.linear.unique .io (.map written.messageId) alarm hhand hplace
  · rw [hrecord] at hio
    cases hio

theorem properly (h : Timed s) (hpooled : Pooled s) (hsound : s.outbox.Sound) :
    TimesProperly s := by
  have hcalls : (s.history.written.map (·.call)).Nodup := by
    have hdelivered := hsound.delivered_nodup
    rw [outbox, List.map_map] at hdelivered
    exact hdelivered
  constructor
  case free =>
    intro alarm hio
    exact (h.good alarm).pendingMessages_eq_nil (h.unstarted hpooled hio)
  case starts =>
    intro readable written alarm hio
    have hhand : s.io.unstarted? = some alarm := by rw [hio]; rfl
    have hfree := h.unstarted hpooled hhand
    have hcan : s.timers.canStart (.request alarm) = true := by
      simp [Alarms.canStart, h.callback readable written alarm hio, hfree]
    simp [Alarms.start, hcan]
  case told => exact h.told
  case armed => exact fun entry hentry => (h.timedOut entry hentry).armed
  case written =>
    intro entry hentry
    obtain ⟨frame, hframe, hcall, -⟩ := (h.timedOut entry hentry).written
    exact ⟨frame, hframe, hcall⟩
  case late =>
    intro entry hentry frame hframe hcall
    obtain ⟨frame', hframe', hcall', hlate⟩ := (h.timedOut entry hentry).written
    have heq := List.inj_on_of_nodup_map hcalls hframe hframe'
      (hcall.trans hcall'.symm)
    rw [heq]
    exact hlate

end Timed

theorem Expires.mono {history history' : History} {start call : Nat}
    {time time' : Int} (h : Expires history start call time)
    (harmed : history.armed ⊆ history'.armed)
    (hwritten : history.written ⊆ history'.written) (htime : time ≤ time') :
    Expires history' start call time' := by
  obtain ⟨frame, hframe, hcall, hlate⟩ := h.written
  exact ⟨harmed h.armed, frame, hwritten hframe, hcall, Int.le_trans hlate htime⟩

theorem written_of_marked {io : IoPc} {written : Written} {alarm : Nat}
    (h : io.marked? = some (written, alarm)) : io.written? = some written := by
  cases io <;> simp_all [IoPc.marked?, IoPc.written?]

/-- The step leaves what the timers of requests wait for. -/
structure SameTimes (s t : TcpClient) : Prop where
  timers : t.timers = s.timers
  timeoutAlarmMap : t.timeoutAlarmMap = s.timeoutAlarmMap
  callbackMap : t.callbackMap = s.callbackMap
  currentMsgId : t.currentMsgId = s.currentMsgId
  messageQueue : t.messageQueue ⊆ s.messageQueue
  pushing : ∀ holder call sendReq,
    t.mutex = some (holder, .pushSendReq call sendReq) →
      s.mutex = some (holder, .pushSendReq call sendReq)
  io : t.io = s.io ∨ s.io.written? = none ∧ t.io.written? = none
  callback : t.callback = s.callback ∨ t.callback.aside = true
  armed : t.history.armed = s.history.armed
  written : t.history.written = s.history.written
  timedOut : t.history.timedOut = s.history.timedOut
  told : ∀ call, (call, .kErrorCodeTimeout) ∈ t.history.invoked →
    (call, .kErrorCodeTimeout) ∈ s.history.invoked

theorem SameTimes.refl (s : TcpClient) : SameTimes s s where
  timers := rfl
  timeoutAlarmMap := rfl
  callbackMap := rfl
  currentMsgId := rfl
  messageQueue := List.Subset.refl _
  pushing _ _ _ := id
  io := .inl rfl
  callback := .inl rfl
  armed := rfl
  written := rfl
  timedOut := rfl
  told _ := id

namespace Timed

private theorem same (_ : Timed s) : SameTimes s s :=
  .refl s

private theorem of_same (h : Timed s) (hsame : SameTimes s t) : Timed t := by
  have hbound {messageId : UInt16} {call : Nat} (hold : s.Bound messageId call) :
      t.Bound messageId call := by
    unfold Bound callback?
    rw [hsame.callbackMap]
    exact hold
  have hexpires {start call : Nat} {time : Int}
      (hold : Expires s.history start call time) : Expires t.history start call time :=
    hold.mono (by rw [hsame.armed]; exact List.Subset.refl _)
      (by rw [hsame.written]; exact List.Subset.refl _) (Int.le_refl _)
  constructor
  case good =>
    rw [hsame.timers]
    exact h.good
  case waiting =>
    rw [hsame.timers]
    intro alarm hwaiting
    obtain ⟨written, hwaits⟩ := h.waiting alarm hwaiting
    obtain ⟨start, deadline, hlatest, hdue⟩ := hwaits.due
    refine ⟨written, ⟨start, deadline, ?_, hexpires hdue⟩, ?_,
      hbound hwaits.bound, ?_⟩
    · rw [hsame.timers]
      exact hlatest
    · rw [hsame.timers]
      exact hwaits.userData
    · rw [hsame.timeoutAlarmMap]
      rcases hwaits.placed with hmap | ⟨readable, hio⟩
      · exact .inl hmap
      · rcases hsame.io with heq | ⟨hnone, -⟩
        · exact .inr ⟨readable, heq.trans hio⟩
        · simp [hio, IoPc.written?] at hnone
  case queued =>
    intro queued hqueued sendReq heq
    exact hbound (h.queued queued (hsame.messageQueue hqueued) sendReq heq)
  case pushing =>
    intro holder call sendReq hmutex
    rw [hsame.currentMsgId]
    exact hbound (h.pushing holder call sendReq (hsame.pushing _ _ _ hmutex))
  case written =>
    intro written hwritten
    rcases hsame.io with heq | ⟨-, hnone⟩
    · rw [heq] at hwritten
      obtain ⟨hold, hframe⟩ := h.written written hwritten
      rw [hsame.timers, hsame.written]
      exact ⟨hbound hold, hframe⟩
    · cases hnone.symm.trans hwritten
  case marked =>
    intro written alarm hmarked
    rw [hsame.timers]
    rcases hsame.io with heq | ⟨-, hnone⟩
    · rw [heq] at hmarked
      exact h.marked written alarm hmarked
    · cases hnone.symm.trans (written_of_marked hmarked)
  case callback =>
    intro readable written alarm hio
    rw [hsame.timers]
    rcases hsame.io with heq | ⟨-, hnone⟩
    · exact h.callback readable written alarm (heq.symm.trans hio)
    · simp [hio, IoPc.written?] at hnone
  case idle =>
    intro hidle
    rw [hsame.timers]
    rcases hsame.callback with heq | haside
    · exact h.idle (heq.symm.trans hidle)
    · rw [hidle] at haside
      cases haside
  case timing =>
    intro messageId start htiming
    rw [hsame.timers]
    rcases hsame.callback with heq | haside
    · have hsame' : t.timing? = s.timing? := by
        unfold timing?
        rw [heq, hsame.timers]
      rw [hsame'] at htiming
      obtain ⟨call, hold, hlate⟩ := h.timing messageId start htiming
      exact ⟨call, hbound hold, hexpires hlate⟩
    · unfold timing? at htiming
      split at htiming <;> simp_all [CallbackPc.aside]
  case calling =>
    intro call start hcalling
    rw [hsame.timers]
    rcases hsame.callback with heq | haside
    · exact hexpires (h.calling call start (heq.symm.trans hcalling))
    · rw [hcalling] at haside
      cases haside
  case timedOut =>
    rw [hsame.timedOut]
    exact fun entry hentry => hexpires (h.timedOut entry hentry)
  case told =>
    rw [hsame.timedOut]
    exact fun call htold => h.told call (hsame.told call htold)

/-! ### Steps of an alarm -/

private theorem undisturbed_start {a : ClientAlarm} (hclean : s.startsClean a = true)
    (alarm : Nat) (afterSec : Int) :
    Alarms.Undisturbed (.request alarm) s.timers (.start a afterSec) := by
  intro hcan
  simp only [startsClean, hcan, Bool.not_true, Bool.false_or, Bool.and_eq_true,
    List.all_eq_true, decide_eq_true_eq, Bool.not_eq_true'] at hclean
  refine ⟨hclean.1, ?_⟩
  rintro rfl ⟨hfiring, messageId, start, pass, hloop⟩
  simp [ClientAlarm.isRequest, taken, hfiring, hloop] at hclean

private theorem undisturbed_drain (htime : s.drainsOnTime = true) (alarm : Nat) :
    Alarms.Undisturbed (.request alarm) s.timers
      (loopAction s.timers.queue.loop) := by
  cases hloop : s.timers.queue.loop with
  | top =>
      intro m hm start hcallback
      simp only [drainsOnTime, hloop, List.all_eq_true] at htime
      have hdue := htime m hm
      simpa [hcallback, ClientAlarm.isRequest] using hdue
  | next pass =>
      unfold loopAction
      split <;> trivial
  | calling messageId posted pass => trivial
  | waiting until? => trivial

private theorem timers (h : Timed s) {a : AlarmAction ClientAlarm}
    {timers : Alarms ClientAlarm} (hs : s.timers.step a = some timers)
    (hok : ∀ alarm, Alarms.Undisturbed (.request alarm) s.timers a)
    (hstart : ∀ alarm afterSec, a ≠ .start (.request alarm) afterSec)
    (hdata : ∀ alarm userData, a ≠ .setUserData (.request alarm) userData)
    (hidle : s.callback = .idle → timers.firing = false) :
    Timed { s with timers } := by
  have hnow := Alarms.now_step hs
  have hsame (alarm : Nat) : (timers.alarms (.request alarm)).userData =
      (s.timers.alarms (.request alarm)).userData :=
    Alarms.userData_step hs (hdata alarm)
  constructor
  case good => exact fun alarm => (h.good alarm).step (hok alarm) hs
  case waiting =>
    intro alarm hwaiting
    rcases Alarms.waiting_step hs hwaiting with ⟨hbefore, hlatest⟩ | ⟨afterSec, rfl, -⟩
    · obtain ⟨written, hwaits⟩ := h.waiting alarm hbefore
      obtain ⟨start, deadline, hold, hdue⟩ := hwaits.due
      exact ⟨written, ⟨start, deadline, hlatest.trans hold, hdue.armed, hdue.written⟩,
        (hsame alarm).trans hwaits.userData, hwaits.bound, hwaits.placed⟩
    · exact absurd rfl (hstart alarm afterSec)
  case queued => exact h.queued
  case pushing => exact h.pushing
  case written =>
    intro written hwritten
    obtain ⟨hbound, frame, hframe, hcall, hle⟩ := h.written written hwritten
    exact ⟨hbound, frame, hframe, hcall, Int.le_trans hle hnow⟩
  case marked =>
    exact fun written alarm hmarked =>
      (hsame alarm).trans (h.marked written alarm hmarked)
  case callback =>
    exact fun readable written alarm hio =>
      Alarms.hasCallback_step (h.callback readable written alarm hio) hs
  case idle => exact hidle
  case timing =>
    intro messageId start htiming
    have hbefore : s.timing? = some (messageId, start) := by
      rw [← htiming]
      unfold timing?
      dsimp only
      split <;> simp only [hsame]
    obtain ⟨call, hbound, hlate⟩ := h.timing messageId start hbefore
    exact ⟨call, hbound, hlate.mono (List.Subset.refl _) (List.Subset.refl _) hnow⟩
  case calling =>
    exact fun call start hcalling => (h.calling call start hcalling).mono
      (List.Subset.refl _) (List.Subset.refl _) hnow
  case timedOut => exact h.timedOut
  case told => exact h.told

private theorem setUserData (h : Timed s) (hpooled : Pooled s) {readable : Bool}
    {written : Written} {alarm : Nat} (hio : s.io = .setUserData readable written alarm)
    (hnot : s.readsUserData alarm = false) :
    Timed { s with
      timers := s.timers.setUserData (.request alarm)
        written.messageId.toUInt32.toInt32
      io := .setCallback readable written alarm } := by
  have hs : s.timers.step (.setUserData (.request alarm)
      written.messageId.toUInt32.toInt32) = some (s.timers.setUserData
        (.request alarm) written.messageId.toUInt32.toInt32) := rfl
  have hhand : s.io.unstarted? = some alarm := by rw [hio]; rfl
  have hfree := h.unstarted hpooled hhand
  have hother {alarm' : Nat} (hne : alarm' ≠ alarm) :
      ((s.timers.setUserData (.request alarm)
        written.messageId.toUInt32.toInt32).alarms (.request alarm')).userData =
          (s.timers.alarms (.request alarm')).userData := by
    refine Alarms.userData_step hs fun userData heq => hne ?_
    injection heq with heq
    injection heq with heq
    exact heq.symm
  constructor
  case good => exact fun alarm' => (h.good alarm').step (by trivial) hs
  case waiting =>
    intro alarm' hwaiting
    rcases Alarms.waiting_step hs hwaiting with ⟨hbefore, hlatest⟩ | ⟨_, ⟨⟩, -⟩
    have hne : alarm' ≠ alarm := by
      rintro rfl
      cases hfree.symm.trans hbefore
    obtain ⟨written', hwaits⟩ := h.waiting alarm' hbefore
    obtain ⟨start, deadline, hold, hdue⟩ := hwaits.due
    refine ⟨written', ⟨start, deadline, hlatest.trans hold, hdue⟩,
      (hother hne).trans hwaits.userData, hwaits.bound, .inl ?_⟩
    rcases hwaits.placed with hmap | ⟨readable', hrecord⟩
    · exact hmap
    · cases hio.symm.trans hrecord
  case queued => exact h.queued
  case pushing => exact h.pushing
  case written =>
    rintro _ ⟨⟩
    exact h.written written (by rw [hio]; rfl)
  case marked =>
    rintro _ _ ⟨⟩
    simp [Alarms.setUserData, Alarms.set]
  case callback => rintro _ _ _ ⟨⟩
  case idle => exact h.idle
  case timing =>
    intro messageId start htiming
    refine h.timing messageId start ?_
    rw [← htiming]
    unfold timing?
    dsimp only
    split
    · next alarm' start' hcallback =>
        have hne : alarm' ≠ alarm := by
          simpa [readsUserData, hcallback] using hnot
        rw [hother hne]
    · rfl
    · rfl
    · rfl
  case calling => exact h.calling
  case timedOut => exact h.timedOut
  case told => exact h.told

private theorem setCallback (h : Timed s) {readable : Bool} {written : Written}
    {alarm : Nat} (hio : s.io = .setCallback readable written alarm) :
    Timed { s with
      timers := s.timers.setCallback (.request alarm)
      io := .startAlarm readable written alarm } := by
  have hs : s.timers.step (.setCallback (.request alarm)) =
      some (s.timers.setCallback (.request alarm)) := rfl
  have hset := h.timers hs (by intro _; trivial) (by simp) (by simp) h.idle
  constructor
  case good => exact hset.good
  case waiting =>
    intro alarm' hwaiting
    obtain ⟨written', hwaits⟩ := hset.waiting alarm' hwaiting
    refine ⟨written', hwaits.due, hwaits.userData, hwaits.bound, .inl ?_⟩
    rcases hwaits.placed with hmap | ⟨readable', hrecord⟩
    · exact hmap
    · cases hio.symm.trans hrecord
  case queued => exact hset.queued
  case pushing => exact hset.pushing
  case written =>
    rintro _ ⟨⟩
    exact h.written written (by rw [hio]; rfl)
  case marked =>
    rintro _ _ ⟨⟩
    exact hset.marked written alarm (by rw [hio]; rfl)
  case callback =>
    rintro _ _ _ ⟨⟩
    simp [Alarms.setCallback, Alarms.set]
  case idle => exact hset.idle
  case timing => exact hset.timing
  case calling => exact hset.calling
  case timedOut => exact hset.timedOut
  case told => exact hset.told

private theorem startAlarm (h : Timed s) (hpooled : Pooled s) {readable : Bool}
    {written : Written} {alarm : Nat} (hio : s.io = .startAlarm readable written alarm)
    (hclean : s.startsClean (.request alarm) = true) :
    Timed { s.armAlarm written.call alarm with
      io := .recordAlarm readable written alarm } := by
  have hhand : s.io.unstarted? = some alarm := by rw [hio]; rfl
  have hfree := h.unstarted hpooled hhand
  have hcan : s.timers.canStart (.request alarm) = true := by
    simp [Alarms.canStart, h.callback readable written alarm hio, hfree]
  have hmarked := h.marked written alarm (by rw [hio]; rfl)
  obtain ⟨hbound, frame, hframe, hcall, hbefore⟩ :=
    h.written written (by rw [hio]; rfl)
  have hs := step_start s.timers (.request alarm) kSendReqTimeout
  have hdata (alarm' : Nat) :
      ((s.timers.start (.request alarm) kSendReqTimeout).1.alarms
        (.request alarm')).userData =
          (s.timers.alarms (.request alarm')).userData :=
    Alarms.userData_step hs (by simp)
  have hnow := Alarms.now_step hs
  have hloop := s.timers.start_loop (.request alarm) kSendReqTimeout
  have harm : s.armAlarm written.call alarm = { s with
      timers := (s.timers.start (.request alarm) kSendReqTimeout).1
      history := { s.history with
        armed := (s.timers.starts, written.call) :: s.history.armed } } := by
    simp [armAlarm, Alarms.start, hcan]
  rw [harm]
  generalize (s.timers.start (.request alarm) kSendReqTimeout).1 = timers
    at hs hdata hnow hloop ⊢
  have hexpires {start call : Nat} {time time' : Int}
      (hold : Expires s.history start call time) (hle : time ≤ time') :
      Expires { s.history with
        armed := (s.timers.starts, written.call) :: s.history.armed } start call
          time' :=
    hold.mono (List.subset_cons_self _ _) (List.Subset.refl _) hle
  constructor
  case good =>
    exact fun alarm' => (h.good alarm').step (undisturbed_start hclean alarm' _) hs
  case waiting =>
    intro alarm' hwaiting
    rcases Alarms.waiting_step hs hwaiting with ⟨hold, hlatest⟩ | ⟨_, heq, -, hlatest⟩
    · obtain ⟨written', hwaits⟩ := h.waiting alarm' hold
      obtain ⟨start, deadline, hbehind, hdue⟩ := hwaits.due
      refine ⟨written', ⟨start, deadline, hlatest.trans hbehind,
        hexpires hdue (Int.le_refl _)⟩, (hdata alarm').trans hwaits.userData,
        hwaits.bound, .inl ?_⟩
      rcases hwaits.placed with hmap | ⟨readable', hrecord⟩
      · exact hmap
      · cases hio.symm.trans hrecord
    · cases heq
      refine ⟨written, ⟨_, _, hlatest, ⟨List.mem_cons_self, frame, hframe, hcall, ?_⟩⟩,
        (hdata alarm).trans hmarked, hbound, .inr ⟨readable, rfl⟩⟩
      exact Int.add_le_add_right hbefore _
  case queued => exact h.queued
  case pushing => exact h.pushing
  case written =>
    rintro _ ⟨⟩
    exact ⟨hbound, frame, hframe, hcall, Int.le_trans hbefore hnow⟩
  case marked =>
    rintro _ _ ⟨⟩
    exact (hdata alarm).trans hmarked
  case callback => rintro _ _ _ ⟨⟩
  case idle => exact fun hidle => hloop.1.trans (h.idle hidle)
  case timing =>
    intro messageId start htiming
    have hold : s.timing? = some (messageId, start) := by
      rw [← htiming]
      unfold timing?
      dsimp only
      split <;> simp only [hdata]
    obtain ⟨call, hbound', hlate⟩ := h.timing messageId start hold
    exact ⟨call, hbound', hexpires hlate hnow⟩
  case calling =>
    exact fun call start hcalling => hexpires (h.calling call start hcalling) hnow
  case timedOut =>
    exact fun entry hentry => hexpires (h.timedOut entry hentry) (Int.le_refl _)
  case told => exact h.told

/-! ### The map of the timers -/

private theorem release (h : Timed s) {messageId : UInt16}
    (hidle : s.dropsIdle messageId = true) : Timed (s.release messageId) := by
  have hmap := s.timer_release messageId
  obtain ⟨map, pool, heq⟩ := s.release_eq messageId
  rw [heq] at hmap ⊢
  refine { h with waiting := ?_ }
  intro alarm hwaiting
  obtain ⟨written, hwaits⟩ := h.waiting alarm hwaiting
  refine ⟨written, hwaits.due, hwaits.userData, hwaits.bound, ?_⟩
  rcases hwaits.placed with hold | hrecord
  · refine .inl ((hmap written.messageId).trans ?_)
    split
    · next hid =>
        rw [hid] at hold
        simp [dropsIdle, hold, hwaiting] at hidle
    · exact hold
  · exact .inr hrecord

private theorem cancelTimer (h : Timed s) (messageId : UInt16) :
    Timed (s.cancelTimer messageId) := by
  unfold TcpClient.cancelTimer
  split
  · next timer htimer =>
      have hs := step_cancel s.timers (.request timer.alarm)
      have hcanceled := h.timers hs (by intro _; trivial) (by simp) (by simp)
        fun hidle => (s.timers.cancel_loop _).1.trans (h.idle hidle)
      refine hcanceled.release ?_
      have hnone := Alarms.messageId_cancel s.timers (.request timer.alarm)
      have hwaiting := (hcanceled.good timer.alarm).waiting
      simp only [dropsIdle, htimer, Option.all_some, Alarm.isWaiting,
        Bool.not_eq_true', decide_eq_false_iff_not]
      exact fun hstatus => hwaiting hstatus hnone
  · exact h

private theorem recordAlarm (h : Timed s) {readable : Bool} {written : Written}
    {alarm : Nat} (hio : s.io = .recordAlarm readable written alarm)
    (hidle : s.dropsIdle written.messageId = true) :
    Timed { s.recordAlarm written alarm with io := .pop readable } := by
  have hreleased := h.release hidle
  have hlost := s.timer_release written.messageId
  obtain ⟨map, pool, heq⟩ := s.release_eq written.messageId
  unfold TcpClient.recordAlarm
  rw [heq] at hlost hreleased ⊢
  constructor
  case waiting =>
    intro alarm' hwaiting
    obtain ⟨written', hwaits⟩ := hreleased.waiting alarm' hwaiting
    refine ⟨written', hwaits.due, hwaits.userData, hwaits.bound, .inl ?_⟩
    rw [getElem?_insert]
    rcases hwaits.placed with hold | ⟨readable', hrecord⟩
    · rw [if_neg]
      · exact hold
      · intro hid
        have hnone := hlost written'.messageId
        rw [if_pos hid] at hnone
        cases hnone.symm.trans hold
    · cases hio.symm.trans hrecord
      rw [if_pos rfl]
  case good => exact h.good
  case queued => exact h.queued
  case pushing => exact h.pushing
  case written => rintro _ ⟨⟩
  case marked => rintro _ _ ⟨⟩
  case callback => rintro _ _ _ ⟨⟩
  case idle => exact h.idle
  case timing => exact h.timing
  case calling => exact h.calling
  case timedOut => exact h.timedOut
  case told => exact h.told

/-! ### The map of the callbacks -/

private theorem dropCallback (h : Timed s) (messageId : UInt16) :
    Timed (s.dropCallback messageId) := by
  have hbound {messageId' : UInt16} {call : Nat} (hold : s.Bound messageId' call) :
      (s.dropCallback messageId).Bound messageId' call := by
    intro call' hsome
    rw [callback?_dropCallback] at hsome
    split at hsome
    · cases hsome
    · exact hold call' hsome
  refine { h with waiting := ?_, queued := ?_, pushing := ?_, written := ?_, timing := ?_ }
  · intro alarm hwaiting
    obtain ⟨written, hwaits⟩ := h.waiting alarm hwaiting
    exact ⟨written, hwaits.due, hwaits.userData, hbound hwaits.bound, hwaits.placed⟩
  · exact fun queued hqueued sendReq heq => hbound (h.queued queued hqueued sendReq heq)
  · exact fun holder call sendReq hmutex => hbound (h.pushing holder call sendReq hmutex)
  · exact fun written hwritten =>
      ⟨hbound (h.written written hwritten).1, (h.written written hwritten).2⟩
  · intro messageId' start htiming
    obtain ⟨call, hold, hlate⟩ := h.timing messageId' start htiming
    exact ⟨call, hbound hold, hlate⟩

private theorem push (h : Timed s) (call : Nat) (message : Packet.MessageBase)
    (currentMsgId : UInt16) (mutex : Option (Holder × Section))
    (hmutex : ∀ holder call sendReq,
      mutex ≠ some (holder, .pushSendReq call sendReq))
    (hbound : ∀ sendReq, message = .sendReq sendReq →
      s.Bound sendReq.messageId call) :
    Timed { s.push call message with currentMsgId, mutex } := by
  have hexpires {start call' : Nat} {time : Int}
      (hold : Expires s.history start call' time) :
      Expires (s.push call message).history start call' time :=
    ⟨hold.armed, hold.written⟩
  constructor
  case waiting =>
    intro alarm hwaiting
    obtain ⟨written, hwaits⟩ := h.waiting alarm hwaiting
    obtain ⟨start, deadline, hlatest, hdue⟩ := hwaits.due
    exact ⟨written, ⟨start, deadline, hlatest, hexpires hdue⟩, hwaits.userData,
      hwaits.bound, hwaits.placed⟩
  case queued =>
    intro queued hqueued sendReq heq
    rcases List.mem_append.mp hqueued with hold | hnew
    · exact h.queued queued hold sendReq heq
    · cases List.mem_singleton.mp hnew
      exact hbound sendReq heq
  case pushing =>
    exact fun holder call' sendReq hnext => absurd hnext (hmutex holder call' sendReq)
  case timing =>
    intro messageId start htiming
    obtain ⟨call', hold, hlate⟩ := h.timing messageId start htiming
    exact ⟨call', hold, hexpires hlate⟩
  case calling =>
    exact fun call' start hcalling => hexpires (h.calling call' start hcalling)
  case timedOut => exact fun entry hentry => hexpires (h.timedOut entry hentry)
  case good => exact h.good
  case written => exact h.written
  case marked => exact h.marked
  case callback => exact h.callback
  case idle => exact h.idle
  case told => exact h.told

private theorem register (h : Timed s) {holder : Holder} {call : Nat}
    {hasCallback : Bool} {sendReq : Packet.SendReq}
    (hmutex : s.mutex = some (holder, .register call hasCallback sendReq))
    (hunused : hasCallback = true → s.inUse s.currentMsgId = false) :
    Timed (s.proceed holder (.register call hasCallback sendReq)) := by
  have hbound {messageId : UInt16} {call' : Nat} (hold : s.Bound messageId call')
      (hused : s.inUse messageId = true) :
      (s.proceed holder (.register call hasCallback sendReq)).Bound messageId call' := by
    intro call'' hsome
    simp only [callback?, TcpClient.proceed, callback?_insert] at hsome
    split at hsome
    · next hid =>
        cases hasCallback with
        | false => cases hsome
        | true =>
            rw [hid] at hused
            cases (hunused rfl).symm.trans hused
    · exact hold call'' hsome
  have hexpires {start call' : Nat} {time : Int}
      (hold : Expires s.history start call' time) :
      Expires (s.proceed holder (.register call hasCallback sendReq)).history start
        call' time := ⟨hold.armed, hold.written⟩
  refine { h with
    waiting := ?_, queued := ?_, pushing := ?_, written := ?_, timing := ?_
    calling := ?_, timedOut := ?_ }
  · intro alarm hwaiting
    obtain ⟨written, hwaits⟩ := h.waiting alarm hwaiting
    obtain ⟨start, deadline, hlatest, hdue⟩ := hwaits.due
    refine ⟨written, ⟨start, deadline, hlatest, hexpires hdue⟩, hwaits.userData,
      hbound hwaits.bound ?_, hwaits.placed⟩
    rcases hwaits.placed with hmap | ⟨readable, hio⟩
    · have hbefore : (s.timers.alarms (.request alarm)).isWaiting = true := hwaiting
      simp [inUse, dropsIdle, hmap, hbefore]
    · simp [inUse, hio, IoPc.written?]
  · intro queued hqueued sendReq' heq
    refine hbound (h.queued queued hqueued sendReq' heq) ?_
    have hany : s.messageQueue.any (fun queued =>
        match queued.message with
        | .sendReq sendReq => sendReq.messageId = sendReq'.messageId
        | _ => false) = true :=
      List.any_eq_true.mpr ⟨queued, hqueued, by simp [heq]⟩
    simp [inUse, hany]
  · rintro _ _ _ ⟨⟩ call' hsome
    simp only [callback?, TcpClient.proceed, callback?_insert] at hsome
    cases hasCallback <;> cases hsome
    rfl
  · intro written hwritten
    refine ⟨hbound (h.written written hwritten).1 ?_, (h.written written hwritten).2⟩
    have hio : s.io.written? = some written := hwritten
    simp [inUse, hio]
  · intro messageId start htiming
    have hold : s.timing? = some (messageId, start) := htiming
    obtain ⟨call', hbefore, hlate⟩ := h.timing messageId start hold
    exact ⟨call', hbound hbefore (by simp [inUse, hold]), hexpires hlate⟩
  · exact fun call' start hcalling => hexpires (h.calling call' start hcalling)
  · exact fun entry hentry => hexpires (h.timedOut entry hentry)

private theorem pushSendReq (h : Timed s) {holder : Holder} {call : Nat}
    {sendReq : Packet.SendReq}
    (hmutex : s.mutex = some (holder, .pushSendReq call sendReq)) :
    Timed (s.proceed holder (.pushSendReq call sendReq)) := by
  refine h.push call _ _ _ (by rintro _ _ _ ⟨⟩) ?_
  rintro _ ⟨⟩
  exact h.pushing holder call sendReq hmutex

private theorem pushMessage (h : Timed s) (hids : MessageIds s) {holder : Holder}
    {call : Nat} {message : Packet.MessageBase}
    (hmutex : s.mutex = some (holder, .pushMessage call message)) :
    Timed (s.proceed holder (.pushMessage call message)) := by
  refine h.push call message _ _ (by rintro _ _ _ ⟨⟩) ?_
  rintro sendReq rfl call' hsome
  rw [hids.noReply holder call sendReq hmutex, hids.zero] at hsome
  cases hsome

private theorem proceed (h : Timed s) (hthreads : Threads s) (hids : MessageIds s)
    {holder : Holder} {next : Section} (hmutex : s.mutex = some (holder, next))
    (hunused : ∀ call sendReq, next = .register call true sendReq →
      s.inUse s.currentMsgId = false) : Timed (s.proceed holder next) := by
  cases next with
  | connect =>
      simp only [TcpClient.proceed]
      split
      · exact h.of_same { h.same with pushing := by rintro _ _ _ ⟨⟩ }
      · next hnull =>
          have hio := hthreads.finished_of_connect hmutex
            (Bool.eq_false_iff.mpr hnull)
          exact h.of_same
            { h.same with
              messageQueue := List.nil_subset _
              pushing := by rintro _ _ _ ⟨⟩
              io := .inr ⟨by rw [hio]; rfl, rfl⟩ }
  | breakReadWrite =>
      refine h.of_same { h.same with pushing := ?_ }
      simp only [TcpClient.proceed]
      intro holder' call sendReq hnext
      split at hnext <;> cases hnext
  | breakConnect =>
      refine h.of_same { h.same with pushing := ?_ }
      simp only [TcpClient.proceed]
      intro holder' call sendReq hnext
      split at hnext <;> cases hnext
  | register call hasCallback sendReq =>
      refine h.register hmutex ?_
      rintro rfl
      exact hunused call sendReq rfl
  | pushSendReq call sendReq => exact h.pushSendReq hmutex
  | pushMessage call message => exact h.pushMessage hids hmutex
  | _ => exact h.of_same { h.same with pushing := by rintro _ _ _ ⟨⟩ }

/-! ### The threads -/

private theorem enterConnect (h : Timed s) (holder : Holder) :
    Timed (s.enterConnect holder) := by
  refine h.of_same { h.same with pushing := ?_ }
  unfold TcpClient.enterConnect
  intro holder' call sendReq hnext
  split at hnext <;> cases hnext

private theorem enterDisconnect (h : Timed s) (holder : Holder)
    (code : DisconnectCode) (shouldReconnect : Bool) :
    Timed (s.enterDisconnect holder code shouldReconnect) := by
  refine h.of_same { h.same with pushing := ?_ }
  unfold TcpClient.enterDisconnect
  intro holder' call sendReq hnext
  split at hnext <;> cases hnext

private theorem told_callBack {call call' : Nat} {code : ErrorCode}
    (hcode : code ≠ .kErrorCodeTimeout)
    (htold : (call', .kErrorCodeTimeout) ∈ (s.callBack call code).history.invoked) :
    (call', .kErrorCodeTimeout) ∈ s.history.invoked := by
  rcases List.mem_cons.mp htold with heq | hold
  · cases heq
    exact absurd rfl hcode
  · exact hold

private theorem userStep (h : Timed s) (hthreads : Threads s) (hids : MessageIds s)
    {call : UserCall} (htimes : s.timesUser = true) (hs : s.userStep call = some t) :
    Timed t := by
  cases userStep_cases hs with
  | enterConnect hfree => exact h.enterConnect .user
  | enterDisconnect code shouldReconnect hfree =>
      exact h.enterDisconnect .user code shouldReconnect
  | enterSend type payload data hasCallback hfree =>
      unfold enterSend
      dsimp only
      split
      · exact h.of_same { h.same with pushing := by rintro _ _ _ ⟨⟩ }
      · split
        · exact h.of_same { h.same with told := fun _ => told_callBack (by simp) }
        · exact h.of_same { h.same with }
  | enterPush message hfree =>
      unfold enterPush
      split
      · exact h.of_same { h.same with pushing := by rintro _ _ _ ⟨⟩ }
      · exact h.of_same { h.same with }
  | inside next hcall hmutex =>
      refine h.proceed hthreads hids hmutex ?_
      rintro _ _ rfl
      simpa [timesUser, hmutex] using htimes

private theorem takeAlarm (h : Timed s) {readable : Bool} {written : Written}
    (hio : s.io = .getAlarm readable written) :
    Timed { s.takeAlarm.1 with
      io := .setUserData readable written s.takeAlarm.2 } := by
  obtain ⟨pool, created, heq⟩ := s.takeAlarm_eq
  rw [heq]
  refine { h with waiting := ?_, written := ?_, marked := ?_, callback := ?_ }
  · intro alarm hwaiting
    obtain ⟨written', hwaits⟩ := h.waiting alarm hwaiting
    refine ⟨written', hwaits.due, hwaits.userData, hwaits.bound, .inl ?_⟩
    rcases hwaits.placed with hmap | ⟨readable', hrecord⟩
    · exact hmap
    · cases hio.symm.trans hrecord
  · rintro _ ⟨⟩
    exact h.written written (by rw [hio]; rfl)
  · rintro _ _ ⟨⟩
  · rintro _ _ _ ⟨⟩

private theorem encode (h : Timed s) {readable : Bool} {queued : Queued}
    {rest : List Queued} (hio : s.io = .encode readable)
    (hqueue : s.messageQueue = queued :: rest) :
    Timed { s.write queued.call with
      io := behindEncode readable queued.call queued.message } := by
  have hexpires {start call : Nat} {time : Int}
      (hold : Expires s.history start call time) :
      Expires (s.write queued.call).history start call time :=
    hold.mono (List.Subset.refl _) (List.subset_cons_self _ _) (Int.le_refl _)
  have hbehind {written : Written}
      (hwritten : (behindEncode readable queued.call queued.message).written? =
        some written) :
      ∃ sendReq, queued.message = .sendReq sendReq ∧
        written = { call := queued.call, messageId := sendReq.messageId } := by
    unfold behindEncode at hwritten
    split at hwritten
    · next sendReq hmessage =>
        cases hwritten
        exact ⟨sendReq, hmessage, rfl⟩
    · cases hwritten
  constructor
  case waiting =>
    intro alarm hwaiting
    obtain ⟨written, hwaits⟩ := h.waiting alarm hwaiting
    obtain ⟨start, deadline, hlatest, hdue⟩ := hwaits.due
    refine ⟨written, ⟨start, deadline, hlatest, hexpires hdue⟩, hwaits.userData,
      hwaits.bound, .inl ?_⟩
    rcases hwaits.placed with hmap | ⟨readable', hrecord⟩
    · exact hmap
    · cases hio.symm.trans hrecord
  case written =>
    intro written hwritten
    obtain ⟨sendReq, hmessage, rfl⟩ := hbehind hwritten
    exact ⟨h.queued queued (by rw [hqueue]; exact List.mem_cons_self) sendReq hmessage,
      _, List.mem_cons_self, rfl, Int.le_refl _⟩
  case marked =>
    dsimp only
    unfold behindEncode
    split <;> rintro _ _ ⟨⟩
  case callback =>
    dsimp only
    unfold behindEncode
    split <;> rintro _ _ _ ⟨⟩
  case timing =>
    intro messageId start htiming
    obtain ⟨call, hold, hlate⟩ := h.timing messageId start htiming
    exact ⟨call, hold, hexpires hlate⟩
  case calling => exact fun call start hcalling => hexpires (h.calling call start hcalling)
  case timedOut => exact fun entry hentry => hexpires (h.timedOut entry hentry)
  case good => exact h.good
  case queued => exact h.queued
  case pushing => exact h.pushing
  case idle => exact h.idle
  case told => exact h.told

end Timed

theorem IoMove.unwritten {io : IoPc} (h : IoMove s io) : s.io.written? = none := by
  cases h <;> simp [*, IoPc.written?]

theorem IoStatus.unwritten {io next : IoPc} {status : ConnectStatus}
    (h : IoStatus io status next) : io.written? = none := by
  cases h <;> rfl

namespace Timed

private theorem other (h : Timed s) {a : AlarmAction ClientAlarm}
    {timers : Alarms ClientAlarm} {io : IoPc} (halarm : IoAlarm s.io a io)
    (hs : s.timers.step a = some timers)
    (hclean : s.io.starting?.all s.startsClean = true)
    (hnone : s.io.written? = none) : Timed { s with timers, io } := by
  have hbehind : io.written? = none := halarm.written.trans hnone
  have hloop := (halarm.loop hs).1
  have htimers : Timed { s with timers } := by
    refine h.timers hs ?_ ?_ ?_ fun hidle => hloop.trans (h.idle hidle)
    · intro alarm
      generalize s.io = pc at halarm hclean
      cases halarm <;> first
        | exact undisturbed_start (by simpa [IoPc.starting?] using hclean) alarm _
        | trivial
    · generalize s.io = pc at halarm
      cases halarm <;> simp
    · generalize s.io = pc at halarm hnone
      cases halarm <;> simp [IoPc.written?] at hnone ⊢
  exact htimers.of_same { htimers.same with io := .inr ⟨hnone, hbehind⟩ }

private theorem alarm (h : Timed s) (hpooled : Pooled s) (htimes : s.timesIo = true)
    {a : AlarmAction ClientAlarm} {timers : Alarms ClientAlarm} {io : IoPc}
    (halarm : IoAlarm s.io a io) (hs : s.timers.step a = some timers) :
    Timed { s with timers, io } := by
  have hsame := halarm
  rw [timesIo, Bool.and_eq_true] at htimes
  generalize hpc : s.io = pc at halarm
  cases halarm with
  | setUserData readable written alarm =>
      cases hs
      refine h.setUserData hpooled hpc ?_
      simpa [hpc] using htimes.2
  | setCallback readable written alarm =>
      cases hs
      exact h.setCallback hpc
  | _ => exact h.other hsame hs htimes.1 (by rw [hpc]; rfl)

private theorem timer (h : Timed s) (hpooled : Pooled s) (htimes : s.timesIo = true)
    {u : TcpClient} {io : IoPc} (htimer : IoTimer s u io) : Timed { u with io } := by
  rw [timesIo, Bool.and_eq_true] at htimes
  cases htimer with
  | takeAlarm readable written hio => exact h.takeAlarm hio
  | startAlarm readable written alarm hio =>
      refine h.startAlarm hpooled hio ?_
      simpa [hio, IoPc.starting?] using htimes.1
  | recordAlarm readable written alarm hio hfree =>
      refine h.recordAlarm hio ?_
      simpa [hio] using htimes.2
  | cancelTimer messageId hio hfree =>
      have hcanceled := h.cancelTimer messageId
      obtain ⟨timers, map, pool, heq⟩ := s.cancelTimer_eq messageId
      rw [heq] at hcanceled ⊢
      exact hcanceled.of_same
        { hcanceled.same with io := .inr ⟨by simp [hio, IoPc.written?], rfl⟩ }

private theorem ioStep (h : Timed s) (hthreads : Threads s) (hpooled : Pooled s)
    (hids : MessageIds s) {event : IoEvent} (htimes : s.timesIo = true)
    (hs : s.ioStep event = some t) : Timed t := by
  have hclean : s.io.starting?.all s.startsClean = true := by
    rw [timesIo, Bool.and_eq_true] at htimes
    exact htimes.1
  cases ioStep_cases hs with
  | move io hmove =>
      exact h.of_same { h.same with io := .inr ⟨hmove.unwritten, hmove.written⟩ }
  | status status io hstatus =>
      exact h.of_same { h.same with io := .inr ⟨hstatus.unwritten, hstatus.written⟩ }
  | alarm action timers io halarm hstep => exact h.alarm hpooled htimes halarm hstep
  | timer u io htimer => exact h.timer hpooled htimes htimer
  | encode readable queued rest hio hqueue => exact h.encode hio hqueue
  | noCallback messageId hio hnone =>
      have hbefore := h.dropCallback messageId
      exact hbefore.of_same
        { hbefore.same with io := .inr ⟨by rw [TcpClient.dropCallback, hio]; rfl, rfl⟩ }
  | takeCallback messageId call hio hsome =>
      have hbefore := h.dropCallback messageId
      exact hbefore.of_same
        { hbefore.same with io := .inr ⟨by rw [TcpClient.dropCallback, hio]; rfl, rfl⟩ }
  | callBack call hio =>
      exact h.of_same
        { h.same with
          io := .inr ⟨by rw [hio]; rfl, rfl⟩
          told := fun _ => told_callBack (by simp) }
  | enter hio hfree =>
      have hbefore := h.enterDisconnect .io .kDisCodeKickout false
      exact hbefore.of_same
        { hbefore.same with io := .inr ⟨by rw [TcpClient.enterDisconnect, hio]; rfl, rfl⟩ }
  | inside next hio hmutex =>
      refine h.proceed hthreads hids hmutex ?_
      rintro _ _ rfl
      cases hthreads.senders .io _ hmutex rfl
  | pop readable hio hmutex =>
      exact h.of_same
        { h.same with
          messageQueue := fun _ => List.mem_of_mem_tail
          io := .inr ⟨by rw [hio]; rfl, rfl⟩ }
  | refuse | clear | pingTimeout =>
      exact h.of_same { h.same with io := .inr ⟨by simp [*, IoPc.written?], rfl⟩ }

/-! ### The timeout of a request -/

@[simp] theorem toUInt16_toInt32 (messageId : UInt16) :
    messageId.toUInt32.toInt32.toUInt32.toUInt16 = messageId := by
  simp

private theorem goOn (h : Timed s) (callback : CallbackPc)
    (hidle : callback = .idle → s.timers.firing = false)
    (htiming : ∀ messageId start,
      timing? { s with callback } = some (messageId, start) →
        ∃ call, s.Bound messageId call ∧
          Expires s.history start call s.timers.now)
    (hcalling : ∀ call start, callback = .callTimeout call start →
      Expires s.history start call s.timers.now) : Timed { s with callback } := by
  refine { h with waiting := ?_, idle := hidle, timing := htiming, calling := hcalling }
  intro alarm hwaiting
  obtain ⟨written, hwaits⟩ := h.waiting alarm hwaiting
  exact ⟨written, hwaits.due, hwaits.userData, hwaits.bound, hwaits.placed⟩

private theorem due_of_inner (h : Timed s) (hcallback : s.callback = .idle)
    {timers : Alarms ClientAlarm}
    (hs : s.timers.step (loopAction s.timers.queue.loop) = some timers)
    {alarm start : Nat} (hinner : innerCallback timers = .getUserData alarm start) :
    ∃ written, s.WaitsFor alarm written ∧
      Expires s.history start written.call s.timers.now := by
  have hnot := h.idle hcallback
  unfold innerCallback at hinner
  split at hinner
  · next hfiring =>
      have hcalled : ∃ messageId pass, timers.queue.loop =
          .calling messageId { alarm := .request alarm, start } pass := by
        split at hinner <;> cases hinner
        exact ⟨_, _, ‹_›⟩
      obtain ⟨messageId, pass, hloop⟩ := hcalled
      have hqueue {next : Option (MessageQueue (Posted ClientAlarm))}
          (hmap : next.map (fun queue => { s.timers with queue }) = some timers) :
          False := by
        obtain ⟨queue, -, rfl⟩ := Option.map_eq_some_iff.mp hmap
        cases hnot.symm.trans hfiring
      cases hpc : s.timers.queue.loop with
      | calling messageId' posted pass' =>
          rw [hpc] at hs
          obtain ⟨hwaiting, deadline, hlatest, hle⟩ :=
            (h.good alarm).due_of_fire hs hfiring hloop
          obtain ⟨written, hwaits⟩ := h.waiting alarm hwaiting
          obtain ⟨start', deadline', hlatest', hdue⟩ := hwaits.due
          cases hlatest.symm.trans hlatest'
          exact ⟨written, hwaits,
            hdue.mono (List.Subset.refl _) (List.Subset.refl _) hle⟩
      | top =>
          rw [hpc] at hs
          exact (hqueue hs).elim
      | next pass' =>
          rw [hpc] at hs
          unfold loopAction at hs
          split at hs <;> first | contradiction | exact (hqueue hs).elim
      | waiting until? =>
          rw [hpc] at hs
          exact (hqueue hs).elim
  · cases hinner

private theorem loop (h : Timed s) (hcallback : s.callback = .idle)
    (htime : s.drainsOnTime = true) {timers : Alarms ClientAlarm}
    (hs : s.timers.step (loopAction s.timers.queue.loop) = some timers) :
    Timed { s with timers, callback := innerCallback timers } := by
  have haside : Timed { s with callback := .returned } :=
    h.of_same { h.same with callback := .inr rfl }
  have hnodata : ∀ alarm userData, loopAction s.timers.queue.loop ≠
      .setUserData (.request alarm) userData := by
    unfold loopAction
    split <;> simp
  have htimers : Timed { s with timers, callback := .returned } := by
    refine haside.timers hs (undisturbed_drain htime) ?_ hnodata (by rintro ⟨⟩)
    unfold loopAction
    split <;> simp
  refine htimers.goOn (innerCallback timers) ?_ ?_ ?_
  · intro hidle
    unfold innerCallback at hidle
    split at hidle
    · split at hidle <;> cases hidle
    · next hnot => exact Bool.eq_false_iff.mpr hnot
  · intro messageId start htiming
    unfold timing? at htiming
    dsimp only at htiming
    rcases innerCallback_cases timers with heq | heq | heq | heq | ⟨alarm, start', heq⟩ <;>
      rw [heq] at htiming <;> cases htiming
    obtain ⟨written, hwaits, hlate⟩ := h.due_of_inner hcallback hs heq
    refine ⟨written.call, ?_, hlate.mono (List.Subset.refl _) (List.Subset.refl _)
      (Alarms.now_step hs)⟩
    rw [Alarms.userData_step hs (hnodata alarm), hwaits.userData, toUInt16_toInt32]
    exact hwaits.bound
  · intro call start hcalling
    rcases innerCallback_cases timers with heq | heq | heq | heq | ⟨alarm, start', heq⟩ <;>
      cases heq.symm.trans hcalling

private theorem getUserData (h : Timed s) {alarm start : Nat}
    (hcallback : s.callback = .getUserData alarm start) :
    Timed { s with
      callback := .eraseTimer
        (s.timers.alarms (.request alarm)).userData.toUInt32.toUInt16 start } := by
  refine h.goOn _ (by rintro ⟨⟩) ?_ (by rintro _ _ ⟨⟩)
  rintro _ _ ⟨⟩
  refine h.timing _ start ?_
  rw [timing?, hcallback]

private theorem eraseTimer (h : Timed s) {messageId : UInt16} {start : Nat}
    (hcallback : s.callback = .eraseTimer messageId start)
    (hidle : s.dropsIdle messageId = true) :
    Timed { s.release messageId with callback := .getCallback messageId start } := by
  have hreleased := h.release hidle
  obtain ⟨map, pool, heq⟩ := s.release_eq messageId
  rw [heq] at hreleased ⊢
  refine hreleased.goOn _ (by rintro ⟨⟩) ?_ (by rintro _ _ ⟨⟩)
  rintro _ _ ⟨⟩
  exact h.timing messageId start (by rw [timing?, hcallback])

private theorem takeTimeout (h : Timed s) {messageId : UInt16} {start call : Nat}
    (hcallback : s.callback = .getCallback messageId start)
    (hsome : s.callback? messageId = some call) :
    Timed { s.dropCallback messageId with callback := .callTimeout call start } := by
  obtain ⟨call', hbound, hlate⟩ := h.timing messageId start (by rw [timing?, hcallback])
  obtain rfl := hbound call hsome
  refine (h.dropCallback messageId).goOn _ (by rintro ⟨⟩) (by rintro _ _ ⟨⟩) ?_
  rintro _ _ ⟨⟩
  exact hlate

private theorem callTimeout (h : Timed s) {call start : Nat}
    (hcallback : s.callback = .callTimeout call start) :
    Timed { (s.callBack call .kErrorCodeTimeout).timeOut call start with
      callback := .checkStatus } := by
  have haside : Timed { s with callback := .checkStatus } :=
    h.of_same { h.same with callback := .inr rfl }
  have hexpires {start' call' : Nat} {time : Int}
      (hold : Expires s.history start' call' time) :
      Expires ((s.callBack call .kErrorCodeTimeout).timeOut call start).history
        start' call' time := ⟨hold.armed, hold.written⟩
  constructor
  case waiting =>
    intro alarm hwaiting
    obtain ⟨written, hwaits⟩ := h.waiting alarm hwaiting
    obtain ⟨start', deadline, hlatest, hdue⟩ := hwaits.due
    exact ⟨written, ⟨start', deadline, hlatest, hexpires hdue⟩, hwaits.userData,
      hwaits.bound, hwaits.placed⟩
  case timedOut =>
    intro entry hentry
    rcases List.mem_cons.mp hentry with rfl | hold
    · exact hexpires (h.calling call start hcallback)
    · exact hexpires (h.timedOut entry hold)
  case told =>
    intro call' htold
    rcases List.mem_cons.mp htold with heq | hold
    · cases heq
      exact ⟨start, s.timers.now, List.mem_cons_self⟩
    · obtain ⟨start', time, hentry⟩ := h.told call' hold
      exact ⟨start', time, List.mem_cons_of_mem _ hentry⟩
  case good => exact h.good
  case queued => exact h.queued
  case pushing => exact h.pushing
  case written => exact h.written
  case marked => exact h.marked
  case callback => exact h.callback
  case idle => rintro ⟨⟩
  case timing => rintro _ _ ⟨⟩
  case calling => rintro _ _ ⟨⟩

private theorem queueStep (h : Timed s) (hthreads : Threads s) (hids : MessageIds s)
    (htimes : s.timesQueue = true) (hs : s.queueStep = some t) : Timed t := by
  cases queueStep_cases hs with
  | move callback hmove =>
      cases hmove with
      | getUserData alarm start hcallback => exact h.getUserData hcallback
      | _ => exact h.of_same { h.same with callback := .inr rfl }
  | loop timers hcallback hstep =>
      refine h.loop hcallback ?_ hstep
      simpa [timesQueue, hcallback] using htimes
  | returned timers hcallback hstep =>
      have hreturned : s.timers.step .returned = some timers := hstep
      have htimers := h.timers hreturned (by intro _; trivial) (by simp) (by simp)
        fun hidle => by simp [hcallback] at hidle
      exact htimers.goOn .idle (fun _ => Alarms.firing_returned hstep)
        (by rintro _ _ ⟨⟩) (by rintro _ _ ⟨⟩)
  | timer u callback htimer =>
      cases htimer with
      | eraseTimer messageId start hcallback =>
          refine h.eraseTimer hcallback ?_
          simpa [timesQueue, hcallback] using htimes
      | cancelTimer session messageIds messageId rest hcallback hkeys =>
          obtain ⟨canceled, hlose⟩ := s.loseTimer_eq session messageId
          have hlost : Timed { s with history := { s.history with canceled } } :=
            h.of_same { h.same with }
          have hcanceled := hlost.cancelTimer messageId
          rw [hlose]
          obtain ⟨timers, map, pool, heq⟩ := cancelTimer_eq
            { s with history := { s.history with canceled } } messageId
          rw [heq] at hcanceled ⊢
          exact hcanceled.of_same { hcanceled.same with callback := .inr rfl }
  | noTimeout messageId start hcallback hnone =>
      have hbefore := h.dropCallback messageId
      exact hbefore.of_same { hbefore.same with callback := .inr rfl }
  | takeTimeout messageId start call hcallback hsome =>
      exact h.takeTimeout hcallback hsome
  | callTimeout call start hcallback => exact h.callTimeout hcallback
  | enterDisconnect hcallback hfree =>
      have hbefore := h.enterDisconnect .queue .kDisCodeSendReqTimeout true
      refine hbefore.of_same
        { hbefore.same with callback := .inr ?_ }
      dsimp only
      split <;> rfl
  | noLost session messageId messageIds hcallback hnone =>
      have hbefore := h.dropCallback messageId
      exact hbefore.of_same { hbefore.same with callback := .inr rfl }
  | takeLost session call messageId messageIds hcallback hsome =>
      have hbefore := h.dropCallback messageId
      exact hbefore.of_same { hbefore.same with callback := .inr rfl }
  | callLost session call messageIds hcallback =>
      exact h.of_same
        { h.same with
          callback := .inr rfl
          told := fun _ => told_callBack (by simp) }
  | checkReconnect hcallback =>
      refine h.of_same { h.same with callback := .inr ?_ }
      dsimp only
      split <;> rfl
  | enterConnect hcallback hfree =>
      have hbefore := h.enterConnect .queue
      exact hbefore.of_same { hbefore.same with callback := .inr rfl }
  | inside next hcallback hmutex =>
      refine h.proceed hthreads hids hmutex ?_
      rintro _ _ rfl
      cases hthreads.senders .queue _ hmutex rfl
  | breakPing | setTimeoutDisconnect | clearThread | reCreate | tearDown
    | reCreateConn => exact h.of_same { h.same with callback := .inr rfl }

theorem step (h : Timed s) (hthreads : Threads s) (hpooled : Pooled s)
    (hids : MessageIds s) (htimes : s.TimesNext action)
    (hs : s.step action = some t) : Timed t := by
  obtain ⟨huser, hio, hqueue⟩ := htimes
  cases action with
  | user call => exact h.userStep hthreads hids (huser rfl) hs
  | io event => exact h.ioStep hthreads hpooled hids (hio rfl) hs
  | queue => exact h.queueStep hthreads hids (hqueue rfl) hs
  | tick nanoseconds =>
      cases hs
      have htick : s.timers.step (.tick nanoseconds) = some
          { s.timers with now := s.timers.now + nanoseconds } := rfl
      exact h.timers htick (by intro _; trivial) (by simp) (by simp) h.idle
  | pipes ok =>
      cases hs
      exact h.of_same { h.same with }

theorem of_reachable (h : Reachable TcpClient.step TimesNext .init s) : Timed s :=
  h.invariant init fun _ _ _ hu htimed htimes hs =>
    htimed.step (.of_reachable hu) (.of_reachable hu) (.of_reachable hu) htimes hs

end Timed

/-- No alarm that waits comes back to the pool, and no request times out before
its time, where `Get` is one step. -/
theorem TimesProperly.of_reachable (h : Reachable step TimesNext .init s) :
    TimesProperly s :=
  (Timed.of_reachable h).properly (.of_reachable h) (outbox_sound h)

def timingOut : List Action := List.replicate 7 .queue

def sendingNoReply : List Action :=
  [.user (.sendNoReply [] []), .user .proceed, .user .proceed]

end TcpClient

end GoSocket.Client
