import GoSocket.Client.Timeouts

/-!
# Replies and the requests that they answer

A reply names its request by the message id alone.  `Served` is the client with
a server that answers what it has received, once at most and on the connection
it came on; it also numbers the `Send`s.  There are 65534 ids, so a `Send` takes
the id of the one 65534 `Send`s before it, whether or not that one is answered.
-/

namespace GoSocket.Client

open Std GoSocket.Common GoSocket.Foundation GoSocket.Packet

/-- A `Send` that has registered its callback. -/
structure Sent where
  call : Nat
  -- how many came before it
  number : Nat
  messageId : UInt16
  deriving DecidableEq, Repr

/-- The server knows a request by its id, the statements also by its call. -/
structure Served where
  client : TcpClient := .init
  sent : List Sent := []
  -- the `Send`s that took an id which was in use
  overwriting : List Nat := []
  -- requests written in this session and not answered
  received : List Written := []
  -- the request whose reply the I/O thread has read
  answering : Option Written := none
  -- the calls whose requests were answered, and whose callbacks were taken
  answered : List (Nat × Nat) := []

inductive ServedAction where
  | client (action : Action)
  | reply (written : Written) (sendResp : SendResp)
  deriving DecidableEq, Repr

namespace TcpClient

def pushing? (self : TcpClient) : Option Nat :=
  match self.mutex with
  | some (_, .pushSendReq call _) => some call
  | _ => none

def registering? (self : TcpClient) : Option Nat :=
  match self.mutex with
  | some (_, .register call _ _) => some call
  | _ => none

def queues (self : TcpClient) (written : Written) : Bool :=
  self.messageQueue.any fun queued =>
    queued.call = written.call &&
      match queued.message with
      | .sendReq sendReq => sendReq.messageId = written.messageId
      | _ => false

/-- A callback waits under that id, a timer is running, or a request with it has no
timer yet. -/
def idInUse (self : TcpClient) (messageId : UInt16) : Bool :=
  (self.callback? messageId).isSome || !self.dropsIdle messageId ||
    self.messageQueue.any (fun queued => self.queues { call := queued.call, messageId }) ||
    self.io.written?.any (·.messageId = messageId)

def times (self : TcpClient) (written : Written) : Bool :=
  (self.timeoutAlarmMap[written.messageId]?).any fun timer =>
    timer.call = written.call &&
      (self.timers.alarms (.request timer.alarm)).isWaiting

end TcpClient

def Sent.written (self : Sent) : Written :=
  { call := self.call, messageId := self.messageId }

namespace Served

/-- The request has not been written, or the server may answer it, or its
callback or its timer waits for that. -/
def isOpen (self : Served) (sent : Sent) : Bool :=
  self.client.callback? sent.messageId = some sent.call ||
    self.client.pushing? = some sent.call ||
    self.client.queues sent.written ||
    self.client.times sent.written ||
    self.received.contains sent.written

def isWaiting (self : Served) (call : Nat) : Bool :=
  self.client.history.registered.any (·.1 = call) &&
    !self.client.history.invoked.any (·.1 = call) &&
    self.client.io.call? ≠ some call && self.client.callback.call? ≠ some call

/-! ## Steps -/

def receivedNext (self : Served) (action : Action) (client : TcpClient) :
    List Written :=
  if client.history.sessions ≠ self.client.history.sessions then []
  else
    match action, self.client.io, self.client.messageQueue, self.answering with
    | .io (.encoded true), .encode _, { call, message := .sendReq sendReq } :: _, _ =>
        { call, messageId := sendReq.messageId } :: self.received
    | .io _, .getCallback _, _, some written => self.received.erase written
    | _, _, _, _ => self.received

def answeredNext (self : Served) (action : Action) : List (Nat × Nat) :=
  match action, self.client.io, self.answering with
  | .io _, .getCallback messageId, some written =>
      match self.client.callback? messageId with
      | some call => (written.call, call) :: self.answered
      | none => self.answered
  | _, _, _ => self.answered

def record (self : Served) (action : Action) (client : TcpClient) : Served :=
  let received := self.receivedNext action client
  let answered := self.answeredNext action
  match action, self.client.registering? with
  | .user .proceed, some call =>
      { self with
        client, received, answered
        sent :=
          { call, number := self.sent.length
            messageId := self.client.currentMsgId } :: self.sent
        overwriting :=
          if self.client.idInUse self.client.currentMsgId then
            call :: self.overwriting
          else self.overwriting }
  | _, _ => { self with client, received, answered }

def step (self : Served) : ServedAction → Option Served
  -- a reply is none of these
  | .client (.io (.received (some (.sendResp _)))) => none
  | .client action => (self.client.step action).map (self.record action)
  | .reply written sendResp =>
      if written ∈ self.received ∧ sendResp.messageId = written.messageId then
        let action := .io (.received (some (.sendResp sendResp)))
        (self.client.step action).map fun client =>
          { self.record action client with answering := some written }
      else none

/-! ## The condition -/

/-- No `Send` is made 65534 `Send`s behind one that is still open. -/
def OpensNext (self : Served) (action : ServedAction) : Prop :=
  action = .client (.user .proceed) → self.client.registering?.isSome = true →
    ∀ sent ∈ self.sent, self.isOpen sent = true →
      self.sent.length < sent.number + 65534

instance (self : Served) (action : ServedAction) :
    Decidable (self.OpensNext action) :=
  inferInstanceAs (Decidable (_ → _ → _))

/-- The callbacks that wait have ids of their own, no `Send` takes the id of one
that is not finished, and a reply goes to the callback of its request. -/
structure Matched (s : Served) : Prop where
  distinct : ∀ sent ∈ s.sent, ∀ sent' ∈ s.sent, s.isWaiting sent.call = true →
    s.isWaiting sent'.call = true → sent.messageId = sent'.messageId →
      sent = sent'
  overwriting : s.overwriting = []
  answered : ∀ entry ∈ s.answered, entry.2 = entry.1

end Served

/-! ## What a step leaves open -/

namespace TcpClient

variable {s t : TcpClient} {action : Action}

/-- The timers take a step of an alarm, or none; the alarm of a request is
started by the I/O thread that has it in hand. -/
theorem timers_step (hs : s.step action = some t) :
    t.timers = s.timers ∨ ∃ a, s.timers.step a = some t.timers ∧
      ∀ alarm afterSec, a = .start (.request alarm) afterSec →
        ∃ readable written, s.io = .startAlarm readable written alarm := by
  have cancelTimer (u : TcpClient) (messageId : UInt16) :
      (u.cancelTimer messageId).timers = u.timers ∨
        ∃ a, u.timers.step a = some (u.cancelTimer messageId).timers ∧
          ∀ alarm afterSec, a ≠ .start (.request alarm) afterSec := by
    unfold TcpClient.cancelTimer
    split
    · rw [release_timers]
      exact .inr ⟨_, step_cancel _ _, by simp⟩
    · exact .inl rfl
  cases action with
  | user call =>
      cases userStep_cases hs with
      | enterSend type payload data hasCallback hfree =>
          obtain ⟨mutex, calls, invoked, heq⟩ :=
            s.enterSend_eq type payload data hasCallback
          rw [heq]
          exact .inl rfl
      | enterPush message hfree =>
          obtain ⟨mutex, calls, heq⟩ := s.enterPush_eq message
          rw [heq]
          exact .inl rfl
      | inside next hcall hmutex => exact .inl (s.proceed_timers .user next)
      | _ => exact .inl rfl
  | io event =>
      cases ioStep_cases hs with
      | alarm action timers io halarm hstep =>
          refine .inr ⟨action, hstep, ?_⟩
          rintro alarm afterSec rfl
          generalize s.io = pc at halarm
          cases halarm
      | timer u io htimer =>
          cases htimer with
          | takeAlarm readable written hio =>
              obtain ⟨pool, created, heq⟩ := s.takeAlarm_eq
              rw [heq]
              exact .inl rfl
          | startAlarm readable written alarm hio =>
              refine .inr ⟨_, step_start _ _ _, ?_⟩
              rintro _ _ ⟨⟩
              exact ⟨readable, written, hio⟩
          | recordAlarm readable written alarm hio hfree =>
              obtain ⟨map, pool, heq⟩ := s.recordAlarm_eq written alarm
              rw [heq]
              exact .inl rfl
          | cancelTimer messageId hio hfree =>
              rcases cancelTimer s messageId with hsame | ⟨a, ha, hnot⟩
              · exact .inl hsame
              · exact .inr ⟨a, ha, fun alarm afterSec heq =>
                  absurd heq (hnot alarm afterSec)⟩
      | inside next hio hmutex => exact .inl (s.proceed_timers .io next)
      | _ => exact .inl rfl
  | queue =>
      cases queueStep_cases hs with
      | loop timers hcallback hstep =>
          refine .inr ⟨_, hstep, ?_⟩
          unfold loopAction
          split <;> rintro _ _ ⟨⟩
      | returned timers hcallback hstep =>
          have hreturned : s.timers.step .returned = some timers := hstep
          exact .inr ⟨_, hreturned, by simp⟩
      | timer u callback htimer =>
          cases htimer with
          | eraseTimer messageId start hcallback =>
              exact .inl (s.release_timers messageId)
          | cancelTimer session messageIds messageId rest hcallback hkeys =>
              obtain ⟨canceled, heq⟩ := s.loseTimer_eq session messageId
              rw [heq]
              rcases cancelTimer { s with history := { s.history with canceled } }
                messageId with hsame | ⟨a, ha, hnot⟩
              · exact .inl hsame
              · exact .inr ⟨a, ha, fun alarm afterSec heq =>
                  absurd heq (hnot alarm afterSec)⟩
      | inside next hcallback hmutex => exact .inl (s.proceed_timers .queue next)
      | _ => exact .inl rfl
  | tick nanoseconds =>
      cases hs
      have htick : s.timers.step (.tick nanoseconds) = some
          { s.timers with now := s.timers.now + nanoseconds } := rfl
      exact .inr ⟨_, htick, by simp⟩
  | pipes ok =>
      cases hs
      exact .inl rfl

theorem waiting_before (hs : s.step action = some t) {alarm : Nat}
    (hwaiting : (t.timers.alarms (.request alarm)).isWaiting = true) :
    (s.timers.alarms (.request alarm)).isWaiting = true ∨
      ∃ readable written, s.io = .startAlarm readable written alarm := by
  rcases timers_step hs with heq | ⟨a, ha, hstart⟩
  · exact .inl (heq ▸ hwaiting)
  · rcases Alarms.waiting_step ha hwaiting with ⟨hold, -⟩ | ⟨afterSec, heq, -⟩
    · exact .inl hold
    · exact .inr (hstart alarm afterSec heq)

theorem times_eq_true_iff (s : TcpClient) (written : Written) :
    s.times written = true ↔ ∃ alarm,
      s.timeoutAlarmMap[written.messageId]? = some { alarm, call := written.call } ∧
        (s.timers.alarms (.request alarm)).isWaiting = true := by
  unfold times
  cases htimer : s.timeoutAlarmMap[written.messageId]? with
  | none => simp
  | some timer =>
      simp only [Option.any_some, Bool.and_eq_true, decide_eq_true_eq,
        Option.some.injEq]
      constructor
      · rintro ⟨hcall, hwaiting⟩
        exact ⟨timer.alarm, by rw [← hcall], hwaiting⟩
      · rintro ⟨alarm, rfl, hwaiting⟩
        exact ⟨rfl, hwaiting⟩

theorem times_before (hs : s.step action = some t) (hpooled : Pooled s)
    {written : Written} (htimes : t.times written = true) :
    s.times written = true ∨ s.io.written? = some written := by
  obtain ⟨alarm, hmap, hwaiting⟩ := (t.times_eq_true_iff written).mp htimes
  have hold (hbefore : s.timeoutAlarmMap[written.messageId]? =
      some { alarm, call := written.call }) : s.times written = true := by
    refine (s.times_eq_true_iff written).mpr ⟨alarm, hbefore, ?_⟩
    rcases waiting_before hs hwaiting with hwas | ⟨readable, written', hio⟩
    · exact hwas
    · have hhand : s.alarmAt .io = some alarm := by simp [alarmAt, hio, IoPc.alarm?]
      have hplace : s.alarmAt (.map written.messageId) = some alarm := by
        simp [alarmAt, hbefore]
      cases hpooled.linear.unique .io (.map written.messageId) alarm hhand hplace
  cases BookCases.of_step hs with
  | register holder call hasCallback sendReq hthread hmutex heq =>
      subst heq
      exact .inl (hold hmap)
  | record readable written' alarm' hthread hio hfree h =>
      rw [h.timeoutAlarmMap, timer_recordAlarm] at hmap
      split at hmap
      · next hid =>
          simp only [Option.some.injEq, Timer.mk.injEq] at hmap
          have heq : written' = written := by
            obtain ⟨call, messageId⟩ := written
            obtain ⟨call', messageId'⟩ := written'
            exact congrArg₂ Written.mk hmap.2 hid.symm
          exact .inr (by rw [hio, heq]; rfl)
      · exact .inl (hold hmap)
  | erase messageId hfree hmap' h =>
      rw [hmap'] at hmap
      split at hmap
      · cases hmap
      · exact .inl (hold hmap)
  | same h | issue h | connect _ _ _ _ h | flagReadWrite _ _ _ h
    | flagConnect _ _ _ h | push _ _ _ _ _ _ _ h | drop _ h =>
      rw [h.timeoutAlarmMap] at hmap
      exact .inl (hold hmap)

theorem registering?_eq_some {call : Nat} (h : s.registering? = some call) :
    ∃ holder hasCallback sendReq,
      s.mutex = some (holder, .register call hasCallback sendReq) := by
  unfold registering? at h
  split at h <;> cases h
  exact ⟨_, _, _, ‹_›⟩

theorem pushing?_eq_some {call : Nat} (h : s.pushing? = some call) :
    ∃ holder sendReq, s.mutex = some (holder, .pushSendReq call sendReq) := by
  unfold pushing? at h
  split at h <;> cases h
  exact ⟨_, _, ‹_›⟩

theorem pushing_before (hs : s.step action = some t) {call : Nat}
    (hpushing : t.pushing? = some call) :
    s.pushing? = some call ∨ ∃ holder hasCallback sendReq,
      action.thread? = some holder ∧
        s.mutex = some (holder, .register call hasCallback sendReq) := by
  obtain ⟨holder, sendReq, hnext⟩ := pushing?_eq_some hpushing
  cases BookCases.of_step hs with
  | register holder' call' hasCallback sendReq' hthread hmutex heq =>
      subst heq
      cases hnext
      exact .inr ⟨_, hasCallback, _, hthread, hmutex⟩
  | issue h hmessage => exact absurd rfl ((hmessage _ _ _ hnext rfl).2 sendReq)
  | record readable written alarm hthread hio hfree h =>
      have hbefore := h.message _ _ _ hnext rfl
      obtain ⟨map, pool, heq⟩ := s.recordAlarm_eq written alarm
      rw [heq] at hbefore
      exact .inl (by rw [pushing?, hbefore])
  | push holder' next call' message currentMsgId hmutex hcall h =>
      cases h.message _ _ _ hnext rfl
  | same h | connect _ _ _ _ h | flagReadWrite _ _ _ h | flagConnect _ _ _ h
    | erase _ _ _ h | drop _ h =>
      have hbefore : s.mutex = some (holder, .pushSendReq call sendReq) :=
        h.message _ _ _ hnext rfl
      exact .inl (by rw [pushing?, hbefore])

theorem queue_before (hs : s.step action = some t) {queued : Queued}
    (hqueued : queued ∈ t.messageQueue) : queued ∈ s.messageQueue ∨
      (∃ holder call sendReq, s.mutex = some (holder, .pushSendReq call sendReq) ∧
        queued = ⟨call, .sendReq { sendReq with messageId := s.currentMsgId }⟩) ∨
      ∃ holder call message, s.mutex = some (holder, .pushMessage call message) ∧
        queued = ⟨call, message⟩ := by
  have proceed {holder : Holder} {next : Section}
      (hmutex : s.mutex = some (holder, next))
      (hqueued : queued ∈ (s.proceed holder next).messageQueue) :
      queued ∈ s.messageQueue ∨
      (∃ holder call sendReq, s.mutex = some (holder, .pushSendReq call sendReq) ∧
        queued = ⟨call, .sendReq { sendReq with messageId := s.currentMsgId }⟩) ∨
      ∃ holder call message, s.mutex = some (holder, .pushMessage call message) ∧
        queued = ⟨call, message⟩ := by
    cases next with
    | connect =>
        simp only [TcpClient.proceed] at hqueued
        split at hqueued
        · exact .inl hqueued
        · cases hqueued
    | pushSendReq call sendReq =>
        rcases List.mem_append.mp hqueued with hold | hnew
        · exact .inl hold
        · exact .inr (.inl ⟨holder, call, sendReq, hmutex, List.mem_singleton.mp hnew⟩)
    | pushMessage call message =>
        rcases List.mem_append.mp hqueued with hold | hnew
        · exact .inl hold
        · exact .inr (.inr ⟨holder, call, message, hmutex, List.mem_singleton.mp hnew⟩)
    | _ => exact .inl hqueued
  cases action with
  | user call =>
      cases userStep_cases hs with
      | enterSend type payload data hasCallback hfree =>
          obtain ⟨mutex, calls, invoked, heq⟩ :=
            s.enterSend_eq type payload data hasCallback
          rw [heq] at hqueued
          exact .inl hqueued
      | enterPush message hfree =>
          obtain ⟨mutex, calls, heq⟩ := s.enterPush_eq message
          rw [heq] at hqueued
          exact .inl hqueued
      | inside next hcall hmutex => exact proceed hmutex hqueued
      | _ => exact .inl hqueued
  | io event =>
      cases ioStep_cases hs with
      | timer u io htimer =>
          obtain ⟨timers, map, pool, created, armed, rfl⟩ := htimer.eq
          exact .inl hqueued
      | pop readable hio hmutex => exact .inl (List.mem_of_mem_tail hqueued)
      | inside next hio hmutex => exact proceed hmutex hqueued
      | _ => exact .inl hqueued
  | queue =>
      cases queueStep_cases hs with
      | timer u callback htimer =>
          obtain ⟨timers, map, pool, canceled, rfl⟩ := htimer.eq
          exact .inl hqueued
      | inside next hcallback hmutex => exact proceed hmutex hqueued
      | _ => exact .inl hqueued
  | tick nanoseconds =>
      cases hs
      exact .inl hqueued
  | pipes ok =>
      cases hs
      exact .inl hqueued

theorem queues_eq_true_iff (s : TcpClient) (written : Written) :
    s.queues written = true ↔ ∃ queued ∈ s.messageQueue, ∃ sendReq,
      queued.call = written.call ∧ queued.message = .sendReq sendReq ∧
        sendReq.messageId = written.messageId := by
  simp only [queues, List.any_eq_true, Bool.and_eq_true, decide_eq_true_eq]
  constructor
  · rintro ⟨queued, hqueued, hcall, hid⟩
    split at hid
    · next sendReq hmessage =>
        exact ⟨queued, hqueued, sendReq, hcall, hmessage, of_decide_eq_true hid⟩
    · cases hid
  · rintro ⟨queued, hqueued, sendReq, hcall, hmessage, hid⟩
    refine ⟨queued, hqueued, hcall, ?_⟩
    rw [hmessage]
    exact decide_eq_true hid

theorem queues_before (hs : s.step action = some t) (hids : MessageIds s)
    {written : Written} (hqueues : t.queues written = true) :
    s.queues written = true ∨
      s.pushing? = some written.call ∧ written.messageId = s.currentMsgId ∨
      written.messageId = 0 := by
  obtain ⟨queued, hqueued, sendReq, hcall, hmessage, hid⟩ :=
    (t.queues_eq_true_iff written).mp hqueues
  rcases queue_before hs hqueued with hold | ⟨holder, call, sendReq', hmutex, rfl⟩ |
      ⟨holder, call, message, hmutex, rfl⟩
  · exact .inl ((s.queues_eq_true_iff written).mpr
      ⟨queued, hold, sendReq, hcall, hmessage, hid⟩)
  · cases hmessage
    subst hcall
    exact .inr (.inl ⟨by rw [pushing?, hmutex], hid.symm⟩)
  · dsimp only at hmessage
    subst hmessage
    exact .inr (.inr (hid.symm.trans (hids.noReply holder call sendReq hmutex)))

theorem timer_before (hs : s.step action = some t) {messageId : UInt16} {timer : Timer}
    (htimer : t.timeoutAlarmMap[messageId]? = some timer) :
    s.timeoutAlarmMap[messageId]? = some timer ∨
      s.io.written? = some { call := timer.call, messageId } := by
  cases BookCases.of_step hs with
  | register holder call hasCallback sendReq hthread hmutex heq =>
      subst heq
      exact .inl htimer
  | record readable written alarm hthread hio hfree h =>
      rw [h.timeoutAlarmMap, timer_recordAlarm] at htimer
      split at htimer
      · next hid =>
          cases htimer
          exact .inr (by rw [hio, IoPc.written?, hid])
      · exact .inl htimer
  | erase messageId' hfree hmap h =>
      rw [hmap] at htimer
      split at htimer
      · cases htimer
      · exact .inl htimer
  | same h | issue h | connect _ _ _ _ h | flagReadWrite _ _ _ h
    | flagConnect _ _ _ h | push _ _ _ _ _ _ _ h | drop _ h =>
      rw [h.timeoutAlarmMap] at htimer
      exact .inl htimer

/-- The message id of the `Send` behind one with that id. -/
def nextMsgId (messageId : UInt16) : UInt16 :=
  if messageId + 1 = 0xFFFF then 1 else messageId + 1

theorem lock_step (hs : s.step action = some t) :
    (t.mutex = s.mutex ∨ s.mutex = none) ∧ t.currentMsgId = s.currentMsgId ∧
        t.history.sessions = s.history.sessions ∨
      ∃ holder next, s.mutex = some (holder, next) ∧ t = s.proceed holder next := by
  cases action with
  | user call =>
      cases userStep_cases hs with
      | enterConnect hfree => exact .inl ⟨.inr hfree, rfl, rfl⟩
      | enterDisconnect code shouldReconnect hfree => exact .inl ⟨.inr hfree, rfl, rfl⟩
      | enterSend type payload data hasCallback hfree =>
          refine .inl ⟨.inr hfree, ?_⟩
          obtain ⟨mutex, calls, invoked, heq⟩ :=
            s.enterSend_eq type payload data hasCallback
          rw [heq]
          exact ⟨rfl, rfl⟩
      | enterPush message hfree =>
          refine .inl ⟨.inr hfree, ?_⟩
          obtain ⟨mutex, calls, heq⟩ := s.enterPush_eq message
          rw [heq]
          exact ⟨rfl, rfl⟩
      | inside next hcall hmutex => exact .inr ⟨.user, next, hmutex, rfl⟩
  | io event =>
      cases ioStep_cases hs with
      | timer u io htimer =>
          obtain ⟨timers, map, pool, created, armed, rfl⟩ := htimer.eq
          exact .inl ⟨.inl rfl, rfl, rfl⟩
      | enter hio hfree => exact .inl ⟨.inr hfree, rfl, rfl⟩
      | inside next hio hmutex => exact .inr ⟨.io, next, hmutex, rfl⟩
      | _ => exact .inl ⟨.inl rfl, rfl, rfl⟩
  | queue =>
      cases queueStep_cases hs with
      | timer u callback htimer =>
          obtain ⟨timers, map, pool, canceled, rfl⟩ := htimer.eq
          exact .inl ⟨.inl rfl, rfl, rfl⟩
      | enterDisconnect hcallback hfree => exact .inl ⟨.inr hfree, rfl, rfl⟩
      | enterConnect hcallback hfree => exact .inl ⟨.inr hfree, rfl, rfl⟩
      | inside next hcallback hmutex => exact .inr ⟨.queue, next, hmutex, rfl⟩
      | _ => exact .inl ⟨.inl rfl, rfl, rfl⟩
  | tick nanoseconds =>
      cases hs
      exact .inl ⟨.inl rfl, rfl, rfl⟩
  | pipes ok =>
      cases hs
      exact .inl ⟨.inl rfl, rfl, rfl⟩

theorem currentMsgId_step (hs : s.step action = some t) :
    t.currentMsgId = s.currentMsgId ∧ (s.pushing?.isSome = true → t.pushing? = s.pushing?) ∨
      s.pushing?.isSome = true ∧ t.pushing? = none ∧
        t.currentMsgId = nextMsgId s.currentMsgId := by
  rcases lock_step hs with ⟨hmutex, hid, -⟩ | ⟨holder, next, hmutex, rfl⟩
  · refine .inl ⟨hid, fun hsome => ?_⟩
    rcases hmutex with heq | hfree
    · unfold pushing?
      rw [heq]
    · simp [pushing?, hfree] at hsome
  · cases next with
    | pushSendReq call sendReq =>
        exact .inr ⟨by rw [pushing?, hmutex]; rfl, rfl, rfl⟩
    | connect =>
        refine .inl ⟨?_, by simp [pushing?, hmutex]⟩
        simp only [proceed]
        split <;> rfl
    | _ => exact .inl ⟨rfl, by simp [pushing?, hmutex]⟩

theorem sessions_step (hs : s.step action = some t) :
    t.history.sessions = s.history.sessions ∨ t.io = .start := by
  rcases lock_step hs with ⟨-, -, hsessions⟩ | ⟨holder, next, -, rfl⟩
  · exact .inl hsessions
  · cases next with
    | connect =>
        simp only [proceed]
        split
        · exact .inl rfl
        · exact .inr rfl
    | _ => exact .inl rfl

theorem registering_before (hs : s.step action = some t) {call : Nat}
    (hregistering : t.registering? = some call) :
    s.registering? = some call ∨ call = s.history.calls := by
  obtain ⟨holder, hasCallback, sendReq, hnext⟩ := registering?_eq_some hregistering
  cases BookCases.of_step hs with
  | register holder' call' hasCallback' sendReq' hthread hmutex heq =>
      subst heq
      cases hnext
  | issue h hmessage => exact .inr (hmessage _ _ _ hnext rfl).1
  | record readable written alarm hthread hio hfree h =>
      have hbefore := h.message _ _ _ hnext rfl
      obtain ⟨map, pool, heq⟩ := s.recordAlarm_eq written alarm
      rw [heq] at hbefore
      exact .inl (by rw [registering?, hbefore])
  | push holder' next call' message currentMsgId hmutex hcall h =>
      cases h.message _ _ _ hnext rfl
  | same h | connect _ _ _ _ h | flagReadWrite _ _ _ h | flagConnect _ _ _ h
    | erase _ _ _ h | drop _ h =>
      have hbefore : s.mutex = some (holder, .register call hasCallback sendReq) :=
        h.message _ _ _ hnext rfl
      exact .inl (by rw [registering?, hbefore])

theorem calls_le (hs : s.step action = some t) : s.history.calls ≤ t.history.calls := by
  cases BookCases.of_step hs with
  | register holder call hasCallback sendReq hthread hmutex heq =>
      subst heq
      exact Nat.le_refl _
  | issue h hmessage =>
      rw [h.calls]
      exact Nat.le_succ _
  | record readable written alarm hthread hio hfree h =>
      obtain ⟨map, pool, heq⟩ := s.recordAlarm_eq written alarm
      rw [heq] at h
      exact Nat.le_of_eq h.calls.symm
  | same h | connect _ _ _ _ h | flagReadWrite _ _ _ h | flagConnect _ _ _ h
    | push _ _ _ _ _ _ _ h | erase _ _ _ h | drop _ h =>
      exact Nat.le_of_eq h.calls.symm

theorem ioStep_encode {event : IoEvent} {readable : Bool}
    (hio : s.io = .encode readable) (hs : s.ioStep event = some t) :
    t.io = .leave ∨ event = .encoded true ∧ s.encoded readable = some t := by
  unfold ioStep at hs
  rw [hio] at hs
  cases event with
  | encoded ok =>
      cases ok with
      | false =>
          cases hs
          exact .inl rfl
      | true => exact .inr ⟨rfl, hs⟩
  | _ => cases hs

theorem ioStep_read {event : IoEvent} (hio : s.io = .read true)
    (hs : s.ioStep event = some t) :
    t.io = .leave ∨ ∃ message, event = .received (some message) ∧
      t = s.received message := by
  unfold ioStep at hs
  rw [hio] at hs
  cases event with
  | received message =>
      cases message with
      | none =>
          cases hs
          exact .inl rfl
      | some message =>
          cases hs
          exact .inr ⟨message, rfl, rfl⟩
  | _ => cases hs

theorem written_before (hs : s.step action = some t) {written : Written}
    (hwritten : t.io.written? = some written) : s.io.written? = some written ∨
      action = .io (.encoded true) ∧ ∃ readable sendReq rest,
        s.io = .encode readable ∧
          s.messageQueue = ⟨written.call, .sendReq sendReq⟩ :: rest ∧
          sendReq.messageId = written.messageId := by
  rcases io_step hs with hsame | hstart | ⟨event, rfl, hstep⟩
  · rw [hsame] at hwritten
    exact .inl hwritten
  · rw [hstart] at hwritten
    cases hwritten
  · cases ioStep_cases hstep with
    | move io hmove => cases hmove.written.symm.trans hwritten
    | alarm action timers io halarm => exact .inl (halarm.written.symm.trans hwritten)
    | status status io hstatus => cases hstatus.written.symm.trans hwritten
    | timer u io htimer => exact .inl (htimer.written hwritten)
    | encode readable queued rest hio hqueue =>
        obtain ⟨call, message⟩ := queued
        rcases ioStep_encode hio hstep with hleave | ⟨rfl, -⟩
        · rw [hleave] at hwritten
          cases hwritten
        · simp only [behindEncode] at hwritten
          split at hwritten <;> cases hwritten
          exact .inr ⟨rfl, readable, _, rest, hio, hqueue, rfl⟩
    | inside next hio hmutex =>
        rcases s.io_proceed .io next with hsame | hstart
        · rw [hsame] at hwritten
          exact .inl hwritten
        · rw [hstart] at hwritten
          cases hwritten
    | _ => cases hwritten

theorem read_of_received {message : Option MessageBase}
    (hs : s.step (.io (.received message)) = some t) : s.io = .read true := by
  have hstep : s.ioStep (.received message) = some t := hs
  unfold ioStep at hstep
  cases hio : s.io with
  | read readable =>
      rw [hio] at hstep
      cases readable with
      | false => cases hstep
      | true => rfl
  | _ =>
      rw [hio] at hstep
      cases hstep

theorem cancelTimer_before (hs : s.step action = some t) {messageId : UInt16}
    (hio : t.io = .cancelTimer messageId) : s.io = .cancelTimer messageId ∨
      ∃ sendResp, action = .io (.received (some (.sendResp sendResp))) ∧
        sendResp.messageId = messageId := by
  rcases io_step hs with hsame | hstart | ⟨event, rfl, hstep⟩
  · exact .inl (hsame.symm.trans hio)
  · cases hstart.symm.trans hio
  · cases ioStep_cases hstep with
    | move io hmove =>
        cases hio
        cases hmove with
        | sendResp _ hread =>
            rcases ioStep_read hread hstep with hleave | ⟨message, rfl, heq⟩
            · cases hleave
            · have hreceived := congrArg TcpClient.io heq
              unfold received at hreceived
              split at hreceived
              · cases hreceived
              · cases hreceived
                exact .inr ⟨_, rfl, rfl⟩
              · split at hreceived <;> cases hreceived
              · cases hreceived
    | alarm alarmAction timers io halarm =>
        cases hio
        generalize s.io = pc at halarm
        cases halarm
    | status status io hstatus =>
        cases hio
        generalize s.io = pc at hstatus
        cases hstatus
    | timer u io htimer =>
        cases hio
        cases htimer
    | encode readable queued rest hencode hqueue =>
        simp only [behindEncode] at hio
        split at hio <;> cases hio
    | inside next hdisconnecting hmutex =>
        rcases s.io_proceed .io next with hsame | hstart
        · exact .inl (hsame.symm.trans hio)
        · cases hstart.symm.trans hio
    | _ => cases hio

theorem getCallback_before (hs : s.step action = some t) {messageId : UInt16}
    (hio : t.io = .getCallback messageId) :
    s.io = .getCallback messageId ∧ (∀ event, action ≠ .io event) ∨
      s.io = .cancelTimer messageId := by
  have stays (hsame : t.io = s.io) : ∀ event, action ≠ .io event := by
    rintro event rfl
    have hbefore : s.io = .getCallback messageId := hsame.symm.trans hio
    have hstep : s.ioStep event = some t := hs
    unfold ioStep at hstep
    rw [hbefore] at hstep
    cases event <;> dsimp only at hstep <;> try cases hstep
    split at hstep <;> cases hstep <;> cases hio
  rcases io_step hs with hsame | hstart | ⟨event, rfl, hstep⟩
  · exact .inl ⟨hsame.symm.trans hio, stays hsame⟩
  · cases hstart.symm.trans hio
  · refine .inr ?_
    cases ioStep_cases hstep with
    | move io hmove =>
        cases hio
        cases hmove
    | alarm alarmAction timers io halarm =>
        cases hio
        generalize s.io = pc at halarm
        cases halarm
    | status status io hstatus =>
        cases hio
        generalize s.io = pc at hstatus
        cases hstatus
    | timer u io htimer =>
        cases hio
        cases htimer with
        | cancelTimer messageId hbefore hfree => exact hbefore
    | encode readable queued rest hencode hqueue =>
        simp only [behindEncode] at hio
        split at hio <;> cases hio
    | inside next hdisconnecting hmutex =>
        rcases s.io_proceed .io next with hsame | hstart
        · cases hdisconnecting.symm.trans (hsame.symm.trans hio)
        · cases hstart.symm.trans hio
    | _ => cases hio

theorem proceed_of_user {next : Section} (hs : s.step action = some t)
    (hthread : action.thread? = some .user) (hmutex : s.mutex = some (.user, next)) :
    action = .user .proceed := by
  cases action with
  | user call =>
      cases userStep_cases hs with
      | inside next' hcall => rw [hcall]
      | enterConnect hfree => cases hfree.symm.trans hmutex
      | enterDisconnect code shouldReconnect hfree => cases hfree.symm.trans hmutex
      | enterSend type payload data hasCallback hfree => cases hfree.symm.trans hmutex
      | enterPush message hfree => cases hfree.symm.trans hmutex
  | _ => cases hthread

theorem pushing?_of_registering {call : Nat} (h : s.registering? = some call) :
    s.pushing? = none := by
  obtain ⟨holder, hasCallback, sendReq, hmutex⟩ := registering?_eq_some h
  rw [pushing?, hmutex]

theorem register_step {call : Nat} (hs : s.step (.user .proceed) = some t)
    (h : s.registering? = some call) :
    t.pushing? = some call ∧ t.currentMsgId = s.currentMsgId ∧
      t.registering? = none ∧ t.history.calls = s.history.calls := by
  obtain ⟨holder, hasCallback, sendReq, hmutex⟩ := registering?_eq_some h
  have hstep : s.userStep .proceed = some t := hs
  unfold userStep at hstep
  rw [hmutex] at hstep
  cases holder <;> cases hstep
  exact ⟨rfl, rfl, rfl, rfl⟩

theorem toNat_nextMsgId {messageId : UInt16} {n : Nat}
    (h : messageId.toNat = 1 + n % 65534) :
    (nextMsgId messageId).toNat = 1 + (n + 1) % 65534 := by
  have hnext : (messageId + 1).toNat = messageId.toNat + 1 := by
    rw [UInt16.toNat_add, UInt16.toNat_one, Nat.mod_eq_of_lt (by omega)]
  unfold nextMsgId
  split
  · next hmax =>
      have hlast := congrArg UInt16.toNat hmax
      rw [hnext] at hlast
      change _ = 65535 at hlast
      change 1 = _
      omega
  · next hmax =>
      have hne : messageId.toNat + 1 ≠ 65535 := fun heq =>
        hmax (UInt16.toNat_inj.mp (hnext.trans heq))
      omega

end TcpClient

namespace Served

variable {s t : Served} {action : ServedAction}

/-! ## What a step writes down -/

/-- The step is that one of the client. -/
structure Recorded (s : Served) (action : ServedAction) (a : Action) (t : Served) :
    Prop where
  step : s.client.step a = some t.client
  proceed : a = .user .proceed → action = .client (.user .proceed)
  received : t.received = s.receivedNext a t.client
  answered : t.answered = s.answeredNext a
  sent : t.sent = s.sent ∧ t.overwriting = s.overwriting ∧
      (a = .user .proceed → s.client.registering? = none) ∨
    a = .user .proceed ∧ ∃ call, s.client.registering? = some call ∧
      t.sent = { call, number := s.sent.length
                 messageId := s.client.currentMsgId } :: s.sent ∧
      t.overwriting =
        if s.client.idInUse s.client.currentMsgId then call :: s.overwriting
        else s.overwriting
  answering : t.answering = s.answering ∧
      (∀ sendResp, a ≠ .io (.received (some (.sendResp sendResp)))) ∨
    ∃ sendResp, a = .io (.received (some (.sendResp sendResp))) ∧
      ∃ written ∈ s.received, sendResp.messageId = written.messageId ∧
        t.answering = some written

private theorem record_sent (s : Served) (a : Action) (client : TcpClient) :
    (s.record a client).client = client ∧
    (s.record a client).answering = s.answering ∧
    (s.record a client).received = s.receivedNext a client ∧
    (s.record a client).answered = s.answeredNext a ∧
    ((s.record a client).sent = s.sent ∧
        (s.record a client).overwriting = s.overwriting ∧
        (a = .user .proceed → s.client.registering? = none) ∨
      a = .user .proceed ∧ ∃ call, s.client.registering? = some call ∧
        (s.record a client).sent =
          { call, number := s.sent.length
            messageId := s.client.currentMsgId } :: s.sent ∧
        (s.record a client).overwriting =
          if s.client.idInUse s.client.currentMsgId then call :: s.overwriting
          else s.overwriting) := by
  unfold record
  dsimp only
  split
  · next call hcall => exact ⟨rfl, rfl, rfl, rfl, .inr ⟨rfl, call, hcall, rfl, rfl⟩⟩
  · next hnot =>
      refine ⟨rfl, rfl, rfl, rfl, .inl ⟨rfl, rfl, fun hproceed => ?_⟩⟩
      by_contra hsome
      obtain ⟨call, hcall⟩ := Option.ne_none_iff_exists'.mp hsome
      exact hnot call hproceed hcall

theorem Recorded.of_step (hs : s.step action = some t) :
    ∃ a, Recorded s action a t := by
  unfold Served.step at hs
  split at hs
  · cases hs
  · next a hnot =>
      obtain ⟨client, hclient, rfl⟩ := Option.map_eq_some_iff.mp hs
      obtain ⟨heq, hanswering, hreceived, hanswered, hsent⟩ := s.record_sent a client
      refine ⟨a, by rw [heq]; exact hclient, ?_, by rw [heq]; exact hreceived,
        hanswered, hsent, .inl ⟨hanswering, ?_⟩⟩
      · rintro rfl
        rfl
      · rintro sendResp rfl
        exact hnot sendResp rfl
  · next written sendResp =>
      split at hs
      · next hreply =>
          obtain ⟨client, hclient, rfl⟩ := Option.map_eq_some_iff.mp hs
          obtain ⟨heq, -, hreceived, hanswered, hsent⟩ :=
            s.record_sent (.io (.received (some (.sendResp sendResp)))) client
          refine ⟨_, ?_, by rintro ⟨⟩, ?_, hanswered, hsent,
            .inr ⟨sendResp, rfl, written, hreply.1, hreply.2, rfl⟩⟩
          · dsimp only
            rw [heq]
            exact hclient
          · dsimp only
            rw [heq]
            exact hreceived
      · cases hs

theorem isOpen_eq_true_iff (s : Served) (sent : Sent) :
    s.isOpen sent = true ↔
      s.client.callback? sent.messageId = some sent.call ∨
        s.client.pushing? = some sent.call ∨
        s.client.queues sent.written = true ∨
        s.client.times sent.written = true ∨ sent.written ∈ s.received := by
  simp [isOpen, or_assoc]

theorem received_before {a : Action} {client : TcpClient} {written : Written}
    (hwritten : written ∈ s.receivedNext a client) :
    written ∈ s.received ∨ s.client.queues written = true := by
  unfold receivedNext at hwritten
  split at hwritten
  · cases hwritten
  · split at hwritten
    · next call sendReq rest hio hqueue =>
        rcases List.mem_cons.mp hwritten with rfl | hold
        · refine .inr ((s.client.queues_eq_true_iff _).mpr
            ⟨⟨call, .sendReq sendReq⟩, ?_, sendReq, rfl, rfl, rfl⟩)
          rw [hqueue]
          exact List.mem_cons_self
        · exact .inl hold
    · exact .inl (List.mem_of_mem_erase hwritten)
    · exact .inl hwritten

theorem mem_receivedNext {a : Action} {client : TcpClient} {written : Written}
    (hwritten : written ∈ s.received)
    (hsessions : client.history.sessions = s.client.history.sessions)
    (hnot : ∀ event messageId, a = .io event →
      s.client.io ≠ .getCallback messageId) :
    written ∈ s.receivedNext a client := by
  unfold receivedNext
  rw [if_neg (not_not.mpr hsessions)]
  split
  · exact List.mem_cons_of_mem _ hwritten
  · next event messageId _ hio _ => exact absurd hio (hnot event messageId rfl)
  · exact hwritten

/-! ## What every run keeps -/

/-- Some `Send` has that call and that id. -/
def Knows (s : Served) (written : Written) : Prop :=
  ∃ sent ∈ s.sent, sent.written = written

structure Matching (s : Served) : Prop where
  numbers : ∀ sent ∈ s.sent, sent.number < s.sent.length ∧
    sent.messageId.toNat = 1 + sent.number % 65534
  unique : ∀ sent ∈ s.sent, ∀ sent' ∈ s.sent,
    sent.number = sent'.number ∨ sent.call = sent'.call → sent = sent'
  calls : ∀ sent ∈ s.sent, sent.call < s.client.history.calls ∧
    s.client.registering? ≠ some sent.call
  next : s.client.pushing? = none →
    s.client.currentMsgId.toNat = 1 + s.sent.length % 65534
  pushing : ∀ call, s.client.pushing? = some call → ∃ sent ∈ s.sent,
    sent.written = { call, messageId := s.client.currentMsgId } ∧
      sent.number + 1 = s.sent.length
  callbacks : ∀ messageId call, s.client.callback? messageId = some call →
    s.Knows { call, messageId }
  queued : ∀ written, s.client.queues written = true →
    written.messageId = 0 ∨ s.Knows written
  received : ∀ written ∈ s.received, written.messageId = 0 ∨ s.Knows written
  timers : ∀ (messageId : UInt16) (timer : Timer),
    s.client.timeoutAlarmMap[messageId]? = some timer →
      messageId = 0 ∨ s.Knows { call := timer.call, messageId }
  hand : ∀ written, s.client.io.written? = some written → written ∈ s.received
  answering : ∀ messageId,
    s.client.io = .cancelTimer messageId ∨ s.client.io = .getCallback messageId →
      ∃ written ∈ s.received, s.answering = some written ∧
        written.messageId = messageId
  window : ∀ sent ∈ s.sent, s.isOpen sent = true →
    s.sent.length ≤ sent.number + 65534
  kept : ∀ entry ∈ s.client.history.registered, s.client.ledger.Kept entry.1
  overwriting : s.overwriting = []
  answered : ∀ entry ∈ s.answered, entry.2 = entry.1

theorem client_reachable {ok : Served → ServedAction → Prop}
    (h : Reachable Served.step ok {} s) :
    Reachable TcpClient.step AnyStep .init s.client :=
  h.project Served.client fun _ _ _ _ _ hs => by
    obtain ⟨a, hr⟩ := Recorded.of_step hs
    exact .single a trivial hr.step

namespace Matching

variable {a : Action}

theorem init : Matching {} := by
  constructor <;>
    simp [TcpClient.init, TcpClient.pushing?, TcpClient.callback?, TcpClient.queues,
      IoPc.written?]

theorem ne_zero (h : Matching s) {sent : Sent} (hsent : sent ∈ s.sent) :
    sent.messageId ≠ 0 := by
  intro hzero
  have hid := (h.numbers sent hsent).2
  rw [hzero, UInt16.toNat_zero] at hid
  omega

theorem open_of_callback {sent : Sent} {written : Written}
    (heq : sent.written = written)
    (hcallback : s.client.callback? written.messageId = some written.call) :
    s.isOpen sent = true := by
  subst heq
  exact (s.isOpen_eq_true_iff sent).mpr (.inl hcallback)

theorem eq_of_open (h : Matching s) {sent sent' : Sent} (hsent : sent ∈ s.sent)
    (hsent' : sent' ∈ s.sent) (hid : sent.messageId = sent'.messageId)
    (hopen : s.isOpen sent = true) (hopen' : s.isOpen sent' = true) :
    sent = sent' := by
  obtain ⟨hlt, hnumber⟩ := h.numbers sent hsent
  obtain ⟨hlt', hnumber'⟩ := h.numbers sent' hsent'
  have hwindow := h.window sent hsent hopen
  have hwindow' := h.window sent' hsent' hopen'
  rw [hid] at hnumber
  refine h.unique sent hsent sent' hsent' (.inl ?_)
  omega

theorem open_before (h : Matching s)
    (hreach : Reachable TcpClient.step AnyStep .init s.client)
    (hr : Recorded s action a t) {sent : Sent} (hsent : sent ∈ s.sent)
    (hopen : t.isOpen sent = true) : s.isOpen sent = true := by
  rw [isOpen_eq_true_iff] at hopen ⊢
  have hregistering := (h.calls sent hsent).2
  rcases hopen with hcallback | hpushing | hqueues | htimes | hreceived
  · rcases (TcpClient.BookCases.of_step hr.step).callback hcallback with
      hold | ⟨-, -, holder, sendReq, -, hmutex⟩
    · exact .inl hold
    · exact absurd (by rw [TcpClient.registering?, hmutex]) hregistering
  · rcases TcpClient.pushing_before hr.step hpushing with
      hold | ⟨holder, hasCallback, sendReq, -, hmutex⟩
    · exact .inr (.inl hold)
    · exact absurd (by rw [TcpClient.registering?, hmutex]) hregistering
  · rcases TcpClient.queues_before hr.step (.of_reachable hreach) hqueues with
      hold | ⟨hpushing, -⟩ | hzero
    · exact .inr (.inr (.inl hold))
    · exact .inr (.inl hpushing)
    · exact absurd hzero (h.ne_zero hsent)
  · rcases TcpClient.times_before hr.step (.of_reachable hreach) htimes with
      hold | hhand
    · exact .inr (.inr (.inr (.inl hold)))
    · exact .inr (.inr (.inr (.inr (h.hand _ hhand))))
  · rw [hr.received] at hreceived
    rcases received_before hreceived with hold | hqueues
    · exact .inr (.inr (.inr (.inr hold)))
    · exact .inr (.inr (.inl hqueues))

/-! ### The next id -/

theorem not_open (h : Matching s) (hnone : s.client.pushing? = none)
    (hopens : ∀ sent ∈ s.sent, s.isOpen sent = true →
      s.sent.length < sent.number + 65534) {sent : Sent} (hsent : sent ∈ s.sent)
    (hid : sent.messageId = s.client.currentMsgId) : s.isOpen sent = false := by
  by_contra hopen
  rw [Bool.not_eq_false] at hopen
  obtain ⟨hlt, hnumber⟩ := h.numbers sent hsent
  have hnext := h.next hnone
  have hwindow := hopens sent hsent hopen
  rw [hid] at hnumber
  omega

theorem callback_eq_none (h : Matching s) (hnone : s.client.pushing? = none)
    (hopens : ∀ sent ∈ s.sent, s.isOpen sent = true →
      s.sent.length < sent.number + 65534) :
    s.client.callback? s.client.currentMsgId = none := by
  by_contra hsome
  obtain ⟨call, hcall⟩ := Option.ne_none_iff_exists'.mp hsome
  obtain ⟨sent, hsent, hwritten⟩ := h.callbacks _ call hcall
  have hopen : s.isOpen sent = true := open_of_callback hwritten hcall
  cases hopen.symm.trans
    (h.not_open hnone hopens hsent (congrArg Written.messageId hwritten))

theorem idInUse_eq_false (h : Matching s) (hids : TcpClient.MessageIds s.client)
    (hnone : s.client.pushing? = none)
    (hopens : ∀ sent ∈ s.sent, s.isOpen sent = true →
      s.sent.length < sent.number + 65534) :
    s.client.idInUse s.client.currentMsgId = false := by
  -- a request with the next id is known, and not open
  have hclosed (call : Nat)
      (hknown : s.client.currentMsgId = 0 ∨
        s.Knows { call, messageId := s.client.currentMsgId }) :
      s.client.queues { call, messageId := s.client.currentMsgId } = false ∧
        s.client.times { call, messageId := s.client.currentMsgId } = false ∧
          { call, messageId := s.client.currentMsgId } ∉ s.received := by
    rcases hknown with hzero | ⟨sent, hsent, hwritten⟩
    · exact absurd hzero hids.next.1
    · have hnot := h.not_open hnone hopens hsent (congrArg Written.messageId hwritten)
      simp only [isOpen, hwritten, Bool.or_eq_false_iff, List.contains_eq_mem,
        decide_eq_false_iff_not] at hnot
      exact ⟨hnot.1.1.2, hnot.1.2, hnot.2⟩
  have htimer : s.client.dropsIdle s.client.currentMsgId = true := by
    unfold TcpClient.dropsIdle
    cases htimer : s.client.timeoutAlarmMap[s.client.currentMsgId]? with
    | none => rfl
    | some timer =>
        rw [Option.all_some]
        by_contra hwaiting
        rw [Bool.not_eq_true', Bool.not_eq_false] at hwaiting
        have htimes := (s.client.times_eq_true_iff
          { call := timer.call, messageId := s.client.currentMsgId }).mpr
            ⟨timer.alarm, htimer, hwaiting⟩
        cases htimes.symm.trans (hclosed timer.call (h.timers _ timer htimer)).2.1
  have hqueue : (s.client.messageQueue.any fun queued =>
      s.client.queues { call := queued.call, messageId := s.client.currentMsgId }) =
        false := by
    rw [List.any_eq_false]
    intro queued _ hqueues
    cases hqueues.symm.trans (hclosed queued.call (h.queued _ hqueues)).1
  have hhand : (s.client.io.written?.any (·.messageId = s.client.currentMsgId)) =
      false := by
    cases hwritten : s.client.io.written? with
    | none => rfl
    | some written =>
        obtain ⟨call, messageId⟩ := written
        refine decide_eq_false fun hid => ?_
        have hid : messageId = s.client.currentMsgId := hid
        subst hid
        have hreceived := h.hand _ hwritten
        exact (hclosed call (h.received _ hreceived)).2.2 hreceived
  simp only [TcpClient.idInUse, h.callback_eq_none hnone hopens, htimer, hqueue, hhand,
    Option.isSome_none, Bool.not_true, Bool.or_false]

/-! ### One step -/

theorem sent_cases (hr : Recorded s action a t) {sent : Sent} (hsent : sent ∈ t.sent) :
    sent ∈ s.sent ∨ a = .user .proceed ∧
      s.client.registering? = some sent.call ∧ sent.number = s.sent.length ∧
        sent.messageId = s.client.currentMsgId ∧ t.sent = sent :: s.sent := by
  rcases hr.sent with ⟨hsame, -⟩ | ⟨hproceed, call, hregistering, hnew, -⟩
  · exact .inl (hsame ▸ hsent)
  · rw [hnew] at hsent
    rcases List.mem_cons.mp hsent with rfl | hold
    · exact .inr ⟨hproceed, hregistering, rfl, rfl, hnew⟩
    · exact .inl hold

theorem sent_subset (hr : Recorded s action a t) : s.sent ⊆ t.sent := by
  rcases hr.sent with ⟨hsame, -⟩ | ⟨-, call, -, hnew, -⟩
  · rw [hsame]
    exact List.Subset.refl _
  · rw [hnew]
    exact List.subset_cons_self _ _

theorem knows_step (hr : Recorded s action a t) {written : Written}
    (hknows : s.Knows written) : t.Knows written := by
  obtain ⟨sent, hsent, heq⟩ := hknows
  exact ⟨sent, sent_subset hr hsent, heq⟩

private theorem numbers_step (h : Matching s) (hr : Recorded s action a t) :
    ∀ sent ∈ t.sent, sent.number < t.sent.length ∧
      sent.messageId.toNat = 1 + sent.number % 65534 := by
  intro sent hsent
  rcases sent_cases hr hsent with hold | ⟨-, hregistering, hnumber, hid, hnew⟩
  · obtain ⟨hlt, heq⟩ := h.numbers sent hold
    refine ⟨Nat.lt_of_lt_of_le hlt ?_, heq⟩
    rcases hr.sent with ⟨hsame, -⟩ | ⟨-, call, -, hnew, -⟩
    · exact Nat.le_of_eq (congrArg List.length hsame.symm)
    · rw [hnew]
      exact Nat.le_succ _
  · rw [hnumber, hnew, hid]
    exact ⟨Nat.lt_succ_self _,
      h.next (TcpClient.pushing?_of_registering hregistering)⟩

private theorem unique_step (h : Matching s) (hr : Recorded s action a t) :
    ∀ sent ∈ t.sent, ∀ sent' ∈ t.sent,
      sent.number = sent'.number ∨ sent.call = sent'.call → sent = sent' := by
  have hne {sent sent' : Sent} (hsent : sent ∈ s.sent)
      (hregistering : s.client.registering? = some sent'.call)
      (hnumber : sent'.number = s.sent.length) :
      ¬ (sent.number = sent'.number ∨ sent.call = sent'.call) := by
    have hlt := (h.numbers sent hsent).1
    rintro (heq | heq)
    · omega
    · exact (h.calls sent hsent).2 (heq ▸ hregistering)
  intro sent hsent sent' hsent' heq
  rcases sent_cases hr hsent with hold | ⟨-, hregistering, hnumber, hid, -⟩
  · rcases sent_cases hr hsent' with hold' | ⟨-, hregistering', hnumber', -⟩
    · exact h.unique sent hold sent' hold' heq
    · exact absurd heq (hne hold hregistering' hnumber')
  · rcases sent_cases hr hsent' with hold' | ⟨-, hregistering', hnumber', hid', -⟩
    · exact absurd (heq.imp Eq.symm Eq.symm) (hne hold' hregistering hnumber)
    · obtain ⟨call, number, messageId⟩ := sent
      obtain ⟨call', number', messageId'⟩ := sent'
      have hcall : call = call' := Option.some.inj (hregistering.symm.trans hregistering')
      subst hcall hnumber hid hnumber' hid'
      rfl

private theorem calls_step (h : Matching s)
    (hreach : Reachable TcpClient.step AnyStep .init s.client)
    (hr : Recorded s action a t) :
    ∀ sent ∈ t.sent, sent.call < t.client.history.calls ∧
      t.client.registering? ≠ some sent.call := by
  intro sent hsent
  rcases sent_cases hr hsent with hold | ⟨rfl, hregistering, -⟩
  · obtain ⟨hlt, hnot⟩ := h.calls sent hold
    refine ⟨Nat.lt_of_lt_of_le hlt (TcpClient.calls_le hr.step), fun hregistering => ?_⟩
    rcases TcpClient.registering_before hr.step hregistering with hbefore | heq
    · exact hnot hbefore
    · omega
  · obtain ⟨-, -, hnone, hcalls⟩ := TcpClient.register_step hr.step hregistering
    obtain ⟨holder, hasCallback, sendReq, hmutex⟩ :=
      TcpClient.registering?_eq_some hregistering
    have hnumbered : TcpClient.Numbered s.client := .of_reachable hreach
    have hlt := (hnumbered.pushing holder _ sent.call hmutex rfl).1
    exact ⟨by rw [hcalls]; exact hlt, by rw [hnone]; simp⟩

private theorem next_step (h : Matching s) (hr : Recorded s action a t)
    (hnone : t.client.pushing? = none) :
    t.client.currentMsgId.toNat = 1 + t.sent.length % 65534 := by
  rcases hr.sent with ⟨hsame, -⟩ | ⟨rfl, call, hregistering, -⟩
  · rw [hsame]
    rcases TcpClient.currentMsgId_step hr.step with ⟨hid, hkept⟩ | ⟨hsome, -, hid⟩
    · rw [hid]
      refine h.next ?_
      by_contra hsome
      have hsome := Option.isSome_iff_ne_none.mpr hsome
      rw [← hkept hsome, hnone] at hsome
      cases hsome
    · obtain ⟨call, hpushing⟩ := Option.isSome_iff_exists.mp hsome
      obtain ⟨sent, hsent, hwritten, hlast⟩ := h.pushing call hpushing
      have hnumber := (h.numbers sent hsent).2
      rw [show sent.messageId = s.client.currentMsgId from
        congrArg Written.messageId hwritten] at hnumber
      rw [hid, TcpClient.toNat_nextMsgId hnumber, hlast]
  · have hsome := (TcpClient.register_step hr.step hregistering).1
    cases hnone.symm.trans hsome

private theorem pushing_step (h : Matching s)
    (hreach : Reachable TcpClient.step AnyStep .init s.client)
    (hr : Recorded s action a t) {call : Nat}
    (hpushing : t.client.pushing? = some call) :
    ∃ sent ∈ t.sent, sent.written = { call, messageId := t.client.currentMsgId } ∧
      sent.number + 1 = t.sent.length := by
  rcases hr.sent with ⟨hsame, -, hnone⟩ | ⟨rfl, call', hregistering, hnew, -⟩
  · rcases TcpClient.pushing_before hr.step hpushing with
      hold | ⟨holder, hasCallback, sendReq, hthread, hmutex⟩
    · rw [hsame]
      rcases TcpClient.currentMsgId_step hr.step with ⟨hid, -⟩ | ⟨-, hgone, -⟩
      · rw [hid]
        exact h.pushing call hold
      · cases hgone.symm.trans hpushing
    · have hthreads : TcpClient.Threads s.client := .of_reachable hreach
      obtain rfl := hthreads.senders holder _ hmutex rfl
      have hregistering := hnone (TcpClient.proceed_of_user hr.step hthread hmutex)
      rw [TcpClient.registering?, hmutex] at hregistering
      cases hregistering
  · obtain ⟨hsome, hid, -⟩ := TcpClient.register_step hr.step hregistering
    rw [hnew, hid]
    cases hpushing.symm.trans hsome
    exact ⟨_, List.mem_cons_self, rfl, rfl⟩

private theorem callbacks_step (h : Matching s)
    (hreach : Reachable TcpClient.step AnyStep .init s.client)
    (hr : Recorded s action a t) {messageId : UInt16} {call : Nat}
    (hsome : t.client.callback? messageId = some call) : t.Knows { call, messageId } := by
  rcases (TcpClient.BookCases.of_step hr.step).callback hsome with
    hold | ⟨rfl, -, holder, sendReq, hthread, hmutex⟩
  · exact knows_step hr (h.callbacks messageId call hold)
  · have hthreads : TcpClient.Threads s.client := .of_reachable hreach
    obtain rfl := hthreads.senders holder _ hmutex rfl
    have hproceed := TcpClient.proceed_of_user hr.step hthread hmutex
    have hregistering : s.client.registering? = some call := by
      rw [TcpClient.registering?, hmutex]
    rcases hr.sent with ⟨-, -, hnone⟩ | ⟨-, call', hregistering', hnew, -⟩
    · cases (hnone hproceed).symm.trans hregistering
    · cases hregistering.symm.trans hregistering'
      exact ⟨_, hnew ▸ List.mem_cons_self, rfl⟩

private theorem queued_step (h : Matching s)
    (hreach : Reachable TcpClient.step AnyStep .init s.client)
    (hr : Recorded s action a t) {written : Written}
    (hqueues : t.client.queues written = true) :
    written.messageId = 0 ∨ t.Knows written := by
  rcases TcpClient.queues_before hr.step (.of_reachable hreach) hqueues with
    hold | ⟨hpushing, hid⟩ | hzero
  · exact (h.queued written hold).imp_right (knows_step hr)
  · obtain ⟨sent, hsent, hwritten, -⟩ := h.pushing written.call hpushing
    refine .inr (knows_step hr ⟨sent, hsent, ?_⟩)
    rw [hwritten, ← hid]
  · exact .inl hzero

private theorem received_step (h : Matching s) (hr : Recorded s action a t)
    {written : Written} (hwritten : written ∈ t.received) :
    written.messageId = 0 ∨ t.Knows written := by
  rw [hr.received] at hwritten
  rcases received_before hwritten with hold | hqueues
  · exact (h.received written hold).imp_right (knows_step hr)
  · exact (h.queued written hqueues).imp_right (knows_step hr)

private theorem timers_step (h : Matching s) (hr : Recorded s action a t)
    {messageId : UInt16} {timer : Timer}
    (htimer : t.client.timeoutAlarmMap[messageId]? = some timer) :
    messageId = 0 ∨ t.Knows { call := timer.call, messageId } := by
  rcases TcpClient.timer_before hr.step htimer with hold | hhand
  · exact (h.timers messageId timer hold).imp_right (knows_step hr)
  · exact (h.received _ (h.hand _ hhand)).imp_right (knows_step hr)

private theorem hand_step (h : Matching s) (hr : Recorded s action a t)
    {written : Written} (hhand : t.client.io.written? = some written) :
    written ∈ t.received := by
  have hsessions : t.client.history.sessions = s.client.history.sessions := by
    rcases TcpClient.sessions_step hr.step with hsame | hstart
    · exact hsame
    · rw [hstart] at hhand
      cases hhand
  rw [hr.received]
  rcases TcpClient.written_before hr.step hhand with
    hold | ⟨rfl, readable, sendReq, rest, hio, hqueue, hid⟩
  · refine mem_receivedNext (h.hand written hold) hsessions ?_
    intro event messageId _ hio
    rw [hio] at hold
    cases hold
  · unfold receivedNext
    rw [if_neg (not_not.mpr hsessions), hio, hqueue]
    dsimp only
    rw [hid]
    exact List.mem_cons_self

private theorem answering_step (h : Matching s) (hr : Recorded s action a t)
    {messageId : UInt16}
    (hio : t.client.io = .cancelTimer messageId ∨
      t.client.io = .getCallback messageId) :
    ∃ written ∈ t.received, t.answering = some written ∧
      written.messageId = messageId := by
  have hsessions : t.client.history.sessions = s.client.history.sessions := by
    rcases TcpClient.sessions_step hr.step with hsame | hstart
    · exact hsame
    · rcases hio with hio | hio <;> cases hstart.symm.trans hio
  have hkept (hbefore : s.client.io = .cancelTimer messageId ∨
      s.client.io = .getCallback messageId)
      (hnot : ∀ event messageId', a = .io event →
        s.client.io ≠ .getCallback messageId') :
      ∃ written ∈ t.received, t.answering = some written ∧
        written.messageId = messageId := by
    obtain ⟨written, hwritten, hanswering, hid⟩ := h.answering messageId hbefore
    rcases hr.answering with ⟨hsame, -⟩ | ⟨sendResp, rfl, -⟩
    · refine ⟨written, ?_, hsame.trans hanswering, hid⟩
      rw [hr.received]
      exact mem_receivedNext hwritten hsessions hnot
    · have hread := TcpClient.read_of_received hr.step
      rcases hbefore with hbefore | hbefore <;> cases hread.symm.trans hbefore
  rcases hio with hio | hio
  · rcases TcpClient.cancelTimer_before hr.step hio with hbefore | ⟨sendResp, rfl, hid⟩
    · refine hkept (.inl hbefore) ?_
      intro event messageId' _ hget
      cases hbefore.symm.trans hget
    · rcases hr.answering with ⟨-, hnot⟩ | ⟨_, ⟨⟩, written, hwritten, hid', hnew⟩
      · exact absurd rfl (hnot sendResp)
      · refine ⟨written, ?_, hnew, hid'.symm.trans hid⟩
        rw [hr.received]
        refine mem_receivedNext hwritten hsessions fun event messageId' _ hget => ?_
        cases (TcpClient.read_of_received hr.step).symm.trans hget
  · rcases TcpClient.getCallback_before hr.step hio with ⟨hbefore, hnot⟩ | hbefore
    · exact hkept (.inr hbefore) fun event messageId' heq => absurd heq (hnot event)
    · refine hkept (.inl hbefore) ?_
      intro event messageId' _ hget
      cases hbefore.symm.trans hget

private theorem window_step (h : Matching s)
    (hreach : Reachable TcpClient.step AnyStep .init s.client)
    (hr : Recorded s action a t) (hopens : s.OpensNext action) {sent : Sent}
    (hsent : sent ∈ t.sent) (hopen : t.isOpen sent = true) :
    t.sent.length ≤ sent.number + 65534 := by
  rcases sent_cases hr hsent with hold | ⟨-, -, hnumber, -, hnew⟩
  · have hbefore := h.open_before hreach hr hold hopen
    rcases hr.sent with ⟨hsame, -⟩ | ⟨hproceed, call, hregistering, hnew, -⟩
    · rw [hsame]
      exact h.window sent hold hbefore
    · rw [hnew]
      exact hopens (hr.proceed hproceed) (by rw [hregistering]; rfl) sent hold hbefore
  · rw [hnew, hnumber, List.length_cons]
    omega

private theorem kept_step (h : Matching s)
    (hreach : Reachable TcpClient.step AnyStep .init s.client)
    (hr : Recorded s action a t) (hopens : s.OpensNext action) :
    ∀ entry ∈ t.client.history.registered, t.client.ledger.Kept entry.1 := by
  refine TcpClient.registered_kept h.kept (.of_reachable hreach) ?_ hr.step
  rintro hproceed call hasCallback sendReq hmutex
  have hregistering : s.client.registering? = some call := by
    rw [TcpClient.registering?, hmutex]
  exact h.callback_eq_none (TcpClient.pushing?_of_registering hregistering)
    (hopens (hr.proceed hproceed) (by rw [hregistering]; rfl))

private theorem overwriting_step (h : Matching s)
    (hreach : Reachable TcpClient.step AnyStep .init s.client)
    (hr : Recorded s action a t) (hopens : s.OpensNext action) : t.overwriting = [] := by
  rcases hr.sent with ⟨-, hsame, -⟩ | ⟨hproceed, call, hregistering, -, hnew⟩
  · exact hsame.trans h.overwriting
  · have hunused := h.idInUse_eq_false (.of_reachable hreach)
      (TcpClient.pushing?_of_registering hregistering)
      (hopens (hr.proceed hproceed) (by rw [hregistering]; rfl))
    rw [hnew, hunused]
    exact h.overwriting

private theorem answered_step (h : Matching s)
    (hreach : Reachable TcpClient.step AnyStep .init s.client)
    (hr : Recorded s action a t) : ∀ entry ∈ t.answered, entry.2 = entry.1 := by
  intro entry hentry
  rw [hr.answered] at hentry
  unfold answeredNext at hentry
  split at hentry
  · next event messageId written hio hanswering =>
      split at hentry
      · next call hcall =>
          rcases List.mem_cons.mp hentry with rfl | hold
          · obtain ⟨written', hwritten, hanswering', hid⟩ :=
              h.answering messageId (.inr hio)
            cases hanswering.symm.trans hanswering'
            subst hid
            rcases h.received written hwritten with hzero | ⟨sent, hsent, heq⟩
            · have hids : TcpClient.MessageIds s.client := .of_reachable hreach
              rw [hzero, hids.zero] at hcall
              cases hcall
            · obtain ⟨sent', hsent', heq'⟩ := h.callbacks _ call hcall
              have hopen : s.isOpen sent = true :=
                (s.isOpen_eq_true_iff sent).mpr
                  (.inr (.inr (.inr (.inr (heq ▸ hwritten)))))
              have hopen' : s.isOpen sent' = true := open_of_callback heq' hcall
              have hids : sent.messageId = sent'.messageId :=
                (congrArg Written.messageId heq).trans
                  (congrArg Written.messageId heq').symm
              obtain rfl := h.eq_of_open hsent hsent' hids hopen hopen'
              exact congrArg Written.call (heq'.symm.trans heq)
          · exact h.answered entry hold
      · exact h.answered entry hentry
  · exact h.answered entry hentry

theorem step (h : Matching s)
    (hreach : Reachable TcpClient.step AnyStep .init s.client)
    (hopens : s.OpensNext action) (hs : s.step action = some t) : Matching t := by
  obtain ⟨a, hr⟩ := Recorded.of_step hs
  exact {
    numbers := h.numbers_step hr
    unique := h.unique_step hr
    calls := h.calls_step hreach hr
    next := h.next_step hr
    pushing := fun _ => h.pushing_step hreach hr
    callbacks := fun _ _ => h.callbacks_step hreach hr
    queued := fun _ => h.queued_step hreach hr
    received := fun _ => h.received_step hr
    timers := fun _ _ => h.timers_step hr
    hand := fun _ => h.hand_step hr
    answering := fun _ => h.answering_step hr
    window := fun _ => h.window_step hreach hr hopens
    kept := h.kept_step hreach hr hopens
    overwriting := h.overwriting_step hreach hr hopens
    answered := h.answered_step hreach hr }

theorem open_of_isWaiting (h : Matching s)
    (hreach : Reachable TcpClient.step AnyStep .init s.client) {sent : Sent}
    (hsent : sent ∈ s.sent) (hwaiting : s.isWaiting sent.call = true) :
    s.isOpen sent = true := by
  simp only [isWaiting, Bool.and_eq_true, List.any_eq_true, decide_eq_true_eq,
    Bool.not_eq_eq_eq_not, Bool.not_true, List.any_eq_false] at hwaiting
  obtain ⟨⟨⟨⟨entry, hentry, hcall⟩, hnot⟩, hio⟩, hqueue⟩ := hwaiting
  rcases h.kept entry hentry with ⟨place, hplace⟩ | hused
  · rw [hcall] at hplace
    cases place with
    | map messageId =>
        obtain ⟨sent', hsent', heq⟩ := h.callbacks messageId _ hplace
        obtain rfl := h.unique sent' hsent' sent hsent
          (.inr (congrArg Written.call heq))
        exact open_of_callback heq hplace
    | held holder =>
        cases holder with
        | io => exact absurd hplace hio
        | queue => exact absurd hplace hqueue
        | user =>
            have hbooks : TcpClient.Books s.client := .of_reachable hreach
            obtain ⟨⟨holder, next⟩, hmutex, hnext⟩ := Option.bind_eq_some_iff.mp hplace
            obtain ⟨sendReq, rfl⟩ := TcpClient.register_of_call hnext
            rw [← hcall] at hmutex
            exact absurd hentry (hbooks.unregistered hmutex entry.2)
  · obtain ⟨used, hmem, heq⟩ := List.mem_map.mp hused
    exact absurd (heq.trans hcall) (hnot used hmem)

theorem matched (h : Matching s)
    (hreach : Reachable TcpClient.step AnyStep .init s.client) : Matched s where
  distinct := fun _ hsent _ hsent' hwaiting hwaiting' hid =>
    h.eq_of_open hsent hsent' hid (h.open_of_isWaiting hreach hsent hwaiting)
      (h.open_of_isWaiting hreach hsent' hwaiting')
  overwriting := h.overwriting
  answered := h.answered

theorem of_reachable (h : Reachable Served.step OpensNext {} s) : Matching s :=
  h.invariant init fun _ _ _ hu hmatching hopens hs =>
    hmatching.step (client_reachable hu) hopens hs

end Matching

/-- No callback of a request is called for the reply to another, while no `Send`
takes the id of one that is not finished. -/
theorem replies_match (h : Reachable Served.step OpensNext {} s) : s.Matched :=
  (Matching.of_reachable h).matched (client_reachable h)

def exchange : List ServedAction :=
  (TcpClient.connecting ++ TcpClient.sending ++ TcpClient.sending ++
    TcpClient.writing).map .client ++
    [.reply { call := 0, messageId := 1 } { messageId := 1 }] ++
    List.replicate 3 (.client (.io .none))

theorem replies_match_exchange : ∃ s : Served, s.answered = [(0, 0)] ∧ s.Matched := by
  have hmap : (run step {} exchange).map (·.answered) = some [(0, 0)] := by
    decide +kernel
  obtain ⟨s, hrun, hanswered⟩ := Option.map_eq_some_iff.mp hmap
  have hreach : Reachable step OpensNext {} s :=
    .of_meets (by decide +kernel) hrun
  exact ⟨s, hanswered, replies_match hreach⟩

/-! ## Ids that come back -/

/-- So many `Send`s have been made, and no callback of theirs has been taken. -/
structure Unanswered (n : Nat) (s : Served) : Prop where
  connected : s.client.connectStatus = .kConnected
  free : s.client.mutex = none
  invoked : s.client.history.invoked = []
  io : s.client.io.call? = none
  queue : s.client.callback.call? = none
  calls : s.client.history.calls = n
  length : s.sent.length = n
  next : s.client.currentMsgId.toNat = 1 + n % 65534
  sent : ∀ k < n,
    { call := k, number := k, messageId := .ofNat (1 + k % 65534) } ∈ s.sent
  registered : ∀ k < n, ∃ session, (k, session) ∈ s.client.history.registered

namespace Unanswered

variable {n : Nat}

theorem send (h : Unanswered n s) :
    ∃ t, Reachable step AnyStep s t ∧ Unanswered (n + 1) t := by
  let sendReq : SendReq := { type := [], payload := [] }
  let call := s.client.history.calls
  let entering : TcpClient :=
    { s.client.issue with mutex := some (.user, .register call true sendReq) }
  let registered := entering.proceed .user (.register call true sendReq)
  let pushed := registered.proceed .user (.pushSendReq call sendReq)
  let behind := pushed.proceed .user .wakeUp
  have hclient : s.client.step (.user (.send [] [] none true)) = some entering := by
    simp [TcpClient.step, TcpClient.userStep, TcpClient.enterSend, h.connected,
      h.free, TcpClient.newSendReq, entering, sendReq, call]
  have hstep : s.step (.client (.user (.send [] [] none true))) =
      some (s.record (.user (.send [] [] none true)) entering) := by
    simp only [Served.step, hclient, Option.map_some]
  let s₁ := s.record (.user (.send [] [] none true)) entering
  let s₂ := s₁.record (.user .proceed) registered
  let s₃ := s₂.record (.user .proceed) pushed
  let t := s₃.record (.user .proceed) behind
  have hregister : s₁.step (.client (.user .proceed)) = some s₂ := rfl
  have hpush : s₂.step (.client (.user .proceed)) = some s₃ := rfl
  have hwakeUp : s₃.step (.client (.user .proceed)) = some t := rfl
  have hreach : Reachable step AnyStep s t :=
    .tail _ (.tail _ (.tail _ (.single _ trivial hstep) trivial hregister)
      trivial hpush) trivial hwakeUp
  have hbehind : t.client = behind := rfl
  have hsent : t.sent = { call, number := s.sent.length
                          messageId := s.client.currentMsgId } :: s.sent := rfl
  have hcall : call = n := h.calls
  have hid : s.client.currentMsgId = .ofNat (1 + n % 65534) := by
    rw [← h.next, UInt16.ofNat_toNat]
  refine ⟨t, hreach, ?_⟩
  constructor
  case length => rw [hsent, List.length_cons, h.length]
  case sent =>
    intro k hk
    rw [hsent]
    rcases Nat.lt_succ_iff_lt_or_eq.mp hk with hlt | rfl
    · exact List.mem_cons_of_mem _ (h.sent k hlt)
    · rw [← hid, h.length, hcall]
      exact List.mem_cons_self
  all_goals
    rw [hbehind]
    simp only [behind, pushed, registered, entering, TcpClient.proceed,
      TcpClient.push, TcpClient.issue]
  case connected => exact h.connected
  case invoked => exact h.invoked
  case io => exact h.io
  case queue => exact h.queue
  case calls => exact congrArg (· + 1) h.calls
  case next => exact TcpClient.toNat_nextMsgId h.next
  case registered =>
    intro k hk
    rcases Nat.lt_succ_iff_lt_or_eq.mp hk with hlt | rfl
    · obtain ⟨session, hentry⟩ := h.registered k hlt
      exact ⟨session, List.mem_cons_of_mem _ hentry⟩
    · exact ⟨_, by rw [hcall]; exact List.mem_cons_self⟩

theorem exists_reachable (n : Nat) :
    ∃ s, Reachable step AnyStep {} s ∧ Unanswered n s := by
  induction n with
  | zero =>
      have hmap : (run step {} (TcpClient.connecting.map .client)).map (fun s =>
          decide (s.client.connectStatus = .kConnected ∧ s.client.mutex = none ∧
            s.client.history.invoked = [] ∧ s.client.io.call? = none ∧
            s.client.callback.call? = none ∧ s.client.history.calls = 0 ∧
            s.sent = [] ∧ s.client.currentMsgId = 1)) = some true := by
        decide +kernel
      obtain ⟨s, hreach, hstate⟩ := Reachable.of_run_map hmap
      obtain ⟨hconnected, hfree, hinvoked, hio, hqueue, hcalls, hsent, hid⟩ :=
        of_decide_eq_true hstate
      refine ⟨s, hreach, hconnected, hfree, hinvoked, hio, hqueue, hcalls, ?_, ?_,
        ?_, ?_⟩
      · rw [hsent]
        rfl
      · rw [hid]
        rfl
      · exact fun k hk => absurd hk (Nat.not_lt_zero k)
      · exact fun k hk => absurd hk (Nat.not_lt_zero k)
  | succ n ih =>
      obtain ⟨s, hreach, h⟩ := ih
      obtain ⟨t, hsend, hnext⟩ := h.send
      exact ⟨t, hreach.trans hsend, hnext⟩

theorem isWaiting (h : Unanswered n s) {k : Nat} (hk : k < n) :
    s.isWaiting k = true := by
  obtain ⟨session, hentry⟩ := h.registered k hk
  have hregistered : (s.client.history.registered.any fun entry => entry.1 = k) = true :=
    List.any_eq_true.mpr ⟨_, hentry, decide_eq_true rfl⟩
  simp [Served.isWaiting, hregistered, h.invoked, h.io, h.queue]

end Unanswered

/-- Of 65535 `Send`s whose requests have not been written, the last has the id
of the first. -/
theorem ids_come_back :
    ¬ ∀ s : Served, Reachable step AnyStep {} s → s.Matched := by
  intro hall
  obtain ⟨s, hreach, h⟩ := Unanswered.exists_reachable 65535
  have hfirst := h.sent 0 (by omega)
  have hlast := h.sent 65534 (by omega)
  have hsame := (hall s hreach).distinct _ hfirst _ hlast
    (h.isWaiting (by simp)) (h.isWaiting (by simp)) rfl
  cases hsame

end Served

end GoSocket.Client
