import GoSocket.Client.Step
import GoSocket.Common.AlarmFields

/-!
# What a step of a thread is

A step of the I/O thread or of the message queue's thread is one of a few
kinds: most of them only read, some start or cancel an alarm, and each of the
others changes what its case says.  The proofs about runs go through these
cases.
-/

namespace GoSocket.Client

open GoSocket.Common GoSocket.Packet

/-- The sections of `Send`, `SendNoReply` and `SendDisconnect`. -/
def Section.sends : Section → Bool
  | .register _ _ _ => true
  | .pushSendReq _ _ => true
  | .pushMessage _ _ => true
  | .wakeUp => true
  | _ => false

/-! ## What a thread has in hand -/

/-- The callback that the holder of `_mutex` is about to register. -/
def Section.call? : Section → Option Nat
  | .register call true _ => some call
  | _ => none

/-- The callback that the I/O thread has taken and not yet called. -/
def IoPc.call? : IoPc → Option Nat
  | .callBack call => some call
  | _ => none

def CallbackPc.call? : CallbackPc → Option Nat
  | .callTimeout call _ => some call
  | .callLost _ call _ => some call
  | _ => none

/-- The session that `__WaitDisconnect` has joined and tears down. -/
def CallbackPc.session? : CallbackPc → Option Nat
  | .clearThread session => some session
  | .lockTimers session => some session
  | .cancelTimers session _ => some session
  | .getLost session _ => some session
  | .callLost session _ _ => some session
  | .checkNewBreaker session => some session
  | .reCreate session => some session
  | .checkNewConnBreaker session => some session
  | .reCreateConn session => some session
  | _ => none

namespace TcpClient

variable {s t : TcpClient}

/-! ## The fields that the helpers change -/

/-- No alarm but that of a request is started or canceled. -/
inductive RequestsOnly (timers : Alarms ClientAlarm) : Alarms ClientAlarm → Prop
  | same : RequestsOnly timers timers
  | start (n : Nat) (afterSec : Int) :
      RequestsOnly timers (timers.start (.request n) afterSec).1
  | cancel (n : Nat) : RequestsOnly timers (timers.cancel (.request n)).1

@[simp] theorem step_start (timers : Alarms ClientAlarm) (a : ClientAlarm)
    (afterSec : Int) :
    timers.step (.start a afterSec) = some (timers.start a afterSec).1 := rfl

@[simp] theorem step_cancel (timers : Alarms ClientAlarm) (a : ClientAlarm) :
    timers.step (.cancel a) = some (timers.cancel a).1 := rfl

theorem RequestsOnly.alarms {timers timers' : Alarms ClientAlarm}
    (h : RequestsOnly timers timers') {a : ClientAlarm} (ha : ∀ n, a ≠ .request n) :
    timers'.alarms a = timers.alarms a := by
  cases h with
  | same => rfl
  | start n afterSec =>
      cases Alarms.step_alarm (step_start timers (.request n) afterSec) a with
      | same heq => exact heq
      | start => exact absurd rfl (ha n)
  | cancel n =>
      cases Alarms.step_alarm (step_cancel timers (.request n)) a with
      | same heq => exact heq
      | cancel => exact absurd rfl (ha n)

theorem RequestsOnly.identified {timers timers' : Alarms ClientAlarm}
    (h : RequestsOnly timers timers') {a : ClientAlarm}
    (ha : timers.Identified a) : timers'.Identified a := by
  cases h with
  | same => exact ha
  | start n afterSec => exact ha.step (step_start timers (.request n) afterSec)
  | cancel n => exact ha.step (step_cancel timers (.request n))

theorem RequestsOnly.loop {timers timers' : Alarms ClientAlarm}
    (h : RequestsOnly timers timers') :
    timers'.firing = timers.firing ∧ timers'.queue.loop = timers.queue.loop := by
  cases h with
  | same => exact ⟨rfl, rfl⟩
  | start n afterSec => exact timers.start_loop _ _
  | cancel n => exact timers.cancel_loop _

theorem release_eq (s : TcpClient) (messageId : UInt16) :
    ∃ timeoutAlarmMap pool,
      s.release messageId = { s with timeoutAlarmMap, pool } := by
  unfold release
  split
  · exact ⟨_, _, rfl⟩
  · exact ⟨_, _, rfl⟩

theorem cancelTimer_eq (s : TcpClient) (messageId : UInt16) :
    ∃ timers timeoutAlarmMap pool,
      s.cancelTimer messageId = { s with timers, timeoutAlarmMap, pool } := by
  unfold cancelTimer
  split
  · next timer _ =>
      obtain ⟨timeoutAlarmMap, pool, hrelease⟩ := release_eq
        { s with timers := (s.timers.cancel (.request timer.alarm)).1 } messageId
      exact ⟨_, timeoutAlarmMap, pool, hrelease⟩
  · exact ⟨_, _, _, rfl⟩

@[simp] theorem release_timers (s : TcpClient) (messageId : UInt16) :
    (s.release messageId).timers = s.timers := by
  obtain ⟨map, pool, heq⟩ := s.release_eq messageId
  rw [heq]

theorem cancelTimer_timers (s : TcpClient) (messageId : UInt16) :
    RequestsOnly s.timers (s.cancelTimer messageId).timers := by
  unfold cancelTimer
  split
  · next timer _ =>
      rw [release_timers]
      exact .cancel timer.alarm
  · exact .same

theorem recordAlarm_eq (s : TcpClient) (written : Written) (alarm : Nat) :
    ∃ timeoutAlarmMap pool,
      s.recordAlarm written alarm = { s with timeoutAlarmMap, pool } := by
  obtain ⟨timeoutAlarmMap, pool, hrelease⟩ := s.release_eq written.messageId
  unfold recordAlarm
  rw [hrelease]
  exact ⟨_, pool, rfl⟩

theorem takeAlarm_eq (s : TcpClient) :
    ∃ pool created, s.takeAlarm.1 = { s with pool, created } := by
  unfold takeAlarm
  split
  · exact ⟨_, _, rfl⟩
  · exact ⟨_, _, rfl⟩

theorem armAlarm_eq (s : TcpClient) (call alarm : Nat) :
    ∃ timers armed, s.armAlarm call alarm =
      { s with timers, history := { s.history with armed } } := by
  unfold armAlarm
  dsimp only
  split
  · exact ⟨_, _, rfl⟩
  · exact ⟨_, _, rfl⟩

theorem loseTimer_eq (s : TcpClient) (session : Nat) (messageId : UInt16) :
    ∃ canceled, s.loseTimer session messageId =
      { s with history := { s.history with canceled } } := by
  unfold loseTimer
  split
  · exact ⟨_, rfl⟩
  · exact ⟨_, rfl⟩

theorem enterSend_eq (s : TcpClient) (type payload : List Byte)
    (data : Option (List Byte)) (hasCallback : Bool) :
    ∃ mutex calls invoked, s.enterSend type payload data hasCallback =
      { s with mutex, history := { s.history with calls, invoked } } := by
  unfold enterSend
  dsimp only
  split
  · exact ⟨_, _, _, rfl⟩
  · split
    · exact ⟨_, _, _, rfl⟩
    · exact ⟨_, _, _, rfl⟩

theorem enterPush_eq (s : TcpClient) (message : Packet.MessageBase) :
    ∃ mutex calls, s.enterPush message =
      { s with mutex, history := { s.history with calls } } := by
  unfold enterPush
  split
  · exact ⟨_, _, rfl⟩
  · exact ⟨_, _, rfl⟩

theorem proceed_aside (s : TcpClient) (holder : Holder) (next : Section) :
    (s.proceed holder next).timers = s.timers ∧
      (s.proceed holder next).callback = s.callback ∧
      (s.proceed holder next).timeoutAlarmMap = s.timeoutAlarmMap ∧
      (s.proceed holder next).pool = s.pool := by
  cases next with
  | connect =>
      simp only [TcpClient.proceed]
      split <;> exact ⟨rfl, rfl, rfl, rfl⟩
  | _ => exact ⟨rfl, rfl, rfl, rfl⟩

@[simp] theorem proceed_timers (s : TcpClient) (holder : Holder) (next : Section) :
    (s.proceed holder next).timers = s.timers :=
  (s.proceed_aside holder next).1

@[simp] theorem proceed_callback (s : TcpClient) (holder : Holder) (next : Section) :
    (s.proceed holder next).callback = s.callback :=
  (s.proceed_aside holder next).2.1

@[simp] theorem proceed_timeoutAlarmMap (s : TcpClient) (holder : Holder)
    (next : Section) : (s.proceed holder next).timeoutAlarmMap = s.timeoutAlarmMap :=
  (s.proceed_aside holder next).2.2.1

@[simp] theorem proceed_pool (s : TcpClient) (holder : Holder) (next : Section) :
    (s.proceed holder next).pool = s.pool :=
  (s.proceed_aside holder next).2.2.2

/-! ## The I/O thread -/

/-- The thread only reads, and goes on at that place. -/
inductive IoMove (s : TcpClient) : IoPc → Prop
  | connected (ret : ConnectResult) (hio : s.io = .runConnect) :
      IoMove s (.setConnectStatus ret)
  | pinging (hio : s.io = .loop)
      (hwaiting : (s.timers.alarms .pingAlarm).isWaiting = true) : IoMove s .sample
  | sample (hio : s.io = .sample) (hmutex : s.mutex = none) :
      IoMove s (.select (!s.messageQueue.isEmpty))
  | select (registered error readable writable : Bool)
      (hio : s.io = .select registered) :
      IoMove s (.clear error readable writable)
  | fail (error readable writable : Bool)
      (hio : s.io = .checkDisCode error readable writable) : IoMove s .leave
  | checkDisCode (readable writable : Bool)
      (hio : s.io = .checkDisCode false readable writable)
      (hcode : s.disCode = .kDisCodeNone) :
      IoMove s (.checkPingTimeout readable writable)
  | checkPingTimeout (readable writable : Bool)
      (hio : s.io = .checkPingTimeout readable writable)
      (hfired : (s.timers.alarms .pingTimeoutAlarm).isAlarm = false) :
      IoMove s (.checkQueue readable writable)
  | checkQueue (readable writable : Bool)
      (hio : s.io = .checkQueue readable writable) (hmutex : s.mutex = none)
      (hqueue : s.messageQueue ≠ []) : IoMove s (.encode readable)
  | skipQueue (readable writable : Bool)
      (hio : s.io = .checkQueue readable writable) (hmutex : s.mutex = none) :
      IoMove s (.read readable)
  | encodeError (readable : Bool) (hio : s.io = .encode readable) :
      IoMove s .leave
  | skipRead (hio : s.io = .read false) : IoMove s .checkPing
  | readError (hio : s.io = .read true) : IoMove s .leave
  | pingResp (hio : s.io = .read true) : IoMove s .cancelPingTimeout
  | sendResp (messageId : UInt16) (hio : s.io = .read true) :
      IoMove s (.cancelTimer messageId)
  | kickout (hio : s.io = .read true) : IoMove s .disconnectAsync
  | ignore (hio : s.io = .read true) : IoMove s .checkPing
  | disconnected (hio : s.io = .disconnecting)
      (hmutex : ∀ next, s.mutex ≠ some (.io, next)) : IoMove s .checkPing
  | checkPing (hio : s.io = .checkPing)
      (hfired : (s.timers.alarms .pingAlarm).isAlarm = true) : IoMove s .sendPing
  | skipPing (hio : s.io = .checkPing)
      (hfired : (s.timers.alarms .pingAlarm).isAlarm = false) : IoMove s .loop
  | pingError (hio : s.io = .sendPing) : IoMove s .leave
  | sendPing (hio : s.io = .sendPing) : IoMove s .resetPingTimeout

/-- The thread does that to an alarm, and goes on at that place. -/
inductive IoAlarm : IoPc → AlarmAction ClientAlarm → IoPc → Prop
  | startPing : IoAlarm .loop (.start .pingAlarm kPingInterval) .sample
  | setUserData (readable : Bool) (written : Written) (alarm : Nat) :
      IoAlarm (.setUserData readable written alarm)
        (.setUserData (.request alarm) written.messageId.toUInt32.toInt32)
        (.setCallback readable written alarm)
  | setCallback (readable : Bool) (written : Written) (alarm : Nat) :
      IoAlarm (.setCallback readable written alarm)
        (.setCallback (.request alarm)) (.startAlarm readable written alarm)
  | cancelPing (readable : Bool) :
      IoAlarm (.cancelPing readable) (.cancel .pingAlarm) (.restartPing readable)
  | restartPing (readable : Bool) :
      IoAlarm (.restartPing readable) (.start .pingAlarm kPingInterval)
        (.read readable)
  | pingResp : IoAlarm .cancelPingTimeout (.cancel .pingTimeoutAlarm) .checkPing
  | resetPingTimeout :
      IoAlarm .resetPingTimeout (.cancel .pingTimeoutAlarm) .startPingTimeout
  | startPingTimeout :
      IoAlarm .startPingTimeout (.start .pingTimeoutAlarm kPingTimeout) .loop
  | leave : IoAlarm .leave (.cancel .pingAlarm) .leavePingTimeout
  | leavePingTimeout :
      IoAlarm .leavePingTimeout (.cancel .pingTimeoutAlarm) .setDisconnected
  | reconnect : IoAlarm .startReconnect (.start .reconnectAlarm 0) .finished

/-- The thread reports that status, and goes on at that place. -/
inductive IoStatus : IoPc → ConnectStatus → IoPc → Prop
  | start : IoStatus .start .kConnecting .runConnect
  | connected :
      IoStatus (.setConnectStatus .kRetConnSuccess) .kConnected .loop
  | failed (ret : ConnectResult) (hret : ret ≠ .kRetConnSuccess) :
      IoStatus (.setConnectStatus ret) (connectStatusOf ret) .setDisconnected
  | disconnected : IoStatus .setDisconnected .kDisconnected .startReconnect

theorem IoMove.running {io : IoPc} (h : IoMove s io) : s.io ≠ .finished := by
  cases h <;> simp [*]

theorem IoMove.empty {io : IoPc} (h : IoMove s io) :
    s.io.call? = none ∧ io.call? = none := by
  cases h <;> simp [*, IoPc.call?]

theorem IoMove.staysInside {io : IoPc} (h : IoMove s io) :
    io ≠ .finished ∧ io ≠ .startReconnect := by
  cases h <;> exact ⟨nofun, nofun⟩

theorem IoAlarm.running {io next : IoPc} {action : AlarmAction ClientAlarm}
    (h : IoAlarm io action next) : io ≠ .finished := by
  cases h <;> nofun

theorem IoAlarm.empty {io next : IoPc} {action : AlarmAction ClientAlarm}
    (h : IoAlarm io action next) : io.call? = none ∧ next.call? = none := by
  cases h <;> exact ⟨rfl, rfl⟩

theorem IoAlarm.loop {io next : IoPc} {action : AlarmAction ClientAlarm}
    (h : IoAlarm io action next) {timers timers' : Alarms ClientAlarm}
    (hs : timers.step action = some timers') :
    timers'.firing = timers.firing ∧ timers'.queue.loop = timers.queue.loop := by
  cases h <;> cases hs <;>
    first
      | exact ⟨rfl, rfl⟩
      | exact timers.start_loop _ _
      | exact timers.cancel_loop _

theorem IoStatus.running {io next : IoPc} {status : ConnectStatus}
    (h : IoStatus io status next) : io ≠ .finished := by
  cases h <;> nofun

theorem IoStatus.empty {io next : IoPc} {status : ConnectStatus}
    (h : IoStatus io status next) : io.call? = none ∧ next.call? = none := by
  cases h <;> exact ⟨rfl, rfl⟩

def behindEncode (readable : Bool) (call : Nat) : MessageBase → IoPc
  | .sendReq sendReq =>
      .getAlarm readable { call, messageId := sendReq.messageId }
  | _ => .pop readable

/-- The thread does that with the alarm of a request, and goes on at that
place. -/
inductive IoTimer (s : TcpClient) : TcpClient → IoPc → Prop
  | takeAlarm (readable : Bool) (written : Written)
      (hio : s.io = .getAlarm readable written) :
      IoTimer s s.takeAlarm.1 (.setUserData readable written s.takeAlarm.2)
  | startAlarm (readable : Bool) (written : Written) (alarm : Nat)
      (hio : s.io = .startAlarm readable written alarm) :
      IoTimer s (s.armAlarm written.call alarm)
        (.recordAlarm readable written alarm)
  | recordAlarm (readable : Bool) (written : Written) (alarm : Nat)
      (hio : s.io = .recordAlarm readable written alarm)
      (hfree : s.holdsTimers = false) :
      IoTimer s (s.recordAlarm written alarm) (.pop readable)
  | cancelTimer (messageId : UInt16) (hio : s.io = .cancelTimer messageId)
      (hfree : s.holdsTimers = false) :
      IoTimer s (s.cancelTimer messageId) (.getCallback messageId)

theorem IoTimer.eq {u : TcpClient} {io : IoPc} (h : IoTimer s u io) :
    ∃ timers timeoutAlarmMap pool created armed,
      u = { s with
        timers, timeoutAlarmMap, pool, created
        history := { s.history with armed } } := by
  cases h with
  | takeAlarm readable written hio =>
      obtain ⟨pool, created, heq⟩ := s.takeAlarm_eq
      exact ⟨_, _, pool, created, _, heq⟩
  | startAlarm readable written alarm hio =>
      obtain ⟨timers, armed, heq⟩ := s.armAlarm_eq written.call alarm
      exact ⟨timers, _, _, _, armed, heq⟩
  | recordAlarm readable written alarm hio hfree =>
      obtain ⟨map, pool, heq⟩ := s.recordAlarm_eq written alarm
      exact ⟨_, map, pool, _, _, heq⟩
  | cancelTimer messageId hio hfree =>
      obtain ⟨timers, map, pool, heq⟩ := s.cancelTimer_eq messageId
      exact ⟨timers, map, pool, _, _, heq⟩

theorem IoTimer.timers {u : TcpClient} {io : IoPc} (h : IoTimer s u io) :
    RequestsOnly s.timers u.timers := by
  cases h with
  | takeAlarm readable written hio =>
      obtain ⟨pool, created, heq⟩ := s.takeAlarm_eq
      rw [heq]
      exact .same
  | startAlarm readable written alarm hio => exact .start alarm kSendReqTimeout
  | recordAlarm readable written alarm hio hfree =>
      obtain ⟨map, pool, heq⟩ := s.recordAlarm_eq written alarm
      rw [heq]
      exact .same
  | cancelTimer messageId hio hfree => exact s.cancelTimer_timers messageId

theorem IoTimer.staysInside {u : TcpClient} {io : IoPc} (h : IoTimer s u io) :
    io ≠ .finished ∧ io ≠ .startReconnect := by
  cases h <;> exact ⟨nofun, nofun⟩

theorem IoTimer.running {u : TcpClient} {io : IoPc} (h : IoTimer s u io) :
    s.io ≠ .finished := by
  cases h <;> simp [*]

theorem IoTimer.empty {u : TcpClient} {io : IoPc} (h : IoTimer s u io) :
    s.io.call? = none ∧ io.call? = none := by
  cases h <;> simp [*, IoPc.call?]

inductive IoCases (s : TcpClient) : TcpClient → Prop
  | move (io : IoPc) (h : IoMove s io) : IoCases s { s with io }
  | alarm (action : AlarmAction ClientAlarm) (timers : Alarms ClientAlarm)
      (io : IoPc) (h : IoAlarm s.io action io)
      (hstep : s.timers.step action = some timers) :
      IoCases s { s with timers, io }
  | status (status : ConnectStatus) (io : IoPc) (h : IoStatus s.io status io) :
      IoCases s { s with connectStatus := status, io }
  | timer (u : TcpClient) (io : IoPc) (h : IoTimer s u io) :
      IoCases s { u with io }
  | refuse (ret : ConnectResult) (hio : s.io = .runConnect) :
      IoCases s { s.refuse with io := .setConnectStatus ret }
  | clear (error readable writable : Bool)
      (hio : s.io = .clear error readable writable) :
      IoCases s { s with
        breaker := s.clearBreaker
        io := .checkDisCode error readable writable }
  | pingTimeout (readable writable : Bool)
      (hio : s.io = .checkPingTimeout readable writable) :
      IoCases s { s with disCode := .kDisCodePingTimeout, io := .leave }
  | encode (readable : Bool) (queued : Queued) (rest : List Queued)
      (hio : s.io = .encode readable) (hqueue : s.messageQueue = queued :: rest) :
      IoCases s { s.write queued.call with
        io := behindEncode readable queued.call queued.message }
  | pop (readable : Bool) (hio : s.io = .pop readable) (hmutex : s.mutex = none) :
      IoCases s { s with
        messageQueue := s.messageQueue.tail, io := .cancelPing readable }
  | noCallback (messageId : UInt16) (hio : s.io = .getCallback messageId)
      (hnone : s.callback? messageId = none) :
      IoCases s { s.dropCallback messageId with io := .checkPing }
  | takeCallback (messageId : UInt16) (call : Nat)
      (hio : s.io = .getCallback messageId)
      (hsome : s.callback? messageId = some call) :
      IoCases s { s.dropCallback messageId with io := .callBack call }
  | callBack (call : Nat) (hio : s.io = .callBack call) :
      IoCases s { s.callBack call .kErrorCodeNone with io := .checkPing }
  | enter (hio : s.io = .disconnectAsync) (hmutex : s.mutex = none) :
      IoCases s { s.enterDisconnect .io .kDisCodeKickout false with
        io := .disconnecting }
  | inside (next : Section) (hio : s.io = .disconnecting)
      (hmutex : s.mutex = some (.io, next)) : IoCases s (s.proceed .io next)

theorem encoded_cases {readable : Bool} (hio : s.io = .encode readable)
    (hs : s.encoded readable = some t) : IoCases s t := by
  unfold encoded at hs
  split at hs
  · cases hs
  · next call message rest hqueue =>
      have hencode := IoCases.encode readable _ rest hio hqueue
      cases message <;> cases hs <;> exact hencode

theorem received_cases (hio : s.io = .read true) (message : MessageBase) :
    IoCases s (s.received message) := by
  unfold received
  split
  · exact .move _ (.pingResp hio)
  · exact .move _ (.sendResp _ hio)
  · split
    · exact .move _ (.kickout hio)
    · exact .move _ (.ignore hio)
  · exact .move _ (.ignore hio)

private theorem move {io : IoPc} (h : IoMove s io) : IoCases s { s with io } :=
  .move io h

private theorem alarm {action : AlarmAction ClientAlarm}
    {timers : Alarms ClientAlarm} {io next : IoPc} (hio : s.io = io)
    (h : IoAlarm io action next) (hstep : s.timers.step action = some timers) :
    IoCases s { s with timers, io := next } :=
  .alarm action timers next (by rwa [hio]) hstep

private theorem status {status : ConnectStatus} {io next : IoPc}
    (hio : s.io = io) (h : IoStatus io status next) :
    IoCases s { s with connectStatus := status, io := next } :=
  .status status next (by rwa [hio])

private theorem cases_runConnect {event : IoEvent} (hio : s.io = .runConnect)
    (hs : s.ioStep event = some t) : IoCases s t := by
  unfold ioStep at hs
  rw [hio] at hs
  cases event with
  | noNet =>
      cases hs
      exact .refuse _ hio
  | connected ret =>
      cases ret <;> cases hs
      · exact move (.connected _ hio)
      · exact move (.connected _ hio)
      · exact move (.connected _ hio)
      · exact .refuse _ hio
  | _ => cases hs

private theorem cases_setConnectStatus {event : IoEvent} {ret : ConnectResult}
    (hio : s.io = .setConnectStatus ret)
    (hs : s.ioStep event = some t) : IoCases s t := by
  unfold ioStep at hs
  rw [hio] at hs
  cases event <;> cases hs
  by_cases hret : ret = .kRetConnSuccess
  · subst hret
    exact status hio .connected
  · rw [if_neg hret]
    exact status hio (.failed ret hret)

private theorem cases_loop {event : IoEvent} (hio : s.io = .loop)
    (hs : s.ioStep event = some t) : IoCases s t := by
  unfold ioStep at hs
  rw [hio] at hs
  cases event <;> dsimp only at hs <;> try cases hs
  split at hs <;> cases hs
  · exact move (.pinging hio ‹_›)
  · exact alarm hio .startPing rfl

private theorem cases_sample {event : IoEvent} (hio : s.io = .sample)
    (hs : s.ioStep event = some t) : IoCases s t := by
  unfold ioStep at hs
  rw [hio] at hs
  cases event <;> dsimp only at hs <;> try cases hs
  split at hs <;> cases hs
  next hmutex => exact move (.sample hio (not_not.mp hmutex))

private theorem cases_select {event : IoEvent} {registered : Bool}
    (hio : s.io = .select registered)
    (hs : s.ioStep event = some t) : IoCases s t := by
  unfold ioStep at hs
  rw [hio] at hs
  cases event with
  | selectError =>
      cases hs
      exact move (.select _ true false false hio)
  | selected readable writable =>
      dsimp only at hs
      split at hs <;> cases hs
      exact move (.select _ false _ _ hio)
  | _ => cases hs

private theorem cases_checkDisCode {event : IoEvent} {error readable writable : Bool}
    (hio : s.io = .checkDisCode error readable writable)
    (hs : s.ioStep event = some t) : IoCases s t := by
  unfold ioStep at hs
  rw [hio] at hs
  cases event <;> dsimp only at hs <;> try cases hs
  split at hs <;> cases hs
  · exact move (.fail _ _ _ hio)
  · next hfine =>
      simp only [ne_eq, decide_not, Bool.or_eq_true, Bool.not_eq_eq_eq_not,
        Bool.not_true, decide_eq_false_iff_not, not_or, not_not,
        Bool.not_eq_true] at hfine
      obtain ⟨hcode, rfl⟩ := hfine
      exact move (.checkDisCode _ _ hio hcode)

private theorem cases_checkPingTimeout {event : IoEvent} {readable writable : Bool}
    (hio : s.io = .checkPingTimeout readable writable)
    (hs : s.ioStep event = some t) : IoCases s t := by
  unfold ioStep at hs
  rw [hio] at hs
  cases event <;> dsimp only at hs <;> try cases hs
  split at hs <;> cases hs
  · exact .pingTimeout _ _ hio
  · next hfired =>
      exact move (.checkPingTimeout _ _ hio (Bool.eq_false_iff.mpr hfired))

private theorem cases_checkQueue {event : IoEvent} {readable writable : Bool}
    (hio : s.io = .checkQueue readable writable)
    (hs : s.ioStep event = some t) : IoCases s t := by
  unfold ioStep at hs
  rw [hio] at hs
  cases event <;> dsimp only at hs <;> try cases hs
  split at hs <;> try cases hs
  next hmutex =>
    have hfree := not_not.mp hmutex
    split at hs <;> cases hs
    · next hqueue =>
        refine move (.checkQueue _ _ hio hfree ?_)
        simpa using (Bool.and_eq_true_iff.mp hqueue).2
    · exact move (.skipQueue _ _ hio hfree)

private theorem cases_encode {event : IoEvent} {readable : Bool}
    (hio : s.io = .encode readable)
    (hs : s.ioStep event = some t) : IoCases s t := by
  unfold ioStep at hs
  rw [hio] at hs
  cases event with
  | encoded ok =>
      cases ok with
      | false =>
          cases hs
          exact move (.encodeError _ hio)
      | true => exact encoded_cases hio hs
  | _ => cases hs

private theorem cases_recordAlarm {event : IoEvent} {readable : Bool}
    {written : Written} {n : Nat} (hio : s.io = .recordAlarm readable written n)
    (hs : s.ioStep event = some t) : IoCases s t := by
  unfold ioStep at hs
  rw [hio] at hs
  cases event <;> dsimp only at hs <;> try cases hs
  split at hs <;> cases hs
  next hfree =>
    exact .timer _ _ (.recordAlarm _ _ _ hio (Bool.eq_false_iff.mpr hfree))

private theorem cases_pop {event : IoEvent} {readable : Bool}
    (hio : s.io = .pop readable)
    (hs : s.ioStep event = some t) : IoCases s t := by
  unfold ioStep at hs
  rw [hio] at hs
  cases event <;> dsimp only at hs <;> try cases hs
  split at hs <;> cases hs
  next hmutex => exact .pop _ hio (not_not.mp hmutex)

private theorem cases_read {event : IoEvent} {readable : Bool}
    (hio : s.io = .read readable)
    (hs : s.ioStep event = some t) : IoCases s t := by
  unfold ioStep at hs
  rw [hio] at hs
  cases readable with
  | false =>
      cases event <;> cases hs
      exact move (.skipRead hio)
  | true =>
      cases event with
      | received message =>
          cases message with
          | none =>
              cases hs
              exact move (.readError hio)
          | some message =>
              cases hs
              exact received_cases hio _
      | _ => cases hs

private theorem cases_cancelTimer {event : IoEvent} {messageId : UInt16}
    (hio : s.io = .cancelTimer messageId)
    (hs : s.ioStep event = some t) : IoCases s t := by
  unfold ioStep at hs
  rw [hio] at hs
  cases event <;> dsimp only at hs <;> try cases hs
  split at hs <;> cases hs
  next hfree =>
    exact .timer _ _ (.cancelTimer _ hio (Bool.eq_false_iff.mpr hfree))

private theorem cases_getCallback {event : IoEvent} {messageId : UInt16}
    (hio : s.io = .getCallback messageId)
    (hs : s.ioStep event = some t) : IoCases s t := by
  unfold ioStep at hs
  rw [hio] at hs
  cases event <;> dsimp only at hs <;> try cases hs
  split at hs <;> cases hs
  · exact .noCallback _ hio ‹_›
  · exact .takeCallback _ _ hio ‹_›

private theorem cases_disconnectAsync {event : IoEvent} (hio : s.io = .disconnectAsync)
    (hs : s.ioStep event = some t) : IoCases s t := by
  unfold ioStep at hs
  rw [hio] at hs
  cases event <;> dsimp only at hs <;> try cases hs
  split at hs <;> cases hs
  next hmutex => exact .enter hio (not_not.mp hmutex)

private theorem cases_disconnecting {event : IoEvent} (hio : s.io = .disconnecting)
    (hs : s.ioStep event = some t) : IoCases s t := by
  unfold ioStep at hs
  rw [hio] at hs
  cases event <;> dsimp only at hs <;> try cases hs
  split at hs <;> cases hs
  · exact .inside _ hio ‹_›
  · next hother =>
      exact move (.disconnected hio fun next hmutex => hother next hmutex)

private theorem cases_checkPing {event : IoEvent} (hio : s.io = .checkPing)
    (hs : s.ioStep event = some t) : IoCases s t := by
  unfold ioStep at hs
  rw [hio] at hs
  cases event <;> dsimp only at hs <;> try cases hs
  split at hs <;> cases hs
  · exact move (.checkPing hio ‹_›)
  · next hfired =>
      exact move (.skipPing hio (Bool.eq_false_iff.mpr hfired))

private theorem cases_sendPing {event : IoEvent} (hio : s.io = .sendPing)
    (hs : s.ioStep event = some t) : IoCases s t := by
  unfold ioStep at hs
  rw [hio] at hs
  cases event with
  | encoded ok =>
      cases ok <;> cases hs
      · exact move (.pingError hio)
      · exact move (.sendPing hio)
  | _ => cases hs

private theorem ioStep_at {event : IoEvent} {io : IoPc} (hio : s.io = io)
    (hs : s.ioStep event = some t) : IoCases s t := by
  have hstep := hs
  unfold ioStep at hs
  rw [hio] at hs
  cases io with
  | finished => cases event <;> cases hs
  | start =>
      cases event <;> cases hs
      exact status hio .start
  | runConnect => exact cases_runConnect hio hstep
  | setConnectStatus ret => exact cases_setConnectStatus hio hstep
  | loop => exact cases_loop hio hstep
  | sample => exact cases_sample hio hstep
  | select registered => exact cases_select hio hstep
  | clear error readable writable =>
      cases event <;> cases hs
      exact .clear _ _ _ hio
  | checkDisCode error readable writable => exact cases_checkDisCode hio hstep
  | checkPingTimeout readable writable => exact cases_checkPingTimeout hio hstep
  | checkQueue readable writable => exact cases_checkQueue hio hstep
  | encode readable => exact cases_encode hio hstep
  | getAlarm readable written =>
      cases event <;> cases hs
      exact .timer _ _ (.takeAlarm _ _ hio)
  | setUserData readable written n =>
      cases event <;> cases hs
      exact alarm hio (.setUserData _ _ _) rfl
  | setCallback readable written n =>
      cases event <;> cases hs
      exact alarm hio (.setCallback _ _ _) rfl
  | startAlarm readable written n =>
      cases event <;> cases hs
      exact .timer _ _ (.startAlarm _ _ _ hio)
  | recordAlarm readable written n => exact cases_recordAlarm hio hstep
  | pop readable => exact cases_pop hio hstep
  | cancelPing readable =>
      cases event <;> cases hs
      exact alarm hio (.cancelPing _) rfl
  | restartPing readable =>
      cases event <;> cases hs
      exact alarm hio (.restartPing _) rfl
  | read readable => exact cases_read hio hstep
  | cancelPingTimeout =>
      cases event <;> cases hs
      exact alarm hio .pingResp rfl
  | cancelTimer messageId => exact cases_cancelTimer hio hstep
  | getCallback messageId => exact cases_getCallback hio hstep
  | callBack call =>
      cases event <;> cases hs
      exact .callBack _ hio
  | disconnectAsync => exact cases_disconnectAsync hio hstep
  | disconnecting => exact cases_disconnecting hio hstep
  | checkPing => exact cases_checkPing hio hstep
  | sendPing => exact cases_sendPing hio hstep
  | resetPingTimeout =>
      cases event <;> cases hs
      exact alarm hio .resetPingTimeout rfl
  | startPingTimeout =>
      cases event <;> cases hs
      exact alarm hio .startPingTimeout rfl
  | leave =>
      cases event <;> cases hs
      exact alarm hio .leave rfl
  | leavePingTimeout =>
      cases event <;> cases hs
      exact alarm hio .leavePingTimeout rfl
  | setDisconnected =>
      cases event <;> cases hs
      exact status hio .disconnected
  | startReconnect =>
      cases event <;> cases hs
      exact alarm hio .reconnect rfl

theorem ioStep_cases {event : IoEvent} (hs : s.ioStep event = some t) :
    IoCases s t :=
  ioStep_at rfl hs

/-! ## The queue's thread -/

/-- The callback only reads, and goes on at that place. -/
inductive QueueMove (s : TcpClient) : CallbackPc → Prop
  | getUserData (alarm start : Nat)
      (hcallback : s.callback = .getUserData alarm start) :
      QueueMove s (.eraseTimer
        (s.timers.alarms (.request alarm)).userData.toUInt32.toUInt16 start)
  | checkStatus (hcallback : s.callback = .checkStatus) :
      QueueMove s .checkTimeoutDisconnect
  | skipStatus (hcallback : s.callback = .checkStatus) : QueueMove s .returned
  | checkTimeoutDisconnect (hcallback : s.callback = .checkTimeoutDisconnect) :
      QueueMove s .setTimeoutDisconnect
  | skipTimeoutDisconnect (hcallback : s.callback = .checkTimeoutDisconnect) :
      QueueMove s .returned
  | disconnected (hcallback : s.callback = .disconnecting)
      (hmutex : ∀ next, s.mutex ≠ some (.queue, next)) : QueueMove s .returned
  | waitDisconnect (hcallback : s.callback = .waitDisconnect)
      (hthread : s.thread = true) : QueueMove s .join
  | skipWait (hcallback : s.callback = .waitDisconnect)
      (hthread : s.thread = false) : QueueMove s .checkReconnect
  | join (hcallback : s.callback = .join) (hio : s.io = .finished) :
      QueueMove s (.clearThread s.history.sessions)
  | lockTimers (session : Nat) (hcallback : s.callback = .lockTimers session) :
      QueueMove s (.cancelTimers session [])
  | getLost (session : Nat) (messageIds : List UInt16)
      (hcallback : s.callback = .cancelTimers session messageIds)
      (hnone : s.timeoutAlarmMap.keys = []) :
      QueueMove s (.getLost session messageIds)
  | noMoreLost (session : Nat) (hcallback : s.callback = .getLost session []) :
      QueueMove s (.checkNewBreaker session)
  | checkNewBreaker (session : Nat)
      (hcallback : s.callback = .checkNewBreaker session)
      (hflag : s.shouldNewBreaker = true) : QueueMove s (.reCreate session)
  | skipNewBreaker (session : Nat)
      (hcallback : s.callback = .checkNewBreaker session) :
      QueueMove s (.checkNewConnBreaker session)
  | checkNewConnBreaker (session : Nat)
      (hcallback : s.callback = .checkNewConnBreaker session)
      (hflag : s.shouldNewConnBreaker = true) :
      QueueMove s (.reCreateConn session)
  | connected (hcallback : s.callback = .connecting)
      (hmutex : ∀ next, s.mutex ≠ some (.queue, next)) : QueueMove s .returned

theorem QueueMove.empty {callback : CallbackPc} (h : QueueMove s callback) :
    s.callback.call? = none ∧ callback.call? = none := by
  cases h <;> simp [*, CallbackPc.call?]

theorem innerCallback_cases (timers : Alarms ClientAlarm) :
    innerCallback timers = .idle ∨ innerCallback timers = .waitDisconnect ∨
      innerCallback timers = .returned ∨ innerCallback timers = .breakPing ∨
      ∃ n start, innerCallback timers = .getUserData n start := by
  unfold innerCallback
  split
  · split
    · exact .inr (.inr (.inr (.inr ⟨_, _, rfl⟩)))
    · exact .inr (.inl rfl)
    · exact .inr (.inr (.inr (.inl rfl)))
    · exact .inr (.inr (.inr (.inl rfl)))
    · exact .inr (.inr (.inl rfl))
  · exact .inl rfl

/-- The callback does that with the timers of the requests, and goes on at that
place. -/
inductive QueueTimer (s : TcpClient) : TcpClient → CallbackPc → Prop
  | eraseTimer (messageId : UInt16) (start : Nat)
      (hcallback : s.callback = .eraseTimer messageId start) :
      QueueTimer s (s.release messageId) (.getCallback messageId start)
  | cancelTimer (session : Nat) (messageIds : List UInt16) (messageId : UInt16)
      (rest : List UInt16)
      (hcallback : s.callback = .cancelTimers session messageIds)
      (hkeys : s.timeoutAlarmMap.keys = messageId :: rest) :
      QueueTimer s ((s.loseTimer session messageId).cancelTimer messageId)
        (.cancelTimers session (messageIds ++ [messageId]))

theorem QueueTimer.eq {u : TcpClient} {callback : CallbackPc}
    (h : QueueTimer s u callback) :
    ∃ timers timeoutAlarmMap pool canceled,
      u = { s with
        timers, timeoutAlarmMap, pool
        history := { s.history with canceled } } := by
  cases h with
  | eraseTimer messageId start hcallback =>
      obtain ⟨map, pool, heq⟩ := s.release_eq messageId
      exact ⟨_, map, pool, _, heq⟩
  | cancelTimer session messageIds messageId rest hcallback hkeys =>
      obtain ⟨canceled, hlose⟩ := s.loseTimer_eq session messageId
      obtain ⟨timers, map, pool, heq⟩ :=
        (s.loseTimer session messageId).cancelTimer_eq messageId
      rw [hlose] at heq
      exact ⟨timers, map, pool, canceled, by rw [hlose, heq]⟩

theorem QueueTimer.timers {u : TcpClient} {callback : CallbackPc}
    (h : QueueTimer s u callback) :
    RequestsOnly s.timers u.timers := by
  cases h with
  | eraseTimer messageId start hcallback =>
      rw [s.release_timers messageId]
      exact .same
  | cancelTimer session messageIds messageId rest hcallback hkeys =>
      have hcancel := (s.loseTimer session messageId).cancelTimer_timers messageId
      obtain ⟨canceled, heq⟩ := s.loseTimer_eq session messageId
      have htimers : (s.loseTimer session messageId).timers = s.timers := by
        rw [heq]
      rwa [htimers] at hcancel

theorem QueueTimer.empty {u : TcpClient} {callback : CallbackPc}
    (h : QueueTimer s u callback) :
    s.callback.call? = none ∧ callback.call? = none := by
  cases h <;> simp [*, CallbackPc.call?]

inductive QueueCases (s : TcpClient) : TcpClient → Prop
  | move (callback : CallbackPc) (h : QueueMove s callback) :
      QueueCases s { s with callback }
  | loop (timers : Alarms ClientAlarm) (hcallback : s.callback = .idle)
      (hstep : s.timers.step (loopAction s.timers.queue.loop) = some timers) :
      QueueCases s { s with timers, callback := innerCallback timers }
  | returned (timers : Alarms ClientAlarm) (hcallback : s.callback = .returned)
      (hstep : s.timers.returned = some timers) :
      QueueCases s { s with timers, callback := .idle }
  | timer (u : TcpClient) (callback : CallbackPc)
      (h : QueueTimer s u callback) : QueueCases s { u with callback }
  | breakPing (hcallback : s.callback = .breakPing) :
      QueueCases s { s with
        breaker := (s.breaker.break_ s.pipes).1, callback := .returned }
  | noTimeout (messageId : UInt16) (start : Nat)
      (hcallback : s.callback = .getCallback messageId start)
      (hnone : s.callback? messageId = none) :
      QueueCases s { s.dropCallback messageId with callback := .returned }
  | takeTimeout (messageId : UInt16) (start call : Nat)
      (hcallback : s.callback = .getCallback messageId start)
      (hsome : s.callback? messageId = some call) :
      QueueCases s { s.dropCallback messageId with
        callback := .callTimeout call start }
  | callTimeout (call start : Nat) (hcallback : s.callback = .callTimeout call start) :
      QueueCases s
        { (s.callBack call .kErrorCodeTimeout).timeOut call start with
          callback := .checkStatus }
  | setTimeoutDisconnect (hcallback : s.callback = .setTimeoutDisconnect) :
      QueueCases s
        { s with timeoutDisconnect := true, callback := .disconnectAsync }
  | enterDisconnect (hcallback : s.callback = .disconnectAsync)
      (hmutex : s.mutex = none) :
      QueueCases s
        { s.enterDisconnect .queue .kDisCodeSendReqTimeout true with
          callback :=
            if s.thread then .disconnecting else .makeSureConnected }
  | clearThread (session : Nat) (hcallback : s.callback = .clearThread session) :
      QueueCases s
        { s with thread := false, callback := .lockTimers session }
  | noLost (session : Nat) (messageId : UInt16) (messageIds : List UInt16)
      (hcallback : s.callback = .getLost session (messageId :: messageIds))
      (hnone : s.callback? messageId = none) :
      QueueCases s ((s.dropCallback messageId).tearDown session)
  | takeLost (session call : Nat) (messageId : UInt16) (messageIds : List UInt16)
      (hcallback : s.callback = .getLost session (messageId :: messageIds))
      (hsome : s.callback? messageId = some call) :
      QueueCases s { s.dropCallback messageId with
        callback := .callLost session call messageIds }
  | callLost (session call : Nat) (messageIds : List UInt16)
      (hcallback : s.callback = .callLost session call messageIds) :
      QueueCases s
        { (s.callBack call .kErrorCodeLoseConnect).loseCallback session call with
          callback := .getLost session messageIds }
  | reCreate (session : Nat) (hcallback : s.callback = .reCreate session) :
      QueueCases s { s.renewBreaker .readWriteBreaker session with
        breaker := s.newPipe, callback := .checkNewConnBreaker session }
  | tearDown (session : Nat)
      (hcallback : s.callback = .checkNewConnBreaker session)
      (hflag : s.shouldNewConnBreaker = false) :
      QueueCases s (s.tearDown session)
  | reCreateConn (session : Nat) (hcallback : s.callback = .reCreateConn session) :
      QueueCases s ((s.renewBreaker .connectBreaker session).tearDown session)
  | checkReconnect (hcallback : s.callback = .checkReconnect) :
      QueueCases s { s with
        callback := if s.shouldReconnect then .makeSureConnected else .returned
        history := { s.history with
          reads := (s.history.marked, s.shouldReconnect) :: s.history.reads } }
  | enterConnect (hcallback : s.callback = .makeSureConnected)
      (hmutex : s.mutex = none) :
      QueueCases s { s.enterConnect .queue with callback := .connecting }
  | inside (next : Section)
      (hcallback : s.callback = .disconnecting ∨ s.callback = .connecting)
      (hmutex : s.mutex = some (.queue, next)) :
      QueueCases s (s.proceed .queue next)

theorem queueStep_cases (hs : s.queueStep = some t) : QueueCases s t := by
  have move {callback : CallbackPc} (h : QueueMove s callback) :
      QueueCases s { s with callback } :=
    .move callback h
  unfold queueStep at hs
  split at hs
  all_goals try split at hs
  all_goals try contradiction
  all_goals try cases hs
  · next hcallback =>
      obtain ⟨timers, hstep, rfl⟩ := Option.map_eq_some_iff.mp hs
      exact .loop timers hcallback hstep
  · exact .breakPing ‹_›
  · exact move (.getUserData _ _ ‹_›)
  · exact .timer _ _ (.eraseTimer _ _ ‹_›)
  · exact .noTimeout _ _ ‹_› ‹_›
  · exact .takeTimeout _ _ _ ‹_› ‹_›
  · exact .callTimeout _ _ ‹_›
  · exact move (.checkStatus ‹_›)
  · exact move (.skipStatus ‹_›)
  · exact move (.skipTimeoutDisconnect ‹_›)
  · exact move (.checkTimeoutDisconnect ‹_›)
  · exact .setTimeoutDisconnect ‹_›
  · next hcallback hmutex => exact .enterDisconnect hcallback (not_not.mp hmutex)
  · next hcallback _ _ hmutex => exact .inside _ (.inl hcallback) hmutex
  · next hcallback _ hother =>
      exact move (.disconnected hcallback fun next hmutex => hother next hmutex)
  · exact move (.waitDisconnect ‹_› ‹_›)
  · next hcallback hthread =>
      exact move (.skipWait hcallback (Bool.eq_false_iff.mpr hthread))
  · exact move (.join ‹_› ‹_›)
  · exact .clearThread _ ‹_›
  · exact move (.lockTimers _ ‹_›)
  · exact .timer _ _ (.cancelTimer _ _ _ _ ‹_› ‹_›)
  · exact move (.getLost _ _ ‹_› ‹_›)
  · exact move (.noMoreLost _ ‹_›)
  · exact .noLost _ _ _ ‹_› ‹_›
  · exact .takeLost _ _ _ _ ‹_› ‹_›
  · exact .callLost _ _ _ ‹_›
  · exact move (.checkNewBreaker _ ‹_› ‹_›)
  · exact move (.skipNewBreaker _ ‹_›)
  · exact .reCreate _ ‹_›
  · exact move (.checkNewConnBreaker _ ‹_› ‹_›)
  · next hcallback hflag =>
      exact .tearDown _ hcallback (Bool.eq_false_iff.mpr hflag)
  · exact .reCreateConn _ ‹_›
  · next hcallback hshould =>
      have hread := QueueCases.checkReconnect hcallback
      rwa [if_pos hshould] at hread
  · next hcallback hshould =>
      have hread := QueueCases.checkReconnect hcallback
      rwa [if_neg hshould] at hread
  · next hcallback hmutex => exact .enterConnect hcallback (not_not.mp hmutex)
  · next hcallback _ _ hmutex => exact .inside _ (.inr hcallback) hmutex
  · next hcallback _ hother =>
      exact move (.connected hcallback fun next hmutex => hother next hmutex)
  · next hcallback =>
      obtain ⟨timers, hstep, rfl⟩ := Option.map_eq_some_iff.mp hs
      exact .returned timers hcallback hstep

/-! ## The user's threads -/

inductive UserCases (s : TcpClient) (call : UserCall) : TcpClient → Prop
  | enterConnect (hmutex : s.mutex = none) (hcall : call = .makeSureConnected) :
      UserCases s call (s.enterConnect .user)
  | enterDisconnect (code : DisconnectCode) (shouldReconnect : Bool)
      (hmutex : s.mutex = none) :
      UserCases s call (s.enterDisconnect .user code shouldReconnect)
  | enterSend (type payload : List Byte) (data : Option (List Byte))
      (hasCallback : Bool) (hmutex : s.mutex = none) :
      UserCases s call (s.enterSend type payload data hasCallback)
  | enterPush (message : MessageBase) (hmutex : s.mutex = none) :
      UserCases s call (s.enterPush message)
  | inside (next : Section) (hcall : call = .proceed)
      (hmutex : s.mutex = some (.user, next)) :
      UserCases s call (s.proceed .user next)

theorem userStep_cases {call : UserCall} (hs : s.userStep call = some t) :
    UserCases s call t := by
  unfold userStep at hs
  split at hs
  all_goals split at hs
  all_goals try contradiction
  all_goals cases hs
  · next next hmutex => exact .inside next rfl hmutex
  · next hmutex => exact .enterConnect hmutex rfl
  · next hmutex => exact .enterDisconnect _ _ hmutex
  · next hmutex => exact .enterSend _ _ _ _ hmutex
  · next hmutex => exact .enterPush _ hmutex
  · next hmutex => exact .enterPush _ hmutex

/-! ## The front of the queue -/

theorem front_proceed (s : TcpClient) (holder : Holder) (next : Section) :
    ((s.proceed holder next).io = s.io ∧
      s.messageQueue <+: (s.proceed holder next).messageQueue) ∨
        ((s.proceed holder next).io = .start ∧
          (s.proceed holder next).disCode = .kDisCodeNone) := by
  cases next with
  | connect =>
      simp only [TcpClient.proceed]
      split
      · exact .inl ⟨rfl, List.prefix_refl _⟩
      · exact .inr ⟨rfl, rfl⟩
  | pushSendReq call sendReq => exact .inl ⟨rfl, List.prefix_append _ _⟩
  | pushMessage call message => exact .inl ⟨rfl, List.prefix_append _ _⟩
  | _ => exact .inl ⟨rfl, List.prefix_refl _⟩

theorem front_aside {action : Action} (hother : ∀ event, action ≠ .io event)
    (hs : s.step action = some t) :
    (t.io = s.io ∧ s.messageQueue <+: t.messageQueue) ∨
      (t.io = .start ∧ t.disCode = .kDisCodeNone) := by
  cases action with
  | user call =>
      cases userStep_cases hs with
      | enterSend type payload data hasCallback hfree =>
          refine .inl ?_
          obtain ⟨mutex, calls, invoked, heq⟩ :=
            s.enterSend_eq type payload data hasCallback
          rw [heq]
          exact ⟨rfl, List.prefix_refl _⟩
      | enterPush message hfree =>
          refine .inl ?_
          obtain ⟨mutex, calls, heq⟩ := s.enterPush_eq message
          rw [heq]
          exact ⟨rfl, List.prefix_refl _⟩
      | inside next hcall hmutex => exact s.front_proceed .user next
      | _ => exact .inl ⟨rfl, List.prefix_refl _⟩
  | io event => exact absurd rfl (hother event)
  | queue =>
      cases queueStep_cases hs with
      | timer u callback htimer =>
          obtain ⟨timers, map, pool, canceled, rfl⟩ := htimer.eq
          exact .inl ⟨rfl, List.prefix_refl _⟩
      | inside next hcallback hmutex => exact s.front_proceed .queue next
      | _ => exact .inl ⟨rfl, List.prefix_refl _⟩
  | tick nanoseconds =>
      cases hs
      exact .inl ⟨rfl, List.prefix_refl _⟩
  | pipes ok =>
      cases hs
      exact .inl ⟨rfl, List.prefix_refl _⟩

/-! ## The place of the I/O thread -/

theorem io_proceed (s : TcpClient) (holder : Holder) (next : Section) :
    (s.proceed holder next).io = s.io ∨ (s.proceed holder next).io = .start :=
  (s.front_proceed holder next).imp And.left And.left

theorem io_step {action : Action} (hs : s.step action = some t) :
    t.io = s.io ∨ t.io = .start ∨
      ∃ event, action = .io event ∧ s.ioStep event = some t := by
  by_cases hio : ∃ event, action = .io event
  · obtain ⟨event, rfl⟩ := hio
    exact .inr (.inr ⟨event, rfl, hs⟩)
  rcases front_aside (fun event heq => hio ⟨event, heq⟩) hs with
    ⟨hsame, -⟩ | ⟨hstart, -⟩
  · exact .inl hsame
  · exact .inr (.inl hstart)

end TcpClient

end GoSocket.Client
