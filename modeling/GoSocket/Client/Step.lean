import GoSocket.Client.State

/-!
# The steps of a client

Three threads and their users: the calls of the user's threads, the I/O thread
with what the network answers, and the thread of the message queue.  A step is
one access to what the threads share, or one locked section.
-/

namespace GoSocket.Client

open Std GoSocket.Common GoSocket.Packet GoSocket.Socket

/-- What the network answers to the I/O thread, where it asks; `selected` is the
socket, the breaker is the client's own. -/
inductive IoEvent where
  | none
  | noNet
  | connected (ret : ConnectResult)
  | selectError
  | selected (readable writable : Bool)
  | encoded (ok : Bool)
  -- `none` is a `TcpException`
  | received (message : Option MessageBase)
  deriving DecidableEq, Repr

inductive UserCall where
  | makeSureConnected
  | disconnectAsync (code : DisconnectCode) (shouldReconnect : Bool)
  | send (type payload : List Byte) (data : Option (List Byte))
    (hasCallback : Bool)
  | sendNoReply (type payload : List Byte)
  | sendDisconnect
  -- the call that holds `_mutex` goes on
  | proceed
  deriving DecidableEq, Repr

inductive Action where
  | user (call : UserCall)
  | io (event : IoEvent)
  | queue
  | tick (nanoseconds : Nat)
  -- the kernel begins or stops to serve pipes
  | pipes (ok : Bool)
  deriving DecidableEq, Repr

namespace TcpClient

/-! ## Locked sections -/

/-- `MakeSureConnected` up to the check of the status.  The user asks for a
connection with it, the client itself does not. -/
def enterConnect (self : TcpClient) (holder : Holder) : TcpClient :=
  { self with
    mutex :=
      if self.connectStatus = .kConnected then none
      else some (holder, .connect)
    history := { self.history with
      marked := self.history.marked && holder ≠ .user
      requested :=
        self.history.requested || self.connectStatus = .kConnected } }

/-- `DisconnectAsync` up to the check of `_thread`.  The user takes back that
the client is not to reconnect. -/
def enterDisconnect (self : TcpClient) (holder : Holder) (code : DisconnectCode)
    (shouldReconnect : Bool) : TcpClient :=
  { self with
    mutex :=
      if self.thread then some (holder, .disconnect code shouldReconnect)
      else none
    history := { self.history with
      marked := self.history.marked && !(shouldReconnect && holder = .user)
      requested := self.history.requested && shouldReconnect } }

def request (self : TcpClient) : TcpClient :=
  { self with history := { self.history with requested := true } }

def push (self : TcpClient) (call : Nat) (message : MessageBase) : TcpClient :=
  { self with
    messageQueue := self.messageQueue ++ [{ call, message }]
    history := { self.history with
      accepted :=
        (self.history.sessions, call) :: self.history.accepted } }

/-- What `Clear` leaves of `_readWriteBreaker`, whose pipe does not block. -/
def clearBreaker (self : TcpClient) : Breaker :=
  match self.breaker.clear self.pipes with
  | some (breaker, _) => breaker
  | none => self.breaker

def proceed (self : TcpClient) (holder : Holder) : Section → TcpClient
  | .connect =>
      if self.thread then { self.request with mutex := none }
      else
        { self with
          connectStatus := .kConnectIdle
          disCode := .kDisCodeNone
          shouldReconnect := true
          shouldNewBreaker := false
          shouldNewConnBreaker := false
          timeoutDisconnect := false
          breaker := self.clearBreaker
          messageQueue := []
          mutex := some (holder, .assignThread)
          io := .start
          history := { self.history with
            sessions := self.history.sessions + 1
            begun := self.history.marked :: self.history.begun } }
  | .assignThread => { self.request with thread := true, mutex := none }
  | .disconnect code shouldReconnect =>
      { self with
        disCode := code
        mutex := some (holder, .setShouldReconnect shouldReconnect) }
  | .setShouldReconnect shouldReconnect =>
      { self with
        shouldReconnect
        mutex := some (holder, .breakReadWrite)
        history := { self.history with
          marked := self.history.marked || !shouldReconnect } }
  | .breakReadWrite =>
      let (breaker, ret) := self.breaker.break_ self.pipes
      { self with
        breaker
        mutex := some (holder, if ret then .breakConnect else .closeReadWrite) }
  | .closeReadWrite =>
      { self with
        breaker := self.breaker.close, mutex := some (holder, .flagReadWrite) }
  | .flagReadWrite =>
      { self with
        shouldNewBreaker := true, mutex := some (holder, .breakConnect) }
  | .breakConnect =>
      { self with mutex := if self.pipes then none else some (holder, .flagConnect) }
  | .flagConnect => { self with shouldNewConnBreaker := true, mutex := none }
  | .register call hasCallback sendReq =>
      { self with
        callbackMap := self.callbackMap.insert self.currentMsgId
          (if hasCallback then some call else none)
        mutex := some (holder, .pushSendReq call sendReq)
        history := { self.history with
          registered :=
            if hasCallback then
              (call, self.history.sessions) :: self.history.registered
            else self.history.registered } }
  | .pushSendReq call sendReq =>
      let currentMsgId := self.currentMsgId + 1
      let message := .sendReq { sendReq with messageId := self.currentMsgId }
      { self.push call message with
        currentMsgId := if currentMsgId = 0xFFFF then 1 else currentMsgId
        mutex := some (holder, .wakeUp) }
  | .pushMessage call message =>
      { self.push call message with mutex := some (holder, .wakeUp) }
  | .wakeUp =>
      { self with breaker := (self.breaker.break_ self.pipes).1, mutex := none }

/-! ## The user's threads -/

def issue (self : TcpClient) : TcpClient :=
  { self with history := { self.history with calls := self.history.calls + 1 } }

def callBack (self : TcpClient) (call : Nat) (code : ErrorCode) : TcpClient :=
  { self with history := { self.history with
      invoked := (call, code) :: self.history.invoked } }

def newSendReq (type payload : List Byte) (data : Option (List Byte)) :
    SendReq :=
  let sendReq : SendReq := { type, payload }
  match data with
  | some data => sendReq.setData data
  | none => sendReq

/-- `Send` up to the check of the status. -/
def enterSend (self : TcpClient) (type payload : List Byte)
    (data : Option (List Byte)) (hasCallback : Bool) : TcpClient :=
  let call := self.history.calls
  if self.connectStatus = .kConnected then
    { self.issue with
      mutex := some (.user,
        .register call hasCallback (newSendReq type payload data)) }
  else if hasCallback then self.issue.callBack call .kErrorCodeNotConnect
  else self.issue

/-- `SendNoReply` and `SendDisconnect` up to the check of the status. -/
def enterPush (self : TcpClient) (message : MessageBase) : TcpClient :=
  if self.connectStatus = .kConnected then
    { self.issue with
      mutex := some (.user, .pushMessage self.history.calls message) }
  else self.issue

def userStep (self : TcpClient) : UserCall → Option TcpClient
  | .proceed =>
      match self.mutex with
      | some (.user, next) => some (self.proceed .user next)
      | _ => none
  | .makeSureConnected =>
      if self.mutex = none then some (self.enterConnect .user) else none
  -- without a thread the `MakeSureConnected` behind it is a call of its own
  | .disconnectAsync code shouldReconnect =>
      if self.mutex = none then
        some (self.enterDisconnect .user code shouldReconnect)
      else none
  | .send type payload data hasCallback =>
      if self.mutex = none then
        some (self.enterSend type payload data hasCallback)
      else none
  | .sendNoReply type payload =>
      if self.mutex = none then
        some (self.enterPush (.sendReq
          { type, payload, replyLevel := .RLevelNoReply, messageId := 0 }))
      else none
  | .sendDisconnect =>
      if self.mutex = none then some (self.enterPush (.disconnect {}))
      else none

/-! ## The I/O thread -/

/-- `__WaitDisconnect` holds `_timeoutMutex`. -/
def holdsTimers (self : TcpClient) : Bool :=
  match self.callback with
  | .cancelTimers _ _ => true
  | _ => false

def takeAlarm (self : TcpClient) : TcpClient × Nat :=
  match self.pool with
  | alarm :: pool => ({ self with pool }, alarm)
  | [] => ({ self with created := self.created + 1 }, self.created)

def release (self : TcpClient) (messageId : UInt16) : TcpClient :=
  match self.timeoutAlarmMap[messageId]? with
  | some timer =>
      { self with
        timeoutAlarmMap := self.timeoutAlarmMap.erase messageId
        pool := timer.alarm :: self.pool }
  | none => self

def cancelTimer (self : TcpClient) (messageId : UInt16) : TcpClient :=
  match self.timeoutAlarmMap[messageId]? with
  | some timer =>
      { self with
        timers := (self.timers.cancel (.request timer.alarm)).1 }.release messageId
  | none => self

def recordAlarm (self : TcpClient) (written : Written) (alarm : Nat) :
    TcpClient :=
  let self := self.release written.messageId
  { self with
    timeoutAlarmMap := self.timeoutAlarmMap.insert written.messageId
      { alarm, call := written.call } }

/-- What `__GetCallback` leaves. -/
def dropCallback (self : TcpClient) (messageId : UInt16) : TcpClient :=
  { self with callbackMap := self.callbackMap.erase messageId }

/-- What `__GetCallback` returns. -/
def callback? (self : TcpClient) (messageId : UInt16) : Option Nat :=
  (self.callbackMap[messageId]?).join

def connectStatusOf : ConnectResult → ConnectStatus
  | .kRetConnSuccess => .kConnected
  | .kRetConnKickout => .kConnectKickout
  | .kRetConnFailed => .kConnectFailed
  | .kRetConnTimeout => .kConnectFailed

def write (self : TcpClient) (call : Nat) : TcpClient :=
  { self with history := { self.history with
      written := { session := self.history.sessions, call
                   time := self.timers.now } :: self.history.written } }

def encoded (self : TcpClient) (readable : Bool) : Option TcpClient :=
  match self.messageQueue with
  | [] => none
  | { call, message } :: _ =>
      match message with
      | .sendReq sendReq =>
          some { self.write call with
            io := .getAlarm readable { call, messageId := sendReq.messageId } }
      | _ => some { self.write call with io := .pop readable }

def received (self : TcpClient) : MessageBase → TcpClient
  | .pingResp _ => { self with io := .cancelPingTimeout }
  | .sendResp resp => { self with io := .cancelTimer resp.messageId }
  | .disconnect disconnect =>
      if disconnect.type = DiscTypeKickout then
        { self with io := .disconnectAsync }
      else { self with io := .checkPing }
  -- `_onSendReq` is called on a thread of its own
  | _ => { self with io := .checkPing }

def armAlarm (self : TcpClient) (call alarm : Nat) : TcpClient :=
  let started := self.timers.start (.request alarm) kSendReqTimeout
  { self with
    timers := started.1
    history :=
      if started.2 then
        { self.history with
          armed := (self.timers.starts, call) :: self.history.armed }
      else self.history }

/-- `__RunConnect` has met a kick-out, or there is no network. -/
def refuse (self : TcpClient) : TcpClient :=
  { self with
    shouldReconnect := false
    history := { self.history with requested := false } }

def ioStep (self : TcpClient) (event : IoEvent) : Option TcpClient :=
  match self.io, event with
  | .start, .none =>
      some { self with connectStatus := .kConnecting, io := .runConnect }
  | .runConnect, .noNet =>
      some { self.refuse with io := .setConnectStatus .kRetConnFailed }
  | .runConnect, .connected .kRetConnKickout =>
      some { self.refuse with io := .setConnectStatus .kRetConnKickout }
  | .runConnect, .connected ret =>
      some { self with io := .setConnectStatus ret }
  | .setConnectStatus ret, .none =>
      some { self with
        connectStatus := connectStatusOf ret
        io := if ret = .kRetConnSuccess then .loop else .setDisconnected }
  | .loop, .none =>
      if (self.timers.alarms .pingAlarm).isWaiting then
        some { self with io := .sample }
      else
        some { self with
          timers := (self.timers.start .pingAlarm kPingInterval).1
          io := .sample }
  | .sample, .none =>
      if self.mutex ≠ none then none
      else some { self with io := .select (!self.messageQueue.isEmpty) }
  | .select _, .selectError => some { self with io := .clear true false false }
  | .select registered, .selected readable writable =>
      let writable := writable && registered
      if self.breaker.readable || readable || writable then
        some { self with io := .clear false readable writable }
      else none
  | .clear error readable writable, .none =>
      some { self with
        breaker := self.clearBreaker
        io := .checkDisCode error readable writable }
  | .checkDisCode error readable writable, .none =>
      if self.disCode ≠ .kDisCodeNone || error then
        some { self with io := .leave }
      else some { self with io := .checkPingTimeout readable writable }
  | .checkPingTimeout readable writable, .none =>
      if (self.timers.alarms .pingTimeoutAlarm).isAlarm then
        some { self with disCode := .kDisCodePingTimeout, io := .leave }
      else some { self with io := .checkQueue readable writable }
  | .checkQueue readable writable, .none =>
      if self.mutex ≠ none then none
      else if writable && !self.messageQueue.isEmpty then
        some { self with io := .encode readable }
      else some { self with io := .read readable }
  | .encode _, .encoded false => some { self with io := .leave }
  | .encode readable, .encoded true => self.encoded readable
  | .getAlarm readable written, .none =>
      let (self, alarm) := self.takeAlarm
      some { self with io := .setUserData readable written alarm }
  | .setUserData readable written alarm, .none =>
      some { self with
        timers := self.timers.setUserData (.request alarm)
          written.messageId.toUInt32.toInt32
        io := .setCallback readable written alarm }
  | .setCallback readable written alarm, .none =>
      some { self with
        timers := self.timers.setCallback (.request alarm)
        io := .startAlarm readable written alarm }
  | .startAlarm readable written alarm, .none =>
      some { self.armAlarm written.call alarm with
        io := .recordAlarm readable written alarm }
  | .recordAlarm readable written alarm, .none =>
      if self.holdsTimers then none
      else
        some { self.recordAlarm written alarm with
          io := .pop readable }
  | .pop readable, .none =>
      if self.mutex ≠ none then none
      else
        some { self with
          messageQueue := self.messageQueue.tail, io := .cancelPing readable }
  | .cancelPing readable, .none =>
      some { self with
        timers := (self.timers.cancel .pingAlarm).1
        io := .restartPing readable }
  | .restartPing readable, .none =>
      some { self with
        timers := (self.timers.start .pingAlarm kPingInterval).1
        io := .read readable }
  | .read false, .none => some { self with io := .checkPing }
  | .read true, .received none => some { self with io := .leave }
  | .read true, .received (some message) => some (self.received message)
  | .cancelPingTimeout, .none =>
      some { self with
        timers := (self.timers.cancel .pingTimeoutAlarm).1
        io := .checkPing }
  | .cancelTimer messageId, .none =>
      if self.holdsTimers then none
      else
        some { self.cancelTimer messageId with io := .getCallback messageId }
  | .getCallback messageId, .none =>
      match self.callback? messageId with
      | none => some { self.dropCallback messageId with io := .checkPing }
      | some call =>
          some { self.dropCallback messageId with io := .callBack call }
  | .callBack call, .none =>
      some { self.callBack call .kErrorCodeNone with io := .checkPing }
  | .disconnectAsync, .none =>
      if self.mutex ≠ none then none
      else
        some { self.enterDisconnect .io .kDisCodeKickout false with
          io := .disconnecting }
  | .disconnecting, .none =>
      match self.mutex with
      | some (.io, next) => some (self.proceed .io next)
      | _ => some { self with io := .checkPing }
  | .checkPing, .none =>
      if (self.timers.alarms .pingAlarm).isAlarm then
        some { self with io := .sendPing }
      else some { self with io := .loop }
  | .sendPing, .encoded false => some { self with io := .leave }
  | .sendPing, .encoded true => some { self with io := .resetPingTimeout }
  | .resetPingTimeout, .none =>
      some { self with
        timers := (self.timers.cancel .pingTimeoutAlarm).1
        io := .startPingTimeout }
  | .startPingTimeout, .none =>
      some { self with
        timers := (self.timers.start .pingTimeoutAlarm kPingTimeout).1
        io := .loop }
  | .leave, .none =>
      some { self with
        timers := (self.timers.cancel .pingAlarm).1, io := .leavePingTimeout }
  | .leavePingTimeout, .none =>
      some { self with
        timers := (self.timers.cancel .pingTimeoutAlarm).1
        io := .setDisconnected }
  | .setDisconnected, .none =>
      some { self with connectStatus := .kDisconnected, io := .startReconnect }
  | .startReconnect, .none =>
      some { self with
        timers := (self.timers.start .reconnectAlarm 0).1, io := .finished }
  | _, _ => none

/-! ## The thread of the message queue -/

def loopAction (loop : LoopPc (Posted ClientAlarm)) : AlarmAction ClientAlarm :=
  match loop with
  | .top => .drain
  | .next { todo := [], .. } => .rest
  | .next _ => .checkCanceled
  | .calling _ _ _ => .fire
  | .waiting _ => .wake

def innerCallback (timers : Alarms ClientAlarm) : CallbackPc :=
  if timers.firing then
    match timers.queue.loop with
    | .calling _ { alarm := .request n, start } _ => .getUserData n start
    | .calling _ { alarm := .reconnectAlarm, .. } _ => .waitDisconnect
    | .calling _ { alarm := .pingAlarm, .. } _ => .breakPing
    | .calling _ { alarm := .pingTimeoutAlarm, .. } _ => .breakPing
    | _ => .returned
  else .idle

def loopStep (self : TcpClient) : Option TcpClient :=
  (self.timers.step (loopAction self.timers.queue.loop)).map fun timers =>
    { self with timers, callback := innerCallback timers }

def timeOut (self : TcpClient) (call start : Nat) : TcpClient :=
  { self with history := { self.history with
      timedOut := (call, start, self.timers.now) :: self.history.timedOut } }

/-- `__WaitDisconnect` returns, also from inside its last loop. -/
def tearDown (self : TcpClient) (session : Nat) : TcpClient :=
  { self with
    callback := .checkReconnect
    history := { self.history with tornDown := session } }

def loseTimer (self : TcpClient) (session : Nat) (messageId : UInt16) :
    TcpClient :=
  match self.timeoutAlarmMap[messageId]? with
  | some timer =>
      { self with history := { self.history with
          canceled := (session, timer.call) :: self.history.canceled } }
  | none => self

def loseCallback (self : TcpClient) (session call : Nat) : TcpClient :=
  { self with history := { self.history with
      lost := (session, call) :: self.history.lost } }

def renewBreaker (self : TcpClient) (breaker : BreakerName) (session : Nat) : TcpClient :=
  { self with history := { self.history with
      recreated :=
        { breaker, session, sessions := self.history.sessions } ::
          self.history.recreated } }

/-- What `ReCreate` makes of `_readWriteBreaker`. -/
def newPipe (self : TcpClient) : Breaker :=
  self.breaker.setPipes (if self.pipes then some { nonblocking := true } else none)

def queueStep (self : TcpClient) : Option TcpClient :=
  match self.callback with
  | .idle => self.loopStep
  | .breakPing =>
      some { self with
        breaker := (self.breaker.break_ self.pipes).1, callback := .returned }
  | .getUserData alarm start =>
      let messageId :=
        (self.timers.alarms (.request alarm)).userData.toUInt32.toUInt16
      some { self with callback := .eraseTimer messageId start }
  | .eraseTimer messageId start =>
      some { self.release messageId with
        callback := .getCallback messageId start }
  | .getCallback messageId start =>
      match self.callback? messageId with
      | none => some { self.dropCallback messageId with callback := .returned }
      | some call =>
          some { self.dropCallback messageId with
            callback := .callTimeout call start }
  | .callTimeout call start =>
      some { (self.callBack call .kErrorCodeTimeout).timeOut call start with
        callback := .checkStatus }
  | .checkStatus =>
      if self.connectStatus = .kConnected then
        some { self with callback := .checkTimeoutDisconnect }
      else some { self with callback := .returned }
  | .checkTimeoutDisconnect =>
      if self.timeoutDisconnect then some { self with callback := .returned }
      else some { self with callback := .setTimeoutDisconnect }
  | .setTimeoutDisconnect =>
      some { self with timeoutDisconnect := true, callback := .disconnectAsync }
  | .disconnectAsync =>
      if self.mutex ≠ none then none
      else
        some { self.enterDisconnect .queue .kDisCodeSendReqTimeout true with
          callback :=
            if self.thread then .disconnecting else .makeSureConnected }
  | .disconnecting =>
      match self.mutex with
      | some (.queue, next) => some (self.proceed .queue next)
      | _ => some { self with callback := .returned }
  | .waitDisconnect =>
      if self.thread then some { self with callback := .join }
      else some { self with callback := .checkReconnect }
  | .join =>
      if self.io = .finished then
        some { self with callback := .clearThread self.history.sessions }
      else none
  | .clearThread session =>
      some { self with thread := false, callback := .lockTimers session }
  | .lockTimers session =>
      some { self with callback := .cancelTimers session [] }
  | .cancelTimers session messageIds =>
      match self.timeoutAlarmMap.keys with
      | messageId :: _ =>
          some { (self.loseTimer session messageId).cancelTimer messageId with
            callback := .cancelTimers session (messageIds ++ [messageId]) }
      | [] => some { self with callback := .getLost session messageIds }
  | .getLost session [] => some { self with callback := .checkNewBreaker session }
  | .getLost session (messageId :: messageIds) =>
      match self.callback? messageId with
      | none => some ((self.dropCallback messageId).tearDown session)
      | some call =>
          some { self.dropCallback messageId with
            callback := .callLost session call messageIds }
  | .callLost session call messageIds =>
      some { (self.callBack call .kErrorCodeLoseConnect).loseCallback session call with
        callback := .getLost session messageIds }
  | .checkNewBreaker session =>
      some { self with
        callback :=
          if self.shouldNewBreaker then .reCreate session
          else .checkNewConnBreaker session }
  | .reCreate session =>
      some { self.renewBreaker .readWriteBreaker session with
        breaker := self.newPipe, callback := .checkNewConnBreaker session }
  | .checkNewConnBreaker session =>
      if self.shouldNewConnBreaker then
        some { self with callback := .reCreateConn session }
      else some (self.tearDown session)
  | .reCreateConn session =>
      some ((self.renewBreaker .connectBreaker session).tearDown session)
  | .checkReconnect =>
      some { self with
        callback :=
          if self.shouldReconnect then .makeSureConnected else .returned
        history := { self.history with
          reads := (self.history.marked, self.shouldReconnect) ::
            self.history.reads } }
  | .makeSureConnected =>
      if self.mutex ≠ none then none
      else some { self.enterConnect .queue with callback := .connecting }
  | .connecting =>
      match self.mutex with
      | some (.queue, next) => some (self.proceed .queue next)
      | _ => some { self with callback := .returned }
  | .returned =>
      self.timers.returned.map fun timers =>
        { self with timers, callback := .idle }

/-! ## All interleavings -/

def step (self : TcpClient) : Action → Option TcpClient
  | .user call => self.userStep call
  | .io event => self.ioStep event
  | .queue => self.queueStep
  | .tick nanoseconds =>
      some { self with timers :=
        { self.timers with now := self.timers.now + nanoseconds } }
  | .pipes ok => some { self with pipes := ok }

end TcpClient

end GoSocket.Client
