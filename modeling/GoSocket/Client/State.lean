import GoSocket.Common.Alarm
import GoSocket.Packet.Message
import GoSocket.Socket.Breaker

/-!
# The state of a client

The members of `TcpClient`, the place where each of its threads stands, and
`History`, which the source does not have: the statements about runs read it.

`_mapMutex` and each use of `_timeoutMutex` but one hold a single step.  `_mutex`
and the `_timeoutMutex` of `__WaitDisconnect` are held over several steps.
`ObjectPool::Get` is a single step here; its deleter takes no lock, and the module
`ObjectPool` takes the two halves of `Get` apart.  A call of `Send`, `SendNoReply`
or `SendDisconnect` is named by its number; the callback of a `Send` has the number of
the call.
-/

namespace GoSocket.Client

open Std GoSocket.Common GoSocket.Socket

inductive DisconnectCode where
  | kDisCodeNone
  | kDisCodeReset
  | kDisCodeNetChange
  | kDisCodeNetLost
  | kDisCodeKickout
  | kDisCodeLogout
  | kDisCodeConnectTimeout
  | kDisCodeSendReqTimeout
  | kDisCodePingTimeout
  deriving DecidableEq, Repr

inductive ConnectStatus where
  | kConnectIdle
  | kConnecting
  | kConnected
  | kDisconnected
  | kConnectFailed
  | kConnectKickout
  deriving DecidableEq, Repr

inductive ErrorCode where
  | kErrorCodeNone
  | kErrorCodeNotConnect
  | kErrorCodeTimeout
  | kErrorCodeLoseConnect
  deriving DecidableEq, Repr

/-- What `__RunConnect` returns. -/
inductive ConnectResult where
  | kRetConnFailed
  | kRetConnSuccess
  | kRetConnTimeout
  | kRetConnKickout
  deriving DecidableEq, Repr

def kPingInterval : Int := 60

def kPingTimeout : Int := 5

def kSendReqTimeout : Int := 10

inductive ClientAlarm where
  | reconnectAlarm
  | pingAlarm
  | pingTimeoutAlarm
  -- the alarms of `_objectPool`, in the order they were created
  | request (n : Nat)
  deriving DecidableEq, Repr

/-- A message of `_messageQueue`, pushed by the call with that number. -/
structure Queued where
  call : Nat
  message : Packet.MessageBase
  deriving DecidableEq, Repr

/-! ## Where the threads stand -/

inductive Holder where
  | user
  | io
  | queue
  deriving DecidableEq, Repr

/-- What the holder of `_mutex` does next. -/
inductive Section where
  -- `MakeSureConnected`, the status is checked
  | connect
  -- the new thread runs, `_thread` does not point to it yet
  | assignThread
  -- `DisconnectAsync`, `_thread` is checked
  | disconnect (code : DisconnectCode) (shouldReconnect : Bool)
  | setShouldReconnect (shouldReconnect : Bool)
  | breakReadWrite
  | closeReadWrite
  | flagReadWrite
  | breakConnect
  | flagConnect
  -- `Send`, the status is checked
  | register (call : Nat) (hasCallback : Bool) (sendReq : Packet.SendReq)
  | pushSendReq (call : Nat) (sendReq : Packet.SendReq)
  -- `SendNoReply` and `SendDisconnect`, the status is checked
  | pushMessage (call : Nat) (message : Packet.MessageBase)
  -- the message is pushed
  | wakeUp
  deriving DecidableEq, Repr

/-- The request that `__RunReadWrite` has written. -/
structure Written where
  call : Nat
  messageId : UInt16
  deriving DecidableEq, Repr

/-- Where the I/O thread stands; `readable` and `writable` are what `Select`
found, which listened for writing where it was `registered`. -/
inductive IoPc where
  | finished
  | start
  | runConnect
  | setConnectStatus (ret : ConnectResult)
  | loop
  | sample
  | select (registered : Bool)
  | clear (error readable writable : Bool)
  | checkDisCode (error readable writable : Bool)
  | checkPingTimeout (readable writable : Bool)
  | checkQueue (readable writable : Bool)
  | encode (readable : Bool)
  | getAlarm (readable : Bool) (written : Written)
  | setUserData (readable : Bool) (written : Written) (alarm : Nat)
  | setCallback (readable : Bool) (written : Written) (alarm : Nat)
  | startAlarm (readable : Bool) (written : Written) (alarm : Nat)
  | recordAlarm (readable : Bool) (written : Written) (alarm : Nat)
  | pop (readable : Bool)
  | cancelPing (readable : Bool)
  | restartPing (readable : Bool)
  | read (readable : Bool)
  | cancelPingTimeout
  | cancelTimer (messageId : UInt16)
  | getCallback (messageId : UInt16)
  | callBack (call : Nat)
  | disconnectAsync
  | disconnecting
  | checkPing
  | sendPing
  | resetPingTimeout
  | startPingTimeout
  | leave
  | leavePingTimeout
  | setDisconnected
  | startReconnect
  deriving DecidableEq, Repr

/-- Where the closure that the message queue calls stands.  A request's closure
belongs to the `Start` with that number; `session` is the one that
`__WaitDisconnect` has joined. -/
inductive CallbackPc where
  | idle
  | breakPing
  | getUserData (alarm start : Nat)
  | eraseTimer (messageId : UInt16) (start : Nat)
  | getCallback (messageId : UInt16) (start : Nat)
  | callTimeout (call start : Nat)
  | checkStatus
  | checkTimeoutDisconnect
  | setTimeoutDisconnect
  | disconnectAsync
  | disconnecting
  | waitDisconnect
  | join
  | clearThread (session : Nat)
  | lockTimers (session : Nat)
  -- with `_timeoutMutex`
  | cancelTimers (session : Nat) (messageIds : List UInt16)
  | getLost (session : Nat) (messageIds : List UInt16)
  | callLost (session call : Nat) (messageIds : List UInt16)
  | checkNewBreaker (session : Nat)
  | reCreate (session : Nat)
  | checkNewConnBreaker (session : Nat)
  | reCreateConn (session : Nat)
  | checkReconnect
  | makeSureConnected
  | connecting
  | returned
  deriving DecidableEq, Repr

/-! ## The client -/

/-- A frame other than `Connect` and `PingReq` that a session has written. -/
structure WrittenFrame where
  session : Nat
  call : Nat
  time : Int
  deriving DecidableEq, Repr

inductive BreakerName where
  | readWriteBreaker
  | connectBreaker
  deriving DecidableEq, Repr

/-- A breaker that the teardown of a session has made anew, and the number of sessions
begun by then. -/
structure Renewal where
  breaker : BreakerName
  session : Nat
  sessions : Nat
  deriving DecidableEq, Repr

structure History where
  calls : Nat := 0
  -- newest first, like every list here
  invoked : List (Nat × ErrorCode) := []
  -- callbacks entered into the map, with the session of their `Send`
  registered : List (Nat × Nat) := []
  -- messages pushed, behind the session they were pushed in
  accepted : List (Nat × Nat) := []
  sessions : Nat := 0
  -- the last session whose `__WaitDisconnect` has returned
  tornDown : Nat := 0
  -- no reconnect, until the user asks for it
  marked : Bool := false
  -- `marked` at the start of each session
  begun : List Bool := []
  -- `marked`, and what the reconnect alarm sees
  reads : List (Bool × Bool) := []
  -- `MakeSureConnected` has returned, and nothing has taken the request back
  requested : Bool := false
  written : List WrittenFrame := []
  -- the successful `Start`s of `__RunReadWrite`
  armed : List (Nat × Nat) := []
  timedOut : List (Nat × Nat × Int) := []
  -- what the teardown of a session has done: timers canceled, callbacks called
  canceled : List (Nat × Nat) := []
  lost : List (Nat × Nat) := []
  recreated : List Renewal := []
  deriving DecidableEq, Repr

/-- An entry of `_timeoutAlarmMap`, an alarm of the pool and the call that it
was started for. -/
structure Timer where
  alarm : Nat
  call : Nat
  deriving DecidableEq, Repr

structure TcpClient where
  timers : Alarms ClientAlarm := {}
  connectStatus : ConnectStatus := .kConnectIdle
  disCode : DisconnectCode := .kDisCodeNone
  -- whether `_thread` is not `NULL`
  thread : Bool := false
  shouldReconnect : Bool := false
  timeoutDisconnect : Bool := false
  shouldNewBreaker : Bool := false
  shouldNewConnBreaker : Bool := false
  -- `_readWriteBreaker`; of `_connectBreaker` only what `Break` answers is used
  breaker : Breaker := { pipe := some { nonblocking := true } }
  -- whether the kernel makes pipes, and their numbers take and give bytes
  pipes : Bool := true
  messageQueue : List Queued := []
  currentMsgId : UInt16 := 1
  callbackMap : TreeMap UInt16 (Option Nat) := {}
  timeoutAlarmMap : TreeMap UInt16 Timer := {}
  -- `_objectPool`, its back first, and the number of alarms it has created
  pool : List Nat := []
  created : Nat := 0
  mutex : Option (Holder × Section) := none
  io : IoPc := .finished
  callback : CallbackPc := .idle
  history : History := {}

namespace TcpClient

def init : TcpClient where
  timers := ((({} : Alarms ClientAlarm).setCallback .reconnectAlarm).setCallback
    .pingAlarm).setCallback .pingTimeoutAlarm

end TcpClient

end GoSocket.Client
