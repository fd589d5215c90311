import GoSocket.Packet.FixHeader

/-!
# Messages

The seven message classes with their encoders and decoders, and
`MessageManager`, which picks the class by the type in the header.  A member
that the constructor leaves uninitialised is zero here: no encoder or decoder
reads it before it is set.
-/

namespace GoSocket.Packet

open GoSocket.Foundation

-- "GOSOC"
def kProtocolName : List Byte := [71, 79, 83, 79, 67]

def kProtocolVersion : UInt8 := 1

def kEnableGzip : Bool := true

/-- `uint8_t(flag)`, the integer a `bool` converts to. -/
def bit (flag : Bool) : UInt8 := if flag then 1 else 0

def setPayload (z : Gzip) (payload buf : List Byte) :
    Except TcpException (List Byte) :=
  if kEnableGzip then setGzipString z payload buf
  else pure (setString payload buf)

def getPayload {ρ : Type} [IReader ρ] (z : Gzip) (remainLen : UInt32) :
    Decode ρ (List Byte × UInt32) :=
  if kEnableGzip then getGzipString z remainLen else getString remainLen

/-- The last check of every `Decode`: the frame has nothing left. -/
def checkConsumed {ρ : Type} (remainLen : UInt32) : Decode ρ Unit :=
  throwIf (remainLen ≠ 0) .TcpExcMsgTooLong

/-! ## Connect -/

structure Connect where
  header : FixHeader := { msgType := .kMsgConnect }
  protocolName : List Byte := []
  protocolVersion : UInt8 := 0
  keepAlive : UInt16 := 0
  payload : List Byte := []
  enableGzip : Bool := false
  deriving DecidableEq, Repr

namespace Connect

def encode (z : Gzip) (self : Connect) :
    Except TcpException (Connect × List Byte) := do
  let buf := setString self.protocolName []
  let buf := setUint8 self.protocolVersion buf
  let flags := bit self.enableGzip <<< 7
  let buf := setUint8 flags buf
  let buf := setUint16 self.keepAlive buf
  let payloadBuf ← setPayload z self.payload []
  let (header, finalBuf) ←
    writeHeader self.header [] (some buf) (int32Size payloadBuf) 0
  return ({ self with header }, finalBuf ++ payloadBuf)

def decode {ρ : Type} [IReader ρ] (z : Gzip) (self : Connect) :
    Decode ρ Connect := do
  let remainLen := self.header.remainLen
  let (protocolName, remainLen) ← getString remainLen
  throwIf (protocolName ≠ kProtocolName) .TcpExcInvalidProName
  let (protocolVersion, remainLen) ← getUint8 remainLen
  throwIf (protocolVersion > kProtocolVersion) .TcpExcInvalidProVersion
  let (flags, remainLen) ← getUint8 remainLen
  let enableGzip := decide (flags &&& 0x80 > 0)
  throwIf (flags ≠ 0 ∧ flags ≠ 128) .TcpExcInvalidFlag
  let (keepAlive, remainLen) ← getUint16 remainLen
  let (payload, remainLen) ← getPayload z remainLen
  checkConsumed remainLen
  return { self with
    protocolName, protocolVersion, keepAlive, payload, enableGzip }

end Connect

/-! ## ConnAck -/

inductive ReturnCode where
  | RetCodeAccepted
  | RetCodeServerUnavailable
  | RetCodeBadLoginInfo
  | RetCodeNotAuthorized
  | RetCodeAlreadyConnected
  | RetCodeConcurrentLogin
  | RetCodeBadToken
  | RetCodeInvalid
  deriving DecidableEq, Repr

namespace ReturnCode

def code : ReturnCode → UInt8
  | RetCodeAccepted => 0
  | RetCodeServerUnavailable => 1
  | RetCodeBadLoginInfo => 2
  | RetCodeNotAuthorized => 3
  | RetCodeAlreadyConnected => 4
  | RetCodeConcurrentLogin => 5
  | RetCodeBadToken => 6
  | RetCodeInvalid => 7

def ofCode (code : UInt8) : ReturnCode :=
  match code.toNat with
  | 0 => RetCodeAccepted
  | 1 => RetCodeServerUnavailable
  | 2 => RetCodeBadLoginInfo
  | 3 => RetCodeNotAuthorized
  | 4 => RetCodeAlreadyConnected
  | 5 => RetCodeConcurrentLogin
  | 6 => RetCodeBadToken
  | _ => RetCodeInvalid

end ReturnCode

-- The constructor of the source sets the type of `Connect`.
structure ConnAck where
  header : FixHeader := { msgType := .kMsgConnect }
  returnCode : ReturnCode := .RetCodeAccepted
  deriving DecidableEq, Repr

namespace ConnAck

def encode (self : ConnAck) : Except TcpException (ConnAck × List Byte) := do
  let buf := setUint8 0 []
  let buf := setUint8 self.returnCode.code buf
  let (header, finalBuf) ← writeHeader self.header [] (some buf) 0 0
  return ({ self with header }, finalBuf)

def decode {ρ : Type} [IReader ρ] (self : ConnAck) : Decode ρ ConnAck := do
  let remainLen := self.header.remainLen
  let (flags, remainLen) ← getUint8 remainLen
  throwIf (flags ≠ 0) .TcpExcInvalidFlag
  let (retCode, remainLen) ← getUint8 remainLen
  -- the test `retCode < 0` next to this one is false of every `uint8_t`
  throwIf (retCode ≥ ReturnCode.RetCodeInvalid.code) .TcpExcBadReturnCode
  checkConsumed remainLen
  return { self with returnCode := .ofCode retCode }

end ConnAck

/-! ## PingReq and PingResp -/

structure PingReq where
  header : FixHeader := { msgType := .kMsgPingReq }
  deriving DecidableEq, Repr

structure PingResp where
  header : FixHeader := { msgType := .kMsgPingResp }
  deriving DecidableEq, Repr

namespace PingReq

def encode (self : PingReq) : Except TcpException (PingReq × List Byte) := do
  let (header, finalBuf) ← writeHeader self.header [] none 0 0
  return ({ self with header }, finalBuf)

def decode {ρ : Type} (self : PingReq) : Decode ρ PingReq := do
  checkConsumed self.header.remainLen
  return self

end PingReq

namespace PingResp

def encode (self : PingResp) : Except TcpException (PingResp × List Byte) := do
  let (header, finalBuf) ← writeHeader self.header [] none 0 0
  return ({ self with header }, finalBuf)

def decode {ρ : Type} (self : PingResp) : Decode ρ PingResp := do
  checkConsumed self.header.remainLen
  return self

end PingResp

/-! ## Disconnect -/

-- A peer's byte is cast to the enumeration unchecked, so any value can occur.
abbrev DisconnectType := UInt8

def DiscTypeNone : DisconnectType := 0

def DiscTypeKickout : DisconnectType := 1

structure Disconnect where
  header : FixHeader := { msgType := .kMsgDisconnect }
  type : DisconnectType := DiscTypeNone
  deriving DecidableEq, Repr

namespace Disconnect

def encode (self : Disconnect) :
    Except TcpException (Disconnect × List Byte) := do
  let buf := setUint8 self.type []
  let (header, finalBuf) ← writeHeader self.header [] (some buf) 0 0
  return ({ self with header }, finalBuf)

def decode {ρ : Type} [IReader ρ] (self : Disconnect) :
    Decode ρ Disconnect := do
  let remainLen := self.header.remainLen
  let (type, remainLen) ← getUint8 remainLen
  checkConsumed remainLen
  return { self with type }

end Disconnect

/-! ## SendReq -/

/-- The enumeration, with the value 3 that a cast from two bits can give. -/
inductive ReplyLevel where
  | RLevelNoReply
  | RLevelReplyLater
  | RLevelReplyNow
  | unnamed
  deriving DecidableEq, Repr

namespace ReplyLevel

def code : ReplyLevel → UInt8
  | RLevelNoReply => 0
  | RLevelReplyLater => 1
  | RLevelReplyNow => 2
  | unnamed => 3

def ofCode (code : UInt8) : ReplyLevel :=
  match code.toNat with
  | 0 => RLevelNoReply
  | 1 => RLevelReplyLater
  | 2 => RLevelReplyNow
  | _ => unnamed

end ReplyLevel

structure SendReq where
  header : FixHeader := { msgType := .kMsgSendReq }
  replyLevel : ReplyLevel := .RLevelReplyLater
  hasData : Bool := false
  messageId : UInt16 := 0
  type : List Byte := []
  payload : List Byte := []
  data : List Byte := []
  deriving DecidableEq, Repr

namespace SendReq

def setData (self : SendReq) (data : List Byte) : SendReq :=
  { self with hasData := true, data }

def encode (z : Gzip) (self : SendReq) :
    Except TcpException (SendReq × List Byte) := do
  let flags := (self.replyLevel.code <<< 1) ||| (bit self.hasData <<< 3)
  let header := { self.header with flags }
  let buf := setUint16 self.messageId []
  let buf := setString self.type buf
  let payloadBuf ← setPayload z self.payload []
  let dataBuf ←
    if self.hasData then
      if kEnableGzip then setGzipData z self.data []
      else pure (Packet.setData self.data [])
    else pure []
  let (header, finalBuf) ←
    writeHeader header [] (some buf) (int32Size payloadBuf) (int32Size dataBuf)
  return ({ self with header }, finalBuf ++ payloadBuf ++ dataBuf)

def decode {ρ : Type} [IReader ρ] (z : Gzip) (self : SendReq) :
    Decode ρ SendReq := do
  let replyLevel := ReplyLevel.ofCode ((self.header.flags &&& 0x06) >>> 1)
  let hasData := decide ((self.header.flags &&& 0x08) >>> 3 ≠ 0)
  let remainLen := self.header.remainLen
  let (messageId, remainLen) ← getUint16 remainLen
  let (type, remainLen) ← getString remainLen
  let (payload, remainLen) ← getPayload z remainLen
  let (data, remainLen) ←
    if hasData then
      if kEnableGzip then getGzipData z remainLen else getData remainLen
    else pure (self.data, remainLen)
  checkConsumed remainLen
  return { self with replyLevel, hasData, messageId, type, payload, data }

end SendReq

/-! ## SendResp -/

structure SendResp where
  header : FixHeader := { msgType := .kMsgSendResp }
  messageId : UInt16 := 0
  payload : List Byte := []
  deriving DecidableEq, Repr

namespace SendResp

-- What is written is the payload buffer, not the frame that was built.
def encode (z : Gzip) (self : SendResp) :
    Except TcpException (SendResp × List Byte) := do
  let buf := setUint16 self.messageId []
  let payloadBuf ← setPayload z self.payload []
  let (header, _) ←
    writeHeader self.header [] (some buf) (int32Size payloadBuf) 0
  return ({ self with header }, payloadBuf)

def decode {ρ : Type} [IReader ρ] (z : Gzip) (self : SendResp) :
    Decode ρ SendResp := do
  let remainLen := self.header.remainLen
  let (messageId, remainLen) ← getUint16 remainLen
  let (payload, remainLen) ← getPayload z remainLen
  checkConsumed remainLen
  return { self with messageId, payload }

end SendResp

/-! ## MessageManager -/

inductive MessageBase where
  | connect (m : Connect)
  | connAck (m : ConnAck)
  | pingReq (m : PingReq)
  | pingResp (m : PingResp)
  | disconnect (m : Disconnect)
  | sendReq (m : SendReq)
  | sendResp (m : SendResp)
  deriving DecidableEq, Repr

namespace MessageBase

def header : MessageBase → FixHeader
  | connect m => m.header
  | connAck m => m.header
  | pingReq m => m.header
  | pingResp m => m.header
  | disconnect m => m.header
  | sendReq m => m.header
  | sendResp m => m.header

def setHeader (h : FixHeader) : MessageBase → MessageBase
  | connect m => connect { m with header := h }
  | connAck m => connAck { m with header := h }
  | pingReq m => pingReq { m with header := h }
  | pingResp m => pingResp { m with header := h }
  | disconnect m => disconnect { m with header := h }
  | sendReq m => sendReq { m with header := h }
  | sendResp m => sendResp { m with header := h }

/-- `message->Decode(reader)`, on the class of the object. -/
def decode {ρ : Type} [IReader ρ] (z : Gzip) :
    MessageBase → Decode ρ MessageBase
  | connect m => connect <$> m.decode z
  | connAck m => connAck <$> m.decode
  | pingReq m => pingReq <$> m.decode
  | pingResp m => pingResp <$> m.decode
  | disconnect m => disconnect <$> m.decode
  | sendReq m => sendReq <$> m.decode z
  | sendResp m => sendResp <$> m.decode z

end MessageBase

/-- The object the `switch` of `DecodeMessage` makes; none in its default. -/
def newMessage : MessageType → Option MessageBase
  | .kMsgConnect => some (.connect {})
  | .kMsgConnAck => some (.connAck {})
  | .kMsgDisconnect => some (.disconnect {})
  | .kMsgPingReq => some (.pingReq {})
  | .kMsgPingResp => some (.pingResp {})
  | .kMsgSendReq => some (.sendReq {})
  | .kMsgSendResp => some (.sendResp {})
  | _ => none

def decodeBody {ρ : Type} [IReader ρ] (z : Gzip) (header : FixHeader) :
    Decode ρ MessageBase :=
  match newMessage header.msgType with
  | some message => (message.setHeader header).decode z
  | none => throw .nullMessage

def decodeMessage {ρ : Type} [IReader ρ] (z : Gzip) : Decode ρ MessageBase := do
  let header ← FixHeader.decode
  decodeBody z header

def encodeMessage (z : Gzip) :
    MessageBase → Except TcpException (MessageBase × List Byte)
  | .connect m => do let (m, bytes) ← m.encode z; return (.connect m, bytes)
  | .connAck m => do let (m, bytes) ← m.encode; return (.connAck m, bytes)
  | .pingReq m => do let (m, bytes) ← m.encode; return (.pingReq m, bytes)
  | .pingResp m => do let (m, bytes) ← m.encode; return (.pingResp m, bytes)
  | .disconnect m => do
      let (m, bytes) ← m.encode; return (.disconnect m, bytes)
  | .sendReq m => do let (m, bytes) ← m.encode z; return (.sendReq m, bytes)
  | .sendResp m => do let (m, bytes) ← m.encode z; return (.sendResp m, bytes)

end GoSocket.Packet
