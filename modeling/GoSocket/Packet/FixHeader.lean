import GoSocket.Packet.Encoding

/-!
# The fixed header

One byte with the message type in its high and four flags in its low nibble,
then the remaining length of the frame.
-/

namespace GoSocket.Packet

open GoSocket.Foundation

/-- The enumeration, with the values 9 to 15 that a cast from a nibble can
give it and that have no name. -/
inductive MessageType where
  | kMsgFirst
  | kMsgConnect
  | kMsgConnAck
  | kMsgPingReq
  | kMsgPingResp
  | kMsgDisconnect
  | kMsgSendReq
  | kMsgSendResp
  | kMsgLast
  | unnamed (above : Fin 7)
  deriving DecidableEq, Repr

namespace MessageType

def code : MessageType → UInt8
  | kMsgFirst => 0
  | kMsgConnect => 1
  | kMsgConnAck => 2
  | kMsgPingReq => 3
  | kMsgPingResp => 4
  | kMsgDisconnect => 5
  | kMsgSendReq => 6
  | kMsgSendResp => 7
  | kMsgLast => 8
  | unnamed above => 9 + UInt8.ofNat above.val

def ofNibble (nibble : UInt8) : MessageType :=
  match nibble.toNat with
  | 0 => kMsgFirst
  | 1 => kMsgConnect
  | 2 => kMsgConnAck
  | 3 => kMsgPingReq
  | 4 => kMsgPingResp
  | 5 => kMsgDisconnect
  | 6 => kMsgSendReq
  | 7 => kMsgSendResp
  | 8 => kMsgLast
  | n + 9 => unnamed (Fin.ofNat 7 n)

end MessageType

structure FixHeader where
  msgType : MessageType
  remainLen : UInt32 := 0
  flags : UInt8 := 0
  deriving DecidableEq, Repr

namespace FixHeader

def badMsgType (msgType : MessageType) : Bool :=
  msgType.code ≤ MessageType.kMsgFirst.code ||
    msgType.code ≥ MessageType.kMsgLast.code

theorem badMsgType_unnamed (above : Fin 7) : badMsgType (.unnamed above) := by
  revert above
  decide

def encode (header : FixHeader) (buf : List Byte) :
    Except TcpException (List Byte) := do
  if badMsgType header.msgType then
    throw { excType := .TcpExcBadMsgType }
  let val := (header.msgType.code <<< 4) ||| (header.flags &&& 0x0F)
  return encodeLength header.remainLen (setUint8 val buf)

/-- The remaining length is taken as `decodeLength` gives it, without looking
at the number of bytes it reports. -/
def decode {ρ : Type} [IReader ρ] : Decode ρ FixHeader := do
  let buf ← readFull 1
  let msgType := MessageType.ofNibble ((buf.headD 0 &&& 0xF0) >>> 4)
  throwIf (badMsgType msgType) .TcpExcBadMsgType
  let flags := buf.headD 0 &&& 0x0F
  throwIf (flags >>> 3 ≠ 0 ∨ flags &&& 0x01 ≠ 0) .TcpExcInvalidFlag
  let (remainLen, _) ← decodeLength
  return { msgType, remainLen := remainLen.toInt32.toUInt32, flags }

end FixHeader

/-! ## `MessageBase::WriteHeader` -/

def kMaxPayloadSize : Int32 := ((1 : Int32) <<< (4 * 7)) - 1

def writeHeader (header : FixHeader) (headerBuf : List Byte)
    (mutableHeader : Option (List Byte)) (payloadLen dataLen : Int32) :
    Except TcpException (FixHeader × List Byte) := do
  let mutableHeaderLen : Int64 :=
    match mutableHeader with
    | some buf => Int64.ofNat buf.length
    | none => 0
  let totalPayloadLen := mutableHeaderLen + payloadLen.toInt64 + dataLen.toInt64
  if totalPayloadLen > kMaxPayloadSize.toInt64 then
    throw { excType := .TcpExcMsgTooLong }
  let header :=
    { header with remainLen := totalPayloadLen.toInt32.toUInt32 }
  let headerBuf ← header.encode headerBuf
  return (header, headerBuf ++ mutableHeader.getD [])

end GoSocket.Packet
