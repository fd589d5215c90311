import GoSocket.Foundation.Varint
import GoSocket.Packet.Message

/-!
# Frame bodies as sequences of fields

Each message class reads a fixed sequence of fields and then checks that the
frame has nothing left.  `bodyFields` is that sequence, `Match` what it means
for bytes to be such a sequence, over exact lengths and without a counter.
`decodeBody_eq` ties the table to the decoders of the classes.
-/

namespace GoSocket.Packet

open GoSocket.Foundation

inductive Field where
  | uint8 (ok : Byte → Bool) (exc : TcpExcType)
  | uint16
  | string (ok : List Byte → Bool) (exc : TcpExcType)
  | gzip

namespace Field

@[reducible] def Val : Field → Type
  | uint8 _ _ => Byte
  | uint16 => UInt16
  | string _ _ => List Byte
  | gzip => List Byte

def decode {ρ : Type} [IReader ρ] (z : Gzip) :
    (f : Field) → UInt32 → Decode ρ (f.Val × UInt32)
  | uint8 ok exc, remainLen => do
      let (v, remainLen) ← getUint8 remainLen
      throwIf (!ok v) exc
      return (v, remainLen)
  | uint16, remainLen => getUint16 remainLen
  | string ok exc, remainLen => do
      let (v, remainLen) ← getString remainLen
      throwIf (!ok v) exc
      return (v, remainLen)
  | gzip, remainLen => getGzipString z remainLen

/-- The bytes of a block: a length of at most four bytes, then the content. -/
def IsBlock (bs content : List Byte) : Prop :=
  ∃ p, Varint p content.length ∧ p.length ≤ 4 ∧ bs = p ++ content

/-- Nothing, or bytes that zlib accepts. -/
def IsGzip (z : Gzip) (content v : List Byte) : Prop :=
  content = [] ∧ v = [] ∨ content ≠ [] ∧ z.gzipUncompress content = some v

def Match (z : Gzip) : (f : Field) → List Byte → f.Val → Prop
  | uint8 ok _, bs, v => bs = [v] ∧ ok v
  | uint16, bs, v =>
      ∃ high low : Byte, bs = [high, low] ∧
        UInt16.toNat v = 256 * high.toNat + low.toNat
  | string ok _, bs, v => IsBlock bs v ∧ ok v
  | gzip, bs, v => ∃ content, IsBlock bs content ∧ IsGzip z content v

end Field

namespace Fields

@[reducible] def Vals : List Field → Type
  | [] => Unit
  | f :: fs => f.Val × Vals fs

def decode {ρ : Type} [IReader ρ] (z : Gzip) :
    (fs : List Field) → UInt32 → Decode ρ (Vals fs × UInt32)
  | [], remainLen => pure ((), remainLen)
  | f :: fs, remainLen => do
      let (v, remainLen) ← f.decode z remainLen
      let (vs, remainLen) ← decode z fs remainLen
      return ((v, vs), remainLen)

def Match (z : Gzip) : (fs : List Field) → List Byte → Vals fs → Prop
  | [], bs, _ => bs = []
  | f :: fs, bs, vs =>
      ∃ first rest, bs = first ++ rest ∧ f.Match z first vs.1 ∧
        Match z fs rest vs.2

end Fields

/-! ## The seven bodies -/

def bodyFields : MessageType → List Field
  | .kMsgConnect =>
      [.string (· = kProtocolName) .TcpExcInvalidProName,
       .uint8 (· ≤ kProtocolVersion) .TcpExcInvalidProVersion,
       .uint8 (fun flags => flags = 0 ∨ flags = 128) .TcpExcInvalidFlag,
       .uint16, .gzip]
  | .kMsgConnAck =>
      [.uint8 (· = 0) .TcpExcInvalidFlag,
       .uint8 (· < ReturnCode.RetCodeInvalid.code) .TcpExcBadReturnCode]
  | .kMsgDisconnect => [.uint8 (fun _ => true) .TcpExcInvalidFlag]
  | .kMsgSendReq =>
      [.uint16, .string (fun _ => true) .TcpExcInvalidFlag, .gzip]
  | .kMsgSendResp => [.uint16, .gzip]
  | _ => []

/-- The message of a class with these fields; there is one for the types 1 to
7 only. -/
def assemble (header : FixHeader) :
    (t : MessageType) → Fields.Vals (bodyFields t) → Option MessageBase
  | .kMsgConnect, (protocolName, protocolVersion, flags, keepAlive, payload, _) =>
      some (.connect
        { header, protocolName, protocolVersion, keepAlive, payload
          enableGzip := decide (flags &&& 0x80 > 0) })
  | .kMsgConnAck, (_, code, _) =>
      some (.connAck { header, returnCode := .ofCode code })
  | .kMsgPingReq, _ => some (.pingReq { header })
  | .kMsgPingResp, _ => some (.pingResp { header })
  | .kMsgDisconnect, (type, _) => some (.disconnect { header, type })
  | .kMsgSendReq, (messageId, type, payload, _) =>
      some (.sendReq
        { header, messageId, type, payload
          replyLevel := .ofCode ((header.flags &&& 0x06) >>> 1) })
  | .kMsgSendResp, (messageId, payload, _) =>
      some (.sendResp { header, messageId, payload })
  | _, _ => none

def decodeByFields {ρ : Type} [IReader ρ] (z : Gzip) (header : FixHeader) :
    Decode ρ MessageBase := do
  let (vals, remainLen) ←
    Fields.decode z (bodyFields header.msgType) header.remainLen
  checkConsumed remainLen
  match assemble header header.msgType vals with
  | some message => return message
  | none => throw .nullMessage

private theorem decide_lt_eq (a b : UInt8) : decide (a < b) = !decide (b ≤ a) := by
  rw [← decide_not]
  exact decide_eq_decide.mpr UInt8.not_le.symm

theorem decodeBody_eq {ρ : Type} [IReader ρ] (z : Gzip) (header : FixHeader)
    (htype : ¬ FixHeader.badMsgType header.msgType)
    (hflags : header.flags &&& 0x08 = 0) :
    (decodeBody z header : Decode ρ MessageBase) = decodeByFields z header := by
  obtain ⟨msgType, remainLen, flags⟩ := header
  cases msgType with
  | kMsgFirst => exact absurd rfl htype
  | kMsgLast => exact absurd rfl htype
  | unnamed above => exact absurd (FixHeader.badMsgType_unnamed above) htype
  | kMsgSendReq =>
      simp only at hflags
      simp [decodeBody, newMessage, MessageBase.decode, MessageBase.setHeader,
        SendReq.decode, decodeByFields, bodyFields, Fields.decode, Field.decode,
        assemble, getPayload, kEnableGzip, checkConsumed, hflags]
  | _ =>
      simp [decodeBody, newMessage, MessageBase.decode, MessageBase.setHeader,
        Connect.decode, ConnAck.decode, PingReq.decode, PingResp.decode,
        Disconnect.decode, SendResp.decode, decodeByFields, bodyFields,
        Fields.decode, Field.decode, assemble, getPayload, kEnableGzip,
        checkConsumed, decide_lt_eq]

end GoSocket.Packet
