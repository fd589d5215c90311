import GoSocket.Packet.Responses

/-!
# Encoding what was decoded

The decoder accepts frames that no encoder writes: long forms of a length, other
compressions of a payload.  What it returns can be encoded again, and the new
frame says the same.  From then on the bytes stay as they are.
-/

namespace GoSocket.Packet

open GoSocket.Foundation

def FixHeader.withLength (header : FixHeader) (remainLen : UInt32) : FixHeader :=
  { header with remainLen }

namespace MessageBase

def Short (z : Gzip) : MessageBase → Prop
  | .connect m => z.Short m.payload
  | .sendReq m => z.Short m.payload
  | .sendResp m => z.Short m.payload
  | _ => True

def Checked : MessageBase → Prop
  | .connect m =>
      m.protocolName = kProtocolName ∧ m.protocolVersion ≤ kProtocolVersion
  | .connAck m => m.returnCode ≠ .RetCodeInvalid
  | .sendReq m =>
      m.hasData = false ∧ m.data = [] ∧ m.type.length < 2 ^ 28 ∧
        m.replyLevel = .ofCode ((m.header.flags &&& 0x06) >>> 1)
  | _ => True

/-- A message that the decoder has returned. -/
structure Decoded (m : MessageBase) : Prop where
  type : m.header.msgType = m.classType
  flags : m.header.PassesFlags
  checked : m.Checked

end MessageBase

/-! ## What is read -/

private theorem ofCode_ne_invalid {code : Byte}
    (h : decide (code < ReturnCode.RetCodeInvalid.code) = true) :
    ReturnCode.ofCode code ≠ .RetCodeInvalid := by
  have hall : ∀ n : Fin 256,
      decide (UInt8.ofNat n.val < ReturnCode.RetCodeInvalid.code) = true →
        ReturnCode.ofCode (UInt8.ofNat n.val) ≠ .RetCodeInvalid := by
    decide +kernel
  have hcode := hall ⟨code.toNat, code.toNat_lt⟩
  simp only [UInt8.ofNat_toNat] at hcode
  exact hcode h

theorem decoded_of_assemble {z : Gzip} (header : FixHeader) {m : MessageBase}
    {body : List Byte} {vals : Fields.Vals (bodyFields header.msgType)}
    (hbody : Fields.Match z (bodyFields header.msgType) body vals)
    (hflags : header.PassesFlags)
    (hmessage : assemble header header.msgType vals = some m) : m.Decoded := by
  obtain ⟨msgType, remainLen, flags⟩ := header
  cases msgType with
  | kMsgConnect =>
      cases hmessage
      obtain ⟨_, _, -, ⟨-, hname⟩, _, _, -, ⟨-, hversion⟩, -⟩ := hbody
      exact ⟨rfl, hflags, of_decide_eq_true hname, of_decide_eq_true hversion⟩
  | kMsgConnAck =>
      cases hmessage
      obtain ⟨_, _, -, -, _, _, -, ⟨-, hcode⟩, -⟩ := hbody
      exact ⟨rfl, hflags, ofCode_ne_invalid hcode⟩
  | kMsgSendReq =>
      cases hmessage
      obtain ⟨_, _, -, -, _, _, -, ⟨hblock, -⟩, -⟩ := hbody
      exact ⟨rfl, hflags, rfl, rfl, hblock.length_lt, rfl⟩
  | kMsgFirst | kMsgLast | unnamed => cases hmessage
  | _ =>
      cases hmessage
      exact ⟨rfl, hflags, trivial⟩

theorem IsFrame.decoded {z : Gzip} {m : MessageBase} {frame : List Byte}
    (h : IsFrame z m frame) : m.Decoded := by
  cases h with
  | @mk b p body vals _ hb hp hlen hbody hmessage =>
      exact decoded_of_assemble (headerOf b (UInt32.ofNat body.length)) hbody
        ((isHeaderByte_iff b).mp hb).2 hmessage

/-! ## What is written -/

theorem FixHeader.PassesFlags.headerOf_firstByte {header : FixHeader}
    (h : header.PassesFlags) (hgood : FixHeader.badMsgType header.msgType = false)
    (remainLen : UInt32) :
    headerOf header.firstByte remainLen = header.withLength remainLen := by
  have hflags := h.cases
  obtain ⟨-, htype⟩ := h.firstByte hgood
  rw [headerOf, htype, FixHeader.withLength]
  congr 1
  unfold FixHeader.firstByte
  generalize header.flags = flags at hflags
  generalize header.msgType = t at hgood
  cases t with
  | kMsgFirst => cases hgood
  | kMsgLast => cases hgood
  | unnamed above =>
      cases hgood.symm.trans (FixHeader.badMsgType_unnamed above)
  | _ => rcases hflags with rfl | rfl | rfl | rfl <;> decide

theorem assemble_withLength {header : FixHeader} {t : MessageType}
    {vals : Fields.Vals (bodyFields t)} {m : MessageBase}
    (h : assemble header t vals = some m) (remainLen : UInt32) :
    assemble (header.withLength remainLen) t vals =
      some (m.setHeader (header.withLength remainLen)) := by
  cases t <;> cases h <;> rfl

/-- The message is written as a frame that says the same. -/
structure Rewritten (z : Gzip) (m sent : MessageBase) (bytes : List Byte) :
    Prop where
  frame : IsFrame z sent bytes
  same : ∃ remainLen, sent = m.setHeader (m.header.withLength remainLen)

theorem MessageBase.Decoded.rewritten {z : Gzip} {m : MessageBase} (h : m.Decoded)
    (vals : Fields.Vals (bodyFields m.classType))
    (hvals : assemble m.header m.classType vals = some m) {p body : List Byte}
    (hp : Varint p body.length) (hlen : p.length ≤ 4)
    (hbody : Fields.Match z (bodyFields m.classType) body vals) :
    Rewritten z m (m.setHeader (m.header.withLength (UInt32.ofNat body.length)))
      (m.header.firstByte :: (p ++ body)) := by
  have hgood : FixHeader.badMsgType m.header.msgType = false := by
    rw [h.type]
    cases m <;> rfl
  obtain ⟨hbyte, htype⟩ := h.flags.firstByte hgood
  refine ⟨isFrame_of_typeOf m.classType vals (htype.trans h.type) hbyte hp hlen hbody ?_,
    _, rfl⟩
  rw [h.flags.headerOf_firstByte hgood]
  exact assemble_withLength hvals _

private theorem bit_flags (enableGzip : Bool) :
    (bit enableGzip <<< 7 = 0 ∨ bit enableGzip <<< 7 = 128) ∧
      decide ((bit enableGzip <<< 7) &&& 0x80 > 0) = enableGzip := by
  cases enableGzip <;> decide

private theorem connect_rewritten {z : Gzip} (hz : z.Lossless) {m sent : Connect}
    {bytes : List Byte} (hdecoded : (MessageBase.connect m).Decoded)
    (hshort : z.Short m.payload) (h : m.encode z = .ok (sent, bytes)) :
    Rewritten z (.connect m) (.connect sent) bytes := by
  obtain ⟨hname, hversion⟩ := hdecoded.checked
  obtain ⟨block, hpayload, hblock, hgzip⟩ := setPayload_match hz hshort
  obtain ⟨name, hnameBlock, hwritten⟩ := setString_written m.protocolName []
    (by rw [hname]; decide)
  simp only [Connect.encode, hpayload, hnameBlock, setUint8, setUint16] at h
  obtain ⟨header, finalBuf, hwrite, hsent⟩ := of_bind_writeHeader h
  have hnameLen := hwritten.le_content
  have hfive : m.protocolName.length = 5 := by rw [hname]; rfl
  have hnil : ([] : List Byte).length < 2 ^ 31 := by simp
  obtain ⟨p, -, hlen, rfl, hp, hfour, rfl⟩ :=
    of_writeHeader_eq_ok (by simp; omega) hblock hnil hwrite
  simp only [Prod.mk.injEq] at hsent
  obtain ⟨rfl, rfl⟩ := hsent
  simp only [Option.getD_some, List.append_nil, List.nil_append] at hlen hp ⊢
  rw [List.cons_append, List.append_assoc p]
  refine hdecoded.rewritten (m.protocolName, m.protocolVersion,
    bit m.enableGzip <<< 7, m.keepAlive, m.payload, ()) ?_ hp hfour ?_
  · simp only [assemble, MessageBase.classType]
    rw [(bit_flags m.enableGzip).2]
    rfl
  · refine ⟨name, _, by simp only [List.append_assoc]; rfl,
      ⟨hwritten.isBlock (by omega), decide_eq_true hname⟩, [m.protocolVersion], _, rfl,
      ⟨rfl, decide_eq_true hversion⟩, [_], _, rfl,
      ⟨rfl, decide_eq_true (bit_flags m.enableGzip).1⟩, _, _, rfl,
      uint16_match z m.keepAlive, block, [], by simp, hgzip ?_, rfl⟩
    simp only [List.length_append] at hlen
    omega

private theorem connAck_rewritten (z : Gzip) {m sent : ConnAck} {bytes : List Byte}
    (hdecoded : (MessageBase.connAck m).Decoded) (h : m.encode = .ok (sent, bytes)) :
    Rewritten z (.connAck m) (.connAck sent) bytes := by
  simp only [ConnAck.encode, setUint8] at h
  obtain ⟨header, finalBuf, hwrite, hsent⟩ := of_bind_writeHeader h
  have hnil : ([] : List Byte).length < 2 ^ 31 := by simp
  obtain ⟨p, -, -, rfl, hp, hfour, rfl⟩ :=
    of_writeHeader_eq_ok (by simp) hnil hnil hwrite
  simp only [Prod.mk.injEq] at hsent
  obtain ⟨rfl, rfl⟩ := hsent
  have hcode : m.returnCode.code < ReturnCode.RetCodeInvalid.code ∧
      ReturnCode.ofCode m.returnCode.code = m.returnCode := by
    have hchecked := hdecoded.checked
    simp only [MessageBase.Checked] at hchecked
    revert hchecked
    cases m.returnCode <;> decide
  refine hdecoded.rewritten (0, m.returnCode.code, ()) ?_ hp hfour
    ⟨[0], _, rfl, ⟨rfl, rfl⟩, [_], [], rfl, ⟨rfl, decide_eq_true hcode.1⟩, rfl⟩
  simp only [assemble, MessageBase.classType]
  rw [hcode.2]
  rfl

private theorem disconnect_rewritten (z : Gzip) {m sent : Disconnect}
    {bytes : List Byte} (hdecoded : (MessageBase.disconnect m).Decoded)
    (h : m.encode = .ok (sent, bytes)) :
    Rewritten z (.disconnect m) (.disconnect sent) bytes := by
  simp only [Disconnect.encode, setUint8] at h
  obtain ⟨header, finalBuf, hwrite, hsent⟩ := of_bind_writeHeader h
  have hnil : ([] : List Byte).length < 2 ^ 31 := by simp
  obtain ⟨p, -, -, rfl, hp, hfour, rfl⟩ :=
    of_writeHeader_eq_ok (by simp) hnil hnil hwrite
  simp only [Prod.mk.injEq] at hsent
  obtain ⟨rfl, rfl⟩ := hsent
  exact hdecoded.rewritten (m.type, ()) rfl hp hfour ⟨[m.type], [], rfl, ⟨rfl, rfl⟩, rfl⟩

private theorem pingReq_rewritten (z : Gzip) {m sent : PingReq} {bytes : List Byte}
    (hdecoded : (MessageBase.pingReq m).Decoded) (h : m.encode = .ok (sent, bytes)) :
    Rewritten z (.pingReq m) (.pingReq sent) bytes := by
  simp only [PingReq.encode] at h
  obtain ⟨header, finalBuf, hwrite, hsent⟩ := of_bind_writeHeader h
  have hnil : ([] : List Byte).length < 2 ^ 31 := by simp
  obtain ⟨p, -, -, rfl, hp, hfour, rfl⟩ :=
    of_writeHeader_eq_ok (by simp) hnil hnil hwrite
  simp only [Prod.mk.injEq] at hsent
  obtain ⟨rfl, rfl⟩ := hsent
  exact hdecoded.rewritten () rfl hp hfour rfl

private theorem pingResp_rewritten (z : Gzip) {m sent : PingResp} {bytes : List Byte}
    (hdecoded : (MessageBase.pingResp m).Decoded) (h : m.encode = .ok (sent, bytes)) :
    Rewritten z (.pingResp m) (.pingResp sent) bytes := by
  simp only [PingResp.encode] at h
  obtain ⟨header, finalBuf, hwrite, hsent⟩ := of_bind_writeHeader h
  have hnil : ([] : List Byte).length < 2 ^ 31 := by simp
  obtain ⟨p, -, -, rfl, hp, hfour, rfl⟩ :=
    of_writeHeader_eq_ok (by simp) hnil hnil hwrite
  simp only [Prod.mk.injEq] at hsent
  obtain ⟨rfl, rfl⟩ := hsent
  exact hdecoded.rewritten () rfl hp hfour rfl

private theorem sendReq_flags_kept {header : FixHeader} (h : header.PassesFlags)
    {level : ReplyLevel} (hlevel : level = .ofCode ((header.flags &&& 0x06) >>> 1)) :
    (level.code <<< 1) ||| (bit false <<< 3) = header.flags := by
  rw [hlevel]
  rcases h.cases with hflags | hflags | hflags | hflags <;> rw [hflags] <;> rfl

private theorem sendReq_rewritten {z : Gzip} (hz : z.Lossless) {m sent : SendReq}
    {bytes : List Byte} (hdecoded : (MessageBase.sendReq m).Decoded)
    (hshort : z.Short m.payload) (h : m.encode z = .ok (sent, bytes)) :
    Rewritten z (.sendReq m) (.sendReq sent) bytes := by
  obtain ⟨header, replyLevel, hasData, messageId, type, payload, data⟩ := m
  obtain ⟨rfl, rfl, htype, hlevel⟩ :
    hasData = false ∧ data = [] ∧ type.length < 2 ^ 28 ∧
      replyLevel = .ofCode ((header.flags &&& 0x06) >>> 1) := hdecoded.checked
  obtain ⟨block, hpayload, hblock, hgzip⟩ := setPayload_match hz hshort
  obtain ⟨typeBlock, htypeBlock, hwritten⟩ :=
    setString_written type (setUint16 messageId []) (by omega)
  simp only [SendReq.encode, hpayload, htypeBlock,
    sendReq_flags_kept hdecoded.flags hlevel] at h
  obtain ⟨header, finalBuf, hwrite, hsent⟩ := of_bind_writeHeader h
  have htypeLen := hwritten.le_content
  have hnil : ([] : List Byte).length < 2 ^ 31 := by simp
  obtain ⟨p, -, hlen, rfl, hp, hfour, rfl⟩ :=
    of_writeHeader_eq_ok (by simp [setUint16]; omega) hblock hnil hwrite
  simp only [Prod.mk.injEq] at hsent
  obtain ⟨rfl, rfl⟩ := hsent
  simp only [Option.getD_some, List.append_nil] at hlen hp ⊢
  rw [List.cons_append, List.append_assoc p]
  refine hdecoded.rewritten (messageId, type, payload, ()) ?_ hp hfour ?_
  · have hkept : ReplyLevel.ofCode ((header.flags &&& 0x06) >>> 1) = replyLevel :=
      hlevel.symm
    simp only [assemble, MessageBase.classType, MessageBase.header, hkept]
  · simp only [List.length_append] at hlen
    exact ⟨_, _, List.append_assoc _ _ _, uint16_match z messageId, typeBlock,
      block, rfl, ⟨hwritten.isBlock htype, rfl⟩, block, [], by simp,
      hgzip (by omega), rfl⟩

theorem encodeMessage_rewritten {z : Gzip} (hz : z.Lossless) {m sent : MessageBase}
    {bytes : List Byte} (hdecoded : m.Decoded) (hclass : m.classType ≠ .kMsgSendResp)
    (hshort : m.Short z) (h : encodeMessage z m = .ok (sent, bytes)) :
    Rewritten z m sent bytes := by
  cases m with
  | connect m =>
      obtain ⟨sent, hencode, rfl⟩ := of_bind_encode h
      exact connect_rewritten hz hdecoded hshort hencode
  | connAck m =>
      obtain ⟨sent, hencode, rfl⟩ := of_bind_encode h
      exact connAck_rewritten z hdecoded hencode
  | pingReq m =>
      obtain ⟨sent, hencode, rfl⟩ := of_bind_encode h
      exact pingReq_rewritten z hdecoded hencode
  | pingResp m =>
      obtain ⟨sent, hencode, rfl⟩ := of_bind_encode h
      exact pingResp_rewritten z hdecoded hencode
  | disconnect m =>
      obtain ⟨sent, hencode, rfl⟩ := of_bind_encode h
      exact disconnect_rewritten z hdecoded hencode
  | sendReq m =>
      obtain ⟨sent, hencode, rfl⟩ := of_bind_encode h
      exact sendReq_rewritten hz hdecoded hshort hencode
  | sendResp m => exact absurd rfl hclass

theorem encodeMessage_withLength (z : Gzip) (m : MessageBase) (remainLen : UInt32) :
    encodeMessage z (m.setHeader (m.header.withLength remainLen)) =
      encodeMessage z m := by
  cases m <;> rfl

/-- A message that was decoded, from whatever frame, is written as a frame that is
decoded to the same message but for the remaining length; it is written as these
bytes from then on.  `SendResp` does not write its frame. -/
theorem reencode_decoded {z : Gzip} (hz : z.Lossless) {received rest : List Byte}
    {requests : List UInt64} {m sent : MessageBase} {bytes : List Byte}
    (hdecode : exec (decodeMessage z) (⟨received, []⟩ : ByteStream) =
      (.ok m, ⟨rest, requests⟩))
    (hclass : m.classType ≠ .kMsgSendResp) (hshort : m.Short z)
    (hencode : encodeMessage z m = .ok (sent, bytes)) (trailing : List Byte) :
    (∃ remainLen, sent = m.setHeader (m.header.withLength remainLen)) ∧
      (∃ requests, exec (decodeMessage z) (⟨bytes ++ trailing, []⟩ : ByteStream) =
        (.ok sent, ⟨trailing, requests⟩)) ∧
      encodeMessage z sent = .ok (sent, bytes) := by
  obtain ⟨frame, hframe, -⟩ := isFrame_of_decodeMessage hdecode
  obtain ⟨hsent, remainLen, rfl⟩ :=
    encodeMessage_rewritten hz hframe.decoded hclass hshort hencode
  exact ⟨⟨remainLen, rfl⟩, decodeMessage_of_isFrame hsent trailing [],
    by rw [encodeMessage_withLength, hencode]⟩

/-- The request `t` with `hi`, with both of its lengths in two bytes. -/
def longFormBytes : List Byte :=
  [0x62, 0x9c, 0, 0, 1, 0x81, 0, 116, 22] ++ hiGzip

def longFormRequest (remainLen : UInt32) : MessageBase :=
  .sendReq
    { header := { msgType := .kMsgSendReq, remainLen, flags := 2 }
      messageId := 1, type := [116], payload := [104, 105] }

theorem longFormBytes_decoded :
    exec (decodeMessage sampleGzip) (⟨longFormBytes, []⟩ : ByteStream) =
      (.ok (longFormRequest 28), ⟨[], [1, 1, 1, 2, 1, 1, 1, 1, 22]⟩) := by
  decide +kernel

theorem reencode_decoded_longForm :
    (∃ remainLen, longFormRequest 27 =
        (longFormRequest 28).setHeader ((longFormRequest 28).header.withLength remainLen)) ∧
      (∃ requests, exec (decodeMessage sampleGzip)
          (⟨[0x62, 27, 0, 1, 1, 116, 22] ++ hiGzip ++ [0x40, 0], []⟩ : ByteStream) =
        (.ok (longFormRequest 27), ⟨[0x40, 0], requests⟩)) ∧
      encodeMessage sampleGzip (longFormRequest 27) =
        .ok (longFormRequest 27, [0x62, 27, 0, 1, 1, 116, 22] ++ hiGzip) :=
  reencode_decoded sampleGzip_lossless longFormBytes_decoded (by decide)
    (sampleGzip_short [104, 105] hiGzip (by decide) (by decide) rfl)
    (by decide +kernel) [0x40, 0]

end GoSocket.Packet
