import GoSocket.Packet.RoundTrip

/-!
# Encoding and decoding what a server answers

Only `PingResp` is read back whatever made it.  A `ConnAck` that was made by its
constructor, and not by the decoder, has the type of `Connect` in its header; a
`SendResp` writes its payload without the frame around it.
-/

namespace GoSocket.Packet

open GoSocket.Foundation

/-! ## The messages of a server -/

/-- No flag is set that `FixHeader.decode` rejects. -/
def FixHeader.PassesFlags (header : FixHeader) : Prop :=
  header.flags >>> 3 = 0 ∧ header.flags &&& 0x01 = 0

/-- A message as its constructor or the decoder makes it; the constructor of
`ConnAck` sets the type of `Connect`. -/
def IsResponse : MessageBase → Prop
  | .sendResp m => m.header.msgType = .kMsgSendResp ∧ m.header.PassesFlags
  | .connAck m =>
      (m.header.msgType = .kMsgConnect ∨ m.header.msgType = .kMsgConnAck) ∧
        m.header.PassesFlags ∧ m.returnCode ≠ .RetCodeInvalid
  | .pingResp m => m.header.msgType = .kMsgPingResp ∧ m.header.PassesFlags
  | _ => False

/-- The bytes are decoded to a message of the class with the same fields, and
what follows them is left. -/
def DecodesBack (z : Gzip) (m : MessageBase) (bytes trailing : List Byte) : Prop :=
  ∃ header requests, exec (decodeMessage z) (⟨bytes ++ trailing, []⟩ : ByteStream) =
    (.ok (m.setHeader header), ⟨trailing, requests⟩)

def WritesOwnFrame : MessageBase → Prop
  | .pingResp _ => True
  | .connAck m => m.header.msgType = .kMsgConnAck
  | _ => False

/-- What `deflateInit2` with 31 window bits makes begins as a gzip member. -/
def Gzip.WritesMagic (z : Gzip) : Prop :=
  ∀ val output, z.gzipCompress val = some output →
    ∃ rest, output = 0x1f :: 0x8b :: rest

/-! ## Classes and header bytes -/

namespace MessageBase

def classType : MessageBase → MessageType
  | .connect _ => .kMsgConnect
  | .connAck _ => .kMsgConnAck
  | .pingReq _ => .kMsgPingReq
  | .pingResp _ => .kMsgPingResp
  | .disconnect _ => .kMsgDisconnect
  | .sendReq _ => .kMsgSendReq
  | .sendResp _ => .kMsgSendResp

@[simp] theorem classType_setHeader (header : FixHeader) (m : MessageBase) :
    (m.setHeader header).classType = m.classType := by
  cases m <;> rfl

end MessageBase

theorem assemble_classType {header : FixHeader} {t : MessageType}
    {vals : Fields.Vals (bodyFields t)} {message : MessageBase}
    (h : assemble header t vals = some message) : message.classType = t := by
  cases t <;> cases h <;> rfl

theorem IsFrame.typeOf_first {z : Gzip} {message : MessageBase} {b : Byte}
    {rest : List Byte} (h : IsFrame z message (b :: rest)) :
    IsHeaderByte b ∧ typeOf b = message.classType := by
  cases h with
  | mk hb hp hlen hbody hmessage => exact ⟨hb, (assemble_classType hmessage).symm⟩

theorem DecodesBack.isFrame {z : Gzip} {m : MessageBase} {bytes trailing : List Byte}
    (h : DecodesBack z m bytes trailing) :
    ∃ message, message.classType = m.classType ∧ IsFrame z message bytes := by
  obtain ⟨header, requests, hread⟩ := h
  obtain ⟨frame, hframe, hbytes⟩ := isFrame_of_decodeMessage hread
  rw [List.append_cancel_right hbytes]
  exact ⟨_, m.classType_setHeader header, hframe⟩

theorem decodesBack_of_isFrame {z : Gzip} {m : MessageBase} {bytes : List Byte}
    (header : FixHeader) (h : IsFrame z (m.setHeader header) bytes)
    (trailing : List Byte) : DecodesBack z m bytes trailing := by
  obtain ⟨requests, hread⟩ := decodeMessage_of_isFrame h trailing []
  exact ⟨header, requests, hread⟩

theorem FixHeader.PassesFlags.cases {header : FixHeader} (h : header.PassesFlags) :
    header.flags = 0 ∨ header.flags = 2 ∨ header.flags = 4 ∨ header.flags = 6 := by
  have hall : ∀ n : Fin 256, UInt8.ofNat n.val >>> 3 = 0 →
      UInt8.ofNat n.val &&& 0x01 = 0 →
        UInt8.ofNat n.val = 0 ∨ UInt8.ofNat n.val = 2 ∨ UInt8.ofNat n.val = 4 ∨
          UInt8.ofNat n.val = 6 := by
    decide +kernel
  have hflags := hall ⟨header.flags.toNat, header.flags.toNat_lt⟩
  simp only [UInt8.ofNat_toNat] at hflags
  exact hflags h.1 h.2

theorem FixHeader.PassesFlags.firstByte {header : FixHeader} (h : header.PassesFlags)
    (hgood : FixHeader.badMsgType header.msgType = false) :
    IsHeaderByte header.firstByte ∧ typeOf header.firstByte = header.msgType := by
  have hflags := h.cases
  unfold FixHeader.firstByte
  generalize header.flags = flags at hflags
  generalize header.msgType = t at hgood
  cases t with
  | kMsgFirst => cases hgood
  | kMsgLast => cases hgood
  | unnamed above =>
      cases hgood.symm.trans (FixHeader.badMsgType_unnamed above)
  | _ => rcases hflags with rfl | rfl | rfl | rfl <;> decide

/-! ## One message -/

private theorem pingResp_decodesBack (z : Gzip) {m sent : PingResp} {bytes : List Byte}
    (hresponse : IsResponse (.pingResp m)) (h : m.encode = .ok (sent, bytes))
    (trailing : List Byte) : DecodesBack z (.pingResp m) bytes trailing := by
  obtain ⟨htype, hflags⟩ := hresponse
  simp only [PingResp.encode] at h
  obtain ⟨header, finalBuf, hwrite, hsent⟩ := of_bind_writeHeader h
  have hnil : ([] : List Byte).length < 2 ^ 31 := by simp
  obtain ⟨p, hgood, -, rfl, hp, hfour, rfl⟩ :=
    of_writeHeader_eq_ok (by simp) hnil hnil hwrite
  simp only [Prod.mk.injEq] at hsent
  obtain ⟨rfl, rfl⟩ := hsent
  obtain ⟨hbyte, htypeOf⟩ := hflags.firstByte hgood
  rw [htype] at htypeOf
  exact decodesBack_of_isFrame (headerOf m.header.firstByte 0)
    (isFrame_of_typeOf .kMsgPingResp () htypeOf hbyte hp hfour rfl rfl) trailing

private theorem connAck_decodesBack (z : Gzip) {m sent : ConnAck} {bytes : List Byte}
    (hresponse : IsResponse (.connAck m)) (h : m.encode = .ok (sent, bytes))
    (htype : m.header.msgType = .kMsgConnAck) (trailing : List Byte) :
    DecodesBack z (.connAck m) bytes trailing := by
  obtain ⟨-, hflags, hcode⟩ := hresponse
  simp only [ConnAck.encode, setUint8] at h
  obtain ⟨header, finalBuf, hwrite, hsent⟩ := of_bind_writeHeader h
  have hnil : ([] : List Byte).length < 2 ^ 31 := by simp
  obtain ⟨p, hgood, -, rfl, hp, hfour, rfl⟩ :=
    of_writeHeader_eq_ok (by simp) hnil hnil hwrite
  simp only [Prod.mk.injEq] at hsent
  obtain ⟨rfl, rfl⟩ := hsent
  obtain ⟨hbyte, htypeOf⟩ := hflags.firstByte hgood
  rw [htype] at htypeOf
  have hmatch : Fields.Match z (bodyFields .kMsgConnAck) [0, m.returnCode.code]
      (0, m.returnCode.code, ()) := by
    refine ⟨[0], _, rfl, ⟨rfl, rfl⟩, [_], [], rfl, ⟨rfl, ?_⟩, rfl⟩
    revert hcode
    cases m.returnCode <;> decide
  have hofCode : ReturnCode.ofCode m.returnCode.code = m.returnCode := by
    cases m.returnCode <;> rfl
  refine decodesBack_of_isFrame (headerOf m.header.firstByte 2)
    (isFrame_of_typeOf .kMsgConnAck (0, m.returnCode.code, ()) htypeOf hbyte hp
      hfour hmatch ?_) trailing
  rw [assemble, hofCode]
  rfl

private theorem connAck_not_decodesBack {z : Gzip} {m sent : ConnAck}
    {bytes : List Byte} (hresponse : IsResponse (.connAck m))
    (h : m.encode = .ok (sent, bytes)) (htype : m.header.msgType ≠ .kMsgConnAck)
    (trailing : List Byte) : ¬ DecodesBack z (.connAck m) bytes trailing := by
  intro hback
  obtain ⟨hmade, hflags, -⟩ := hresponse
  simp only [ConnAck.encode] at h
  obtain ⟨header, finalBuf, hwrite, hsent⟩ := of_bind_writeHeader h
  obtain ⟨rest, rfl⟩ := firstByte_of_writeHeader hwrite
  simp only [Prod.mk.injEq] at hsent
  obtain ⟨rfl, rfl⟩ := hsent
  have hconnect := hmade.resolve_right htype
  obtain ⟨-, htypeOf⟩ := hflags.firstByte (by rw [hconnect]; rfl)
  obtain ⟨message, hclass, hframe⟩ := hback.isFrame
  have hclassOf := htypeOf.symm.trans hframe.typeOf_first.2
  rw [hconnect, hclass] at hclassOf
  cases hclassOf

private theorem typeOf_sendResp {b : Byte} (h : typeOf b = .kMsgSendResp) :
    112 ≤ b.toNat ∧ b.toNat < 128 := by
  have hall : ∀ n : Fin 256, typeOf (UInt8.ofNat n.val) = .kMsgSendResp →
      112 ≤ n.val ∧ n.val < 128 := by
    decide +kernel
  have hb := hall ⟨b.toNat, b.toNat_lt⟩
  simp only [UInt8.ofNat_toNat] at hb
  exact hb h

private theorem varint_of_small {p rest : List Byte} {b : Byte} {n : Nat}
    {bytes : List Byte} (hp : Varint p n) (heq : p ++ rest = b :: bytes)
    (hsmall : b.toNat < 128) : rest = bytes ∧ n = b.toNat := by
  cases hp with
  | last b' hb =>
      cases heq
      exact ⟨rfl, rfl⟩
  | more b' hb hp =>
      cases heq
      omega

private theorem sendResp_bytes {z : Gzip} {m sent : SendResp} {bytes : List Byte}
    (h : m.encode z = .ok (sent, bytes)) :
    ∃ p val output, z.gzipCompress val = some output ∧
      Varint p (output.length % 2 ^ 32) ∧ bytes = p ++ output := by
  simp only [SendResp.encode] at h
  cases hpayload : setPayload z m.payload [] with
  | error e =>
      rw [hpayload] at h
      cases h
  | ok payloadBuf =>
      rw [hpayload] at h
      obtain ⟨header, finalBuf, -, hsent⟩ := of_bind_writeHeader h
      simp only [Prod.mk.injEq] at hsent
      obtain ⟨-, rfl⟩ := hsent
      simp only [setPayload, kEnableGzip, if_true, setGzipString, setGzip] at hpayload
      split at hpayload
      · cases hpayload
      · next output hcompress =>
          cases hpayload
          obtain ⟨p, hp, hvarint, -⟩ := encodeLength_varint
            (UInt32.ofNat output.length).toNat (UInt32.toNat_lt _) []
          rw [UInt32.ofNat_toNat, List.nil_append] at hp
          rw [UInt32.toNat_ofNat'] at hvarint
          exact ⟨p, _, output, hcompress, hvarint, by rw [setBlock, hp]⟩

private theorem sendResp_not_decodesBack {z : Gzip} (hz : z.WritesMagic)
    {m sent : SendResp} {bytes : List Byte} (h : m.encode z = .ok (sent, bytes))
    (trailing : List Byte) : ¬ DecodesBack z (.sendResp m) bytes trailing := by
  intro hback
  obtain ⟨message, hclass, hframe⟩ := hback.isFrame
  obtain ⟨p, val, output, hcompress, hp, hbytes⟩ := sendResp_bytes h
  obtain ⟨rest, rfl⟩ := hz val output hcompress
  generalize hn : (0x1f :: 0x8b :: rest : List Byte).length % 2 ^ 32 = n at hp
  cases hframe with
  | @mk b p' body vals _ hb hp' hfour hbody hmessage =>
      have htype : typeOf b = .kMsgSendResp :=
        (assemble_classType hmessage).symm.trans hclass
      obtain ⟨hge, hlt⟩ := typeOf_sendResp htype
      obtain ⟨hrest, hlen⟩ := varint_of_small hp hbytes.symm hlt
      obtain ⟨hbodyEq, hbodyLen⟩ := varint_of_small hp' hrest.symm (by decide)
      have hshort : (0x1f :: 0x8b :: rest : List Byte).length = body.length + 1 := by
        rw [hbodyEq]
        rfl
      have hbyte : (0x1f : Byte).toNat = 31 := rfl
      omega

/-! ## What is decoded back -/

/-- What a server answers is decoded back exactly where it is a `PingResp`, or a
`ConnAck` that the decoder has made. -/
theorem response_decodesBack_iff {z : Gzip} (hz : z.WritesMagic) {m sent : MessageBase}
    {bytes : List Byte} (hresponse : IsResponse m)
    (h : encodeMessage z m = .ok (sent, bytes)) (trailing : List Byte) :
    DecodesBack z m bytes trailing ↔ WritesOwnFrame m := by
  cases m with
  | connect m => cases hresponse
  | pingReq m => cases hresponse
  | disconnect m => cases hresponse
  | sendReq m => cases hresponse
  | pingResp m =>
      obtain ⟨sent, hencode, -⟩ := of_bind_encode h
      exact iff_of_true (pingResp_decodesBack z hresponse hencode trailing) trivial
  | connAck m =>
      obtain ⟨sent, hencode, -⟩ := of_bind_encode h
      constructor
      · intro hback
        by_contra htype
        exact connAck_not_decodesBack hresponse hencode htype trailing hback
      · exact fun htype => connAck_decodesBack z hresponse hencode htype trailing
  | sendResp m =>
      obtain ⟨sent, hencode, -⟩ := of_bind_encode h
      exact iff_of_false (sendResp_not_decodesBack hz hencode trailing) id

/-- zlib on the string `hi`, a member that is not compressed for any other. -/
def memberGzip : Gzip where
  gzipCompress val := some (if val = [104, 105] then hiGzip else 0x1f :: 0x8b :: val)
  gzipUncompress output :=
    if output = hiGzip then some [104, 105] else
      match output with
      | 0x1f :: 0x8b :: val => some val
      | _ => none

theorem memberGzip_writesMagic : memberGzip.WritesMagic := by
  rintro val output ⟨⟩
  split
  · exact ⟨_, rfl⟩
  · exact ⟨val, rfl⟩

/-- A `ConnAck` that was decoded before, and the reply `hi` to the request 1. -/
theorem response_decodesBack_iff_samples :
    DecodesBack memberGzip
        (.connAck { header := { msgType := .kMsgConnAck } }) [0x20, 2, 0, 0] [7] ∧
      ¬ DecodesBack memberGzip (.sendResp { messageId := 1, payload := [104, 105] })
        (22 :: hiGzip) [] := by
  constructor
  · have hresponse : IsResponse (.connAck { header := { msgType := .kMsgConnAck } }) :=
      ⟨.inr rfl, ⟨rfl, rfl⟩, by decide⟩
    have hencode : encodeMessage memberGzip
        (.connAck { header := { msgType := .kMsgConnAck } }) =
          .ok (.connAck { header := { msgType := .kMsgConnAck, remainLen := 2 } },
            [0x20, 2, 0, 0]) := by
      decide +kernel
    exact (response_decodesBack_iff memberGzip_writesMagic hresponse hencode [7]).mpr rfl
  · have hresponse : IsResponse
        (.sendResp { messageId := 1, payload := [104, 105] }) := ⟨rfl, rfl, rfl⟩
    have hencode : encodeMessage memberGzip
        (.sendResp { messageId := 1, payload := [104, 105] }) =
          .ok (.sendResp
            { header := { msgType := .kMsgSendResp, remainLen := 25 }
              messageId := 1, payload := [104, 105] }, 22 :: hiGzip) := by
      decide +kernel
    exact (response_decodesBack_iff memberGzip_writesMagic hresponse hencode []).not.mpr
      id

/-- The reply `hi` to the request 1 is written without its frame, as a length
that passes for the header of a `Connect`. -/
theorem sendResp_without_frame :
    ¬ ∀ (z : Gzip) (m sent : MessageBase) (bytes trailing : List Byte), z.Lossless →
      IsResponse m → encodeMessage z m = .ok (sent, bytes) →
        DecodesBack z m bytes trailing := by
  intro hall
  have hencode : encodeMessage sampleGzip
      (.sendResp { messageId := 1, payload := [104, 105] }) =
        .ok (.sendResp
          { header := { msgType := .kMsgSendResp, remainLen := 25 }
            messageId := 1, payload := [104, 105] }, 22 :: hiGzip) := by
    decide +kernel
  have hresponse : IsResponse
      (.sendResp { messageId := 1, payload := [104, 105] }) := ⟨rfl, rfl, rfl⟩
  obtain ⟨header, requests, hread⟩ :=
    hall sampleGzip _ _ _ [] sampleGzip_lossless hresponse hencode
  have hrejected : (exec (decodeMessage sampleGzip)
      (⟨22 :: hiGzip ++ [], []⟩ : ByteStream)).1.isOk = false := by
    decide +kernel
  rw [hread] at hrejected
  cases hrejected

end GoSocket.Packet
