import GoSocket.Packet.Encoders

/-!
# Encoding and decoding a connection's messages

What the client writes on a connection, one frame behind the other, is read
back as the same messages.  A request with binary data is the exception: its
flag bit is one that `FixHeader.decode` rejects.
-/

namespace GoSocket.Packet

open GoSocket.Foundation

/-! ## What is assumed of zlib -/

/-- Compression succeeds with a non-empty result, and is undone. -/
def Gzip.Lossless (z : Gzip) : Prop :=
  ∀ val, val.length < 2 ^ 30 → ∃ output, z.gzipCompress val = some output ∧
    output ≠ [] ∧ z.gzipUncompress output = some val

/-- Plain and compressed, the string is shorter than `2 ^ 30` bytes. -/
def Gzip.Short (z : Gzip) (val : List Byte) : Prop :=
  val.length < 2 ^ 30 ∧
    ∀ output, z.gzipCompress val = some output → output.length < 2 ^ 30

/-! ## The messages of a client -/

/-- The messages a client writes, by what is set on them. -/
inductive ClientMessage where
  | connect (protocolVersion : UInt8)
      (hversion : protocolVersion ≤ kProtocolVersion) (keepAlive : UInt16)
      (enableGzip : Bool) (payload : List Byte)
  | sendReq (messageId : UInt16) (replyLevel : ReplyLevel)
      (type payload : List Byte)
  | disconnect
  | pingReq

namespace ClientMessage

def toMessage : ClientMessage → MessageBase
  | connect protocolVersion _ keepAlive enableGzip payload =>
      .connect
        { protocolName := kProtocolName, protocolVersion, keepAlive, payload
          enableGzip }
  | sendReq messageId replyLevel type payload =>
      .sendReq { messageId, replyLevel, type, payload }
  | disconnect => .disconnect {}
  | pingReq => .pingReq {}

def Short (z : Gzip) : ClientMessage → Prop
  | connect _ _ _ _ payload => z.Short payload
  | sendReq _ _ type payload => type.length < 2 ^ 30 ∧ z.Short payload
  | disconnect => True
  | pingReq => True

end ClientMessage

/-! ## Fields as they are written -/

theorem uint16_match (z : Gzip) (val : UInt16) :
    Field.uint16.Match z
      [((val &&& 0xff00) >>> 8).toUInt8, (val &&& 0x00ff).toUInt8] val := by
  have hval := val.toNat_lt
  have hlow : val.toNat &&& 255 = val.toNat % 256 :=
    Nat.and_two_pow_sub_one_eq_mod _ 8
  have hhigh : (val.toNat &&& 0xff00) >>> 8 = val.toNat / 256 := by
    rw [Nat.shiftRight_and_distrib, Nat.shiftRight_eq_div_pow]
    change val.toNat / 256 &&& 255 = _
    have hmod : val.toNat / 256 &&& 255 = val.toNat / 256 % 256 :=
      Nat.and_two_pow_sub_one_eq_mod _ 8
    omega
  refine ⟨_, _, rfl, ?_⟩
  rw [UInt16.toNat_toUInt8, UInt16.toNat_toUInt8, UInt16.toNat_shiftRight,
    UInt16.toNat_and, UInt16.toNat_and]
  simp only [UInt16.reduceToNat, Nat.reduceMod, hlow, hhigh]
  omega

theorem setPayload_match {z : Gzip} (hz : z.Lossless)
    {payload : List Byte} (hshort : z.Short payload) :
    ∃ block, setPayload z payload [] = .ok block ∧ block.length < 2 ^ 31 ∧
      (block.length < 2 ^ 28 → Field.gzip.Match z block payload) := by
  obtain ⟨output, hcompress, hne, huncompress⟩ := hz payload hshort.1
  have houtput := hshort.2 output hcompress
  obtain ⟨block, hblock, hwritten⟩ :=
    setGzip_written hshort.1 hcompress houtput []
  have hle := hwritten.le_content
  have hge := hwritten.content_le
  refine ⟨block, hblock, by omega, fun h => ?_⟩
  exact ⟨output, hwritten.isBlock (by omega), .inr ⟨hne, huncompress⟩⟩

theorem isFrame_of_typeOf {z : Gzip} {b : Byte} (t : MessageType)
    {p body : List Byte} (vals : Fields.Vals (bodyFields t))
    {message : MessageBase} (htype : typeOf b = t) (hb : IsHeaderByte b)
    (hp : Varint p body.length) (hlen : p.length ≤ 4)
    (hbody : Fields.Match z (bodyFields t) body vals)
    (hmessage : assemble (headerOf b (UInt32.ofNat body.length)) t vals =
      some message) :
    IsFrame z message (b :: (p ++ body)) := by
  subst htype
  exact .mk hb hp hlen hbody hmessage

/-! ## One message -/

theorem of_bind_writeHeader {α : Type} {header : FixHeader}
    {mutableHeader : Option (List Byte)} {payloadLen dataLen : Int32}
    {f : FixHeader × List Byte → α} {a : α}
    (h : (do
        let written ←
          writeHeader header [] mutableHeader payloadLen dataLen
        return f written) = Except.ok a) :
    ∃ header' bytes, writeHeader header [] mutableHeader payloadLen dataLen =
      .ok (header', bytes) ∧ f (header', bytes) = a := by
  cases hw : writeHeader header [] mutableHeader payloadLen dataLen with
  | error e =>
      rw [hw] at h
      cases h
  | ok written =>
      rw [hw] at h
      cases h
      exact ⟨written.1, written.2, rfl, rfl⟩

private theorem connect_isFrame {z : Gzip} (hz : z.Lossless)
    {protocolVersion : UInt8} (hversion : protocolVersion ≤ kProtocolVersion)
    (keepAlive : UInt16) (enableGzip : Bool) {payload : List Byte}
    (hshort : z.Short payload) {sent : Connect} {bytes : List Byte}
    (h : Connect.encode z
        { protocolName := kProtocolName, protocolVersion, keepAlive, payload
          enableGzip } = .ok (sent, bytes)) :
    IsFrame z (.connect sent) bytes ∧ ∃ header, sent =
      { header, protocolName := kProtocolName, protocolVersion, keepAlive
        payload, enableGzip } := by
  obtain ⟨block, hpayload, hblock, hgzip⟩ := setPayload_match hz hshort
  obtain ⟨name, hname, hwritten⟩ :=
    setString_written kProtocolName [] (by decide)
  simp only [Connect.encode, hpayload, hname, setUint8, setUint16] at h
  obtain ⟨header, finalBuf, hwrite, hsent⟩ := of_bind_writeHeader h
  have hnameLen := hwritten.le_content
  have hfive : kProtocolName.length = 5 := rfl
  have hnil : ([] : List Byte).length < 2 ^ 31 := by simp
  obtain ⟨p, -, hlen, rfl, hp, hfour, rfl⟩ :=
    of_writeHeader_eq_ok (by simp; omega) hblock hnil hwrite
  simp only [Prod.mk.injEq] at hsent
  obtain ⟨rfl, rfl⟩ := hsent
  simp only [Option.getD_some, List.append_nil, List.nil_append] at hlen hp ⊢
  have hflags : decide (bit enableGzip <<< 7 = 0 ∨ bit enableGzip <<< 7 = 128) =
      true := by cases enableGzip <;> rfl
  have hgzipFlag : decide ((bit enableGzip <<< 7) &&& 0x80 > 0) = enableGzip := by
    cases enableGzip <;> rfl
  rw [List.cons_append, List.append_assoc p]
  refine ⟨?_, _, rfl⟩
  refine isFrame_of_typeOf .kMsgConnect
    (kProtocolName, protocolVersion, bit enableGzip <<< 7, keepAlive, payload, ())
    rfl (by decide) hp hfour ?_ ?_
  · refine ⟨name, _, by simp only [List.append_assoc]; rfl,
      ⟨hwritten.isBlock (by decide), rfl⟩, [protocolVersion], _, rfl,
      ⟨rfl, decide_eq_true hversion⟩, [_], _, rfl, ⟨rfl, hflags⟩, _, _, rfl,
      uint16_match z keepAlive, block, [], by simp, hgzip ?_, rfl⟩
    simp only [List.length_append] at hlen
    omega
  · rw [assemble, hgzipFlag]
    rfl

private theorem sendReq_flags (replyLevel : ReplyLevel) :
    let flags := (replyLevel.code <<< 1) ||| (bit false <<< 3)
    let b := FixHeader.firstByte { msgType := .kMsgSendReq, flags }
    IsHeaderByte b ∧ typeOf b = .kMsgSendReq ∧
      UInt8.ofNat (b.toNat % 16) = flags ∧
      ReplyLevel.ofCode ((flags &&& 0x06) >>> 1) = replyLevel := by
  cases replyLevel <;> decide

private theorem sendReq_isFrame {z : Gzip} (hz : z.Lossless)
    (messageId : UInt16) (replyLevel : ReplyLevel) {type payload : List Byte}
    (htype : type.length < 2 ^ 30) (hshort : z.Short payload) {sent : SendReq}
    {bytes : List Byte}
    (h : SendReq.encode z { messageId, replyLevel, type, payload } =
      .ok (sent, bytes)) :
    IsFrame z (.sendReq sent) bytes ∧ ∃ header, sent =
      { header, messageId, replyLevel, type, payload } := by
  obtain ⟨block, hpayload, hblock, hgzip⟩ := setPayload_match hz hshort
  obtain ⟨typeBlock, htypeBlock, hwritten⟩ :=
    setString_written type (setUint16 messageId []) htype
  simp only [SendReq.encode, hpayload, htypeBlock] at h
  obtain ⟨header, finalBuf, hwrite, hsent⟩ := of_bind_writeHeader h
  have htypeLen := hwritten.le_content
  have hnil : ([] : List Byte).length < 2 ^ 31 := by simp
  obtain ⟨p, -, hlen, rfl, hp, hfour, rfl⟩ :=
    of_writeHeader_eq_ok (by simp [setUint16]; omega) hblock hnil hwrite
  simp only [Prod.mk.injEq] at hsent
  obtain ⟨rfl, rfl⟩ := hsent
  simp only [Option.getD_some, List.append_nil] at hlen hp ⊢
  obtain ⟨hbyte, htypeOf, hflags, hlevel⟩ := sendReq_flags replyLevel
  refine ⟨?_, _, rfl⟩
  rw [List.cons_append, List.append_assoc p]
  refine isFrame_of_typeOf .kMsgSendReq (messageId, type, payload, ())
    htypeOf hbyte hp hfour ?_ ?_
  · simp only [List.length_append] at hlen
    exact ⟨_, _, List.append_assoc _ _ _, uint16_match z messageId, typeBlock,
      block, rfl, ⟨hwritten.isBlock (by have := hwritten.content_le; omega), rfl⟩,
      block, [], by simp, hgzip (by omega), rfl⟩
  · simp only [assemble, headerOf, htypeOf, hflags, hlevel]

private theorem disconnect_isFrame (z : Gzip) {sent : Disconnect}
    {bytes : List Byte}
    (h : Disconnect.encode { } = .ok (sent, bytes)) :
    IsFrame z (.disconnect sent) bytes ∧ ∃ header, sent = { header } := by
  simp only [Disconnect.encode, setUint8] at h
  obtain ⟨header, finalBuf, hwrite, hsent⟩ := of_bind_writeHeader h
  have hnil : ([] : List Byte).length < 2 ^ 31 := by simp
  obtain ⟨p, -, -, rfl, hp, hfour, rfl⟩ :=
    of_writeHeader_eq_ok (by simp) hnil hnil hwrite
  simp only [Prod.mk.injEq] at hsent
  obtain ⟨rfl, rfl⟩ := hsent
  refine ⟨?_, _, rfl⟩
  exact isFrame_of_typeOf .kMsgDisconnect (DiscTypeNone, ()) rfl (by decide) hp
    hfour ⟨[DiscTypeNone], [], rfl, ⟨rfl, rfl⟩, rfl⟩ rfl

private theorem pingReq_isFrame (z : Gzip) {sent : PingReq} {bytes : List Byte}
    (h : PingReq.encode { } = .ok (sent, bytes)) :
    IsFrame z (.pingReq sent) bytes ∧ ∃ header, sent = { header } := by
  simp only [PingReq.encode] at h
  obtain ⟨header, finalBuf, hwrite, hsent⟩ := of_bind_writeHeader h
  have hnil : ([] : List Byte).length < 2 ^ 31 := by simp
  obtain ⟨p, -, -, rfl, hp, hfour, rfl⟩ :=
    of_writeHeader_eq_ok (by simp) hnil hnil hwrite
  simp only [Prod.mk.injEq] at hsent
  obtain ⟨rfl, rfl⟩ := hsent
  refine ⟨?_, _, rfl⟩
  exact isFrame_of_typeOf .kMsgPingReq () rfl (by decide) hp hfour rfl rfl

theorem of_bind_encode {α : Type} {x : Except TcpException (α × List Byte)}
    {f : α → MessageBase} {sent : MessageBase} {bytes : List Byte}
    (h : (do let (m, bytes) ← x; return (f m, bytes)) =
      Except.ok (sent, bytes)) :
    ∃ m, x = .ok (m, bytes) ∧ sent = f m := by
  cases x with
  | error e => cases h
  | ok written =>
      cases h
      exact ⟨written.1, rfl, rfl⟩

/-- What a client message is encoded as is a frame of the object that `Encode`
leaves, which differs from the one it was called on in its header only. -/
theorem encodeMessage_isFrame {z : Gzip} (hz : z.Lossless) {m : ClientMessage}
    (hshort : m.Short z) {sent : MessageBase} {bytes : List Byte}
    (h : encodeMessage z m.toMessage = .ok (sent, bytes)) :
    IsFrame z sent bytes ∧ ∃ header, sent = m.toMessage.setHeader header := by
  cases m with
  | connect protocolVersion hversion keepAlive enableGzip payload =>
      obtain ⟨sent, hencode, rfl⟩ := of_bind_encode h
      obtain ⟨hframe, header, rfl⟩ :=
        connect_isFrame hz hversion keepAlive enableGzip hshort hencode
      exact ⟨hframe, header, rfl⟩
  | sendReq messageId replyLevel type payload =>
      obtain ⟨sent, hencode, rfl⟩ := of_bind_encode h
      obtain ⟨hframe, header, rfl⟩ :=
        sendReq_isFrame hz messageId replyLevel hshort.1 hshort.2 hencode
      exact ⟨hframe, header, rfl⟩
  | disconnect =>
      obtain ⟨sent, hencode, rfl⟩ := of_bind_encode h
      obtain ⟨hframe, header, rfl⟩ := disconnect_isFrame z hencode
      exact ⟨hframe, header, rfl⟩
  | pingReq =>
      obtain ⟨sent, hencode, rfl⟩ := of_bind_encode h
      obtain ⟨hframe, header, rfl⟩ := pingReq_isFrame z hencode
      exact ⟨hframe, header, rfl⟩

/-! ## A connection -/

def encodeMessages (z : Gzip) :
    List MessageBase → Except TcpException (List MessageBase × List Byte)
  | [] => pure ([], [])
  | m :: ms => do
      let (sent, bytes) ← encodeMessage z m
      let (sents, rest) ← encodeMessages z ms
      return (sent :: sents, bytes ++ rest)

def decodeMessages {ρ : Type} [IReader ρ] (z : Gzip) :
    (count : Nat) → Decode ρ (List MessageBase)
  | 0 => pure []
  | count + 1 => do
      let m ← decodeMessage z
      let ms ← decodeMessages z count
      return m :: ms

private theorem of_encodeMessages_cons {z : Gzip} {m : MessageBase}
    {ms sent : List MessageBase} {bytes : List Byte}
    (h : encodeMessages z (m :: ms) = .ok (sent, bytes)) :
    ∃ first firstBytes sents rest, encodeMessage z m = .ok (first, firstBytes) ∧
      encodeMessages z ms = .ok (sents, rest) ∧ sent = first :: sents ∧
      bytes = firstBytes ++ rest := by
  rw [encodeMessages] at h
  cases hfirst : encodeMessage z m with
  | error e =>
      rw [hfirst] at h
      cases h
  | ok first =>
      rw [hfirst] at h
      cases hrest : encodeMessages z ms with
      | error e =>
          rw [hrest] at h
          cases h
      | ok rest =>
          rw [hrest] at h
          cases h
          exact ⟨first.1, first.2, rest.1, rest.2, rfl, rfl, rfl, rfl⟩

private theorem decodeMessages_of_encodeMessages {z : Gzip} (hz : z.Lossless)
    (ms : List ClientMessage) (hshort : ∀ m ∈ ms, m.Short z)
    {sent : List MessageBase} {bytes : List Byte}
    (h : encodeMessages z (ms.map ClientMessage.toMessage) = .ok (sent, bytes))
    (tail : List Byte) (log : List UInt64) :
    (∃ requests, exec (decodeMessages z ms.length)
        (⟨bytes ++ tail, log⟩ : ByteStream) = (.ok sent, ⟨tail, requests⟩)) ∧
      List.Forall₂ (fun m s => ∃ header, s = m.toMessage.setHeader header)
        ms sent := by
  induction ms generalizing sent bytes log with
  | nil =>
      cases h
      exact ⟨⟨log, rfl⟩, .nil⟩
  | cons m ms ih =>
      obtain ⟨first, firstBytes, sents, rest, hfirst, hrest, rfl, rfl⟩ :=
        of_encodeMessages_cons h
      obtain ⟨hframe, hheader⟩ :=
        encodeMessage_isFrame hz (hshort m (by simp)) hfirst
      obtain ⟨read, hread⟩ := decodeMessage_of_isFrame hframe (rest ++ tail) log
      obtain ⟨⟨requests, hdecode⟩, hsame⟩ :=
        ih (fun m hm => hshort m (by simp [hm])) hrest read
      refine ⟨⟨requests, ?_⟩, .cons hheader hsame⟩
      rw [List.length_cons, decodeMessages, List.append_assoc,
        exec_bind_of_ok hread, exec_bind_of_ok hdecode, exec_pure]

/--
Decoding what a client wrote, as many times as it wrote, returns the written
messages in order and leaves what follows them.  Only the headers differ from
the messages before `Encode`: it stores the remaining length and the flags.
-/
theorem decodeMessages_encodeMessages {z : Gzip} (hz : z.Lossless)
    (ms : List ClientMessage) (hshort : ∀ m ∈ ms, m.Short z)
    {sent : List MessageBase} {bytes : List Byte}
    (h : encodeMessages z (ms.map ClientMessage.toMessage) = .ok (sent, bytes))
    (tail : List Byte) :
    (∃ requests, exec (decodeMessages z ms.length)
        (⟨bytes ++ tail, []⟩ : ByteStream) = (.ok sent, ⟨tail, requests⟩)) ∧
      List.Forall₂ (fun m s => ∃ header, s = m.toMessage.setHeader header)
        ms sent :=
  decodeMessages_of_encodeMessages hz ms hshort h tail []

def emptyGzip : List Byte :=
  [31, 139, 8, 0, 0, 0, 0, 0, 0, 3, 3, 0, 0, 0, 0, 0, 0, 0, 0, 0]

def hiGzip : List Byte :=
  [31, 139, 8, 0, 0, 0, 0, 0, 0, 3, 203, 200, 4, 0, 172, 42, 147, 216, 2, 0, 0, 0]

def sampleGzip : Gzip where
  gzipCompress val :=
    some (if val = [] then emptyGzip else
      if val = [104, 105] then hiGzip else 0 :: val)
  gzipUncompress output :=
    if output = emptyGzip then some [] else
      if output = hiGzip then some [104, 105] else
        match output with
        | 0 :: val => some val
        | _ => none

theorem sampleGzip_undone (val : List Byte) :
    ∃ output, sampleGzip.gzipCompress val = some output ∧ output ≠ [] ∧
      sampleGzip.gzipUncompress output = some val := by
  by_cases hnil : val = []
  · subst hnil
    exact ⟨emptyGzip, rfl, by decide, rfl⟩
  by_cases hhi : val = [104, 105]
  · subst hhi
    exact ⟨hiGzip, rfl, by decide, by decide⟩
  · refine ⟨0 :: val, by simp [sampleGzip, hnil, hhi], by simp, ?_⟩
    simp [sampleGzip, emptyGzip, hiGzip]

theorem sampleGzip_lossless : sampleGzip.Lossless :=
  fun val _ => sampleGzip_undone val

theorem sampleGzip_short (val output : List Byte)
    (hval : val.length < 2 ^ 30) (houtput : output.length < 2 ^ 30)
    (h : sampleGzip.gzipCompress val = some output) : sampleGzip.Short val := by
  refine ⟨hval, fun output' h' => ?_⟩
  rw [h] at h'
  cases h'
  exact houtput

def hiRequest : MessageBase :=
  .sendReq
    { header := { msgType := .kMsgSendReq, remainLen := 27, flags := 2 }
      messageId := 1, type := [116], payload := [104, 105] }

def hiRequestBytes : List Byte := [0x62, 27, 0, 1, 1, 116, 22] ++ hiGzip

/-- A session: connect, the request `t` with `hi`, a ping, a disconnect. -/
def session : List ClientMessage :=
  [.connect 1 (by decide) 60 true [],
   .sendReq 1 .RLevelReplyLater [116] [104, 105], .pingReq, .disconnect]

def sessionSent : List MessageBase :=
  [.connect
    { header := { msgType := .kMsgConnect, remainLen := 31 }
      protocolName := kProtocolName, protocolVersion := 1, keepAlive := 60
      enableGzip := true },
   .sendReq
    { header := { msgType := .kMsgSendReq, remainLen := 27, flags := 2 }
      messageId := 1, type := [116], payload := [104, 105] },
   .pingReq { },
   .disconnect { header := { msgType := .kMsgDisconnect, remainLen := 1 } }]

def sessionBytes : List Byte :=
  [0x10, 31, 5, 71, 79, 83, 79, 67, 1, 128, 0, 60, 20] ++ emptyGzip ++
    [0x62, 27, 0, 1, 1, 116, 22] ++ hiGzip ++ [0x30, 0, 0x50, 1, 0]

theorem decodeMessages_session :
    (∃ requests, exec (decodeMessages sampleGzip 4)
        (⟨sessionBytes ++ [0x40, 0], []⟩ : ByteStream) =
      (.ok sessionSent, ⟨[0x40, 0], requests⟩)) ∧
      List.Forall₂ (fun m s => ∃ header, s = m.toMessage.setHeader header)
        session sessionSent :=
  decodeMessages_encodeMessages sampleGzip_lossless session
    (by
      have hempty : sampleGzip.Short [] :=
        sampleGzip_short [] emptyGzip (by decide) (by decide) rfl
      have hhi : sampleGzip.Short [104, 105] :=
        sampleGzip_short [104, 105] hiGzip (by decide) (by decide) rfl
      simp [session, ClientMessage.Short, hempty, hhi])
    (by decide +kernel) [0x40, 0]

/-! ## Requests with binary data -/

/-- The bytes are decoded to a request with the same fields, and used up. -/
def DecodesToSame (z : Gzip) (m : SendReq) (bytes : List Byte) : Prop :=
  ∃ received requests, exec (decodeMessage z) (⟨bytes, []⟩ : ByteStream) =
      (.ok (.sendReq received), ⟨[], requests⟩) ∧
    received.messageId = m.messageId ∧ received.replyLevel = m.replyLevel ∧
    received.type = m.type ∧ received.payload = m.payload ∧
    received.data = m.data

private theorem hasData_flags (replyLevel : ReplyLevel) :
    let flags := (replyLevel.code <<< 1) ||| (bit true <<< 3)
    let b := FixHeader.firstByte { msgType := .kMsgSendReq, flags }
    FixHeader.badMsgType (typeOf b) = false ∧
      UInt8.ofNat (b.toNat % 16) >>> 3 ≠ 0 := by
  cases replyLevel <;> decide

private theorem firstByte_of_setData {z : Gzip} {messageId : UInt16}
    {replyLevel : ReplyLevel} {type payload data : List Byte} {sent : SendReq}
    {bytes : List Byte}
    (h : (SendReq.setData { messageId, replyLevel, type, payload } data).encode
      z = .ok (sent, bytes)) :
    ∃ rest, bytes = FixHeader.firstByte
      { msgType := .kMsgSendReq
        flags := (replyLevel.code <<< 1) ||| (bit true <<< 3) } :: rest := by
  unfold SendReq.encode SendReq.setData at h
  cases hpayload : setPayload z payload [] with
  | error e =>
      simp only [hpayload] at h
      cases h
  | ok payloadBuf =>
      cases hdata : setGzipData z data [] with
      | error e =>
          simp only [hpayload, hdata, kEnableGzip, if_true] at h
          cases h
      | ok dataBuf =>
          simp only [hpayload, hdata, kEnableGzip, if_true] at h
          obtain ⟨header, finalBuf, hwrite, hsent⟩ := of_bind_writeHeader h
          obtain ⟨rest, rfl⟩ := firstByte_of_writeHeader hwrite
          simp only [Prod.mk.injEq] at hsent
          obtain ⟨-, rfl⟩ := hsent
          exact ⟨rest ++ payloadBuf ++ dataBuf, by simp⟩

theorem decodeMessage_setData {z : Gzip} {messageId : UInt16}
    {replyLevel : ReplyLevel} {type payload data : List Byte} {sent : SendReq}
    {bytes : List Byte}
    (h : (SendReq.setData { messageId, replyLevel, type, payload } data).encode
      z = .ok (sent, bytes)) :
    exec (decodeMessage z) (⟨bytes, []⟩ : ByteStream) =
      (.error (.tcp { excType := .TcpExcInvalidFlag }), ⟨bytes.tail, [1]⟩) := by
  obtain ⟨rest, rfl⟩ := firstByte_of_setData h
  obtain ⟨htype, hflags⟩ := hasData_flags replyLevel
  refine exec_bind_of_error ?_
  rw [exec_header_cons]
  simp only [htype, throwIf_false, pure_bind, hflags, ne_eq, not_false_eq_true,
    true_or, decide_true]
  exact exec_bind_of_error (exec_throwIf_true _ _)

/-- A request with binary data is never received: what its own encoder writes
is rejected. -/
theorem setData_not_decodesToSame {z : Gzip} (messageId : UInt16)
    (replyLevel : ReplyLevel) (type payload data : List Byte)
    {sent : SendReq} {bytes : List Byte}
    (h : (SendReq.setData { messageId, replyLevel, type, payload } data).encode
      z = .ok (sent, bytes)) :
    ¬ DecodesToSame z
      (SendReq.setData { messageId, replyLevel, type, payload } data) bytes := by
  rintro ⟨received, requests, hreceived, -⟩
  rw [decodeMessage_setData h] at hreceived
  simp at hreceived

/-- The request `t` with id 1, the payload `hi` and the data `hi`. -/
def dataRequest : SendReq :=
  SendReq.setData { messageId := 1, type := [116], payload := [104, 105] }
    [104, 105]

def dataRequestBytes : List Byte :=
  [0x6A, 50, 0, 1, 1, 116, 22] ++ hiGzip ++ [22] ++ hiGzip

def dataRequestSent : SendReq :=
  { dataRequest with
    header := { msgType := .kMsgSendReq, remainLen := 50, flags := 10 } }

private theorem dataRequest_encode :
    dataRequest.encode sampleGzip = .ok (dataRequestSent, dataRequestBytes) := by
  decide +kernel

theorem dataRequest_not_decodesToSame :
    ¬ DecodesToSame sampleGzip dataRequest dataRequestBytes :=
  setData_not_decodesToSame 1 .RLevelReplyLater [116] [104, 105] [104, 105]
    dataRequest_encode

theorem dataRequest_rejected :
    dataRequest.encode sampleGzip = .ok (dataRequestSent, dataRequestBytes) ∧
      ¬ DecodesToSame sampleGzip dataRequest dataRequestBytes := by
  refine ⟨dataRequest_encode, ?_⟩
  rintro ⟨received, requests, hreceived, -⟩
  rw [decodeMessage_setData dataRequest_encode] at hreceived
  simp at hreceived

end GoSocket.Packet
