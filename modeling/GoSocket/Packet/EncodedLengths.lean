import GoSocket.Packet.FieldCodecs

/-!
# The lengths that the encoders write

`WriteHeader` checks the size of a frame after the sizes of its payload and its
data were cut to signed 32 bits.  What it lets through is a whole frame where
the frame is short; from `2 ^ 31` bytes on a size can go below zero and hide
the others.
-/

namespace GoSocket.Packet

open GoSocket.Foundation

/-! ## What is a whole frame -/

/-- A header byte, the number of the bytes that follow, and a body of that
many bytes. -/
def IsWholeFrame (IsBody : List Byte → Prop) (bytes : List Byte) : Prop :=
  ∃ b p body, bytes = b :: (p ++ body) ∧ Varint p body.length ∧
    body.length ≤ 2 ^ 28 - 1 ∧ IsBody body

/-- A compressed field, behind the number of its bytes. -/
def IsCompressed (z : Gzip) (val block : List Byte) : Prop :=
  ∃ output, z.gzipCompress (zlibInput val) = some output ∧ Field.IsBlock block output

def Connect.IsBody (z : Gzip) (self : Connect) (body : List Byte) : Prop :=
  ∃ name payload, body = name ++
      [self.protocolVersion, bit self.enableGzip <<< 7] ++
      setUint16 self.keepAlive [] ++ payload ∧
    Field.IsBlock name self.protocolName ∧ IsCompressed z self.payload payload

/-- `setGzipData` writes no field for an empty vector. -/
def SendReq.IsBody (z : Gzip) (self : SendReq) (body : List Byte) : Prop :=
  ∃ type payload data, body = setUint16 self.messageId [] ++ type ++ payload ++ data ∧
    Field.IsBlock type self.type ∧ IsCompressed z self.payload payload ∧
    if self.hasData && !self.data.isEmpty then IsCompressed z self.data data
    else data = []

/-- `Encode` throws, or writes a whole frame. -/
def EncodesWhole {α : Type} (IsBody : List Byte → Prop)
    (outcome : Except TcpException (α × List Byte)) : Prop :=
  ∀ sent bytes, outcome = .ok (sent, bytes) → IsWholeFrame IsBody bytes

/-! ## Sizes -/

def blockSize (length : Nat) : Nat :=
  (encodeLength (UInt32.ofNat length) []).length + length

/-- The bytes that `setGzip` writes; `none` where it throws. -/
def gzipSize (z : Gzip) (val : List Byte) : Option Nat :=
  (z.gzipCompress (zlibInput val)).map fun output => blockSize output.length

/-- The sizes of what is in front of the payload, of the payload and of the data. -/
structure Sizes where
  header : Nat
  payload : Nat
  data : Nat
  deriving DecidableEq, Repr

def Connect.sizes (z : Gzip) (self : Connect) : Option Sizes := do
  let payload ← gzipSize z self.payload
  return { header := blockSize self.protocolName.length + 4, payload, data := 0 }

def SendReq.dataSize (z : Gzip) (self : SendReq) : Option Nat :=
  if self.hasData && !self.data.isEmpty then gzipSize z self.data else some 0

def SendReq.sizes (z : Gzip) (self : SendReq) : Option Sizes := do
  let payload ← gzipSize z self.payload
  let data ← self.dataSize z
  return { header := 2 + blockSize self.type.length, payload, data }

namespace Sizes

/-- The frame is short enough, or is still too long when payload and data count
as signed numbers of 32 bits. -/
def Kept (self : Sizes) : Prop :=
  self.header + self.payload + self.data < 2 ^ 28 ∨
    2 ^ 28 ≤ ((self.header : Int) + (self.payload : Int).bmod (2 ^ 32) +
      (self.data : Int).bmod (2 ^ 32)).bmod (2 ^ 64)

instance (self : Sizes) : Decidable self.Kept :=
  inferInstanceAs (Decidable (_ ∨ _))

end Sizes

/-! ## What `WriteHeader` makes of the sizes -/

private theorem encodeLengthLoop_append (length : UInt32) (buf more : List Byte) :
    encodeLengthLoop length (buf ++ more) = buf ++ encodeLengthLoop length more := by
  induction length, more using encodeLengthLoop.induct with
  | case1 length more h digit digit' ih =>
      rw [encodeLengthLoop, dif_pos h]
      conv => rhs; rw [encodeLengthLoop, dif_pos h]
      rw [← List.append_assoc] at ih
      exact ih
  | case2 length more h =>
      rw [encodeLengthLoop, dif_neg h]
      conv => rhs; rw [encodeLengthLoop, dif_neg h]

theorem encodeLength_eq (length : UInt32) (buf : List Byte) :
    encodeLength length buf = buf ++ encodeLength length [] := by
  unfold encodeLength
  split
  · rw [encodeLengthLoop_append, List.nil_append]
  · have h := encodeLengthLoop_append length buf []
    rwa [List.append_nil] at h

theorem length_setBlock (val buf : List Byte) :
    (setBlock (int32Size val).toUInt32 val buf).length =
      buf.length + blockSize val.length := by
  rw [setBlock, encodeLength_eq, blockSize]
  simp only [List.length_append, Nat.add_assoc]
  rfl

/-- What an encoder has put together when it calls `WriteHeader`. -/
structure Parts where
  header : FixHeader
  front : List Byte
  payload : List Byte
  data : List Byte := []

namespace Parts

def body (self : Parts) : List Byte := self.front ++ self.payload ++ self.data

def sizes (self : Parts) : Sizes where
  header := self.front.length
  payload := self.payload.length
  data := self.data.length

/-- The end of `Encode`: the bytes that are written. -/
def write (self : Parts) : Except TcpException (FixHeader × List Byte) := do
  let (header, finalBuf) ← writeHeader self.header [] (some self.front)
    (int32Size self.payload) (int32Size self.data)
  return (header, finalBuf ++ self.payload ++ self.data)

theorem length_body (self : Parts) :
    self.body.length =
      self.sizes.header + self.sizes.payload + self.sizes.data := by
  simp only [body, sizes, List.length_append]

theorem toInt_total (self : Parts) :
    (Int64.ofNat self.front.length + (int32Size self.payload).toInt64 +
      (int32Size self.data).toInt64).toInt =
      ((self.sizes.header : Int) + (self.sizes.payload : Int).bmod (2 ^ 32) +
        (self.sizes.data : Int).bmod (2 ^ 32)).bmod (2 ^ 64) := by
  have h32 : Int32.size = 2 ^ 32 := rfl
  have h64 : Int64.size = 2 ^ 64 := rfl
  have hsize (val : List Byte) :
      (int32Size val).toInt64.toInt = (val.length : Int).bmod (2 ^ 32) := by
    rw [Int32.toInt_toInt64, int32Size, Int32.toInt_ofNat', h32]
  have hmod (a b c : Int) (m : Nat) :
      ((a.bmod m + b).bmod m + c).bmod m = (a + b + c).bmod m := by
    rw [Int.bmod_add_bmod, Int.add_assoc, Int.bmod_add_bmod, Int.add_assoc]
  rw [Int64.toInt_add, Int64.toInt_add, hsize, hsize, Int64.toInt_ofNat', h64, hmod]
  rfl

theorem isWholeFrame_iff {self : Parts} {IsBody : List Byte → Prop}
    (hbody : self.body.length < 2 ^ 28 → IsBody self.body) {header : FixHeader}
    {bytes : List Byte} (h : self.write = .ok (header, bytes)) :
    IsWholeFrame IsBody bytes ↔ self.body.length < 2 ^ 28 := by
  obtain ⟨header', finalBuf, hwrite, hbytes⟩ := of_bind_writeHeader h
  cases hbytes
  constructor
  · rintro ⟨b, p, body, hframe, hp, hle, -⟩
    rw [writeHeader_eq] at hwrite
    simp only at hwrite
    split at hwrite
    · cases hwrite
    split at hwrite
    · cases hwrite
    cases hwrite
    generalize Int32.toUInt32 _ = n at hframe
    obtain ⟨q, hq, hvarint, -⟩ :=
      encodeLength_varint n.toNat n.toNat_lt [self.header.firstByte]
    rw [UInt32.ofNat_toNat] at hq
    rw [hq] at hframe
    simp only [List.cons_append, List.nil_append, List.cons.injEq, List.append_assoc]
      at hframe
    obtain ⟨-, -, hsame⟩ := hvarint.unique hp hframe.2
    have hlen : self.body.length = body.length := by
      rw [← hsame, Parts.body, List.append_assoc]
      rfl
    omega
  · intro hshort
    have hlen := self.length_body
    simp only [sizes] at hlen
    have hfront : ((some self.front).getD []).length < 2 ^ 31 := by
      rw [Option.getD_some]
      omega
    obtain ⟨p, -, -, -, hvarint, -, hfinal⟩ :=
      of_writeHeader_eq_ok hfront (by omega) (by omega) hwrite
    refine ⟨self.header.firstByte, p, self.body, ?_, hvarint, by omega, hbody hshort⟩
    rw [hfinal, Parts.body]
    simp

theorem write_throws_iff (self : Parts) :
    (∃ e, self.write = .error e) ↔ FixHeader.badMsgType self.header.msgType ∨
      2 ^ 28 ≤ ((self.sizes.header : Int) + (self.sizes.payload : Int).bmod (2 ^ 32) +
        (self.sizes.data : Int).bmod (2 ^ 32)).bmod (2 ^ 64) := by
  have hmax : kMaxPayloadSize.toInt64.toInt = 2 ^ 28 - 1 := by decide
  rw [← self.toInt_total, write, writeHeader_eq]
  simp only [Option.getD_some, gt_iff_lt, Int64.lt_iff_toInt_lt, hmax]
  generalize Int64.ofNat self.front.length + (int32Size self.payload).toInt64 +
    (int32Size self.data).toInt64 = total
  by_cases hlong : 2 ^ 28 - 1 < total.toInt
  · rw [if_pos hlong]
    exact iff_of_true ⟨_, rfl⟩ (.inr (by omega))
  · rw [if_neg hlong]
    have hshort : ¬ 2 ^ 28 ≤ total.toInt := by omega
    cases FixHeader.badMsgType self.header.msgType with
    | true => exact iff_of_true ⟨_, rfl⟩ (.inl rfl)
    | false =>
        refine iff_of_false ?_ (by simpa using hshort)
        rintro ⟨e, h⟩
        cases h

theorem encodesWhole_iff {self : Parts} {IsBody : List Byte → Prop}
    (hbody : self.body.length < 2 ^ 28 → IsBody self.body) :
    EncodesWhole IsBody self.write ↔
      FixHeader.badMsgType self.header.msgType ∨ self.sizes.Kept := by
  have hthrow := self.write_throws_iff
  cases hwrite : self.write with
  | error e =>
      rw [hwrite] at hthrow
      refine iff_of_true ?_ ((hthrow.mp ⟨e, rfl⟩).imp_right .inr)
      intro sent bytes h
      cases h
  | ok written =>
      obtain ⟨header, bytes⟩ := written
      rw [hwrite] at hthrow
      have hnot := hthrow.not.mp (by simp)
      rw [not_or] at hnot
      have hframe := isWholeFrame_iff hbody hwrite
      rw [self.length_body] at hframe
      constructor
      · intro h
        exact .inr (.inl (hframe.mp (h header bytes rfl)))
      · rintro (hbad | hkept | hlong)
        · exact absurd hbad hnot.1
        · intro sent bytes' h
          cases h
          exact hframe.mpr hkept
        · exact absurd hlong hnot.2

end Parts

/-! ## The two encoders -/

theorem EncodesWhole.map_iff {α β : Type} {IsBody : List Byte → Prop} (f : α → β)
    (outcome : Except TcpException (α × List Byte)) :
    EncodesWhole IsBody (outcome.map fun written => (f written.1, written.2)) ↔
      EncodesWhole IsBody outcome := by
  cases outcome with
  | error e => exact iff_of_true (fun _ _ h => by cases h) fun _ _ h => by cases h
  | ok written =>
      constructor
      · intro h sent bytes heq
        cases heq
        exact h (f sent) bytes rfl
      · intro h sent bytes heq
        cases heq
        exact h written.1 written.2 rfl

theorem setGzip_cases (z : Gzip) (val : List Byte) :
    (∃ e, setGzip z val [] = .error e) ∧ gzipSize z val = none ∨
      ∃ block, setGzip z val [] = .ok block ∧ gzipSize z val = some block.length ∧
        (block.length < 2 ^ 28 → IsCompressed z val block) := by
  unfold gzipSize
  cases hz : z.gzipCompress (zlibInput val) with
  | none =>
      refine .inl ⟨⟨{ excType := .TcpExcGzipError }, ?_⟩, rfl⟩
      rw [zlibInput] at hz
      rw [setGzip, hz]
      rfl
  | some output =>
      refine .inr ⟨setBlock (int32Size output).toUInt32 output [], ?_, ?_, ?_⟩
      · rw [zlibInput] at hz
        rw [setGzip, hz]
        rfl
      · rw [length_setBlock, List.length_nil, Nat.zero_add]
        rfl
      · intro hlen
        have hle : output.length < 2 ^ 28 := by
          rw [length_setBlock, blockSize] at hlen
          omega
        obtain ⟨block, hblock, hwritten⟩ := setString_written output [] (by omega)
        rw [setString] at hblock
        rw [hblock]
        exact ⟨output, hz, hwritten.isBlock hle⟩

def Parts.finish {α : Type} (self : Parts) (setHeader : FixHeader → α) :
    Except TcpException (α × List Byte) :=
  self.write.map fun written => (setHeader written.1, written.2)

theorem Parts.finish_eq {α : Type} (self : Parts) (setHeader : FixHeader → α) :
    self.finish setHeader = do
      let (header, finalBuf) ← writeHeader self.header [] (some self.front)
        (int32Size self.payload) (int32Size self.data)
      return (setHeader header, finalBuf ++ self.payload ++ self.data) := by
  unfold Parts.finish Parts.write
  cases writeHeader self.header [] (some self.front) (int32Size self.payload)
    (int32Size self.data) <;> rfl

def Connect.parts (self : Connect) (payload : List Byte) : Parts where
  header := self.header
  front := setUint16 self.keepAlive (setUint8 (bit self.enableGzip <<< 7)
    (setUint8 self.protocolVersion (setString self.protocolName [])))
  payload := payload

theorem Connect.encode_eq (z : Gzip) (self : Connect) :
    self.encode z = (setGzip z self.payload []).bind fun payload =>
      (self.parts payload).finish fun header => { self with header } := by
  simp only [Connect.encode, setPayload, kEnableGzip, if_true, setGzipString]
  cases setGzip z self.payload [] with
  | error e => rfl
  | ok payload =>
      have hnil : int32Size [] = 0 := rfl
      rw [Except.bind]
      simp only [Parts.finish_eq, Connect.parts, hnil, List.append_nil]
      rfl

def SendReq.parts (self : SendReq) (payload data : List Byte) : Parts where
  header := { self.header with
    flags := (self.replyLevel.code <<< 1) ||| (bit self.hasData <<< 3) }
  front := setString self.type (setUint16 self.messageId [])
  payload := payload
  data := data

/-- The bytes of the data, none without data. -/
def SendReq.dataBuf (z : Gzip) (self : SendReq) : Except TcpException (List Byte) :=
  if self.hasData && !self.data.isEmpty then setGzip z self.data [] else pure []

theorem SendReq.encode_eq (z : Gzip) (self : SendReq) :
    self.encode z = (setGzip z self.payload []).bind fun payload =>
      (self.dataBuf z).bind fun data =>
        (self.parts payload data).finish fun header => { self with header } := by
  simp only [SendReq.encode, setPayload, kEnableGzip, if_true, setGzipString,
    SendReq.dataBuf, Parts.finish_eq, SendReq.parts]
  cases setGzip z self.payload [] with
  | error e => rfl
  | ok payload =>
      cases self.hasData with
      | false => rfl
      | true =>
          cases hdata : self.data with
          | nil => rfl
          | cons b rest =>
              have hset : setGzipData z (b :: rest) [] = setGzip z (b :: rest) [] := rfl
              rw [Except.bind]
              simp only [if_true, hset, List.isEmpty_cons, Bool.not_false, Bool.and_self]
              cases setGzip z (b :: rest) [] <;> rfl

theorem Parts.finish_encodesWhole_iff {α : Type} {self : Parts}
    {IsBody : List Byte → Prop} (setHeader : FixHeader → α)
    (hbody : self.body.length < 2 ^ 28 → IsBody self.body) :
    EncodesWhole IsBody (self.finish setHeader) ↔
      FixHeader.badMsgType self.header.msgType ∨ self.sizes.Kept :=
  (EncodesWhole.map_iff setHeader self.write).trans (encodesWhole_iff hbody)

private theorem encodesWhole_error {α : Type} (IsBody : List Byte → Prop)
    (e : TcpException) :
    EncodesWhole IsBody (.error e : Except TcpException (α × List Byte)) := by
  intro sent bytes h
  cases h

theorem Connect.encodesWhole_iff (z : Gzip) (self : Connect) :
    EncodesWhole (self.IsBody z) (self.encode z) ↔
      FixHeader.badMsgType self.header.msgType ∨
        ∀ sizes, self.sizes z = some sizes → sizes.Kept := by
  rw [Connect.encode_eq]
  rcases setGzip_cases z self.payload with
    ⟨⟨e, hset⟩, hsize⟩ | ⟨payload, hset, hsize, hpayload⟩
  · rw [hset]
    refine iff_of_true (encodesWhole_error _ e) (.inr ?_)
    intro sizes hsizes
    simp [Connect.sizes, hsize] at hsizes
  · have hfront : (self.parts payload).front =
        setString self.protocolName [] ++
          [self.protocolVersion, bit self.enableGzip <<< 7] ++
          setUint16 self.keepAlive [] := by
      simp [Connect.parts, setUint16, setUint8]
    have hsizes : self.sizes z = some (self.parts payload).sizes := by
      simp only [Connect.sizes, hsize, Parts.sizes, hfront]
      rw [setString, List.length_append, List.length_append, length_setBlock]
      simp [setUint16, Connect.parts]
    have hbody : (self.parts payload).body.length < 2 ^ 28 →
        self.IsBody z (self.parts payload).body := by
      intro hlen
      have hfield : (self.parts payload).body = setString self.protocolName [] ++
          [self.protocolVersion, bit self.enableGzip <<< 7] ++
          setUint16 self.keepAlive [] ++ payload := by
        rw [Parts.body, hfront]
        simp [Connect.parts]
      rw [hfield, List.length_append, List.length_append, List.length_append, setString,
        length_setBlock, blockSize] at hlen
      obtain ⟨block, hblock, hwritten⟩ :=
        setString_written self.protocolName [] (by omega)
      rw [hblock, List.nil_append] at hfield
      exact ⟨block, payload, hfield, hwritten.isBlock (by omega), hpayload (by omega)⟩
    have hiff := Parts.finish_encodesWhole_iff
      (fun header => ({ self with header } : Connect)) hbody
    rw [hset, Except.bind, hiff, hsizes]
    simp [Connect.parts]

theorem SendReq.dataBuf_cases (z : Gzip) (self : SendReq) :
    (∃ e, self.dataBuf z = .error e) ∧ self.dataSize z = none ∨
      ∃ block, self.dataBuf z = .ok block ∧ self.dataSize z = some block.length ∧
        (block.length < 2 ^ 28 →
          if self.hasData && !self.data.isEmpty then IsCompressed z self.data block
          else block = []) := by
  unfold SendReq.dataBuf SendReq.dataSize
  split
  · exact setGzip_cases z self.data
  · exact .inr ⟨[], rfl, rfl, fun _ => rfl⟩

theorem SendReq.encodesWhole_iff (z : Gzip) (self : SendReq) :
    EncodesWhole (self.IsBody z) (self.encode z) ↔
      FixHeader.badMsgType self.header.msgType ∨
        ∀ sizes, self.sizes z = some sizes → sizes.Kept := by
  rw [SendReq.encode_eq]
  rcases setGzip_cases z self.payload with
    ⟨⟨e, hset⟩, hsize⟩ | ⟨payload, hset, hsize, hpayload⟩
  · rw [hset]
    refine iff_of_true (encodesWhole_error _ e) (.inr ?_)
    intro sizes hsizes
    simp [SendReq.sizes, hsize] at hsizes
  rcases self.dataBuf_cases z with
    ⟨⟨e, hdataSet⟩, hdataSize⟩ | ⟨data, hdataSet, hdataSize, hdata⟩
  · rw [hset, Except.bind, hdataSet]
    refine iff_of_true (encodesWhole_error _ e) (.inr ?_)
    intro sizes hsizes
    simp only [SendReq.sizes, hsize, hdataSize] at hsizes
    cases hsizes
  · have hfront : (self.parts payload data).front =
        setUint16 self.messageId [] ++ setString self.type [] := by
      simp only [SendReq.parts, setString, setBlock]
      rw [encodeLength_eq, List.append_assoc]
    have hsizes : self.sizes z = some (self.parts payload data).sizes := by
      simp only [SendReq.sizes, hsize, hdataSize, Parts.sizes, hfront]
      rw [setString, List.length_append, length_setBlock]
      simp [setUint16, SendReq.parts]
    have hbody : (self.parts payload data).body.length < 2 ^ 28 →
        self.IsBody z (self.parts payload data).body := by
      intro hlen
      have hfield : (self.parts payload data).body = setUint16 self.messageId [] ++
          setString self.type [] ++ payload ++ data := by
        rw [Parts.body, hfront]
        simp [SendReq.parts]
      rw [hfield, List.length_append, List.length_append, List.length_append, setString,
        length_setBlock, blockSize] at hlen
      obtain ⟨block, hblock, hwritten⟩ := setString_written self.type [] (by omega)
      rw [hblock, List.nil_append] at hfield
      exact ⟨block, payload, data, hfield, hwritten.isBlock (by omega),
        hpayload (by omega), hdata (by omega)⟩
    have hiff := Parts.finish_encodesWhole_iff
      (fun header => ({ self with header } : SendReq)) hbody
    rw [hset, Except.bind, hdataSet, Except.bind, hiff, hsizes]
    simp [SendReq.parts]

/-- A message is written as a whole frame or not at all exactly where no size
that is cut to 32 bits hides that the frame is too long. -/
theorem writesWholeFrames_iff (z : Gzip) :
    (∀ self : Connect, EncodesWhole (self.IsBody z) (self.encode z) ↔
      FixHeader.badMsgType self.header.msgType ∨
        ∀ sizes, self.sizes z = some sizes → sizes.Kept) ∧
    ∀ self : SendReq, EncodesWhole (self.IsBody z) (self.encode z) ↔
      FixHeader.badMsgType self.header.msgType ∨
        ∀ sizes, self.sizes z = some sizes → sizes.Kept :=
  ⟨Connect.encodesWhole_iff z, SendReq.encodesWhole_iff z⟩

def hugeGzip : Gzip where
  gzipCompress _ := some (List.replicate (2 ^ 31) 0)
  gzipUncompress _ := none

/-- The size of the payload counts as a negative number: the check passes. -/
theorem hugePayload_written :
    ¬ ∀ z : Gzip, (∀ self : Connect, EncodesWhole (self.IsBody z) (self.encode z)) ∧
      ∀ self : SendReq, EncodesWhole (self.IsBody z) (self.encode z) := by
  intro hall
  have hblock : blockSize (2 ^ 31) = 2 ^ 31 + 5 := by decide +kernel
  have hsizes : SendReq.sizes hugeGzip {} =
      some { header := 3, payload := 2 ^ 31 + 5, data := 0 } := by
    have hempty : 2 + blockSize ([] : List Byte).length = 3 := by decide +kernel
    have hpayload : gzipSize hugeGzip [] = some (2 ^ 31 + 5) := by
      rw [gzipSize, hugeGzip, Option.map_some, List.length_replicate, hblock]
    simp only [SendReq.sizes, hpayload, hempty]
    rfl
  have hwhole := (hall hugeGzip).2 {}
  rw [SendReq.encodesWhole_iff] at hwhole
  rcases hwhole with hbad | hkept
  · exact absurd hbad (by decide)
  · exact absurd (hkept _ hsizes) (by decide)

end GoSocket.Packet
