import GoSocket.Packet.Grammar

/-!
# What the encoders write

A setter appends a block of the grammar, and `writeHeader` a header byte and
the length of the body, as long as the body is short enough for the frame.
-/

namespace GoSocket.Packet

open GoSocket.Foundation

/-! ## Lengths -/

private theorem digit_toNat {n : Nat} (hn : n < 2 ^ 32) :
    ((UInt32.ofNat n &&& 0x7f).toUInt8).toNat = n % 128 := by
  have hnat : (UInt32.ofNat n).toNat = n :=
    UInt32.toNat_ofNat_of_lt' (by simp only [UInt32.size]; omega)
  have hand : n &&& 127 = n % 128 := Nat.and_two_pow_sub_one_eq_mod n 7
  rw [UInt32.toNat_toUInt8, UInt32.toNat_and, hnat]
  simp only [UInt32.reduceToNat]
  omega

private theorem digit_continue {d : UInt8} (hd : d.toNat < 128) :
    (d ||| 0x80).toNat = d.toNat + 128 := by
  have hall : ∀ n : Fin 128, (UInt8.ofNat n.val ||| 0x80).toNat = n.val + 128 := by
    decide +kernel
  simpa using hall ⟨d.toNat, hd⟩

private theorem shiftRight_seven {n : Nat} (hn : n < 2 ^ 32) :
    UInt32.ofNat n >>> 7 = UInt32.ofNat (n / 128) := by
  apply UInt32.toNat_inj.mp
  rw [UInt32.toNat_shiftRight,
    UInt32.toNat_ofNat_of_lt' (by simp only [UInt32.size]; omega),
    UInt32.toNat_ofNat_of_lt' (by simp only [UInt32.size]; omega)]
  simp only [UInt32.reduceToNat, Nat.reduceMod]
  exact Nat.shiftRight_eq_div_pow n 7

private theorem ofNat_pos {n : Nat} (hn : n < 2 ^ 32) :
    0 < UInt32.ofNat n ↔ 0 < n := by
  rw [UInt32.lt_iff_toNat_lt,
    UInt32.toNat_ofNat_of_lt' (by simp only [UInt32.size]; omega)]
  rfl

private theorem encodeLengthLoop_varint (n : Nat) (hpos : 0 < n)
    (hn : n < 2 ^ 32) (buf : List Byte) :
    ∃ p, encodeLengthLoop (UInt32.ofNat n) buf = buf ++ p ∧ Varint p n ∧
      ∀ k, n < 128 ^ k → p.length ≤ k := by
  induction n using Nat.strongRecOn generalizing buf with
  | ind n ih =>
      have hdigit := digit_toNat hn
      have hbound : ((UInt32.ofNat n &&& 0x7f).toUInt8).toNat < 128 := by
        rw [hdigit]
        exact Nat.mod_lt _ (by omega)
      rw [encodeLengthLoop, dif_pos ((ofNat_pos hn).mpr hpos),
        shiftRight_seven hn]
      simp only [gt_iff_lt, ofNat_pos (show n / 128 < 2 ^ 32 by omega)]
      by_cases hmore : 0 < n / 128
      · rw [if_pos hmore]
        obtain ⟨p, hp, hvarint, hlen⟩ :=
          ih (n / 128) (by omega) hmore (by omega)
            (buf ++ [(UInt32.ofNat n &&& 0x7f).toUInt8 ||| 0x80])
        refine ⟨((UInt32.ofNat n &&& 0x7f).toUInt8 ||| 0x80) :: p,
          by rw [hp]; simp, ?_, ?_⟩
        · have hcontinue := digit_continue hbound
          have hvalue : ((UInt32.ofNat n &&& 0x7f).toUInt8 ||| 0x80).toNat - 128 +
              128 * (n / 128) = n := by
            rw [hcontinue, hdigit]
            omega
          have h := hvarint.more ((UInt32.ofNat n &&& 0x7f).toUInt8 ||| 0x80)
            (by omega)
          rwa [hvalue] at h
        · intro k hk
          cases k with
          | zero => simp at hk; omega
          | succ k =>
              rw [Nat.pow_succ] at hk
              have := hlen k (by omega)
              simpa using this
      · rw [if_neg hmore]
        have hzero : n / 128 = 0 := by omega
        refine ⟨[(UInt32.ofNat n &&& 0x7f).toUInt8], ?_, ?_, ?_⟩
        · rw [hzero, encodeLengthLoop]
          rfl
        · have h := Varint.last (UInt32.ofNat n &&& 0x7f).toUInt8 hbound
          have hvalue : n % 128 = n := by omega
          rwa [hdigit, hvalue] at h
        · intro k hk
          cases k with
          | zero => simp at hk; omega
          | succ k => simp

theorem encodeLength_digits (n : Nat) (hn : n < 2 ^ 32) (buf : List Byte) :
    ∃ p, encodeLength (UInt32.ofNat n) buf = buf ++ p ∧ Varint p n ∧
      ∀ k, 0 < k → n < 128 ^ k → p.length ≤ k := by
  rw [encodeLength]
  by_cases hzero : n = 0
  · subst hzero
    refine ⟨[0], ?_, .last 0 (by decide), fun k hk _ => hk⟩
    rw [encodeLengthLoop]
    rfl
  · have hne : UInt32.ofNat n ≠ 0 := by
      intro h
      have := (ofNat_pos hn).mpr (by omega)
      rw [h] at this
      exact absurd this (by decide)
    simp only [hne, if_false]
    obtain ⟨p, hp, hvarint, hlen⟩ :=
      encodeLengthLoop_varint n (by omega) hn buf
    exact ⟨p, hp, hvarint, fun k _ hk => hlen k hk⟩

theorem encodeLength_varint (n : Nat) (hn : n < 2 ^ 32) (buf : List Byte) :
    ∃ p, encodeLength (UInt32.ofNat n) buf = buf ++ p ∧ Varint p n ∧
      p.length ≤ 5 ∧ (n < 2 ^ 28 → p.length ≤ 4) := by
  obtain ⟨p, hp, hvarint, hlen⟩ := encodeLength_digits n hn buf
  exact ⟨p, hp, hvarint, hlen 5 (by omega) (by omega), hlen 4 (by omega)⟩

/-! ## Blocks -/

/-- A block as a setter writes it: one of the grammar, if its content is short
enough for the reader of lengths. -/
structure WrittenBlock (block content : List Byte) : Prop where
  content_le : content.length ≤ block.length
  le_content : block.length ≤ content.length + 5
  isBlock : content.length < 2 ^ 28 → Field.IsBlock block content

private theorem setBlock_written (val buf : List Byte)
    (hlen : val.length < 2 ^ 32) :
    ∃ block, setBlock (UInt32.ofNat val.length) val buf = buf ++ block ∧
      WrittenBlock block val := by
  obtain ⟨p, hp, hvarint, hfive, hfour⟩ := encodeLength_varint val.length hlen buf
  refine ⟨p ++ val, by rw [setBlock, hp, List.append_assoc], ?_⟩
  constructor
  · simp
  · rw [List.length_append]
    omega
  · intro h
    exact ⟨p, hvarint, hfour h, rfl⟩

theorem setString_written (val buf : List Byte) (hlen : val.length < 2 ^ 30) :
    ∃ block, setString val buf = buf ++ block ∧ WrittenBlock block val :=
  setBlock_written val buf (by omega)

def zlibInput (val : List Byte) : List Byte :=
  val.take (int32Size val).toUInt32.toNat

@[simp] theorem length_zlibInput (val : List Byte) :
    (zlibInput val).length = val.length % 2 ^ 32 := by
  have hsize : (int32Size val).toUInt32.toNat = val.length % 2 ^ 32 :=
    UInt32.toNat_ofNat'
  rw [zlibInput, List.length_take, hsize]
  omega

@[simp] theorem zlibInput_eq_iff (val : List Byte) :
    zlibInput val = val ↔ val.length < 2 ^ 32 := by
  constructor
  · intro h
    have hlen := length_zlibInput val
    rw [h] at hlen
    omega
  · intro h
    have hsize : (int32Size val).toUInt32.toNat = val.length :=
      UInt32.toNat_ofNat_of_lt' (by simpa [UInt32.size] using h)
    rw [zlibInput, hsize, List.take_length]

theorem setGzip_block {z : Gzip} {val output : List Byte}
    (hz : z.gzipCompress (zlibInput val) = some output)
    (houtput : output.length < 2 ^ 32) (buf : List Byte) :
    ∃ block, setGzip z val buf = .ok (buf ++ block) ∧
      WrittenBlock block output := by
  obtain ⟨block, hblock, hwritten⟩ := setBlock_written output buf houtput
  refine ⟨block, ?_, hwritten⟩
  rw [zlibInput] at hz
  rw [setGzip, hz, ← hblock]
  rfl

theorem setGzip_written {z : Gzip} {val output : List Byte}
    (hval : val.length < 2 ^ 30) (hz : z.gzipCompress val = some output)
    (houtput : output.length < 2 ^ 30) (buf : List Byte) :
    ∃ block, setGzip z val buf = .ok (buf ++ block) ∧
      WrittenBlock block output := by
  rw [← (zlibInput_eq_iff val).mpr (by omega)] at hz
  exact setGzip_block hz (by omega) buf

/-! ## Headers -/

private theorem toInt64_int32Size {val : List Byte} (h : val.length < 2 ^ 31) :
    (int32Size val).toInt64 = Int64.ofNat val.length := by
  refine Int32.toInt64_ofNat' ?_
  have hmax : Int32.maxValue.toInt = 2 ^ 31 - 1 := rfl
  omega

/-- The header byte that `FixHeader.encode` writes. -/
def FixHeader.firstByte (header : FixHeader) : Byte :=
  (header.msgType.code <<< 4) ||| (header.flags &&& 0x0F)

private theorem FixHeader.encode_eq (header : FixHeader) (buf : List Byte) :
    header.encode buf =
      if badMsgType header.msgType then .error { excType := .TcpExcBadMsgType }
      else .ok (encodeLength header.remainLen (buf ++ [header.firstByte])) := by
  unfold FixHeader.encode
  split <;> rfl

theorem writeHeader_eq (header : FixHeader)
    (mutableHeader : Option (List Byte)) (payloadLen dataLen : Int32) :
    writeHeader header [] mutableHeader payloadLen dataLen =
      let total := Int64.ofNat (mutableHeader.getD []).length +
        payloadLen.toInt64 + dataLen.toInt64
      if total > kMaxPayloadSize.toInt64 then
        .error { excType := .TcpExcMsgTooLong }
      else if FixHeader.badMsgType header.msgType then
        .error { excType := .TcpExcBadMsgType }
      else
        .ok ({ header with remainLen := total.toInt32.toUInt32 },
          encodeLength total.toInt32.toUInt32 [header.firstByte] ++
            mutableHeader.getD []) := by
  unfold writeHeader
  simp only [FixHeader.encode_eq]
  by_cases hlong : Int64.ofNat (mutableHeader.getD []).length +
      payloadLen.toInt64 + dataLen.toInt64 > kMaxPayloadSize.toInt64
  · rw [if_pos hlong]
    cases mutableHeader <;> exact if_pos hlong
  · rw [if_neg hlong]
    cases mutableHeader <;>
      refine (if_neg hlong).trans ?_ <;>
      cases FixHeader.badMsgType header.msgType <;> rfl

/-- A header is written only for a named type and a frame that is not too
long; its length is that of everything behind it. -/
theorem of_writeHeader_eq_ok {header header' : FixHeader}
    {mutableHeader : Option (List Byte)} {payload data bytes : List Byte}
    (hmutable : (mutableHeader.getD []).length < 2 ^ 31)
    (hpayload : payload.length < 2 ^ 31) (hdata : data.length < 2 ^ 31)
    (h : writeHeader header [] mutableHeader (int32Size payload)
      (int32Size data) = .ok (header', bytes)) :
    ∃ p, FixHeader.badMsgType header.msgType = false ∧
      (mutableHeader.getD [] ++ payload ++ data).length < 2 ^ 28 ∧
      header' = { header with
        remainLen :=
          UInt32.ofNat (mutableHeader.getD [] ++ payload ++ data).length } ∧
      Varint p (mutableHeader.getD [] ++ payload ++ data).length ∧
      p.length ≤ 4 ∧
      bytes = header.firstByte :: (p ++ mutableHeader.getD []) := by
  have htotal : Int64.ofNat (mutableHeader.getD []).length +
        (int32Size payload).toInt64 + (int32Size data).toInt64 =
      Int64.ofNat (mutableHeader.getD [] ++ payload ++ data).length := by
    rw [toInt64_int32Size hpayload, toInt64_int32Size hdata,
      List.length_append, List.length_append, Int64.ofNat_add, Int64.ofNat_add]
  have hlong : Int64.ofNat (mutableHeader.getD [] ++ payload ++ data).length >
        kMaxPayloadSize.toInt64 ↔
      2 ^ 28 ≤ (mutableHeader.getD [] ++ payload ++ data).length := by
    have hmax : kMaxPayloadSize.toInt64.toInt = 2 ^ 28 - 1 := by decide
    rw [gt_iff_lt, Int64.lt_iff_toInt_lt, hmax, Int64.toInt_ofNat_of_lt (by
      rw [List.length_append, List.length_append]
      omega)]
    omega
  rw [writeHeader_eq] at h
  simp only [htotal, hlong, Int64.toInt32_ofNat'] at h
  generalize (mutableHeader.getD [] ++ payload ++ data).length = n at *
  by_cases hfits : n < 2 ^ 28
  · rw [if_neg (by omega)] at h
    cases htype : FixHeader.badMsgType header.msgType with
    | true => simp [htype] at h
    | false =>
        simp only [htype, Bool.false_eq_true, if_false, Except.ok.injEq,
          Prod.mk.injEq] at h
        obtain ⟨rfl, rfl⟩ := h
        obtain ⟨p, hp, hvarint, -, hfour⟩ :=
          encodeLength_varint n (by omega) [header.firstByte]
        refine ⟨p, rfl, hfits, rfl, hvarint, hfour hfits, ?_⟩
        change encodeLength (UInt32.ofNat n) _ ++ _ = _
        rw [hp]
        simp
  · rw [if_pos (by omega)] at h
    simp at h

theorem firstByte_of_writeHeader {header header' : FixHeader}
    {mutableHeader : Option (List Byte)} {payloadLen dataLen : Int32}
    {bytes : List Byte}
    (h : writeHeader header [] mutableHeader payloadLen dataLen =
      .ok (header', bytes)) :
    ∃ rest, bytes = header.firstByte :: rest := by
  rw [writeHeader_eq] at h
  simp only at h
  split at h
  · cases h
  · split at h
    · cases h
    · cases h
      generalize hn : Int32.toUInt32 _ = n
      obtain ⟨p, hp, -⟩ := encodeLength_varint n.toNat n.toNat_lt
        [header.firstByte]
      rw [UInt32.ofNat_toNat] at hp
      exact ⟨p ++ mutableHeader.getD [], by rw [hp]; simp⟩

end GoSocket.Packet
