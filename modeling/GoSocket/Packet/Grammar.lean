import GoSocket.Packet.FieldRuns

/-!
# What `decodeMessage` accepts

`IsFrame` is the grammar of a frame, over exact natural numbers.  The decoder
counts modulo `2 ^ 32` and takes four continuation bytes in the header for the
length `2 ^ 32 - 1`, yet returns a message exactly on the frames of the
grammar: the fields of a body are too short for a wrapped counter to come back
to zero.
-/

namespace GoSocket.Packet

open GoSocket.Foundation

/-! ## The header -/

def typeOf (b : Byte) : MessageType := .ofNibble (UInt8.ofNat (b.toNat / 16))

/-- A type from 1 to 7 in the high nibble, bits 0 and 3 of the low one clear. -/
def IsHeaderByte (b : Byte) : Prop :=
  1 ≤ b.toNat / 16 ∧ b.toNat / 16 ≤ 7 ∧ b.toNat % 2 = 0 ∧ b.toNat / 8 % 2 = 0

instance (b : Byte) : Decidable (IsHeaderByte b) := by
  unfold IsHeaderByte
  infer_instance

def headerOf (b : Byte) (remainLen : UInt32) : FixHeader :=
  { msgType := typeOf b, remainLen, flags := UInt8.ofNat (b.toNat % 16) }

private theorem nibbles (b : Byte) :
    (b &&& 0xF0) >>> 4 = UInt8.ofNat (b.toNat / 16) ∧
      b &&& 0x0F = UInt8.ofNat (b.toNat % 16) := by
  have hall : ∀ n : Fin 256,
      (UInt8.ofNat n.val &&& 0xF0) >>> 4 = UInt8.ofNat (n.val / 16) ∧
        UInt8.ofNat n.val &&& 0x0F = UInt8.ofNat (n.val % 16) := by
    decide +kernel
  simpa using hall ⟨b.toNat, b.toNat_lt⟩

theorem isHeaderByte_iff (b : Byte) :
    IsHeaderByte b ↔
      FixHeader.badMsgType (typeOf b) = false ∧
        UInt8.ofNat (b.toNat % 16) >>> 3 = 0 ∧
        UInt8.ofNat (b.toNat % 16) &&& 0x01 = 0 := by
  have hall : ∀ n : Fin 256, IsHeaderByte (UInt8.ofNat n.val) ↔
      FixHeader.badMsgType (typeOf (UInt8.ofNat n.val)) = false ∧
        UInt8.ofNat (n.val % 16) >>> 3 = 0 ∧
        UInt8.ofNat (n.val % 16) &&& 0x01 = 0 := by
    decide +kernel
  simpa using hall ⟨b.toNat, b.toNat_lt⟩

theorem IsHeaderByte.hasData_clear {b : Byte} (h : IsHeaderByte b) :
    UInt8.ofNat (b.toNat % 16) &&& 0x08 = 0 := by
  have hall : ∀ n : Fin 256, IsHeaderByte (UInt8.ofNat n.val) →
      UInt8.ofNat (n.val % 16) &&& 0x08 = 0 := by
    decide +kernel
  have hb := hall ⟨b.toNat, b.toNat_lt⟩
  simp only [UInt8.ofNat_toNat] at hb
  exact hb h

theorem exec_header_cons (b : Byte) (bs : List Byte)
    (log : List UInt64) :
    exec FixHeader.decode (⟨b :: bs, log⟩ : ByteStream) =
      exec (do
        throwIf (FixHeader.badMsgType (typeOf b)) .TcpExcBadMsgType
        throwIf (UInt8.ofNat (b.toNat % 16) >>> 3 ≠ 0 ∨
          UInt8.ofNat (b.toNat % 16) &&& 0x01 ≠ 0) .TcpExcInvalidFlag
        let (remainLen, _) ← decodeLength
        return headerOf b remainLen) (⟨bs, log ++ [1]⟩ : ByteStream) := by
  have hread : exec (readFull 1) (⟨b :: bs, log⟩ : ByteStream) =
      (.ok [b], ⟨bs, log ++ [1]⟩) :=
    exec_readFull_of_le [b] rfl
  rw [FixHeader.decode, exec_bind_of_ok hread]
  simp only [List.headD_cons, (nibbles b).1, (nibbles b).2]
  rfl

theorem exec_header_of_isHeaderByte {b : Byte} (hb : IsHeaderByte b)
    (bs : List Byte) (log : List UInt64) :
    exec FixHeader.decode (⟨b :: bs, log⟩ : ByteStream) =
      exec (do
        let (remainLen, _) ← decodeLength
        return headerOf b remainLen) (⟨bs, log ++ [1]⟩ : ByteStream) := by
  obtain ⟨htype, hhigh, hlow⟩ := (isHeaderByte_iff b).mp hb
  rw [exec_header_cons]
  simp [htype, hhigh, hlow]

theorem exec_header_of_not_isHeaderByte {b : Byte} (hb : ¬ IsHeaderByte b)
    (bs : List Byte) (log : List UInt64) :
    ∃ e, exec FixHeader.decode (⟨b :: bs, log⟩ : ByteStream) =
      (.error (.tcp e), ⟨bs, log ++ [1]⟩) := by
  rw [exec_header_cons]
  cases htype : FixHeader.badMsgType (typeOf b) with
  | true => exact ⟨_, exec_bind_of_error (exec_throwIf_true _ _)⟩
  | false =>
      have hflags : UInt8.ofNat (b.toNat % 16) >>> 3 ≠ 0 ∨
          UInt8.ofNat (b.toNat % 16) &&& 0x01 ≠ 0 := by
        by_contra hclear
        rw [not_or, not_not, not_not] at hclear
        exact hb ((isHeaderByte_iff b).mpr ⟨htype, hclear⟩)
      simp only [throwIf_false, pure_bind, hflags, decide_true]
      exact ⟨_, exec_bind_of_error (exec_throwIf_true _ _)⟩

/-- The bytes of a length and what the header stores for them: the number, or
`2 ^ 32 - 1` for four continuation bytes. -/
inductive HeaderLength : List Byte → UInt32 → Prop
  | number {p : List Byte} {n : Nat} (hp : Varint p n) (hlen : p.length ≤ 4) :
      HeaderLength p (UInt32.ofNat n)
  | malformed {q : List Byte} (hq : AllContinue q) (hlen : q.length = 4) :
      HeaderLength q (-1)

theorem exec_header_ok {b : Byte} (hb : IsHeaderByte b) {p : List Byte}
    {remainLen : UInt32} (hp : HeaderLength p remainLen) (rest : List Byte)
    (log : List UInt64) :
    exec FixHeader.decode (⟨b :: (p ++ rest), log⟩ : ByteStream) =
      (.ok (headerOf b remainLen),
        ⟨rest, log ++ [1] ++ List.replicate p.length 1⟩) := by
  rw [exec_header_of_isHeaderByte hb]
  cases hp with
  | number hp hlen => rw [exec_bind_of_ok (exec_decodeLength_varint hp hlen _ _)]; rfl
  | malformed hq hlen =>
      rw [exec_bind_of_ok (exec_decodeLength_malformed hq hlen _ _), hlen]
      rfl

theorem of_exec_header_ok {bs : List Byte} {log : List UInt64}
    {header : FixHeader} {r : ByteStream}
    (h : exec FixHeader.decode (⟨bs, log⟩ : ByteStream) = (.ok header, r)) :
    ∃ b p remainLen rest, bs = b :: (p ++ rest) ∧ IsHeaderByte b ∧
      HeaderLength p remainLen ∧ header = headerOf b remainLen ∧
      r = ⟨rest, log ++ [1] ++ List.replicate p.length 1⟩ := by
  cases bs with
  | nil =>
      rw [FixHeader.decode, exec_bind_of_error (exec_readFull_of_lt (by simp))]
        at h
      simp at h
  | cons b bs =>
      by_cases hb : IsHeaderByte b
      · have hfound {p s : List Byte} {remainLen : UInt32}
            (hp : HeaderLength p remainLen) (hbs : bs = p ++ s) :
            header = headerOf b remainLen ∧
              r = ⟨s, log ++ [1] ++ List.replicate p.length 1⟩ := by
          rw [hbs, exec_header_ok hb hp] at h
          simp only [Prod.mk.injEq, Except.ok.injEq] at h
          exact ⟨h.1.symm, h.2.symm⟩
        rcases varint_cases 4 bs with
          ⟨p, n, s, hbs, hp, hlen⟩ | ⟨q, s, hbs, hq, hlen⟩ | ⟨hq, hlen⟩
        · exact ⟨b, p, _, s, by rw [hbs], hb, .number hp hlen,
            hfound (.number hp hlen) hbs⟩
        · exact ⟨b, q, _, s, by rw [hbs], hb, .malformed hq hlen,
            hfound (.malformed hq hlen) hbs⟩
        · rw [exec_header_of_isHeaderByte hb,
            exec_bind_of_error (exec_decodeLength_short hq hlen _)] at h
          simp at h
      · obtain ⟨e, he⟩ := exec_header_of_not_isHeaderByte hb bs log
        rw [he] at h
        simp at h

theorem exec_decodeMessage_header {z : Gzip} {b : Byte} (hb : IsHeaderByte b)
    {p : List Byte} {remainLen : UInt32} (hp : HeaderLength p remainLen)
    (rest : List Byte) (log : List UInt64) :
    exec (decodeMessage z) (⟨b :: (p ++ rest), log⟩ : ByteStream) =
      exec (decodeByFields z (headerOf b remainLen))
        (⟨rest, log ++ [1] ++ List.replicate p.length 1⟩ : ByteStream) := by
  obtain ⟨htype, -⟩ := (isHeaderByte_iff b).mp hb
  rw [decodeMessage, exec_bind_of_ok (exec_header_ok hb hp rest log),
    decodeBody_eq z _ (by simpa [headerOf] using htype) hb.hasData_clear]

/-! ## Bodies -/

namespace Fields

theorem Match.length_lt {z : Gzip} {fs : List Field} {body : List Byte}
    {vs : Vals fs} (h : Match z fs body vs) :
    body.length ≤ fs.length * (2 ^ 28 + 4) := by
  induction fs generalizing body with
  | nil =>
      have hbody : body = [] := h
      simp [hbody]
  | cons f fs ih =>
      obtain ⟨first, rest, rfl, hfirst, hrest⟩ := h
      have h₁ := hfirst.length_lt
      have h₂ := ih hrest
      rw [List.length_append, List.length_cons, Nat.succ_mul]
      omega

theorem of_decode_eq_ok {z : Gzip} {fs : List Field} {c c' : UInt32}
    {bs : List Byte} {log : List UInt64} {vs : Vals fs} {r : ByteStream}
    (h : exec (decode z fs c) ⟨bs, log⟩ = (.ok (vs, c'), r)) :
    ∃ body rest reads, bs = body ++ rest ∧ Match z fs body vs ∧
      c' = c - UInt32.ofNat body.length ∧ r = ⟨rest, log ++ reads⟩ := by
  induction fs generalizing c c' bs log r with
  | nil =>
      simp only [decode, exec_pure, Prod.mk.injEq, Except.ok.injEq] at h
      obtain ⟨⟨-, rfl⟩, rfl⟩ := h
      exact ⟨[], bs, [], rfl, rfl, by simp, by simp⟩
  | cons f fs ih =>
      obtain ⟨⟨v, c₁⟩, r₁, hf, h⟩ := exec_bind_eq_ok.mp h
      obtain ⟨⟨vs', c₂⟩, r₂, hfs, h⟩ := exec_bind_eq_ok.mp h
      simp only [exec_pure, Prod.mk.injEq, Except.ok.injEq] at h
      obtain ⟨⟨rfl, rfl⟩, rfl⟩ := h
      obtain ⟨first, rest, rfl, hmatch, -, rfl, rfl⟩ := Field.of_decode_eq_ok hf
      obtain ⟨body, rest', reads, rfl, hmatch', rfl, rfl⟩ := ih hfs
      refine ⟨first ++ body, rest', f.reads first ++ reads, by simp,
        ⟨first, body, rfl, hmatch, hmatch'⟩, ?_, by simp⟩
      rw [List.length_append, UInt32.ofNat_add]
      grind

theorem decode_of_match {z : Gzip} {fs : List Field} {c : UInt32}
    {body : List Byte} {vs : Vals fs} (h : Match z fs body vs)
    (hc : body.length ≤ c.toNat) (rest : List Byte) (log : List UInt64) :
    ∃ reads, exec (decode z fs c) (⟨body ++ rest, log⟩ : ByteStream) =
      (.ok (vs, c - UInt32.ofNat body.length), ⟨rest, log ++ reads⟩) := by
  induction fs generalizing c body log with
  | nil =>
      have hbody : body = [] := h
      subst hbody
      exact ⟨[], by simp [decode]⟩
  | cons f fs ih =>
      obtain ⟨first, body, rfl, hfirst, hbody⟩ := h
      rw [List.length_append] at hc
      have hc' : body.length ≤ (c - UInt32.ofNat first.length).toNat := by
        rw [toNat_sub_ofNat (by omega)]
        omega
      obtain ⟨reads, hread⟩ := ih hbody hc' (log ++ f.reads first)
      refine ⟨f.reads first ++ reads, ?_⟩
      rw [List.append_assoc, decode, exec_bind_of_ok
        (Field.decode_of_match hfirst (.inl (by omega)) _ log),
        exec_bind_of_ok hread, exec_pure, List.length_append,
        UInt32.ofNat_add, ← List.append_assoc log]
      congr 3
      grind

end Fields

/-! ## Frames -/

/--
The grammar: a header byte, the remaining length in at most four bytes, and a
body of exactly that length that splits into the fields of the type.
-/
inductive IsFrame (z : Gzip) : MessageBase → List Byte → Prop
  | mk {b : Byte} {p body : List Byte} {vals : Fields.Vals (bodyFields (typeOf b))}
      {message : MessageBase} (hb : IsHeaderByte b)
      (hp : Varint p body.length) (hlen : p.length ≤ 4)
      (hbody : Fields.Match z (bodyFields (typeOf b)) body vals)
      (hmessage : assemble (headerOf b (UInt32.ofNat body.length)) (typeOf b)
        vals = some message) :
      IsFrame z message (b :: (p ++ body))

theorem bodyFields_length (t : MessageType) :
    (bodyFields t).length ≤ 5 := by
  cases t <;> simp [bodyFields]

private theorem body_length_lt {z : Gzip} {t : MessageType} {body : List Byte}
    {vals : Fields.Vals (bodyFields t)}
    (h : Fields.Match z (bodyFields t) body vals) :
    body.length < 2 ^ 32 - 1 := by
  have h₁ := h.length_lt
  have h₂ := Nat.mul_le_mul_right (2 ^ 28 + 4) (bodyFields_length t)
  omega

theorem exec_decodeByFields_of_match {z : Gzip} {header : FixHeader}
    {body : List Byte} {vals : Fields.Vals (bodyFields header.msgType)}
    {message : MessageBase}
    (hbody : Fields.Match z (bodyFields header.msgType) body vals)
    (hlen : header.remainLen = UInt32.ofNat body.length)
    (hmessage : assemble header header.msgType vals = some message)
    (rest : List Byte) (log : List UInt64) :
    ∃ reads, exec (decodeByFields z header)
        (⟨body ++ rest, log⟩ : ByteStream) =
      (.ok message, ⟨rest, log ++ reads⟩) := by
  have hlt := body_length_lt hbody
  have hc : body.length ≤ header.remainLen.toNat := by
    rw [hlen, UInt32.toNat_ofNat_of_lt' (by simp only [UInt32.size]; omega)]
  obtain ⟨reads, hread⟩ := Fields.decode_of_match hbody hc rest log
  refine ⟨reads, ?_⟩
  rw [decodeByFields, exec_bind_of_ok hread]
  simp [checkConsumed, hlen, hmessage]

theorem of_exec_decodeByFields_ok {z : Gzip} {header : FixHeader}
    {bs : List Byte} {log : List UInt64} {message : MessageBase}
    {r : ByteStream}
    (h : exec (decodeByFields z header) (⟨bs, log⟩ : ByteStream) =
      (.ok message, r)) :
    ∃ body vals, bs = body ++ r.rest ∧
      Fields.Match z (bodyFields header.msgType) body vals ∧
      header.remainLen = UInt32.ofNat body.length ∧
      assemble header header.msgType vals = some message := by
  obtain ⟨⟨vals, c⟩, r₁, hfields, h⟩ := exec_bind_eq_ok.mp h
  obtain ⟨_, r₂, hcheck, h⟩ := exec_bind_eq_ok.mp h
  obtain ⟨body, rest, reads, rfl, hmatch, rfl, rfl⟩ :=
    Fields.of_decode_eq_ok hfields
  have hzero : header.remainLen - UInt32.ofNat body.length = 0 := by
    by_contra hne
    simp [checkConsumed, hne] at hcheck
  simp only [checkConsumed, hzero, ne_eq, not_true, decide_false,
    exec_throwIf_false, Prod.mk.injEq, true_and] at hcheck
  subst hcheck
  cases hmessage : assemble header header.msgType vals with
  | none =>
      rw [hmessage] at h
      simp at h
  | some message' =>
      rw [hmessage] at h
      simp only [exec_pure, Prod.mk.injEq, Except.ok.injEq] at h
      obtain ⟨rfl, rfl⟩ := h
      exact ⟨body, vals, rfl, hmatch, by grind, hmessage⟩

theorem decodeMessage_of_isFrame {z : Gzip} {message : MessageBase}
    {frame : List Byte} (h : IsFrame z message frame) (rest : List Byte)
    (log : List UInt64) :
    ∃ requests, exec (decodeMessage z) (⟨frame ++ rest, log⟩ : ByteStream) =
      (.ok message, ⟨rest, requests⟩) := by
  cases h with
  | @mk b p body vals _ hb hp hlen hbody hmessage =>
      obtain ⟨reads, hread⟩ := exec_decodeByFields_of_match hbody rfl hmessage
        rest (log ++ [1] ++ List.replicate p.length 1)
      refine ⟨log ++ [1] ++ List.replicate p.length 1 ++ reads, ?_⟩
      rw [List.cons_append, List.append_assoc,
        exec_decodeMessage_header hb (.number hp hlen), hread]

theorem isFrame_of_decodeMessage {z : Gzip} {bs rest : List Byte}
    {message : MessageBase} {requests : List UInt64}
    (h : exec (decodeMessage z) (⟨bs, []⟩ : ByteStream) =
      (.ok message, ⟨rest, requests⟩)) :
    ∃ frame, IsFrame z message frame ∧ bs = frame ++ rest := by
  obtain ⟨header, r, hheader, -⟩ := exec_bind_eq_ok.mp h
  obtain ⟨b, p, remainLen, s, rfl, hb, hp, rfl, rfl⟩ :=
    of_exec_header_ok hheader
  rw [exec_decodeMessage_header hb hp] at h
  obtain ⟨body, vals, rfl, hbody, hlen, hmessage⟩ :=
    of_exec_decodeByFields_ok h
  have hlt := body_length_lt hbody
  simp only [headerOf] at hlen
  subst hlen
  have hvarint : Varint p body.length ∧ p.length ≤ 4 := by
    generalize hn : UInt32.ofNat body.length = remainLen at hp
    have hbodyNat : remainLen.toNat = body.length := by
      rw [← hn, UInt32.toNat_ofNat_of_lt' (by simp only [UInt32.size]; omega)]
    cases hp with
    | @number n hp hlen =>
        have hn28 := hp.lt_of_length_le (k := 4) hlen
        rw [UInt32.toNat_ofNat_of_lt' (by simp only [UInt32.size]; omega)]
          at hbodyNat
        exact ⟨hbodyNat ▸ hp, hlen⟩
    | malformed hq hlen =>
        -- no body has the length `2 ^ 32 - 1`
        have : (-1 : UInt32).toNat = 2 ^ 32 - 1 := rfl
        omega
  exact ⟨b :: (p ++ body), .mk hb hvarint.1 hvarint.2 hbody hmessage,
    by simp⟩

theorem IsFrame.unique {z : Gzip} {message message' : MessageBase}
    {frame frame' rest rest' : List Byte} (h : IsFrame z message frame)
    (h' : IsFrame z message' frame') (heq : frame ++ rest = frame' ++ rest') :
    frame = frame' := by
  obtain ⟨requests, hread⟩ := decodeMessage_of_isFrame h rest []
  obtain ⟨requests', hread'⟩ := decodeMessage_of_isFrame h' rest' []
  rw [heq, hread'] at hread
  injection hread with _ hstream
  injection hstream with hrest _
  rw [hrest] at heq
  exact List.append_cancel_right heq

theorem IsFrame.unique_message {z : Gzip} {message message' : MessageBase}
    {frame frame' rest rest' : List Byte} (h : IsFrame z message frame)
    (h' : IsFrame z message' frame') (heq : frame ++ rest = frame' ++ rest') :
    message = message' := by
  obtain ⟨requests, hread⟩ := decodeMessage_of_isFrame h rest []
  obtain ⟨requests', hread'⟩ := decodeMessage_of_isFrame h' rest' []
  rw [heq, hread'] at hread
  simp only [Prod.mk.injEq, Except.ok.injEq] at hread
  exact hread.1.symm

/--
`decodeMessage` returns a message exactly where the stream starts with a frame
of that message, and what it leaves is what follows the frame.
-/
theorem decodeMessage_returns_iff_isFrame (z : Gzip) (bs rest : List Byte)
    (message : MessageBase) :
    (∃ requests, exec (decodeMessage z) (⟨bs, []⟩ : ByteStream) =
        (.ok message, ⟨rest, requests⟩)) ↔
      ∃ frame, IsFrame z message frame ∧ bs = frame ++ rest := by
  constructor
  · rintro ⟨requests, h⟩
    exact isFrame_of_decodeMessage h
  · rintro ⟨frame, hframe, rfl⟩
    exact decodeMessage_of_isFrame hframe rest []

end GoSocket.Packet
