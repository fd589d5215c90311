import GoSocket.Packet.FrameBounds

/-!
# The lengths that reach a local buffer

For four continuation bytes `decodeLength` returns `-1` both for the length
and for the number of bytes it took.  A getter that gets this pair adds one to
the counter and then rejects the length, unless the counter stood at
`2 ^ 32 - 2`.  `ReachesSentinel` follows the counter to such a field;
`SentinelFrame` is the one form of a stream that gets there.
-/

namespace GoSocket.Packet

open GoSocket.Foundation

/-! ## One field -/

theorem BlockRun.eq_negative {c : UInt32} {log : List UInt64}
    {q rest : List Byte} {r : Except Fault (List Byte × UInt32) × ByteStream}
    (hq : AllContinue q) (hlen : q.length = 4) (hc : c.toNat = 2 ^ 32 - 2)
    (h : BlockRun c log (q ++ rest) r) :
    r = (.error (.negativeBuffer (-1)),
      ⟨rest, log ++ List.replicate q.length 1⟩) := by
  generalize hbs : q ++ rest = bs at h
  cases h with
  | done rest' hp hlen' =>
      rw [List.append_assoc] at hbs
      have := hp.not_allContinue hq hbs.symm
      omega
  | exceeds rest' hp hlen' =>
      have := hp.not_allContinue hq hbs.symm
      omega
  | endOfContent rest' hp hlen' =>
      have := hp.not_allContinue hq hbs.symm
      omega
  | malformed rest' hq' hlen' hc' => exact absurd hc hc'
  | negative rest' hq' hlen' =>
      obtain ⟨rfl, rfl⟩ := List.append_inj hbs (hlen.trans hlen'.symm)
      rfl
  | endOfLength hq' hlen' =>
      have hle := congrArg List.length hbs
      simp only [List.length_append] at hle
      omega

namespace Field

private theorem decode_negative (z : Gzip) {f : Field} {c : UInt32}
    {q rest : List Byte} (hq : AllContinue q) (hlen : q.length = 4)
    (hc : c.toNat = 2 ^ 32 - 2) (hf : f.prefixLength (q ++ rest) = 4)
    (log : List UInt64) :
    exec (f.decode z c) (⟨q ++ rest, log⟩ : ByteStream) =
      (.error (.negativeBuffer (-1)),
        ⟨rest, log ++ List.replicate q.length 1⟩) := by
  have hblock := (getBlock_run c (q ++ rest) log).eq_negative hq hlen hc
  cases f with
  | uint8 ok exc => simp [prefixLength] at hf
  | uint16 => simp [prefixLength] at hf
  | string ok exc => exact exec_bind_of_error hblock
  | gzip => exact exec_bind_of_error hblock

theorem Fits.toNat_sub {z : Gzip} {f : Field} {c : UInt32} {first : List Byte}
    {v : f.Val} (hfits : f.Fits c first) (hmatch : f.Match z first v) :
    (c - UInt32.ofNat first.length).toNat + first.length = c.toNat ∨
      c.toNat < f.prefixLength first ∧ f.prefixLength first ≤ first.length ∧
        (c - UInt32.ofNat first.length).toNat + first.length =
          c.toNat + 2 ^ 32 := by
  have hlen := hmatch.length_lt
  have hnat : (UInt32.ofNat first.length).toNat = first.length :=
    UInt32.toNat_ofNat_of_lt' (by simp only [UInt32.size]; omega)
  have hlt := c.toNat_lt
  have hfront := hmatch.prefixLength_le
  rw [UInt32.toNat_sub, hnat]
  rcases hfits with hfits | hfits <;> omega

end Field

/-! ## One body -/

namespace Fields

/-- Reading the fields brings the counter to `2 ^ 32 - 2` before a block that
starts with four continuation bytes. -/
def ReachesSentinel (z : Gzip) : List Field → UInt32 → List Byte → Prop
  | [], _, _ => False
  | f :: fs, c, bs =>
      (c.toNat = 2 ^ 32 - 2 ∧ f.prefixLength bs = 4 ∧
        ∃ q rest, bs = q ++ rest ∧ AllContinue q ∧ q.length = 4) ∨
      ∃ first rest v, bs = first ++ rest ∧ f.Match z first v ∧
        f.Fits c first ∧
        ReachesSentinel z fs (c - UInt32.ofNat first.length) rest

theorem negativeBuffer_iff (z : Gzip) (fs : List Field) (c : UInt32)
    (bs : List Byte) (log : List UInt64) :
    (∃ len, (exec (decode z fs c) (⟨bs, log⟩ : ByteStream)).1 =
        .error (.negativeBuffer len)) ↔ ReachesSentinel z fs c bs := by
  induction fs generalizing c bs log with
  | nil => simp [decode, ReachesSentinel]
  | cons f fs ih =>
      have hrun := Field.run z f c bs log
      generalize hr : exec (f.decode z c) (⟨bs, log⟩ : ByteStream) = r at hrun
      cases hrun with
      | @done first v rest hmatch hfits =>
          simp only [exec_decode_cons_error hr]
          rw [ih]
          constructor
          · intro h
            exact .inr ⟨first, rest, v, rfl, hmatch, hfits, h⟩
          · rintro (⟨hc, hf, q, s, hbs, hq, hlen⟩ |
              ⟨first', rest', v', hbs, hmatch', hfits', h⟩)
            · rw [hbs] at hr hf
              rw [Field.decode_negative z hq hlen hc hf] at hr
              simp at hr
            · obtain ⟨rfl, rfl⟩ := hmatch.unique hmatch' hbs
              exact h
      | failed e rest hreads =>
          rw [decode, exec_bind_of_error hr]
          refine iff_of_false (by simp) ?_
          rintro (⟨hc, hf, q, s, rfl, hq, hlen⟩ |
            ⟨first', rest', v', rfl, hmatch', hfits', -⟩)
          · rw [Field.decode_negative z hq hlen hc hf] at hr
            simp at hr
          · rw [Field.decode_of_match hmatch' hfits'] at hr
            simp at hr
      | @negative q rest hq hlen hc hf =>
          rw [decode, exec_bind_of_error hr]
          exact iff_of_true ⟨-1, rfl⟩ (.inl ⟨hc, hf, q, rest, rfl, hq, hlen⟩)

theorem requests_small (z : Gzip) (fs : List Field) (c : UInt32)
    (bs : List Byte) (log : List UInt64) :
    ∀ n ∈ (exec (decode z fs c) (⟨bs, log⟩ : ByteStream)).2.requests,
      n ∈ log ∨ n.toNat < 2 ^ 28 := by
  induction fs generalizing c bs log with
  | nil => exact fun n hn => .inl hn
  | cons f fs ih =>
      intro n hn
      have hrun := Field.run z f c bs log
      generalize hr : exec (f.decode z c) (⟨bs, log⟩ : ByteStream) = r at hrun
      cases hrun with
      | @done first v rest hmatch hfits =>
          rw [exec_decode_cons_state hr] at hn
          rcases ih _ _ _ n hn with hn | hn
          · exact (List.mem_append.mp hn).imp_right (Field.reads_small hmatch)
          · exact .inr hn
      | failed e rest hreads =>
          rw [decode, exec_bind_of_error hr] at hn
          exact (List.mem_append.mp hn).imp_right (hreads.small n)
      | negative rest hq hlen hc hf =>
          rw [decode, exec_bind_of_error hr] at hn
          refine (List.mem_append.mp hn).imp_right fun hn => ?_
          rw [List.eq_of_mem_replicate hn]
          decide

/-! The counter cannot be at `2 ^ 32 - 2` after a field without a prefix: such
a field does not make it wrap, and takes at least one byte. -/

private theorem not_reachesSentinel_nil (z : Gzip) (f : Field) {c : UInt32}
    (hc : c.toNat ≠ 2 ^ 32 - 2) (bs : List Byte) :
    ¬ ReachesSentinel z [f] c bs := by
  rintro (⟨hc', -⟩ | ⟨first, rest, v, -, -, -, h⟩)
  · exact hc hc'
  · exact h

private theorem reachesSentinel_uint8 {z : Gzip} {ok : Byte → Bool}
    {exc : TcpExcType} {fs : List Field} {c : UInt32} {bs : List Byte}
    (h : ReachesSentinel z (.uint8 ok exc :: fs) c bs) :
    ∃ b rest c', bs = b :: rest ∧ c'.toNat + 1 = c.toNat ∧
      ReachesSentinel z fs c' rest := by
  rcases h with ⟨-, hf, -⟩ | ⟨first, rest, v, rfl, hmatch, hfits, h⟩
  · simp [Field.prefixLength] at hf
  · have hsub := hfits.toNat_sub hmatch
    obtain ⟨rfl, -⟩ := hmatch
    refine ⟨v, rest, _, rfl, ?_, h⟩
    simpa [Field.prefixLength] using hsub

private theorem reachesSentinel_uint16 {z : Gzip} {fs : List Field}
    {c : UInt32} {bs : List Byte}
    (h : ReachesSentinel z (.uint16 :: fs) c bs) :
    ∃ high low rest c', bs = high :: low :: rest ∧ c'.toNat + 2 = c.toNat ∧
      ReachesSentinel z fs c' rest := by
  rcases h with ⟨-, hf, -⟩ | ⟨first, rest, v, rfl, hmatch, hfits, h⟩
  · simp [Field.prefixLength] at hf
  · have hsub := hfits.toNat_sub hmatch
    obtain ⟨high, low, rfl, -⟩ := hmatch
    refine ⟨high, low, rest, _, rfl, ?_, h⟩
    simpa [Field.prefixLength] using hsub

private theorem reachesSentinel_string {z : Gzip} {ok : List Byte → Bool}
    {exc : TcpExcType} {fs : List Field} {c : UInt32} {bs : List Byte}
    (hc : c.toNat ≠ 2 ^ 32 - 2)
    (h : ReachesSentinel z (.string ok exc :: fs) c bs) :
    ∃ k content rest c', bs = k ++ content ++ rest ∧
      Varint k content.length ∧ k.length ≤ 4 ∧
      (c'.toNat + (k.length + content.length) = c.toNat ∨
        c.toNat < k.length ∧
          c'.toNat + (k.length + content.length) = c.toNat + 2 ^ 32) ∧
      ReachesSentinel z fs c' rest := by
  rcases h with ⟨hc', -⟩ | ⟨first, rest, v, rfl, hmatch, hfits, h⟩
  · exact absurd hc' hc
  · have hsub := hfits.toNat_sub hmatch
    obtain ⟨⟨k, hk, hlen, rfl⟩, -⟩ := hmatch
    rw [List.length_append, Field.prefixLength, hk.varintReads_append hlen]
      at hsub
    refine ⟨k, v, rest, _, rfl, hk, hlen, ?_, h⟩
    rw [List.length_append]
    omega

/-- The body of a request that gets there: the announced length is two short
of the message id and the type, and the type has at most one byte. -/
def SentinelBody (left : Nat) (bs : List Byte) : Prop :=
  ∃ high low k type q rest,
    bs = high :: low :: (k ++ type ++ (q ++ rest)) ∧
      Varint k type.length ∧ k.length ≤ 4 ∧ type.length ≤ 1 ∧
      left = k.length + type.length ∧ 2 ≤ left ∧
      AllContinue q ∧ q.length = 4

private theorem reachesSentinel_sendReq {z : Gzip} {c : UInt32}
    {bs : List Byte}
    (h : ReachesSentinel z (bodyFields .kMsgSendReq) c bs) :
    SentinelBody c.toNat bs := by
  obtain ⟨high, low, rest, c₁, rfl, hc₁, h⟩ := reachesSentinel_uint16 h
  have hlt := c.toNat_lt
  obtain ⟨k, type, rest', c₂, rfl, hk, hlen, hc₂, h⟩ :=
    reachesSentinel_string (by omega) h
  rcases h with ⟨hc₂', -, q, s, rfl, hq, hqlen⟩ | ⟨_, _, _, -, -, -, h⟩
  · exact ⟨high, low, k, type, q, s, rfl, hk, hlen, by omega, by omega,
      by omega, hq, hqlen⟩
  · exact h.elim

private theorem reachesSentinel_of_sentinelBody (z : Gzip) {c : UInt32}
    {bs : List Byte} (h : SentinelBody c.toNat bs) :
    ReachesSentinel z (bodyFields .kMsgSendReq) c bs := by
  obtain ⟨high, low, k, type, q, rest, rfl, hk, hlen, htype, hc, htwo, hq,
    hqlen⟩ := h
  have hid : Field.uint16.Match z [high, low]
      (high.toUInt16 <<< 8 ||| low.toUInt16) :=
    ⟨high, low, rfl, uint16_toNat high low⟩
  have hidFits : Field.uint16.Fits c [high, low] := .inl htwo
  have hid₁ := hidFits.toNat_sub hid
  simp only [Field.prefixLength, Nat.not_lt_zero, false_and, or_false] at hid₁
  have hstring : (Field.string (fun _ => true) .TcpExcInvalidFlag).Match z
      (k ++ type) type := ⟨⟨k, hk, hlen, rfl⟩, rfl⟩
  have hwrap : (Field.string (fun _ => true) .TcpExcInvalidFlag).Fits
      (c - UInt32.ofNat [high, low].length) (k ++ type) := by
    refine .inr ?_
    rw [Field.prefixLength, hk.varintReads_append hlen]
    simp only [List.length_cons, List.length_nil] at hid₁ ⊢
    omega
  have hstring₁ := hwrap.toNat_sub hstring
  have hsentinel : Field.gzip.prefixLength (q ++ rest) = 4 := by
    rw [Field.prefixLength, ← hqlen, hq.varintReads_append]
  refine .inr ⟨_, _, _, rfl, hid, hidFits, .inr ⟨_, _, _, rfl, hstring, hwrap,
    .inl ⟨?_, hsentinel, q, rest, rfl, hq, hqlen⟩⟩⟩
  simp only [List.length_append, List.length_cons, List.length_nil] at *
  omega

theorem reachesSentinel_body_iff {z : Gzip} {t : MessageType} {c : UInt32}
    {bs : List Byte} (hc : c.toNat ≠ 2 ^ 32 - 2) :
    ReachesSentinel z (bodyFields t) c bs ↔
      t = .kMsgSendReq ∧ SentinelBody c.toNat bs := by
  constructor
  · intro h
    have hlt := c.toNat_lt
    cases t with
    | kMsgSendReq => exact ⟨rfl, reachesSentinel_sendReq h⟩
    | kMsgSendResp =>
        obtain ⟨_, _, rest, c₁, -, hc₁, h⟩ := reachesSentinel_uint16 h
        exact absurd h (not_reachesSentinel_nil z _ (by omega) rest)
    | kMsgConnect =>
        obtain ⟨_, _, _, c₁, -, -, -, -, h⟩ := reachesSentinel_string hc h
        obtain ⟨_, _, c₂, -, hc₂, h⟩ := reachesSentinel_uint8 h
        obtain ⟨_, _, c₃, -, hc₃, h⟩ := reachesSentinel_uint8 h
        obtain ⟨_, _, rest, c₄, -, hc₄, h⟩ := reachesSentinel_uint16 h
        have hlt₁ := c₁.toNat_lt
        exact absurd h (not_reachesSentinel_nil z _ (by omega) rest)
    | kMsgConnAck =>
        obtain ⟨_, _, _, -, -, h⟩ := reachesSentinel_uint8 h
        obtain ⟨_, _, _, -, -, h⟩ := reachesSentinel_uint8 h
        exact h.elim
    | kMsgDisconnect =>
        obtain ⟨_, _, _, -, -, h⟩ := reachesSentinel_uint8 h
        exact h.elim
    | _ => exact h.elim
  · rintro ⟨rfl, h⟩
    exact reachesSentinel_of_sentinelBody z h

end Fields

/-! ## One message -/

/-- Every length a getter uses for its buffer is from 0 to `2 ^ 28 - 1`: no
buffer is declared with a negative length, and no read asks for more. -/
def FieldLengthsInRange (z : Gzip) (bs : List Byte) : Prop :=
  (∀ len, (exec (decodeMessage z) (⟨bs, []⟩ : ByteStream)).1 ≠
      .error (.negativeBuffer len)) ∧
    ∀ n ∈ (exec (decodeMessage z) (⟨bs, []⟩ : ByteStream)).2.requests,
      n.toNat < 2 ^ 28

/-- A request whose announced length is that of its type string, without the
message id before it, the type string having at most one byte; the length of
the payload is four continuation bytes. -/
def SentinelFrame (bs : List Byte) : Prop :=
  ∃ b p n body, bs = b :: (p ++ body) ∧ IsHeaderByte b ∧
    typeOf b = .kMsgSendReq ∧ Varint p n ∧ p.length ≤ 4 ∧
    Fields.SentinelBody n body

private theorem exec_decodeByFields_negative (z : Gzip) (header : FixHeader)
    (s : ByteStream) (len : Int32) :
    (exec (decodeByFields z header) s).1 = .error (.negativeBuffer len) ↔
      (exec (Fields.decode z (bodyFields header.msgType) header.remainLen) s).1 =
        .error (.negativeBuffer len) := by
  rw [decodeByFields, exec_bind]
  cases exec (Fields.decode z (bodyFields header.msgType) header.remainLen) s with
  | mk outcome t =>
      cases outcome with
      | error e => simp
      | ok a =>
          obtain ⟨vals, c⟩ := a
          simp only [checkConsumed]
          cases decide (c ≠ 0) with
          | true => simp [exec_bind]
          | false => cases assemble header header.msgType vals <;> simp

private theorem exec_decodeMessage_cases (z : Gzip) (bs : List Byte) :
    (∃ b p remainLen rest, bs = b :: (p ++ rest) ∧ IsHeaderByte b ∧
        HeaderLength p remainLen) ∨
      ∃ e r, exec (decodeMessage z) (⟨bs, []⟩ : ByteStream) =
          (.error (.tcp e), r) ∧ ∀ n ∈ r.requests, n = 1 := by
  cases bs with
  | nil =>
      refine .inr ⟨_, _, exec_bind_of_error (exec_bind_of_error
        (exec_readFull_of_lt (by simp))), by simp⟩
  | cons b bs =>
      by_cases hb : IsHeaderByte b
      · rcases varint_cases 4 bs with
          ⟨p, n, s, rfl, hp, hlen⟩ | ⟨q, s, rfl, hq, hlen⟩ | ⟨hq, hlen⟩
        · exact .inl ⟨b, p, _, s, rfl, hb, .number hp hlen⟩
        · exact .inl ⟨b, q, _, s, rfl, hb, .malformed hq hlen⟩
        · have hheader : exec FixHeader.decode (⟨b :: bs, []⟩ : ByteStream) =
              (.error (.tcp { excType := .TcpExcSocketClose }),
                ⟨[], [1] ++ List.replicate (bs.length + 1) 1⟩) := by
            rw [exec_header_of_isHeaderByte hb]
            exact exec_bind_of_error (exec_decodeLength_short hq hlen _)
          refine .inr ⟨_, _, exec_bind_of_error hheader, ?_⟩
          intro n hn
          rw [← List.replicate_one, List.replicate_append_replicate] at hn
          exact List.eq_of_mem_replicate hn
      · obtain ⟨e, he⟩ := exec_header_of_not_isHeaderByte hb bs []
        exact .inr ⟨e, _, exec_bind_of_error he, by simp⟩

private theorem requests_small_of_header {z : Gzip} {b : Byte}
    (hb : IsHeaderByte b) {p : List Byte} {remainLen : UInt32}
    (hp : HeaderLength p remainLen) (rest : List Byte) :
    ∀ n ∈ (exec (decodeMessage z)
        (⟨b :: (p ++ rest), []⟩ : ByteStream)).2.requests, n.toNat < 2 ^ 28 := by
  intro n hn
  rw [exec_decodeMessage_header hb hp, exec_decodeByFields_state] at hn
  rcases Fields.requests_small z _ _ rest _ n hn with hn | hn
  · rw [List.nil_append, List.singleton_append, ← List.replicate_succ] at hn
    rw [List.eq_of_mem_replicate hn]
    decide
  · exact hn

private theorem negativeBuffer_iff_of_header {z : Gzip} {b : Byte}
    (hb : IsHeaderByte b) {p : List Byte} {remainLen : UInt32}
    (hp : HeaderLength p remainLen) (rest : List Byte) :
    (∃ len, (exec (decodeMessage z) (⟨b :: (p ++ rest), []⟩ : ByteStream)).1 =
        .error (.negativeBuffer len)) ↔
      typeOf b = .kMsgSendReq ∧ Fields.SentinelBody remainLen.toNat rest := by
  have hlen : remainLen.toNat ≠ 2 ^ 32 - 2 := by
    cases hp with
    | @number n hp hlen =>
        have hn := hp.lt_of_length_le (k := 4) hlen
        rw [UInt32.toNat_ofNat_of_lt' (by simp only [UInt32.size]; omega)]
        omega
    | malformed hq hlen => decide
  rw [exec_decodeMessage_header hb hp]
  simp only [exec_decodeByFields_negative]
  rw [Fields.negativeBuffer_iff]
  exact Fields.reachesSentinel_body_iff hlen

theorem fieldLengthsInRange_iff (z : Gzip) (bs : List Byte) :
    FieldLengthsInRange z bs ↔ ¬ SentinelFrame bs := by
  constructor
  · rintro ⟨hnonneg, -⟩ ⟨b, p, n, body, rfl, hb, htype, hp, hlen, hbody⟩
    have hnat : (UInt32.ofNat n).toNat = n := by
      have hn := hp.lt_of_length_le (k := 4) hlen
      exact UInt32.toNat_ofNat_of_lt' (by simp only [UInt32.size]; omega)
    obtain ⟨len, hneg⟩ :=
      (negativeBuffer_iff_of_header (z := z) hb (.number hp hlen) body).mpr
        ⟨htype, by rwa [hnat]⟩
    exact hnonneg len hneg
  · intro h
    rcases exec_decodeMessage_cases z bs with
      ⟨b, p, remainLen, rest, rfl, hb, hp⟩ | ⟨e, r, hexec, hones⟩
    · refine ⟨fun len hneg => ?_, requests_small_of_header hb hp rest⟩
      obtain ⟨htype, hbody⟩ :=
        (negativeBuffer_iff_of_header hb hp rest).mp ⟨len, hneg⟩
      cases hp with
      | @number n hp hlen =>
          have hn := hp.lt_of_length_le (k := 4) hlen
          rw [UInt32.toNat_ofNat_of_lt' (by simp only [UInt32.size]; omega)]
            at hbody
          exact h ⟨b, p, n, rest, rfl, hb, htype, hp, hlen, hbody⟩
      | malformed hq hlen =>
          -- no type string is `2 ^ 32 - 1` bytes long
          obtain ⟨_, _, k, type, _, _, -, -, hk, htypeLen, hleft, -⟩ := hbody
          have hmax : (-1 : UInt32).toNat = 2 ^ 32 - 1 := rfl
          omega
    · rw [FieldLengthsInRange, hexec]
      refine ⟨by simp, fun n hn => ?_⟩
      rw [hones n hn]
      decide

/-- The type `"a"` is the whole announced body, and `-1` becomes the size of
the payload buffer. -/
theorem sendReq_declares_negative_buffer :
    ¬ FieldLengthsInRange ⟨some, some⟩
      [0x60, 2, 0, 1, 1, 97, 0x80, 0x80, 0x80, 0x80] := by
  intro h
  exact h.1 (-1) (by decide +kernel)

end GoSocket.Packet
