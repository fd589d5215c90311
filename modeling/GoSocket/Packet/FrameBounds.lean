import GoSocket.Packet.Grammar

/-!
# How far `decodeMessage` reads

A block getter reads its length prefix before it looks at the counter, so a
frame that ends before or inside a prefix is read past its end, and the counter
wraps.  `PrefixesInsideFrame` says that this does not happen, and it is exactly
then that the requests stay inside the frame.
-/

namespace GoSocket.Packet

open GoSocket.Foundation

/-! ## Requests of one body -/

namespace Field

theorem Match.unique {z : Gzip} {f : Field} {first first' rest rest' : List Byte}
    {v v' : f.Val} (h : f.Match z first v) (h' : f.Match z first' v')
    (heq : first ++ rest = first' ++ rest') : first = first' ∧ rest = rest' := by
  have hlen := h.length_lt
  have hlen' := h'.length_lt
  have hmax : (-1 : UInt32).toNat = 2 ^ 32 - 1 := rfl
  have hread := decode_of_match (c := -1) h (.inl (by omega)) rest []
  have hread' := decode_of_match (c := -1) h' (.inl (by omega)) rest' []
  rw [heq, hread'] at hread
  simp only [Prod.mk.injEq, ByteStream.mk.injEq] at hread
  obtain ⟨-, rfl, -⟩ := hread
  exact ⟨List.append_cancel_right heq, rfl⟩

theorem Match.prefixLength_append {z : Gzip} {f : Field} {first : List Byte}
    {v : f.Val} (h : f.Match z first v) (rest : List Byte) :
    f.prefixLength (first ++ rest) = f.prefixLength first := by
  have hblock {content : List Byte} (h : IsBlock first content) :
      varintReads 4 (first ++ rest) = varintReads 4 first := by
    obtain ⟨p, hp, hlen, rfl⟩ := h
    rw [List.append_assoc, hp.varintReads_append hlen,
      hp.varintReads_append hlen]
  cases f with
  | uint8 ok exc => rfl
  | uint16 => rfl
  | string ok exc => exact hblock h.1
  | gzip =>
      obtain ⟨content, h, -⟩ := h
      exact hblock h

theorem Match.prefixLength_le {z : Gzip} {f : Field} {first : List Byte}
    {v : f.Val} (h : f.Match z first v) : f.prefixLength first ≤ first.length := by
  have hblock {content : List Byte} (h : IsBlock first content) :
      varintReads 4 first ≤ first.length := by
    obtain ⟨p, hp, hlen, rfl⟩ := h
    rw [hp.varintReads_append hlen, List.length_append]
    omega
  cases f with
  | uint8 ok exc => exact Nat.zero_le _
  | uint16 => exact Nat.zero_le _
  | string ok exc => exact hblock h.1
  | gzip =>
      obtain ⟨content, h, -⟩ := h
      exact hblock h

end Field

namespace Fields

/--
Wherever a length prefix is due, all fields before it being there and inside
the `left` bytes of the frame, its bytes are inside these bytes as well.
-/
def PrefixesInside (z : Gzip) : List Field → Nat → List Byte → Prop
  | [], _, _ => True
  | f :: fs, left, bs =>
      f.prefixLength bs ≤ left ∧
        ∀ first rest v, bs = first ++ rest → f.Match z first v →
          first.length ≤ left →
          PrefixesInside z fs (left - first.length) rest

private theorem requested_reads {z : Gzip} {f : Field} {first : List Byte}
    {v : f.Val} (h : f.Match z first v) (rest : List Byte) (log : List UInt64) :
    ByteStream.requested ⟨rest, log ++ f.reads first⟩ =
      ByteStream.requested ⟨first ++ rest, log⟩ + first.length := by
  rw [ByteStream.requested_append, Field.reads_sum h]
  rfl

theorem exec_decode_cons_state {z : Gzip} {f : Field} {fs : List Field}
    {c c' : UInt32} {v : f.Val} {s t : ByteStream}
    (h : exec (f.decode z c) s = (.ok (v, c'), t)) :
    (exec (decode z (f :: fs) c) s).2 = (exec (decode z fs c') t).2 := by
  rw [decode, exec_bind_of_ok h, exec_bind]
  cases hrest : exec (decode z fs c') t with
  | mk outcome u => cases outcome <;> rfl

theorem exec_decode_cons_error {z : Gzip} {f : Field} {fs : List Field}
    {c c' : UInt32} {v : f.Val} {s t : ByteStream}
    (h : exec (f.decode z c) s = (.ok (v, c'), t)) (e : Fault) :
    (exec (decode z (f :: fs) c) s).1 = .error e ↔
      (exec (decode z fs c') t).1 = .error e := by
  rw [decode, exec_bind_of_ok h, exec_bind]
  cases hrest : exec (decode z fs c') t with
  | mk outcome u => cases outcome <;> simp

private theorem requested_mono (z : Gzip) (fs : List Field) (c : UInt32)
    (bs : List Byte) (log : List UInt64) :
    ByteStream.requested ⟨bs, log⟩ ≤
      (exec (decode z fs c) (⟨bs, log⟩ : ByteStream)).2.requested := by
  induction fs generalizing c bs log with
  | nil => exact Nat.le_refl _
  | cons f fs ih =>
      have hrun := Field.run z f c bs log
      generalize hr : exec (f.decode z c) (⟨bs, log⟩ : ByteStream) = r at hrun
      cases hrun with
      | @done first v rest hmatch hfits =>
          have hrest := ih (c - UInt32.ofNat first.length) rest
            (log ++ f.reads first)
          rw [requested_reads hmatch] at hrest
          rw [exec_decode_cons_state hr]
          omega
      | failed e rest hreads =>
          rw [decode, exec_bind_of_error hr, ByteStream.requested_append]
          exact Nat.le_add_right _ _
      | negative rest hq hlen hc hf =>
          rw [decode, exec_bind_of_error hr, ByteStream.requested_append]
          exact Nat.le_add_right _ _

private theorem prefixesInside_cons_of_match {z : Gzip} {f : Field}
    {fs : List Field} {left : Nat} {first : List Byte} {v : f.Val}
    (hmatch : f.Match z first v) (hfits : first.length ≤ left)
    (rest : List Byte) :
    PrefixesInside z (f :: fs) left (first ++ rest) ↔
      PrefixesInside z fs (left - first.length) rest := by
  constructor
  · intro h
    exact h.2 first rest v rfl hmatch hfits
  · intro h
    refine ⟨?_, fun first' rest' v' heq hmatch' _ => ?_⟩
    · rw [hmatch.prefixLength_append]
      exact hmatch.prefixLength_le.trans hfits
    · obtain ⟨rfl, rfl⟩ := hmatch.unique hmatch' heq
      exact h

/-- A body asks for no more than the counter allows exactly where no length
prefix is cut. -/
theorem requested_le_iff (z : Gzip) (fs : List Field) (c : UInt32)
    (bs : List Byte) (log : List UInt64) :
    (exec (decode z fs c) (⟨bs, log⟩ : ByteStream)).2.requested ≤
        ByteStream.requested ⟨bs, log⟩ + c.toNat ↔
      PrefixesInside z fs c.toNat bs := by
  induction fs generalizing c bs log with
  | nil => exact iff_of_true (Nat.le_add_right _ _) trivial
  | cons f fs ih =>
      have hrun := Field.run z f c bs log
      generalize hr : exec (f.decode z c) (⟨bs, log⟩ : ByteStream) = r at hrun
      cases hrun with
      | @done first v rest hmatch hfits =>
          rw [exec_decode_cons_state hr]
          by_cases hlen : first.length ≤ c.toNat
          · have hrest := ih (c - UInt32.ofNat first.length) rest
              (log ++ f.reads first)
            rw [requested_reads hmatch, toNat_sub_ofNat hlen] at hrest
            rw [prefixesInside_cons_of_match hmatch hlen, ← hrest]
            omega
          · -- the prefix did not fit, and the counter has wrapped
            have hmono := requested_mono z fs (c - UInt32.ofNat first.length)
              rest (log ++ f.reads first)
            rw [requested_reads hmatch] at hmono
            have hcut : c.toNat < f.prefixLength first := by
              rcases hfits with hfits | hfits
              · exact absurd hfits hlen
              · exact hfits
            refine iff_of_false (by omega) fun h => ?_
            have hfront := h.1
            rw [hmatch.prefixLength_append] at hfront
            omega
      | failed e rest hreads =>
          rw [decode, exec_bind_of_error hr, ByteStream.requested_append,
            ByteStream.requested_eq rest bs]
          by_cases hfront : f.prefixLength bs ≤ c.toNat
          · have hinside := hreads.inside hfront
            refine iff_of_true (by omega) ⟨hfront, ?_⟩
            intro first rest' v heq hmatch hfits
            subst heq
            rw [Field.decode_of_match hmatch (.inl hfits)] at hr
            simp at hr
          · have hbeyond := hreads.beyond (by omega)
            exact iff_of_false (by omega) fun h => hfront h.1
      | @negative q rest hq hlen hc hf =>
          rw [decode, exec_bind_of_error hr, ByteStream.requested_append,
            ByteStream.requested_eq rest (q ++ rest)]
          refine iff_of_true (by simp [hlen]; omega) ⟨by omega, ?_⟩
          intro first rest' v heq hmatch hfits
          rw [heq, Field.decode_of_match hmatch (.inl hfits)] at hr
          simp at hr

theorem prefixesInside_of_le (z : Gzip) (fs : List Field) {left : Nat}
    (hleft : fs.length * (2 ^ 28 + 4) ≤ left) (bs : List Byte) :
    PrefixesInside z fs left bs := by
  induction fs generalizing left bs with
  | nil => trivial
  | cons f fs ih =>
      rw [List.length_cons, Nat.succ_mul] at hleft
      refine ⟨?_, fun first rest v _ hmatch _ => ih ?_ rest⟩
      · have hfront : f.prefixLength bs ≤ 4 := by
          cases f <;> simp [Field.prefixLength, varintReads_le]
        omega
      · have hlen := Nat.add_le_add_left hmatch.length_lt.le
          (fs.length * (2 ^ 28 + 4))
        exact Nat.le_sub_of_add_le (hlen.trans hleft)

end Fields

/-! ## Requests of one message -/

theorem exec_decodeByFields_state (z : Gzip) (header : FixHeader)
    (s : ByteStream) :
    (exec (decodeByFields z header) s).2 =
      (exec (Fields.decode z (bodyFields header.msgType) header.remainLen)
        s).2 := by
  rw [decodeByFields, exec_bind]
  cases exec (Fields.decode z (bodyFields header.msgType) header.remainLen) s with
  | mk outcome t =>
      cases outcome with
      | error e => rfl
      | ok a =>
          obtain ⟨vals, c⟩ := a
          simp only [checkConsumed]
          cases decide (c ≠ 0) with
          | true => rfl
          | false => cases h : assemble header header.msgType vals <;> simp

/-- The body bytes asked for are at most those the header announced, whether
a message is returned or not. -/
def NeverReadsBeyondFrame (z : Gzip) (bs : List Byte) : Prop :=
  ∀ header afterHeader,
    exec FixHeader.decode (⟨bs, []⟩ : ByteStream) = (.ok header, afterHeader) →
      (exec (decodeMessage z) (⟨bs, []⟩ : ByteStream)).2.requested ≤
        afterHeader.requested + header.remainLen.toNat

/-- In a frame of a well-formed length no length prefix is cut. -/
def PrefixesInsideFrame (z : Gzip) (bs : List Byte) : Prop :=
  ∀ b p n rest, bs = b :: (p ++ rest) → IsHeaderByte b →
    Varint p n → p.length ≤ 4 →
      Fields.PrefixesInside z (bodyFields (typeOf b)) n rest

private theorem requested_le_frame_iff {z : Gzip} {b : Byte}
    (hb : IsHeaderByte b) {p : List Byte} {remainLen : UInt32}
    (hp : HeaderLength p remainLen) (rest : List Byte) (log : List UInt64) :
    (exec (decodeMessage z) (⟨b :: (p ++ rest), log⟩ : ByteStream)).2.requested ≤
        ByteStream.requested
          ⟨rest, log ++ [1] ++ List.replicate p.length 1⟩ + remainLen.toNat ↔
      Fields.PrefixesInside z (bodyFields (typeOf b)) remainLen.toNat rest := by
  rw [exec_decodeMessage_header hb hp, exec_decodeByFields_state]
  exact Fields.requested_le_iff z _ _ rest _

private theorem prefixesInside_of_malformed (z : Gzip) (t : MessageType)
    (rest : List Byte) :
    Fields.PrefixesInside z (bodyFields t) (-1 : UInt32).toNat rest := by
  have hmax : (-1 : UInt32).toNat = 2 ^ 32 - 1 := rfl
  have hfields := Nat.mul_le_mul_right (2 ^ 28 + 4) (bodyFields_length t)
  exact Fields.prefixesInside_of_le z _ (by omega) rest

theorem neverReadsBeyondFrame_iff (z : Gzip) (bs : List Byte) :
    NeverReadsBeyondFrame z bs ↔ PrefixesInsideFrame z bs := by
  constructor
  · intro h b p n rest hbs hb hp hlen
    subst hbs
    have hnat : (UInt32.ofNat n).toNat = n := by
      have hn := hp.lt_of_length_le (k := 4) hlen
      exact UInt32.toNat_ofNat_of_lt' (by simp only [UInt32.size]; omega)
    have hread := h _ _ (exec_header_ok hb (.number hp hlen) rest [])
    rw [← hnat]
    exact (requested_le_frame_iff hb (.number hp hlen) rest []).mp hread
  · intro h header afterHeader hheader
    obtain ⟨b, p, remainLen, rest, rfl, hb, hp, rfl, rfl⟩ :=
      of_exec_header_ok hheader
    refine (requested_le_frame_iff hb hp rest []).mpr ?_
    cases hp with
    | @number n hp hlen =>
        have hn := hp.lt_of_length_le (k := 4) hlen
        rw [UInt32.toNat_ofNat_of_lt' (by simp only [UInt32.size]; omega)]
        exact h b p n rest rfl hb hp hlen
    | malformed hq hlen => exact prefixesInside_of_malformed z _ rest

/-- A response whose frame ends after the message id, then a `PingResp`: the
type byte of the second frame is read as the length of the payload. -/
theorem sendResp_reads_next_frame :
    ¬ NeverReadsBeyondFrame ⟨some, some⟩ [0x70, 2, 0, 1, 0x40, 0] := by
  intro h
  have hread := h { msgType := .kMsgSendResp, remainLen := 2 }
    ⟨[0, 1, 0x40, 0], [1, 1]⟩ (by decide +kernel)
  revert hread
  decide +kernel

end GoSocket.Packet
