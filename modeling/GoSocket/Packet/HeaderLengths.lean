import GoSocket.Packet.Grammar

/-!
# Headers without a length

For four continuation bytes `decodeLength` returns the pair of `-1`.
`FixHeader::Decode` looks at the first number of the pair only, and keeps it as
a remaining length.
-/

namespace GoSocket.Packet

open GoSocket.Foundation

/-- A length without an end is an exception before the body is read, and no
header has a length that four bytes cannot hold. -/
structure StopsBadLength (bs : List Byte) : Prop where
  throws : ∀ b q body, bs = b :: (q ++ body) → AllContinue q → q.length = 4 →
    ∃ e rest, exec FixHeader.decode (⟨bs, []⟩ : ByteStream) = (.error (.tcp e), rest) ∧
      body <:+ rest.rest
  accepted : ∀ header rest,
    exec FixHeader.decode (⟨bs, []⟩ : ByteStream) = (.ok header, rest) →
      header.remainLen.toNat ≤ 2 ^ 28 - 1

/-- A header whose first byte is accepted and whose length does not end. -/
def BadLengthHeader (bs : List Byte) : Prop :=
  ∃ b q body, bs = b :: (q ++ body) ∧ IsHeaderByte b ∧ AllContinue q ∧ q.length = 4

theorem HeaderLength.le {p : List Byte} {remainLen : UInt32}
    (h : HeaderLength p remainLen) :
    remainLen.toNat ≤ 2 ^ 28 - 1 ∨ AllContinue p ∧ p.length = 4 := by
  cases h with
  | @number n hp hlen =>
      have hn : n < 2 ^ 28 := hp.lt_of_length_le (k := 4) hlen
      rw [UInt32.toNat_ofNat_of_lt' (by simp only [UInt32.size]; omega)]
      omega
  | malformed hq hlen => exact .inr ⟨hq, hlen⟩

theorem stopsBadLength_iff (bs : List Byte) :
    StopsBadLength bs ↔ ¬ BadLengthHeader bs := by
  constructor
  · rintro h ⟨b, q, body, rfl, hb, hq, hlen⟩
    obtain ⟨e, rest, hthrow, -⟩ := h.throws b q body rfl hq hlen
    rw [exec_header_ok hb (.malformed hq hlen)] at hthrow
    cases hthrow
  · intro hbad
    constructor
    case throws =>
      intro b q body hbs hq hlen
      have hb : ¬ IsHeaderByte b := fun hb => hbad ⟨b, q, body, hbs, hb, hq, hlen⟩
      obtain ⟨e, hthrow⟩ := exec_header_of_not_isHeaderByte hb (q ++ body) []
      subst hbs
      exact ⟨e, _, hthrow, List.suffix_append q body⟩
    case accepted =>
      intro header rest hok
      obtain ⟨b, p, remainLen, body, hbs, hb, hlength, rfl, -⟩ := of_exec_header_ok hok
      rcases hlength.le with hle | ⟨hq, hlen⟩
      · exact hle
      · exact absurd ⟨b, p, body, hbs, hb, hq, hlen⟩ hbad

/-- The header of a reply with such a length: it is accepted. -/
theorem stopsBadLength_fails : ¬ ∀ bs, StopsBadLength bs := by
  intro hall
  have h := hall [0x70, 0xff, 0xff, 0xff, 0xff]
  have hok : (exec FixHeader.decode
      (⟨[0x70, 0xff, 0xff, 0xff, 0xff], []⟩ : ByteStream)).1.isOk = true := by
    decide +kernel
  obtain ⟨e, rest, hthrow, -⟩ :=
    h.throws 0x70 [0xff, 0xff, 0xff, 0xff] [] rfl (by simp [AllContinue]) rfl
  rw [hthrow] at hok
  cases hok

end GoSocket.Packet
