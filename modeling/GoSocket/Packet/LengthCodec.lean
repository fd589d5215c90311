import GoSocket.Packet.Encoders

/-!
# Reading back a length

`encodeLength` writes the shortest form of any 32-bit number.  `decodeLength`
takes any form of at most four bytes, so it reads back what was written for the
numbers below `2 ^ 28`, and gives up behind the fourth byte of the others.
-/

namespace GoSocket.Packet

open GoSocket.Foundation

/-- What `decodeLength` makes of the bytes of a number, whatever follows them. -/
structure ReadsLength (n : UInt32) (p : List Byte) : Prop where
  short : n.toNat < 2 ^ 28 → ∀ suffix log,
    exec decodeLength (⟨p ++ suffix, log⟩ : ByteStream) =
      (.ok (n, Int32.ofNat p.length),
        ⟨suffix, log ++ List.replicate p.length 1⟩)
  long : 2 ^ 28 ≤ n.toNat → ∀ suffix log,
    exec decodeLength (⟨p ++ suffix, log⟩ : ByteStream) =
      (.ok ((-1 : Int32).toUInt32, -1),
        ⟨p.drop 4 ++ suffix, log ++ List.replicate 4 1⟩)

/-- A length that is read is the value of the bytes that were read. -/
def ReadsOnlyLengths (bs : List Byte) : Prop :=
  ∀ v count rest log, exec decodeLength (⟨bs, log⟩ : ByteStream) =
      (.ok (v, count), rest) → (v, count) ≠ ((-1 : Int32).toUInt32, -1) →
    v.toNat < 2 ^ 28 ∧ ∃ p suffix, bs = p ++ suffix ∧ Varint p v.toNat ∧
      count = Int32.ofNat p.length ∧
      rest = ⟨suffix, log ++ List.replicate p.length 1⟩

private theorem allContinue_take_four {p : List Byte} {n : Nat}
    (h : Varint p n) (hlen : p.length ≤ 5) (hn : 2 ^ 28 ≤ n) :
    AllContinue (p.take 4) ∧ (p.take 4).length = 4 := by
  have hlong : 4 < p.length := by
    by_contra hle
    have hlt : n < 2 ^ 28 := h.lt_of_length_le (k := 4) (by omega)
    omega
  have htake : p.take 4 = p.dropLast := by
    rw [List.dropLast_eq_take, show p.length - 1 = 4 by omega]
  rw [htake]
  refine ⟨h.allContinue_dropLast, ?_⟩
  rw [List.length_dropLast]
  omega

theorem readsLength_of_varint {n : UInt32} {p : List Byte} (h : Varint p n.toNat)
    (hfive : p.length ≤ 5) (hfour : n.toNat < 2 ^ 28 → p.length ≤ 4) :
    ReadsLength n p := by
  constructor
  case short =>
    intro hn suffix log
    rw [exec_decodeLength_varint h (hfour hn), UInt32.ofNat_toNat]
  case long =>
    intro hn suffix log
    obtain ⟨hcontinue, hlen⟩ := allContinue_take_four h hfive hn
    have hread := exec_decodeLength_malformed hcontinue hlen (p.drop 4 ++ suffix) log
    rwa [← List.append_assoc, List.take_append_drop] at hread

theorem readsOnlyLengths (bs : List Byte) : ReadsOnlyLengths bs := by
  intro v count rest log hread hcount
  rcases varint_cases 4 bs with ⟨p, n, s, rfl, hp, hlen⟩ | ⟨q, s, rfl, hq, hlen⟩ |
    ⟨hq, hlen⟩
  · have hn : n < 2 ^ 28 := hp.lt_of_length_le (k := 4) hlen
    have hnat : (UInt32.ofNat n).toNat = n :=
      UInt32.toNat_ofNat_of_lt' (by simp only [UInt32.size]; omega)
    rw [exec_decodeLength_varint hp hlen] at hread
    cases hread
    rw [hnat]
    exact ⟨hn, p, s, rfl, hp, rfl, rfl⟩
  · rw [exec_decodeLength_malformed hq hlen] at hread
    cases hread
    exact absurd rfl hcount
  · rw [exec_decodeLength_short hq hlen] at hread
    cases hread

/-- A length is written in its shortest form and read back if it is below
`2 ^ 28`; what is read as a length is one, in whatever form. -/
theorem lengths_read_back :
    (∀ (n : UInt32) (buf : List Byte), ∃ p, encodeLength n buf = buf ++ p ∧
      Varint.Shortest p n.toNat ∧ ReadsLength n p) ∧
    ∀ bs, ReadsOnlyLengths bs := by
  refine ⟨fun n buf => ?_, readsOnlyLengths⟩
  obtain ⟨p, hp, hvarint, hbound⟩ := encodeLength_digits n.toNat n.toNat_lt buf
  rw [UInt32.ofNat_toNat] at hp
  have hn := n.toNat_lt
  have hfive : p.length ≤ 5 := hbound 5 (by omega) (by omega)
  have hfour (h : n.toNat < 2 ^ 28) : p.length ≤ 4 := hbound 4 (by omega) h
  exact ⟨p, hp, .of_bound hvarint hbound, readsLength_of_varint hvarint hfive hfour⟩

end GoSocket.Packet
