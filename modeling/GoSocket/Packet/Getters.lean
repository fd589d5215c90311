import GoSocket.Foundation.Varint
import GoSocket.Packet.Encoding
import Mathlib.Tactic.IntervalCases
import Mathlib.Tactic.Linarith

/-!
# The getters on a byte stream

`decodeLength` returns the value of a base-128 number of at most four bytes,
fails at the end of the stream, and returns the pair of `-1` after four
continuation bytes.  The block getter then has six outcomes, one for each
relation between the number, the counter and the stream.
-/

namespace GoSocket.Packet

open GoSocket.Foundation

/-! ## Machine arithmetic of the length loop -/

private theorem and_7f_toNat (b : UInt8) :
    (b &&& 0x7f).toNat = b.toNat % 128 := by
  rw [UInt8.toNat_and]
  exact Nat.and_two_pow_sub_one_eq_mod b.toNat 7

private theorem and_80_eq_zero (b : UInt8) :
    b &&& 0x80 = 0 ↔ b.toNat < 128 := by
  have hall : ∀ n : Fin 256, n.val &&& 128 = 0 ↔ n.val < 128 := by
    decide +kernel
  rw [← UInt8.toNat_inj, UInt8.toNat_and]
  exact hall ⟨b.toNat, b.toNat_lt⟩

private theorem or_shiftLeft (b : UInt8) {v i : Nat} (hi : i < 4)
    (hv : v < 2 ^ (7 * i)) :
    Int32.ofNat v ||| ((b &&& 0x7f).toUInt32.toInt32 <<< Int32.ofNat (7 * i)) =
      Int32.ofNat (v + 2 ^ (7 * i) * (b.toNat % 128)) := by
  have hb : b.toNat % 128 < 128 := Nat.mod_lt _ (by omega)
  have hpow : 2 ^ (7 * i) ≤ 2 ^ 21 :=
    Nat.pow_le_pow_right (by omega) (by omega)
  have hmul : 2 ^ (7 * i) * (b.toNat % 128) ≤ 2 ^ 21 * 127 :=
    Nat.mul_le_mul hpow (by omega)
  have hshift : (Int32.ofNat (7 * i)).toBitVec.smod 32 =
      BitVec.ofNat 32 (7 * i) := by
    interval_cases i <;> rfl
  have hold : (Int32.ofNat v).toBitVec.toNat = v := by
    change v % 2 ^ 32 = v
    omega
  have hnew : (b &&& 0x7f).toUInt32.toInt32.toBitVec.toNat = b.toNat % 128 :=
    and_7f_toNat b
  have hcount : (BitVec.ofNat 32 (7 * i)).toNat = 7 * i := by
    rw [BitVec.toNat_ofNat]
    omega
  apply Int32.toBitVec_inj.mp
  apply BitVec.eq_of_toNat_eq
  rw [Int32.toBitVec_or, Int32.toBitVec_shiftLeft, hshift, BitVec.toNat_or,
    BitVec.shiftLeft_eq', BitVec.toNat_shiftLeft, hold, hnew, hcount,
    Nat.shiftLeft_eq, Nat.mul_comm (b.toNat % 128),
    Nat.mod_eq_of_lt (by omega), Nat.or_comm,
    ← Nat.two_pow_add_eq_or_of_lt hv]
  change _ = (v + 2 ^ (7 * i) * (b.toNat % 128)) % 2 ^ 32
  omega

/-! ## `decodeLength` -/

private theorem ofNat_succ (i : Nat) :
    Int32.ofNat i + 1 = Int32.ofNat (i + 1) := by
  rw [Int32.ofNat_add]
  rfl

private theorem exec_decodeLengthLoop_cons (left : Nat) (i v shift : Int32)
    (b : Byte) (rest : List Byte) (log : List UInt64) :
    exec (decodeLengthLoop (left + 1) i v shift)
        (⟨b :: rest, log⟩ : ByteStream) =
      let v := v ||| ((b &&& 0x7f).toUInt32.toInt32 <<< shift)
      if b.toNat < 128 then
        (.ok (v.toUInt32, i + 1), ⟨rest, log ++ [1]⟩)
      else
        exec (decodeLengthLoop left (i + 1) v (shift + 7))
          ⟨rest, log ++ [1]⟩ := by
  have hread : exec (readFull 1) (⟨b :: rest, log⟩ : ByteStream) =
      (.ok [b], ⟨rest, log ++ [1]⟩) :=
    exec_readFull_of_le [b] rfl
  rw [decodeLengthLoop, exec_bind_of_ok hread]
  simp only [List.headD_cons, and_80_eq_zero]
  split <;> rfl

private theorem exec_decodeLengthLoop_varint {p : List Byte} {n : Nat}
    (hp : Varint p n) (left i v : Nat) (rest : List Byte) (log : List UInt64)
    (hleft : i + left = 4) (hlen : p.length ≤ left) (hv : v < 2 ^ (7 * i)) :
    exec (decodeLengthLoop left (Int32.ofNat i) (Int32.ofNat v)
        (Int32.ofNat (7 * i))) (⟨p ++ rest, log⟩ : ByteStream) =
      (.ok (UInt32.ofNat (v + 2 ^ (7 * i) * n), Int32.ofNat (i + p.length)),
        ⟨rest, log ++ List.replicate p.length 1⟩) := by
  -- the invariant: after `i` rounds `v` holds the value of the `i` digits read
  induction hp generalizing left i v log with
  | last b hb =>
      obtain ⟨left, rfl⟩ : ∃ l, left = l + 1 := ⟨left - 1, by simp at hlen; omega⟩
      rw [List.singleton_append, exec_decodeLengthLoop_cons]
      simp only [hb, if_true, or_shiftLeft b (show i < 4 by omega) hv,
        Nat.mod_eq_of_lt hb, ofNat_succ, List.length_singleton]
      rfl
  | @more b bs n hb hrest ih =>
      obtain ⟨left, rfl⟩ : ∃ l, left = l + 1 := ⟨left - 1, by simp at hlen; omega⟩
      have hb' := b.toNat_lt
      have hdigit : b.toNat % 128 = b.toNat - 128 := by omega
      have hlt : v + 2 ^ (7 * i) * (b.toNat - 128) < 2 ^ (7 * (i + 1)) := by
        have : 2 ^ (7 * i) * (b.toNat - 128) ≤ 2 ^ (7 * i) * 127 :=
          Nat.mul_le_mul_left _ (by omega)
        rw [show 7 * (i + 1) = 7 * i + 7 by omega, Nat.pow_add]
        omega
      rw [List.cons_append, exec_decodeLengthLoop_cons]
      simp only [show ¬ b.toNat < 128 by omega, if_false,
        or_shiftLeft b (show i < 4 by omega) hv, hdigit]
      have hnext := ih left (i + 1) (v + 2 ^ (7 * i) * (b.toNat - 128))
        (log ++ [1]) (by omega) (by simp at hlen; omega) hlt
      have hshift : Int32.ofNat (7 * i) + 7 = Int32.ofNat (7 * (i + 1)) := by
        rw [Nat.mul_add, Int32.ofNat_add]
        rfl
      have hvalue : v + 2 ^ (7 * i) * (b.toNat - 128) + 2 ^ (7 * (i + 1)) * n =
          v + 2 ^ (7 * i) * (b.toNat - 128 + 128 * n) := by
        rw [show 7 * (i + 1) = 7 * i + 7 by omega, Nat.pow_add]
        ring
      have hcount : i + 1 + bs.length = i + (b :: bs).length := by
        simp only [List.length_cons]
        omega
      have hlog : log ++ [1] ++ List.replicate bs.length 1 =
          log ++ List.replicate (b :: bs).length 1 := by
        simp [List.replicate_succ]
      rw [ofNat_succ, hshift, hnext, hvalue, hcount, hlog]

theorem exec_decodeLength_varint {p : List Byte} {n : Nat} (hp : Varint p n)
    (hlen : p.length ≤ 4) (rest : List Byte) (log : List UInt64) :
    exec decodeLength (⟨p ++ rest, log⟩ : ByteStream) =
      (.ok (UInt32.ofNat n, Int32.ofNat p.length),
        ⟨rest, log ++ List.replicate p.length 1⟩) := by
  have h := exec_decodeLengthLoop_varint hp 4 0 0 rest log rfl hlen (by simp)
  simp only [Nat.mul_zero, Nat.pow_zero, Nat.one_mul, Nat.zero_add] at h
  exact h

private theorem exec_decodeLengthLoop_continue {q : List Byte}
    (hq : AllContinue q) (left : Nat) (i v shift : Int32) (rest : List Byte)
    (log : List UInt64) :
    ∃ i' v' shift',
      exec (decodeLengthLoop (q.length + left) i v shift)
          (⟨q ++ rest, log⟩ : ByteStream) =
        exec (decodeLengthLoop left i' v' shift')
          ⟨rest, log ++ List.replicate q.length 1⟩ := by
  induction q generalizing i v shift log with
  | nil => exact ⟨i, v, shift, by simp⟩
  | cons b q ih =>
      obtain ⟨hb, hq⟩ := AllContinue.cons_iff.mp hq
      obtain ⟨i', v', shift', h⟩ := ih hq (i + 1)
        (v ||| ((b &&& 0x7f).toUInt32.toInt32 <<< shift)) (shift + 7) (log ++ [1])
      refine ⟨i', v', shift', ?_⟩
      rw [List.length_cons, show q.length + 1 + left = q.length + left + 1 by omega,
        List.cons_append, exec_decodeLengthLoop_cons]
      simp only [show ¬ b.toNat < 128 by omega, if_false]
      rw [h]
      simp [List.replicate_succ]

theorem exec_decodeLength_malformed {q : List Byte} (hq : AllContinue q)
    (hlen : q.length = 4) (rest : List Byte) (log : List UInt64) :
    exec decodeLength (⟨q ++ rest, log⟩ : ByteStream) =
      (.ok ((-1 : Int32).toUInt32, -1),
        ⟨rest, log ++ List.replicate 4 1⟩) := by
  obtain ⟨i, v, shift, h⟩ :=
    exec_decodeLengthLoop_continue hq 0 0 0 0 rest log
  rw [hlen] at h
  exact h

theorem exec_decodeLength_short {q : List Byte} (hq : AllContinue q)
    (hlen : q.length < 4) (log : List UInt64) :
    exec decodeLength (⟨q, log⟩ : ByteStream) =
      (.error (.tcp { excType := .TcpExcSocketClose }),
        ⟨[], log ++ List.replicate (q.length + 1) 1⟩) := by
  obtain ⟨left, hleft⟩ : ∃ left, 4 = q.length + (left + 1) :=
    ⟨3 - q.length, by omega⟩
  obtain ⟨i, v, shift, h⟩ :=
    exec_decodeLengthLoop_continue hq (left + 1) 0 0 0 [] log
  rw [List.append_nil, ← hleft] at h
  have hread : exec (readFull 1)
      (⟨[], log ++ List.replicate q.length 1⟩ : ByteStream) =
      (.error (.tcp { excType := .TcpExcSocketClose }),
        ⟨[], (log ++ List.replicate q.length 1) ++ [1]⟩) :=
    exec_readFull_of_lt (by simp)
  rw [decodeLength, h, decodeLengthLoop, exec_bind_of_error hread,
    List.append_assoc, List.replicate_succ']

/-! ## `getUint8` and `getUint16` -/

theorem exec_getUint8_exceeds {c : UInt32} (hc : c.toNat < 1) (r : ByteStream) :
    exec (getUint8 c) r =
      (.error (.tcp { excType := .TcpExcDataExceedsPacket }), r) := by
  have hlt : c < 1 := UInt32.lt_iff_toNat_lt.mpr hc
  rw [getUint8]
  simp only [hlt, decide_true]
  exact exec_bind_of_error (exec_throwIf_true _ _)

theorem exec_getUint8_nil {c : UInt32} (hc : 1 ≤ c.toNat) (log : List UInt64) :
    exec (getUint8 c) (⟨[], log⟩ : ByteStream) =
      (.error (.tcp { excType := .TcpExcSocketClose }), ⟨[], log ++ [1]⟩) := by
  have hge : ¬ c < 1 := by
    rw [UInt32.lt_iff_toNat_lt]
    exact Nat.not_lt.mpr hc
  rw [getUint8]
  simp only [hge, decide_false, throwIf_false, pure_bind]
  exact exec_bind_of_error (exec_readFull_of_lt (by simp))

theorem exec_getUint8_cons {c : UInt32} (hc : 1 ≤ c.toNat) (b : Byte)
    (rest : List Byte) (log : List UInt64) :
    exec (getUint8 c) (⟨b :: rest, log⟩ : ByteStream) =
      (.ok (b, c - 1), ⟨rest, log ++ [1]⟩) := by
  have hge : ¬ c < 1 := by
    rw [UInt32.lt_iff_toNat_lt]
    exact Nat.not_lt.mpr hc
  have hread : exec (readFull 1) (⟨b :: rest, log⟩ : ByteStream) =
      (.ok [b], ⟨rest, log ++ [1]⟩) :=
    exec_readFull_of_le [b] rfl
  rw [getUint8]
  simp only [hge, decide_false, throwIf_false, pure_bind]
  rw [exec_bind_of_ok hread]
  rfl

theorem exec_getUint16_exceeds {c : UInt32} (hc : c.toNat < 2)
    (r : ByteStream) :
    exec (getUint16 c) r =
      (.error (.tcp { excType := .TcpExcDataExceedsPacket }), r) := by
  have hlt : c < 2 := UInt32.lt_iff_toNat_lt.mpr hc
  rw [getUint16]
  simp only [hlt, decide_true]
  exact exec_bind_of_error (exec_throwIf_true _ _)

theorem exec_getUint16_short {c : UInt32} (hc : 2 ≤ c.toNat) {bs : List Byte}
    (hbs : bs.length < 2) (log : List UInt64) :
    exec (getUint16 c) (⟨bs, log⟩ : ByteStream) =
      (.error (.tcp { excType := .TcpExcSocketClose }), ⟨[], log ++ [2]⟩) := by
  have hge : ¬ c < 2 := by
    rw [UInt32.lt_iff_toNat_lt]
    exact Nat.not_lt.mpr hc
  rw [getUint16]
  simp only [hge, decide_false, throwIf_false, pure_bind]
  exact exec_bind_of_error (exec_readFull_of_lt (by simpa using hbs))

theorem exec_getUint16_cons {c : UInt32} (hc : 2 ≤ c.toNat) (high low : Byte)
    (rest : List Byte) (log : List UInt64) :
    exec (getUint16 c) (⟨high :: low :: rest, log⟩ : ByteStream) =
      (.ok (high.toUInt16 <<< 8 ||| low.toUInt16, c - 2),
        ⟨rest, log ++ [2]⟩) := by
  have hge : ¬ c < 2 := by
    rw [UInt32.lt_iff_toNat_lt]
    exact Nat.not_lt.mpr hc
  have hread : exec (readFull 2) (⟨high :: low :: rest, log⟩ : ByteStream) =
      (.ok [high, low], ⟨rest, log ++ [2]⟩) :=
    exec_readFull_of_le [high, low] rfl
  rw [getUint16]
  simp only [hge, decide_false, throwIf_false, pure_bind]
  rw [exec_bind_of_ok hread]
  rfl

theorem uint16_toNat (high low : Byte) :
    (high.toUInt16 <<< 8 ||| low.toUInt16).toNat =
      256 * high.toNat + low.toNat := by
  have hhigh := high.toNat_lt
  have hshift : (high.toUInt16 <<< 8).toNat = 2 ^ 8 * high.toNat := by
    rw [UInt16.toNat_shiftLeft, UInt8.toNat_toUInt16, Nat.shiftLeft_eq,
      show (8 : UInt16).toNat % 16 = 8 from rfl, Nat.mod_eq_of_lt (by omega)]
    omega
  rw [UInt16.toNat_or, hshift, UInt8.toNat_toUInt16,
    ← Nat.two_pow_add_eq_or_of_lt low.toNat_lt]

theorem toNat_sub_ofNat {c : UInt32} {n : Nat} (h : n ≤ c.toNat) :
    (c - UInt32.ofNat n).toNat = c.toNat - n := by
  have hn : (UInt32.ofNat n).toNat = n :=
    UInt32.toNat_ofNat_of_lt' (c.toNat_lt.trans_le' h)
  rw [UInt32.toNat_sub_of_le _ _ (UInt32.le_iff_toNat_le.mpr (by omega)), hn]

/-! ## `getBlock` -/

private theorem toUInt32_toInt32 (x : UInt32) : x.toInt32.toUInt32 = x := rfl

private theorem size_of_lt {n : Nat} (h : n < 2 ^ 28) :
    ¬ (UInt32.ofNat n).toInt32 < 0 ∧
      (UInt32.ofNat n).toInt32.toInt64.toUInt64 = UInt64.ofNat n := by
  have hint : (UInt32.ofNat n).toInt32.toInt = n := by
    change (Int32.ofNat n).toInt = n
    exact Int32.toInt_ofNat_of_lt (by omega)
  constructor
  · rw [Int32.lt_iff_toInt_lt, hint]
    simp
  · have h64 : (UInt32.ofNat n).toInt32.toInt64 = Int64.ofNat n := by
      apply Int64.toInt_inj.mp
      rw [Int32.toInt_toInt64, hint, Int64.toInt_ofNat_of_lt (by omega)]
    rw [h64]
    rfl

/-- The ways `getBlock` runs on a byte stream.  A length is compared with the
counter after its own bytes were subtracted, modulo `2 ^ 32`. -/
inductive BlockRun (c : UInt32) (log : List UInt64) :
    List Byte → Except Fault (List Byte × UInt32) × ByteStream → Prop
  | done {p content : List Byte} (rest : List Byte)
      (hp : Varint p content.length) (hlen : p.length ≤ 4)
      (hfit : content.length ≤ (c - UInt32.ofNat p.length).toNat) :
      BlockRun c log (p ++ content ++ rest)
        (.ok (content, c - UInt32.ofNat (p ++ content).length),
          ⟨rest, log ++ List.replicate p.length 1 ++
            [UInt64.ofNat content.length]⟩)
  | exceeds {p : List Byte} {n : Nat} (rest : List Byte)
      (hp : Varint p n) (hlen : p.length ≤ 4)
      (hfit : (c - UInt32.ofNat p.length).toNat < n) :
      BlockRun c log (p ++ rest)
        (.error (.tcp { excType := .TcpExcDataExceedsPacket }),
          ⟨rest, log ++ List.replicate p.length 1⟩)
  | endOfContent {p : List Byte} {n : Nat} (rest : List Byte)
      (hp : Varint p n) (hlen : p.length ≤ 4)
      (hfit : n ≤ (c - UInt32.ofNat p.length).toNat) (hend : rest.length < n) :
      BlockRun c log (p ++ rest)
        (.error (.tcp { excType := .TcpExcSocketClose }),
          ⟨[], log ++ List.replicate p.length 1 ++ [UInt64.ofNat n]⟩)
  | malformed {q : List Byte} (rest : List Byte) (hq : AllContinue q)
      (hlen : q.length = 4) (hc : c.toNat ≠ 2 ^ 32 - 2) :
      BlockRun c log (q ++ rest)
        (.error (.tcp { excType := .TcpExcDataExceedsPacket }),
          ⟨rest, log ++ List.replicate q.length 1⟩)
  | negative {q : List Byte} (rest : List Byte) (hq : AllContinue q)
      (hlen : q.length = 4) (hc : c.toNat = 2 ^ 32 - 2) :
      BlockRun c log (q ++ rest)
        (.error (.negativeBuffer (-1)),
          ⟨rest, log ++ List.replicate q.length 1⟩)
  | endOfLength {q : List Byte} (hq : AllContinue q) (hlen : q.length < 4) :
      BlockRun c log q
        (.error (.tcp { excType := .TcpExcSocketClose }),
          ⟨[], log ++ List.replicate (q.length + 1) 1⟩)

private theorem getBlock_run_varint (c : UInt32) {p : List Byte} {n : Nat}
    (hp : Varint p n) (hlen : p.length ≤ 4) (s : List Byte)
    (log : List UInt64) :
    BlockRun c log (p ++ s) (exec (getBlock c) ⟨p ++ s, log⟩) := by
  have hn : n < 2 ^ 28 := hp.lt_of_length_le (k := 4) hlen
  obtain ⟨hnonneg, hsize⟩ := size_of_lt hn
  have hlenLen : (Int32.ofNat p.length).toUInt32 = UInt32.ofNat p.length := rfl
  have hnNat : (UInt32.ofNat n).toNat = n := UInt32.toNat_ofNat_of_lt' (by
    simp only [UInt32.size]
    omega)
  rw [getBlock, exec_bind_of_ok (exec_decodeLength_varint hp hlen s log)]
  simp only [hlenLen, toUInt32_toInt32]
  by_cases hfit : (c - UInt32.ofNat p.length).toNat < n
  · have hlt : c - UInt32.ofNat p.length < UInt32.ofNat n := by
      rw [UInt32.lt_iff_toNat_lt, hnNat]
      exact hfit
    simp only [hlt, decide_true]
    rw [exec_bind_of_error (exec_throwIf_true _ _)]
    exact .exceeds s hp hlen hfit
  · have hge : ¬ c - UInt32.ofNat p.length < UInt32.ofNat n := by
      rw [UInt32.lt_iff_toNat_lt, hnNat]
      exact hfit
    simp only [hge, decide_false, throwIf_false, pure_bind, readBuffer,
      hnonneg, if_false, hsize]
    have hn64 : (UInt64.ofNat n).toNat = n := UInt64.toNat_ofNat_of_lt' (by
      simp only [UInt64.size]
      omega)
    by_cases hend : s.length < n
    · rw [exec_bind_of_error (exec_readFull_of_lt (by rw [hn64]; exact hend))]
      exact .endOfContent s hp hlen (by omega) hend
    · obtain ⟨content, rest, rfl, rfl⟩ :
          ∃ content rest, s = content ++ rest ∧ content.length = n :=
        ⟨s.take n, s.drop n, (List.take_append_drop n s).symm, by simp; omega⟩
      rw [exec_bind_of_ok (exec_readFull_of_le _ hn64.symm), exec_pure]
      have hcounter : c - UInt32.ofNat p.length - UInt32.ofNat content.length =
          c - UInt32.ofNat (p ++ content).length := by
        rw [List.length_append, UInt32.ofNat_add]
        grind
      rw [hcounter, ← List.append_assoc]
      exact .done rest hp hlen (by omega)

theorem getBlock_run (c : UInt32) (bs : List Byte) (log : List UInt64) :
    BlockRun c log bs (exec (getBlock c) ⟨bs, log⟩) := by
  rcases varint_cases 4 bs with
    ⟨p, n, s, rfl, hp, hlen⟩ | ⟨q, s, rfl, hq, hlen⟩ | ⟨hq, hlen⟩
  · exact getBlock_run_varint c hp hlen s log
  · rw [getBlock, exec_bind_of_ok (exec_decodeLength_malformed hq hlen s log)]
    -- subtracting `lenLen = -1` adds one to the counter
    have hcounter : (c - (-1 : Int32).toUInt32).toNat = (c.toNat + 1) % 2 ^ 32 := by
      rw [UInt32.toNat_sub]
      have : ((-1 : Int32).toUInt32).toNat = 2 ^ 32 - 1 := rfl
      omega
    have hc := c.toNat_lt
    simp only [toUInt32_toInt32, UInt32.lt_iff_toNat_lt, hcounter,
      show ((-1 : Int32).toUInt32).toNat = 2 ^ 32 - 1 from rfl]
    by_cases hneg : c.toNat = 2 ^ 32 - 2
    · have hpass : ¬ (c.toNat + 1) % 2 ^ 32 < 2 ^ 32 - 1 := by omega
      simp only [hpass, decide_false, throwIf_false, pure_bind]
      rw [← hlen]
      exact .negative s hq hlen hneg
    · have hstop : (c.toNat + 1) % 2 ^ 32 < 2 ^ 32 - 1 := by omega
      simp only [hstop, decide_true]
      rw [exec_bind_of_error (exec_throwIf_true _ _), ← hlen]
      exact .malformed s hq hlen hneg
  · rw [getBlock, exec_bind_of_error (exec_decodeLength_short hq hlen log)]
    exact .endOfLength hq hlen

theorem BlockRun.eq_done {c : UInt32} {log : List UInt64}
    {p content rest : List Byte}
    {r : Except Fault (List Byte × UInt32) × ByteStream}
    (hp : Varint p content.length) (hlen : p.length ≤ 4)
    (hfit : content.length ≤ (c - UInt32.ofNat p.length).toNat)
    (h : BlockRun c log (p ++ content ++ rest) r) :
    r = (.ok (content, c - UInt32.ofNat (p ++ content).length),
      ⟨rest, log ++ List.replicate p.length 1 ++
        [UInt64.ofNat content.length]⟩) := by
  generalize hbs : p ++ content ++ rest = bs at h
  rw [List.append_assoc] at hbs
  cases h with
  | @done p' content' rest' hp' =>
      rw [List.append_assoc] at hbs
      obtain ⟨rfl, hn, hs⟩ := hp.unique hp' hbs
      obtain ⟨rfl, rfl⟩ := List.append_inj hs hn
      rfl
  | exceeds rest' hp' _ hfit' =>
      obtain ⟨rfl, rfl, -⟩ := hp.unique hp' hbs
      omega
  | endOfContent rest' hp' _ _ hend =>
      obtain ⟨rfl, rfl, rfl⟩ := hp.unique hp' hbs
      simp at hend
  | malformed rest' hq hlen' =>
      have := hp.not_allContinue hq hbs
      omega
  | negative rest' hq hlen' =>
      have := hp.not_allContinue hq hbs
      omega
  | endOfLength hq =>
      have := hp.not_allContinue hq (t := []) (by simpa using hbs)
      have hle := congrArg List.length hbs
      simp only [List.length_append] at hle
      omega

end GoSocket.Packet
