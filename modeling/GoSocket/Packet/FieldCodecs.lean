import GoSocket.Packet.RoundTrip

/-!
# The getters undo the setters

The five pairs of a setter and a getter on one value.  `setGzipData` writes
nothing for an empty vector, where `getGzipData` expects a length like the other
getters; and a size is cut to 32 bits before zlib sees it.
-/

namespace GoSocket.Packet

open GoSocket.Foundation

/-- Compression succeeds with a non-empty result, and is undone. -/
def Gzip.Faithful (z : Gzip) : Prop :=
  ∀ val, ∃ output, z.gzipCompress val = some output ∧ output ≠ [] ∧
    z.gzipUncompress output = some val

inductive FieldCodec where
  | uint16
  | string
  | gzipString
  | data
  | gzipData
  deriving DecidableEq, Repr

namespace FieldCodec

def Val : FieldCodec → Type
  | uint16 => UInt16
  | string => List Byte
  | gzipString => List Byte
  | data => List Byte
  | gzipData => List Byte

def set (z : Gzip) :
    (codec : FieldCodec) → codec.Val → List Byte → Except TcpException (List Byte)
  | uint16, v, buf => pure (setUint16 v buf)
  | string, v, buf => pure (setString v buf)
  | gzipString, v, buf => setGzipString z v buf
  | data, v, buf => pure (setData v buf)
  | gzipData, v, buf => setGzipData z v buf

def get {ρ : Type} [IReader ρ] (z : Gzip) :
    (codec : FieldCodec) → UInt32 → Decode ρ (codec.Val × UInt32)
  | uint16, packetRemaining => getUint16 packetRemaining
  | string, packetRemaining => getString packetRemaining
  | gzipString, packetRemaining => getGzipString z packetRemaining
  | data, packetRemaining => getData packetRemaining
  | gzipData, packetRemaining => getGzipData z packetRemaining

def encodedLength (z : Gzip) : (codec : FieldCodec) → codec.Val → Nat
  | uint16, _ => 2
  | string, v => List.length v
  | gzipString, v => ((z.gzipCompress (zlibInput v)).getD []).length
  | data, v => List.length v
  | gzipData, v => ((z.gzipCompress (zlibInput v)).getD []).length

/-- The getter returns the value from what the setter wrote, leaves the suffix
and counts the bytes written. -/
def ReadsBack (z : Gzip) (codec : FieldCodec) (v : codec.Val)
    (written suffix : List Byte) (packetRemaining : UInt32) : Prop :=
  ∃ left requests,
    exec (codec.get z packetRemaining) (⟨written ++ suffix, []⟩ : ByteStream) =
      (.ok (v, left), ⟨suffix, requests⟩) ∧
    left.toNat + written.length = packetRemaining.toNat

def Keeps : (codec : FieldCodec) → codec.Val → Prop
  | uint16, _ => True
  | string, _ => True
  | gzipString, v => List.length v < 2 ^ 32
  | data, _ => True
  | gzipData, v => v ≠ ([] : List Byte) ∧ List.length v < 2 ^ 32

/-! ## What is read from what was written -/

private theorem toNat_sub_add {c : UInt32} {n : Nat} (h : n ≤ c.toNat) :
    (c - UInt32.ofNat n).toNat + n = c.toNat := by
  rw [toNat_sub_ofNat h]
  omega

variable {z : Gzip} {packetRemaining : UInt32} (suffix : List Byte)

theorem setUint16_readsBack (v : UInt16) (buf : List Byte) :
    ∃ written, setUint16 v buf = buf ++ written ∧
      ∀ suffix packetRemaining, written.length ≤ packetRemaining.toNat →
        uint16.ReadsBack z v written suffix packetRemaining := by
  refine ⟨_, rfl, ?_⟩
  intro suffix packetRemaining hfit
  have hread := Field.decode_of_match (uint16_match z v) (.inl hfit) suffix []
  exact ⟨_, _, hread, toNat_sub_add hfit⟩

theorem getBlock_written {block content : List Byte} (hblock : Field.IsBlock block content)
    (hfit : block.length ≤ packetRemaining.toNat) :
    ∃ left requests,
      exec (getBlock packetRemaining) (⟨block ++ suffix, []⟩ : ByteStream) =
        (.ok (content, left), ⟨suffix, requests⟩) ∧
      left.toNat + block.length = packetRemaining.toNat :=
  ⟨_, _, Field.getBlock_of_isBlock hblock (.inl hfit) suffix [], toNat_sub_add hfit⟩

theorem getGzip_written {val output block : List Byte}
    (hundone : z.gzipUncompress output = some val) (hne : output ≠ [])
    (hblock : Field.IsBlock block output)
    (hfit : block.length ≤ packetRemaining.toNat) :
    ∃ left requests,
      exec (getGzipString z packetRemaining) (⟨block ++ suffix, []⟩ : ByteStream) =
        (.ok (val, left), ⟨suffix, requests⟩) ∧
      left.toNat + block.length = packetRemaining.toNat := by
  have hmatch : Field.gzip.Match z block val := ⟨output, hblock, .inr ⟨hne, hundone⟩⟩
  exact ⟨_, _, Field.decode_of_match hmatch (.inl hfit) suffix [], toNat_sub_add hfit⟩

theorem getGzip_nil (v : List Byte) :
    ¬ gzipString.ReadsBack z v [] suffix packetRemaining := by
  rintro ⟨left, requests, hread, -⟩
  obtain ⟨first, rest, hbs, hmatch, -, -, hr⟩ :=
    Field.of_decode_eq_ok (z := z) (f := .gzip) hread
  obtain ⟨content, ⟨p, hp, -, rfl⟩, -⟩ := hmatch
  cases hr
  have hlen := congrArg List.length hbs
  have hpos := hp.length_pos
  simp only [List.nil_append, List.length_append] at hlen
  omega

theorem setGzip_readsBack (hz : z.Faithful) {v : List Byte}
    (hlen : ((z.gzipCompress (zlibInput v)).getD []).length < 2 ^ 28)
    (buf : List Byte) :
    ∃ written, setGzip z v buf = .ok (buf ++ written) ∧
      ∀ suffix packetRemaining, written.length ≤ packetRemaining.toNat →
        (gzipString.ReadsBack z v written suffix packetRemaining ↔
          v.length < 2 ^ 32) := by
  obtain ⟨output, hcompress, hne, hundone⟩ := hz (zlibInput v)
  rw [hcompress] at hlen
  change output.length < 2 ^ 28 at hlen
  obtain ⟨block, hset, hblock⟩ := setGzip_block hcompress (by omega) buf
  refine ⟨block, hset, ?_⟩
  intro suffix packetRemaining hfit
  obtain ⟨left, requests, hread, hleft⟩ :=
    getGzip_written suffix hundone hne (hblock.isBlock hlen) hfit
  rw [← zlibInput_eq_iff]
  constructor
  · rintro ⟨left', requests', hread', -⟩
    have hsame := hread.symm.trans hread'
    have hpair := Except.ok.inj (Prod.mk.inj hsame).1
    exact (Prod.mk.inj hpair).1
  · intro heq
    rw [heq] at hread
    exact ⟨left, requests, hread, hleft⟩

/-- Each pair keeps exactly these values: the empty vector is lost by
`setGzipData`, and the bytes from `2 ^ 32` on never reach zlib. -/
theorem readsBack_iff (hz : z.Faithful) (codec : FieldCodec) (v : codec.Val)
    (hlen : codec.encodedLength z v < 2 ^ 28) (buf : List Byte) :
    ∃ written, codec.set z v buf = .ok (buf ++ written) ∧
      ∀ suffix packetRemaining, written.length ≤ packetRemaining.toNat →
        (codec.ReadsBack z v written suffix packetRemaining ↔ codec.Keeps v) := by
  have hstring (v : List Byte) (hlen : v.length < 2 ^ 28) :
      ∃ written, setString v buf = buf ++ written ∧
        ∀ suffix packetRemaining, written.length ≤ packetRemaining.toNat →
          string.ReadsBack z v written suffix packetRemaining := by
    obtain ⟨block, hset, hblock⟩ := setString_written v buf (by omega)
    exact ⟨block, hset, fun suffix _ hfit =>
      getBlock_written suffix (hblock.isBlock hlen) hfit⟩
  cases codec with
  | uint16 =>
      obtain ⟨written, hset, hread⟩ := setUint16_readsBack v buf
      exact ⟨written, congrArg Except.ok hset,
        fun suffix _ hfit => iff_of_true (hread suffix _ hfit) trivial⟩
  | string =>
      obtain ⟨written, hset, hread⟩ := hstring v hlen
      exact ⟨written, congrArg Except.ok hset,
        fun suffix _ hfit => iff_of_true (hread suffix _ hfit) trivial⟩
  | gzipString => exact setGzip_readsBack hz hlen buf
  | data =>
      obtain ⟨written, hset, hread⟩ := hstring v hlen
      exact ⟨written, congrArg Except.ok hset,
        fun suffix _ hfit => iff_of_true (hread suffix _ hfit) trivial⟩
  | gzipData =>
      by_cases hnil : v = ([] : List Byte)
      · subst hnil
        refine ⟨[], by rw [List.append_nil]; rfl, ?_⟩
        intro suffix packetRemaining hfit
        exact iff_of_false (getGzip_nil suffix []) fun h => h.1 rfl
      · obtain ⟨written, hset, hread⟩ := setGzip_readsBack hz hlen buf
        have hpos : List.length v ≠ 0 := fun h => hnil (List.length_eq_zero_iff.mp h)
        refine ⟨written, ?_, fun suffix packetRemaining hfit => ?_⟩
        · exact (if_neg hpos).trans hset
        · exact (hread suffix packetRemaining hfit).trans
            ⟨fun h => ⟨hnil, h⟩, fun h => h.2⟩

end FieldCodec

theorem sampleGzip_faithful : sampleGzip.Faithful := sampleGzip_undone

theorem FieldCodec.readsBack_iff_hi :
    ∃ written, FieldCodec.gzipData.set sampleGzip [104, 105] [7] = .ok ([7] ++ written) ∧
      ∀ suffix packetRemaining, written.length ≤ packetRemaining.toNat →
        (FieldCodec.gzipData.ReadsBack sampleGzip [104, 105] written suffix
            packetRemaining ↔
          FieldCodec.gzipData.Keeps [104, 105]) :=
  readsBack_iff sampleGzip_faithful .gzipData [104, 105] (by decide) [7]

theorem FieldCodec.emptyData_lost :
    ¬ ∀ (z : Gzip) (codec : FieldCodec) (v : codec.Val) (buf : List Byte),
      z.Faithful → codec.encodedLength z v < 2 ^ 28 →
        ∃ written, codec.set z v buf = .ok (buf ++ written) ∧
          ∀ suffix packetRemaining, written.length ≤ packetRemaining.toNat →
            codec.ReadsBack z v written suffix packetRemaining := by
  intro hall
  obtain ⟨written, hset, hread⟩ :=
    hall sampleGzip .gzipData [] [] sampleGzip_faithful (by decide)
  cases hset
  obtain ⟨left, requests, hok, -⟩ := hread [] 0 (Nat.zero_le _)
  have hthrow : (exec (getGzipData sampleGzip 0) (⟨[], []⟩ : ByteStream)).1.isOk = false := by
    decide +kernel
  change exec (getGzipData sampleGzip 0) (⟨[], []⟩ : ByteStream) = _ at hok
  rw [hok] at hthrow
  cases hthrow

end GoSocket.Packet
