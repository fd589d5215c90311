import GoSocket.Foundation.Loops
import GoSocket.Packet.RoundTrip

/-!
# The loops around zlib

`__gzipCompress` and `__gzipUncompress` call zlib with a buffer until it has
nothing left, and collect what it has put there.  zlib is a parameter; the bytes
that a stream has still to emit say what its calls do.
-/

namespace GoSocket.Packet

open GoSocket.Foundation

def Z_OK : Int32 := 0
def Z_STREAM_END : Int32 := 1

/-- Of a `z_stream`: the state, with the input at `next_in`, and what the loops read
and set. -/
structure ZStream (σ : Type) where
  state : σ
  totalOut : UInt64 := 0
  availOut : UInt32 := 0

/-- What a call returns, and what it has written at `next_out`. -/
structure ZResult (σ : Type) where
  status : Int32
  written : List Byte
  stream : ZStream σ

/-- The calls, as the loops make them: with `Z_FINISH` and with `Z_SYNC_FLUSH`. -/
structure Zlib (σ : Type) where
  deflateInit2 : List Byte → Int32 × σ
  deflate : ZStream σ → ZResult σ
  inflateInit2 : List Byte → Int32 × σ
  inflate : ZStream σ → ZResult σ
  inflateEnd : ZStream σ → Int32

def ChunkSize : UInt32 := 16384

/-- The variables of both loops. -/
structure ZLoop (σ : Type) where
  stream : ZStream σ
  status : Int32 := Z_OK
  outBuff : List Byte
  output : List Byte := []

namespace ZLoop

variable {σ : Type}

def fill (self : ZLoop σ) (written : List Byte) : ZLoop σ :=
  { self with outBuff := written ++ self.outBuff.drop written.length }

/-- `insert` of so many bytes of the buffer, and the `memset`.  To read behind the
buffer is undefined. -/
def insert (self : ZLoop σ) (count : UInt64) : Option (ZLoop σ) :=
  if count.toNat ≤ self.outBuff.length then
    some { self with
      output := self.output ++ self.outBuff.take count.toNat
      outBuff := List.replicate self.outBuff.length 0 }
  else none

end ZLoop

variable {σ : Type}

def newBuffer (stack : Nat → Byte) (size : Nat) : List Byte :=
  (List.range size).map stack

/-- The body of the loop of `__gzipCompress`. -/
def compressBody (z : Zlib σ) (self : ZLoop σ) : Option (ZLoop σ) :=
  let result := z.deflate { self.stream with availOut := ChunkSize }
  let count := result.stream.totalOut - UInt64.ofNat self.output.length
  ({ self with stream := result.stream }.fill result.written).insert count

/-- Whether `__gzipCompress` returns true, and the output. -/
def gzipCompress (z : Zlib σ) (fuel : Nat) (stack : Nat → Byte) (src : List Byte) :
    Option (Bool × List Byte) :=
  let (status, state) := z.deflateInit2 src
  if status = Z_OK then
    let start : ZLoop σ :=
      { stream := { state }, outBuff := newBuffer stack ChunkSize.toNat }
    (whileLoop (·.stream.availOut = 0) (compressBody z) fuel start).map fun self =>
      (true, self.output)
  else some (false, [])

/-- The body of the loop of `__gzipUncompress`. -/
def uncompressBody (z : Zlib σ) (self : ZLoop σ) : Option (ZLoop σ) :=
  let size := self.outBuff.length
  let result := z.inflate { self.stream with availOut := UInt32.ofNat size }
  let count := UInt64.ofNat size - result.stream.availOut.toUInt64
  ({ self with stream := result.stream, status := result.status }.fill
    result.written).insert count

/-- Whether `__gzipUncompress` returns true, and the output. -/
def gzipUncompress (z : Zlib σ) (fuel : Nat) (stack : Nat → Byte)
    (src : List Byte) : Option (Bool × List Byte) :=
  let (status, state) := z.inflateInit2 src
  if status = Z_OK then
    let size := (int32Size src * 2).toNatClampNeg
    let start : ZLoop σ := { stream := { state }, outBuff := newBuffer stack size }
    (whileLoop (·.status = Z_OK) (uncompressBody z) fuel start).map fun self =>
      (z.inflateEnd self.stream = Z_OK ∧ self.status = Z_STREAM_END, self.output)
  else some (false, [])

/-! ## What is assumed of zlib -/

/-- A call on a stream that has `bytes` to emit: it emits what fits of them. -/
structure Emits (Left : σ → List Byte → Prop) (stream : ZStream σ)
    (bytes : List Byte) (result : ZResult σ) : Prop where
  written : result.written = bytes.take stream.availOut.toNat
  left : Left result.stream.state (bytes.drop stream.availOut.toNat)
  totalOut : result.stream.totalOut =
    stream.totalOut + UInt64.ofNat result.written.length
  availOut : result.stream.availOut =
    stream.availOut - UInt32.ofNat result.written.length
  streamEnd : result.status = Z_STREAM_END ↔ bytes.drop stream.availOut.toNat = []
  progress : bytes.drop stream.availOut.toNat ≠ [] → result.written ≠ [] →
    result.status = Z_OK

/-- `deflated src` is the gzip stream that `deflate` makes of `src`; the relations
say what a stream has to emit. -/
structure Zlib.Documented (z : Zlib σ) (deflated : List Byte → List Byte)
    (Deflating Inflating : σ → List Byte → Prop) : Prop where
  deflateInit2 : ∀ src, src.length < 2 ^ 30 → (z.deflateInit2 src).1 = Z_OK ∧
    Deflating (z.deflateInit2 src).2 (deflated src)
  deflate : ∀ stream bytes, Deflating stream.state bytes → 0 < stream.availOut.toNat →
    Emits Deflating stream bytes (z.deflate stream)
  -- the header of the gzip format
  header : ∀ src, deflated src ≠ []
  inflateInit2 : ∀ src, src.length < 2 ^ 30 →
    (z.inflateInit2 (deflated src)).1 = Z_OK ∧
      Inflating (z.inflateInit2 (deflated src)).2 src
  inflate : ∀ stream bytes, Inflating stream.state bytes → 0 < stream.availOut.toNat →
    Emits Inflating stream bytes (z.inflate stream)
  inflateEnd : ∀ stream bytes, Inflating stream.state bytes →
    z.inflateEnd stream = Z_OK

/-! ## One pass -/

theorem newBuffer_length (stack : Nat → Byte) (size : Nat) :
    (newBuffer stack size).length = size := by
  simp [newBuffer]

theorem ZLoop.insert_fill {self : ZLoop σ} {written : List Byte} {count : UInt64}
    (hcount : count.toNat = written.length)
    (hfits : written.length ≤ self.outBuff.length) :
    (self.fill written).insert count = some { self with
      output := self.output ++ written
      outBuff := List.replicate self.outBuff.length 0 } := by
  have hlength : (self.fill written).outBuff.length = self.outBuff.length := by
    simp [fill, hfits]
  have htake : (self.fill written).outBuff.take count.toNat = written := by
    rw [fill, hcount, List.take_left]
  unfold insert
  rw [if_pos (by omega), htake, hlength]
  rfl

/-- What is left in front of a pass of the loop of `__gzipCompress`. -/
structure Compressing (Deflating : σ → List Byte → Prop) (s : ZLoop σ)
    (bytes : List Byte) : Prop where
  left : Deflating s.stream.state bytes
  totalOut : s.stream.totalOut = UInt64.ofNat s.output.length
  outBuff : s.outBuff.length = ChunkSize.toNat
  short : s.output.length + bytes.length < 2 ^ 30

/-- What is left in front of a pass of the loop of `__gzipUncompress`. -/
structure Uncompressing (Inflating : σ → List Byte → Prop) (size : Nat)
    (s : ZLoop σ) (bytes : List Byte) : Prop where
  left : Inflating s.stream.state bytes
  outBuff : s.outBuff.length = size

variable {z : Zlib σ} {deflated : List Byte → List Byte}
variable {Deflating Inflating : σ → List Byte → Prop}
variable {s : ZLoop σ} {bytes : List Byte}

theorem compressBody_eq (hz : z.Documented deflated Deflating Inflating)
    (h : Compressing Deflating s bytes) :
    ∃ t, compressBody z s = some t ∧ Compressing Deflating t (bytes.drop 16384) ∧
      t.output = s.output ++ bytes.take 16384 ∧
      (t.stream.availOut = 0 ↔ 16384 ≤ bytes.length) := by
  have hemits := hz.deflate { s.stream with availOut := ChunkSize } bytes h.left
    (show 0 < ChunkSize.toNat by decide)
  have hsize : ChunkSize.toNat = 16384 := rfl
  have hshort := h.short
  have hwritten := hemits.written
  have hleft := hemits.left
  have htotal := hemits.totalOut
  have havail := hemits.availOut
  dsimp only at hwritten hleft htotal havail
  rw [hsize] at hwritten hleft
  rw [hwritten] at htotal havail
  have hlength : (bytes.take 16384).length = min 16384 bytes.length :=
    List.length_take
  have hcount : ((z.deflate { s.stream with availOut := ChunkSize }).stream.totalOut -
      UInt64.ofNat s.output.length).toNat = (bytes.take 16384).length := by
    rw [htotal, h.totalOut, UInt64.toNat_sub, UInt64.toNat_add]
    simp only [UInt64.toNat_ofNat']
    omega
  have hbody : compressBody z s = some { s with
      stream := (z.deflate { s.stream with availOut := ChunkSize }).stream
      output := s.output ++ bytes.take 16384
      outBuff := List.replicate s.outBuff.length 0 } := by
    unfold compressBody
    dsimp only
    rw [hwritten]
    exact ZLoop.insert_fill hcount (by dsimp only; rw [h.outBuff]; omega)
  refine ⟨_, hbody, ⟨hleft, ?_, ?_, ?_⟩, rfl, ?_⟩
  · dsimp only
    rw [htotal, h.totalOut, List.length_append, UInt64.ofNat_add]
  · exact List.length_replicate.trans h.outBuff
  · simp only [List.length_append, List.length_drop]
    omega
  · dsimp only
    rw [havail, ← UInt32.toNat_inj, UInt32.toNat_sub, hsize]
    simp only [UInt32.toNat_ofNat']
    simp
    omega

theorem uncompressBody_eq {size : Nat} (hz : z.Documented deflated Deflating Inflating)
    (hpos : 0 < size) (hsize : size < 2 ^ 31)
    (h : Uncompressing Inflating size s bytes) :
    ∃ t, uncompressBody z s = some t ∧
      Uncompressing Inflating size t (bytes.drop size) ∧
      t.output = s.output ++ bytes.take size ∧
      (t.status = Z_STREAM_END ↔ bytes.length ≤ size) ∧
      (size < bytes.length → t.status = Z_OK) := by
  have hcast : (UInt32.ofNat size).toNat = size := by
    rw [UInt32.toNat_ofNat']
    omega
  have hemits := hz.inflate { s.stream with availOut := UInt32.ofNat size } bytes h.left
    (by rw [hcast]; exact hpos)
  have hwritten := hemits.written
  have hleft := hemits.left
  have havail := hemits.availOut
  have hend := hemits.streamEnd
  have hprogress := hemits.progress
  dsimp only at hwritten hleft havail hend hprogress
  rw [hcast] at hwritten hleft hend hprogress
  rw [hwritten] at havail hprogress
  have hlength : (bytes.take size).length = min size bytes.length := List.length_take
  have hcount : (UInt64.ofNat size - (z.inflate { s.stream with
      availOut := UInt32.ofNat size }).stream.availOut.toUInt64).toNat =
        (bytes.take size).length := by
    rw [havail, UInt64.toNat_sub, UInt32.toNat_toUInt64, UInt32.toNat_sub, hcast,
      UInt64.toNat_ofNat', UInt32.toNat_ofNat']
    omega
  have hbody : uncompressBody z s = some { s with
      stream := (z.inflate { s.stream with availOut := UInt32.ofNat size }).stream
      status := (z.inflate { s.stream with availOut := UInt32.ofNat size }).status
      output := s.output ++ bytes.take size
      outBuff := List.replicate size 0 } := by
    unfold uncompressBody
    dsimp only
    rw [h.outBuff, hwritten,
      ZLoop.insert_fill hcount (by dsimp only; rw [h.outBuff]; omega), h.outBuff]
  refine ⟨_, hbody, ⟨hleft, List.length_replicate⟩, rfl, ?_, ?_⟩
  · rw [← List.drop_eq_nil_iff]
    exact hend
  · intro hlt
    have hmore : bytes.drop size ≠ [] := by
      rw [ne_eq, List.drop_eq_nil_iff]
      omega
    refine hprogress hmore ?_
    rw [ne_eq, List.take_eq_nil_iff]
    rintro (hzero | rfl)
    · exact absurd hzero (Nat.ne_of_gt hpos)
    · exact absurd hlt (Nat.not_lt_zero size)

/-! ## The loops -/

theorem compress_endsIn (hz : z.Documented deflated Deflating Inflating)
    (h : Compressing Deflating s bytes) (havail : s.stream.availOut = 0) :
    ∃ t, EndsIn (·.stream.availOut = 0) (compressBody z) (bytes.length / 16384 + 1) s t ∧
      t.output = s.output ++ bytes := by
  induction bytes using drop_induction 16384 (by decide) generalizing s with
  | pass bytes ih =>
      obtain ⟨t, hbody, hnext, houtput, hfull⟩ := compressBody_eq hz h
      by_cases hlong : 16384 ≤ bytes.length
      · have hne : bytes ≠ [] := by
          rintro rfl
          exact absurd hlong (by decide)
        obtain ⟨u, hends, hout⟩ := ih hne hnext (hfull.mpr hlong)
        rw [length_drop_div (by decide) hlong] at hends
        refine ⟨u, .next (by simp [havail]) hbody hends, ?_⟩
        rw [hout, houtput, List.append_assoc, List.take_append_drop]
      · refine ⟨t, .next (by simp [havail]) hbody (.done _ ?_), ?_⟩
        · exact decide_eq_false fun hzero => hlong (hfull.mp hzero)
        · rw [houtput, List.take_of_length_le (by omega)]

theorem uncompress_endsIn {size : Nat} (hz : z.Documented deflated Deflating Inflating)
    (hpos : 0 < size) (hsize : size < 2 ^ 31) (h : Uncompressing Inflating size s bytes)
    (hstatus : s.status = Z_OK) :
    ∃ t, EndsIn (·.status = Z_OK) (uncompressBody z) (bytes.length / size + 1) s t ∧
      t.output = s.output ++ bytes ∧ t.status = Z_STREAM_END ∧
        Uncompressing Inflating size t [] := by
  induction bytes using drop_induction size hpos generalizing s with
  | pass bytes ih =>
      obtain ⟨t, hbody, hnext, houtput, hend, hmore⟩ :=
        uncompressBody_eq hz hpos hsize h
      by_cases hlong : size < bytes.length
      · have hne : bytes ≠ [] := by
          rintro rfl
          exact absurd hlong (Nat.not_lt_zero size)
        obtain ⟨u, hends, hout, hlast⟩ := ih hne hnext (hmore hlong)
        rw [length_drop_div hpos (Nat.le_of_lt hlong)] at hends
        refine ⟨u, .next (by simp [hstatus]) hbody hends, ?_, hlast⟩
        rw [hout, houtput, List.append_assoc, List.take_append_drop]
      · have hstop := hend.mpr (Nat.le_of_not_lt hlong)
        rw [List.drop_of_length_le (by omega)] at hnext
        refine ⟨t, .next (by simp [hstatus]) hbody (.done _ ?_), ?_, hstop, hnext⟩
        · rw [hstop]
          rfl
        · rw [houtput, List.take_of_length_le (by omega)]

theorem toNatClampNeg_twice {src : List Byte} (h : src.length < 2 ^ 30) :
    (int32Size src * 2).toNatClampNeg = 2 * src.length := by
  have htwice : (2 : Int32).toInt = 2 := rfl
  unfold int32Size Int32.toNatClampNeg
  rw [Int32.toInt_mul, Int32.toInt_ofNat_of_lt (by omega), htwice,
    Int.bmod_eq_of_le (by omega) (by omega)]
  omega

theorem gzipCompress_eq (hz : z.Documented deflated Deflating Inflating)
    (stack : Nat → Byte) {src : List Byte} (hsrc : src.length < 2 ^ 30)
    (hdeflated : (deflated src).length < 2 ^ 30) {fuel : Nat}
    (hfuel : (deflated src).length / 16384 + 2 ≤ fuel) :
    gzipCompress z fuel stack src = some (true, deflated src) := by
  obtain ⟨hok, hleft⟩ := hz.deflateInit2 src hsrc
  have hstart : Compressing Deflating
      ({ stream := { state := (z.deflateInit2 src).2 }
         outBuff := newBuffer stack ChunkSize.toNat } : ZLoop σ) (deflated src) := by
    constructor
    case left => exact hleft
    case totalOut => rfl
    case outBuff =>
      dsimp only
      rw [newBuffer_length]
    case short => simpa using hdeflated
  obtain ⟨t, hends, houtput⟩ := compress_endsIn hz hstart rfl
  unfold gzipCompress
  dsimp only
  rw [if_pos hok, hends fuel (by omega)]
  simp [houtput]

theorem gzipUncompress_eq (hz : z.Documented deflated Deflating Inflating)
    (stack : Nat → Byte) {src : List Byte} (hsrc : src.length < 2 ^ 30)
    (hdeflated : (deflated src).length < 2 ^ 30) {fuel : Nat}
    (hfuel : src.length / (2 * (deflated src).length) + 2 ≤ fuel) :
    gzipUncompress z fuel stack (deflated src) = some (true, src) := by
  obtain ⟨hok, hleft⟩ := hz.inflateInit2 src hsrc
  have hpos := List.length_pos_iff.mpr (hz.header src)
  have hstart : Uncompressing Inflating (2 * (deflated src).length)
      ({ stream := { state := (z.inflateInit2 (deflated src)).2 }
         outBuff := newBuffer stack (2 * (deflated src).length) } : ZLoop σ) src :=
    ⟨hleft, newBuffer_length stack _⟩
  obtain ⟨t, hends, houtput, hstatus, hlast⟩ :=
    uncompress_endsIn hz (by omega) (by omega) hstart rfl
  unfold gzipUncompress
  dsimp only
  rw [if_pos hok, toNatClampNeg_twice hdeflated, hends fuel (by omega)]
  simp [houtput, hstatus, hz.inflateEnd t.stream [] hlast.left]

/-- The loops end, and give back what they were given. -/
theorem gzip_lossless (hz : z.Documented deflated Deflating Inflating)
    (stack stack' : Nat → Byte) {src : List Byte} (hsrc : src.length < 2 ^ 30)
    (hdeflated : (deflated src).length < 2 ^ 30) :
    (∀ fuel, (deflated src).length / 16384 + 2 ≤ fuel →
        gzipCompress z fuel stack src = some (true, deflated src)) ∧
      ∀ fuel, src.length / (2 * (deflated src).length) + 2 ≤ fuel →
        gzipUncompress z fuel stack' (deflated src) = some (true, src) :=
  ⟨fun _ hfuel => gzipCompress_eq hz stack hsrc hdeflated hfuel,
    fun _ hfuel => gzipUncompress_eq hz stack' hsrc hdeflated hfuel⟩

/-- zlib on the strings of `sampleGzip`; a stream is what it has to emit. -/
def sampleZlib : Zlib (List Byte) :=
  let emit (stream : ZStream (List Byte)) : ZResult (List Byte) :=
    let written := stream.state.take stream.availOut.toNat
    let left := stream.state.drop stream.availOut.toNat
    { status := if left = [] then Z_STREAM_END else Z_OK
      written
      stream :=
        { state := left
          totalOut := stream.totalOut + UInt64.ofNat written.length
          availOut := stream.availOut - UInt32.ofNat written.length } }
  { deflateInit2 := fun src => (Z_OK, (sampleGzip.gzipCompress src).getD [])
    deflate := emit
    inflateInit2 := fun src => (Z_OK, (sampleGzip.gzipUncompress src).getD [])
    inflate := emit
    inflateEnd := fun _ => Z_OK }

theorem sampleZlib_documented :
    sampleZlib.Documented (fun src => (sampleGzip.gzipCompress src).getD [])
      Eq Eq := by
  have hlossless (src : List Byte) (hsrc : src.length < 2 ^ 30) :
      (sampleGzip.gzipUncompress ((sampleGzip.gzipCompress src).getD [])).getD [] =
        src := by
    obtain ⟨output, hcompress, -, huncompress⟩ := sampleGzip_lossless src hsrc
    rw [hcompress, Option.getD_some, huncompress, Option.getD_some]
  have hemits (stream : ZStream (List Byte)) (bytes : List Byte)
      (hleft : stream.state = bytes) :
      Emits Eq stream bytes (sampleZlib.deflate stream) := by
    subst hleft
    constructor
    case written => rfl
    case left => rfl
    case totalOut => rfl
    case availOut => rfl
    case streamEnd =>
      show (if _ then Z_STREAM_END else Z_OK) = Z_STREAM_END ↔ _
      split
      · next hend => simp [hend]
      · next hmore => simp [hmore, Z_OK, Z_STREAM_END]
    case progress => exact fun hmore _ => if_neg hmore
  constructor
  case deflateInit2 => exact fun src _ => ⟨rfl, rfl⟩
  case deflate => exact fun stream bytes hleft _ => hemits stream bytes hleft
  case header =>
    intro src
    simp only [sampleGzip]
    split
    · decide
    · split
      · decide
      · simp
  case inflateInit2 => exact fun src hsrc => ⟨rfl, hlossless src hsrc⟩
  case inflate => exact fun stream bytes hleft _ => hemits stream bytes hleft
  case inflateEnd => exact fun _ _ _ => rfl

theorem gzip_lossless_hi :
    gzipCompress sampleZlib 2 (fun _ => 0) [104, 105] = some (true, hiGzip) ∧
      gzipUncompress sampleZlib 2 (fun _ => 0) hiGzip = some (true, [104, 105]) := by
  have hshort : ([104, 105] : List Byte).length < 2 ^ 30 := by decide
  obtain ⟨hcompress, huncompress⟩ :=
    gzip_lossless sampleZlib_documented (fun _ => 0) (fun _ => 0) hshort (by decide)
  exact ⟨hcompress 2 (by decide), huncompress 2 (by decide)⟩

/-- The `Gzip` of the encoders, as the loops make it of zlib. -/
def Zlib.gzip (z : Zlib σ) (stack : Nat → Byte) : Gzip where
  gzipCompress src :=
    match Packet.gzipCompress z (2 ^ 30) stack src with
    | some (true, output) => some output
    | _ => none
  gzipUncompress src :=
    match Packet.gzipUncompress z (2 ^ 30) stack src with
    | some (true, output) => some output
    | _ => none

theorem Zlib.gzip_undone (hz : z.Documented deflated Deflating Inflating)
    (stack : Nat → Byte) {src : List Byte} (hsrc : src.length < 2 ^ 30)
    (hdeflated : (deflated src).length < 2 ^ 30) :
    ∃ output, (z.gzip stack).gzipCompress src = some output ∧ output ≠ [] ∧
      (z.gzip stack).gzipUncompress output = some src := by
  have hpos := List.length_pos_iff.mpr (hz.header src)
  have hpasses : src.length / (2 * (deflated src).length) ≤ src.length / 2 :=
    Nat.div_le_div_left (by omega) (by omega)
  refine ⟨deflated src, ?_, hz.header src, ?_⟩
  · unfold Zlib.gzip
    dsimp only
    rw [gzipCompress_eq hz stack hsrc hdeflated (by omega)]
  · unfold Zlib.gzip
    dsimp only
    rw [gzipUncompress_eq hz stack hsrc hdeflated (by omega)]

example : ∃ output, (sampleZlib.gzip fun _ => 0).gzipCompress [104, 105] = some output ∧
    output ≠ [] ∧ (sampleZlib.gzip fun _ => 0).gzipUncompress output = some [104, 105] :=
  Zlib.gzip_undone sampleZlib_documented _ (by decide) (by decide)

end GoSocket.Packet
