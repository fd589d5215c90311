import GoSocket.Packet.TcpIO

/-!
# Field encodings

The setters append to a buffer; the getters read from a reader and count down
`packetRemaining`, the unsigned 32-bit number of bytes the frame still has.
The counter is passed by reference in the source and returned here.
-/

namespace GoSocket.Packet

open GoSocket.Foundation

/--
`__gzipCompress` and `__gzipUncompress` on the bytes handed to zlib: the
output vector, or `none` where the function returns false.
-/
structure Gzip where
  gzipCompress : List Byte → Option (List Byte)
  gzipUncompress : List Byte → Option (List Byte)

/-! ## Lengths -/

/-- The `for` loop of `decodeLength`: `left` iterations to go at index `i`. -/
def decodeLengthLoop {ρ : Type} [IReader ρ] :
    (left : Nat) → (i v shift : Int32) → Decode ρ (UInt32 × Int32)
  | 0, _, _, _ => pure ((-1 : Int32).toUInt32, -1)
  | left + 1, i, v, shift => do
      let buf ← readFull 1
      let b := buf.headD 0
      let v := v ||| ((b &&& 0x7f).toUInt32.toInt32 <<< shift)
      if b &&& 0x80 = 0 then pure (v.toUInt32, i + 1)
      else decodeLengthLoop left (i + 1) v (shift + 7)

def decodeLength {ρ : Type} [IReader ρ] : Decode ρ (UInt32 × Int32) :=
  decodeLengthLoop 4 0 0 0

def encodeLengthLoop (length : UInt32) (buf : List Byte) : List Byte :=
  if _h : 0 < length then
    let digit := (length &&& 0x7f).toUInt8
    let digit := if length >>> 7 > 0 then digit ||| 0x80 else digit
    encodeLengthLoop (length >>> 7) (buf ++ [digit])
  else buf
termination_by length.toNat
decreasing_by
  have hpos : 0 < length.toNat := by simpa [UInt32.lt_iff_toNat_lt] using _h
  simp only [UInt32.toNat_shiftRight, UInt32.reduceToNat, Nat.reduceMod,
    Nat.shiftRight_eq_div_pow]
  exact Nat.div_lt_self hpos (by decide)

def encodeLength (length : UInt32) (buf : List Byte) : List Byte :=
  let buf := if length = 0 then buf ++ [0] else buf
  encodeLengthLoop length buf

/-! ## Integers -/

def getUint8 {ρ : Type} [IReader ρ] (packetRemaining : UInt32) :
    Decode ρ (Byte × UInt32) := do
  throwIf (packetRemaining < 1) .TcpExcDataExceedsPacket
  let buf ← readFull 1
  return (buf.headD 0, packetRemaining - 1)

def setUint8 (val : UInt8) (buf : List Byte) : List Byte := buf ++ [val]

def getUint16 {ρ : Type} [IReader ρ] (packetRemaining : UInt32) :
    Decode ρ (UInt16 × UInt32) := do
  throwIf (packetRemaining < 2) .TcpExcDataExceedsPacket
  let buf ← readFull 2
  let high := (buf.getD 0 0).toUInt16 <<< 8
  let low := (buf.getD 1 0).toUInt16
  return (high ||| low, packetRemaining - 2)

def setUint16 (val : UInt16) (buf : List Byte) : List Byte :=
  buf ++ [((val &&& 0xff00) >>> 8).toUInt8, (val &&& 0x00ff).toUInt8]

/-! ## Length-prefixed fields -/

/--
What `getString`, `getGzipString`, `getData` and `getGzipData` start with: a
length, the check against the counter, and that many bytes.  The check
compares the counter with the length converted to unsigned.
-/
def getBlock {ρ : Type} [IReader ρ] (packetRemaining : UInt32) :
    Decode ρ (List Byte × UInt32) := do
  let (len, lenLen) ← decodeLength
  let len : Int32 := len.toInt32
  let packetRemaining := packetRemaining - lenLen.toUInt32
  throwIf (packetRemaining < len.toUInt32) .TcpExcDataExceedsPacket
  let buf ← readBuffer len
  return (buf, packetRemaining - len.toUInt32)

/-- What `getGzipString` and `getGzipData` do with the bytes they read. -/
def uncompress {ρ : Type} (z : Gzip) (buf : List Byte) : Decode ρ (List Byte) :=
  if 0 < buf.length then
    match z.gzipUncompress buf with
    | some output => pure output
    | none => throwTcp .TcpExcUngzipError
  else pure []

def getString {ρ : Type} [IReader ρ] (packetRemaining : UInt32) :
    Decode ρ (List Byte × UInt32) :=
  getBlock packetRemaining

def getData {ρ : Type} [IReader ρ] (packetRemaining : UInt32) :
    Decode ρ (List Byte × UInt32) :=
  getBlock packetRemaining

def getGzipString {ρ : Type} [IReader ρ] (z : Gzip) (packetRemaining : UInt32) :
    Decode ρ (List Byte × UInt32) := do
  let (buf, packetRemaining) ← getBlock packetRemaining
  let result ← uncompress z buf
  return (result, packetRemaining)

def getGzipData {ρ : Type} [IReader ρ] (z : Gzip) (packetRemaining : UInt32) :
    Decode ρ (List Byte × UInt32) := do
  let (buf, packetRemaining) ← getBlock packetRemaining
  let output ← uncompress z buf
  return (output, packetRemaining)

/-- `int32_t(val.length())`, and `(int)val.size()`. -/
def int32Size (val : List Byte) : Int32 := Int32.ofNat val.length

/-- The length as `encodeLength` gets it, then the bytes. -/
def setBlock (length : UInt32) (val buf : List Byte) : List Byte :=
  encodeLength length buf ++ val

def setString (val buf : List Byte) : List Byte :=
  setBlock (int32Size val).toUInt32 val buf

def setData (data buf : List Byte) : List Byte :=
  setBlock (int32Size data).toUInt32 data buf

/-- The compressed block; zlib sees `avail_in` bytes, the size cut to 32 bits. -/
def setGzip (z : Gzip) (val buf : List Byte) :
    Except TcpException (List Byte) :=
  match z.gzipCompress (val.take (int32Size val).toUInt32.toNat) with
  | none => throw { excType := .TcpExcGzipError }
  | some output => pure (setBlock (UInt32.ofNat output.length) output buf)

def setGzipString (z : Gzip) (val buf : List Byte) :
    Except TcpException (List Byte) :=
  setGzip z val buf

def setGzipData (z : Gzip) (data buf : List Byte) :
    Except TcpException (List Byte) :=
  if data.length = 0 then pure buf else setGzip z data buf

end GoSocket.Packet
