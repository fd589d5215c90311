import Mathlib.Algebra.GroupWithZero.Nat
import GoSocket.Foundation.Fallible

/-!
# Readers and the exceptions of the packet layer

`IReader` is the one operation the decoders use: fill a buffer of the given
size or throw.  A decoder is written against any reader.  `ByteStream` is the
reader over a finite sequence of bytes; it also keeps the sizes it was asked
for.
-/

namespace GoSocket.Packet

open GoSocket.Foundation

/-- `char` and `uint8_t`; the bytes of a `std::string` or a `std::vector`. -/
abbrev Byte := UInt8

inductive TcpExcType where
  | TcpExcBadMsgType
  | TcpExcBadLenEncoding
  | TcpExcBadReturnCode
  | TcpExcDataExceedsPacket
  | TcpExcMsgTooLong
  | TcpExcInvalidFlag
  | TcpExcInvalidProName
  | TcpExcInvalidProVersion
  | TcpExcInvalidSocket
  | TcpExcSocketClose
  | TcpExcSocketError
  | TcpExcUngzipError
  | TcpExcGzipError
  deriving DecidableEq, Repr

structure TcpException where
  excType : TcpExcType
  errorNo : Int32 := 0
  deriving DecidableEq, Repr

/--
How a decoder can end early: with an exception, or in one of the two places
from where on the language defines nothing, a local array declared with a
negative length and a call through the null message.
-/
inductive Fault where
  | tcp (e : TcpException)
  | negativeBuffer (len : Int32)
  | nullMessage
  deriving DecidableEq, Repr

abbrev Decode (ρ α : Type) := Fallible Fault ρ α

def throwTcp {ρ α : Type} (excType : TcpExcType) : Decode ρ α :=
  throw (.tcp { excType })

def throwIf {ρ : Type} (cond : Bool) (excType : TcpExcType) :
    Decode ρ Unit :=
  if cond then throwTcp excType else pure ()

/-- `ReadFull(buf, len)`: the `len` bytes put into the buffer. -/
class IReader (ρ : Type) where
  readFull : UInt64 → ρ → Except Fault (List Byte) × ρ

def readFull {ρ : Type} [IReader ρ] (len : UInt64) : Decode ρ (List Byte) :=
  ExceptT.mk fun r => IReader.readFull len r

/-- `char buf[len]; reader->ReadFull(buf, len)` with a signed length. -/
def readBuffer {ρ : Type} [IReader ρ] (len : Int32) : Decode ρ (List Byte) :=
  if len < 0 then throw (.negativeBuffer len)
  else readFull len.toInt64.toUInt64

/-! ## The reader over a finite byte stream -/

structure ByteStream where
  rest : List Byte
  requests : List UInt64 := []
  deriving DecidableEq, Repr

namespace ByteStream

def requested (r : ByteStream) : Nat := (r.requests.map UInt64.toNat).sum

instance : IReader ByteStream where
  readFull len r :=
    if len.toNat ≤ r.rest.length then
      (.ok (r.rest.take len.toNat),
        ⟨r.rest.drop len.toNat, r.requests ++ [len]⟩)
    else
      (.error (.tcp { excType := .TcpExcSocketClose }),
        ⟨[], r.requests ++ [len]⟩)

@[simp] theorem requested_mk_nil (rest : List Byte) :
    requested ⟨rest, []⟩ = 0 := rfl

@[simp] theorem requested_append (rest : List Byte) (log more : List UInt64) :
    requested ⟨rest, log ++ more⟩ =
      requested ⟨rest, log⟩ + (more.map UInt64.toNat).sum := by
  simp [requested]

theorem requested_eq (rest rest' : List Byte) (log : List UInt64) :
    requested ⟨rest, log⟩ = requested ⟨rest', log⟩ := rfl

end ByteStream

/-! ## Reading from a byte stream -/

@[simp] theorem exec_throwIf_false {ρ : Type} (excType : TcpExcType) (r : ρ) :
    exec (throwIf false excType) r = (.ok (), r) := rfl

@[simp] theorem exec_throwIf_true {ρ : Type} (excType : TcpExcType) (r : ρ) :
    exec (throwIf true excType) r = (.error (.tcp { excType }), r) := rfl

@[simp] theorem throwIf_false {ρ : Type} (excType : TcpExcType) :
    (throwIf false excType : Decode ρ Unit) = pure () := rfl

theorem exec_readFull_of_le {len : UInt64} (bs : List Byte)
    {rest : List Byte} {log : List UInt64} (h : bs.length = len.toNat) :
    exec (readFull len) (⟨bs ++ rest, log⟩ : ByteStream) =
      (.ok bs, ⟨rest, log ++ [len]⟩) := by
  change (if _ then _ else _) = _
  simp [← h]

theorem exec_readFull_of_lt {len : UInt64} {r : ByteStream}
    (h : r.rest.length < len.toNat) :
    exec (readFull len) r =
      (.error (.tcp { excType := .TcpExcSocketClose }),
        ⟨[], r.requests ++ [len]⟩) := by
  change (if _ then _ else _) = _
  rw [if_neg (by omega)]

end GoSocket.Packet
