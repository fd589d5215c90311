import GoSocket.Foundation.Cuts
import GoSocket.Packet.Grammar
import GoSocket.Packet.RoundTrip

/-!
# Streams that end early

A decoder that has enough bytes does not look at those behind them.  On a stream
that is cut it either does what it does on the whole stream, or it meets the end
of the stream and throws what `ReadFull` throws there.
-/

namespace GoSocket.Packet

open GoSocket.Foundation

/-! ## Decoding from a reader that is cut -/

section

variable {ρ : Type} [IReader ρ] {R : ByteStream → ρ → Prop} {Stop : Fault → Prop}

omit [IReader ρ] in
theorem throwIf_cuts (cond : Bool) (excType : TcpExcType) :
    Cuts R Stop (throwIf cond excType : Decode ByteStream Unit)
      (throwIf cond excType : Decode ρ Unit) := by
  cases cond with
  | true => exact .throw _
  | false => exact .pure ()

omit [IReader ρ] in
theorem uncompress_cuts (z : Gzip) (buf : List Byte) :
    Cuts R Stop (uncompress z buf : Decode ByteStream _)
      (uncompress z buf : Decode ρ _) := by
  unfold uncompress
  split
  · split
    · exact .pure _
    · exact .throw _
  · exact .pure _

variable (hread : ∀ len, Cuts R Stop (readFull len : Decode ByteStream (List Byte))
  (readFull len : Decode ρ (List Byte)))

include hread

theorem readBuffer_cuts (len : Int32) :
    Cuts R Stop (readBuffer len : Decode ByteStream (List Byte))
      (readBuffer len : Decode ρ (List Byte)) := by
  unfold readBuffer
  split
  · exact .throw _
  · exact hread _

theorem decodeLengthLoop_cuts (left : Nat) (i v shift : Int32) :
    Cuts R Stop (decodeLengthLoop left i v shift : Decode ByteStream _)
      (decodeLengthLoop left i v shift : Decode ρ _) := by
  induction left generalizing i v shift with
  | zero => exact .pure _
  | succ left ih =>
      unfold decodeLengthLoop
      refine (hread 1).bind fun buf => ?_
      dsimp only
      split
      · exact .pure _
      · exact ih _ _ _

theorem getBlock_cuts (remainLen : UInt32) :
    Cuts R Stop (getBlock remainLen : Decode ByteStream _)
      (getBlock remainLen : Decode ρ _) :=
  (decodeLengthLoop_cuts hread 4 0 0 0).bind fun _ => (throwIf_cuts _ _).bind fun _ =>
    (readBuffer_cuts hread _).bind fun _ => .pure _

theorem Field.decode_cuts (z : Gzip) (f : Field) (remainLen : UInt32) :
    Cuts R Stop (f.decode z remainLen : Decode ByteStream _)
      (f.decode z remainLen : Decode ρ _) := by
  cases f with
  | uint8 ok exc =>
      refine Cuts.bind ?_ fun _ => (throwIf_cuts _ _).bind fun _ => .pure _
      exact (throwIf_cuts _ _).bind fun _ => (hread 1).bind fun _ => .pure _
  | uint16 => exact (throwIf_cuts _ _).bind fun _ => (hread 2).bind fun _ => .pure _
  | string ok exc =>
      exact (getBlock_cuts hread _).bind fun _ =>
        (throwIf_cuts _ _).bind fun _ => .pure _
  | gzip =>
      exact (getBlock_cuts hread _).bind fun _ =>
        (uncompress_cuts z _).bind fun _ => .pure _

theorem Fields.decode_cuts (z : Gzip) (fs : List Field) (remainLen : UInt32) :
    Cuts R Stop (Fields.decode z fs remainLen : Decode ByteStream _)
      (Fields.decode z fs remainLen : Decode ρ _) := by
  induction fs generalizing remainLen with
  | nil => exact .pure _
  | cons f fs ih =>
      exact (f.decode_cuts hread z remainLen).bind fun _ =>
        (ih _).bind fun _ => .pure _

theorem header_cuts :
    Cuts R Stop (FixHeader.decode : Decode ByteStream _)
      (FixHeader.decode : Decode ρ _) :=
  (hread 1).bind fun _ => (throwIf_cuts _ _).bind fun _ =>
    (throwIf_cuts _ _).bind fun _ =>
      (decodeLengthLoop_cuts hread 4 0 0 0).bind fun _ => .pure _

theorem decodeByFields_cuts (z : Gzip) (header : FixHeader) :
    Cuts R Stop (decodeByFields z header : Decode ByteStream _)
      (decodeByFields z header : Decode ρ _) := by
  refine (Fields.decode_cuts hread z _ _).bind fun (vals, _) =>
    (throwIf_cuts _ _).bind fun _ => ?_
  cases assemble header header.msgType vals with
  | some message => exact .pure _
  | none => exact .throw _

theorem decodeMessage_cuts (z : Gzip) :
    Cuts R Stop (decodeMessage z : Decode ByteStream _)
      (decodeMessage z : Decode ρ _) := by
  refine (header_cuts hread).bind_of fun header s s' hheader => ?_
  obtain ⟨b, p, remainLen, rest, -, hb, -, rfl, -⟩ := of_exec_header_ok hheader
  obtain ⟨htype, -⟩ := (isHeaderByte_iff b).mp hb
  have htype' : ¬ FixHeader.badMsgType (headerOf b remainLen).msgType := by
    simpa [headerOf] using htype
  rw [decodeBody_eq z _ htype' hb.hasData_clear, decodeBody_eq z _ htype' hb.hasData_clear]
  exact decodeByFields_cuts hread z _

end

/-! ## A part of a byte stream -/

/-- The second stream lacks the last bytes of the first one. -/
def LacksTail (tail : List Byte) (r r' : ByteStream) : Prop :=
  r = ⟨r'.rest ++ tail, r'.requests⟩

/-- The exception of a read past the end of a byte stream. -/
def MeetsEnd (fault : Fault) : Prop :=
  fault = .tcp { excType := .TcpExcSocketClose }

theorem readFull_cuts {tail : List Byte} (len : UInt64) :
    Cuts (LacksTail tail) MeetsEnd (readFull len : Decode ByteStream (List Byte))
      (readFull len) := by
  rintro _ ⟨rest, requests⟩ rfl
  dsimp only
  by_cases hlen : len.toNat ≤ rest.length
  · have htake : (rest.take len.toNat).length = len.toNat := by simp [hlen]
    rw [← List.take_append_drop len.toNat rest, List.append_assoc,
      exec_readFull_of_le _ htake, exec_readFull_of_le _ htake]
    exact .inr ⟨_, _, _, rfl, rfl, rfl⟩
  · rw [exec_readFull_of_lt (r := ⟨rest, requests⟩) (by dsimp only; omega)]
    exact .inl ⟨_, _, rfl, rfl⟩

/-- What `decodeMessage` answers to the beginning of a stream, without having met
its end, is what it answers to the whole stream. -/
theorem decodeMessage_of_beginning {z : Gzip} {bytes left : List Byte}
    {requests : List UInt64} {outcome : Except Fault MessageBase}
    (h : exec (decodeMessage z) (⟨bytes, []⟩ : ByteStream) = (outcome, ⟨left, requests⟩))
    (hmet : ∀ fault, outcome = .error fault → ¬ MeetsEnd fault) (tail : List Byte) :
    exec (decodeMessage z) (⟨bytes ++ tail, []⟩ : ByteStream) =
      (outcome, ⟨left ++ tail, requests⟩) := by
  rcases decodeMessage_cuts readFull_cuts z ⟨bytes ++ tail, []⟩ ⟨bytes, []⟩ rfl with
    ⟨fault, r, hend, hstop⟩ | ⟨outcome', r, r', hwhole, hpart, rfl⟩
  · rw [h] at hend
    cases hend
    exact absurd hstop (hmet fault rfl)
  · rw [h] at hpart
    cases hpart
    exact hwhole

/-- A request, and a ping that is cut in two. -/
theorem decodeMessage_of_beginning_request :
    exec (decodeMessage sampleGzip)
        (⟨hiRequestBytes ++ [0x30] ++ [0, 0x40], []⟩ : ByteStream) =
      (.ok hiRequest, ⟨[0x30] ++ [0, 0x40], [1, 1, 2, 1, 1, 1, 22]⟩) := by
  have hpart : exec (decodeMessage sampleGzip)
      (⟨hiRequestBytes ++ [0x30], []⟩ : ByteStream) =
      (.ok hiRequest, ⟨[0x30], [1, 1, 2, 1, 1, 1, 22]⟩) := by
    decide +kernel
  exact decodeMessage_of_beginning hpart (fun _ => nofun) [0, 0x40]

end GoSocket.Packet
