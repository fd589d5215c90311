import GoSocket.Packet.Message

/-!
# Decoding from different readers

The decoders only see what `ReadFull` gives them.  Over two readers that give
the same, they do the same.
-/

namespace GoSocket.Packet

open GoSocket.Foundation

section

variable {ρ ρ' : Type} [IReader ρ] [IReader ρ'] {R : ρ → ρ' → Prop}
  {E : Fault × ρ → Fault × ρ' → Prop}
  (hread : ∀ len, Relates R E (readFull len : Decode ρ (List Byte))
    (readFull len : Decode ρ' (List Byte)))
  (hthrow : ∀ e s t, R s t → E (e, s) (e, t))

include hthrow

omit [IReader ρ] [IReader ρ'] in
theorem throwIf_relates (cond : Bool) (excType : TcpExcType) :
    Relates R E (throwIf cond excType : Decode ρ Unit)
      (throwIf cond excType : Decode ρ' Unit) := by
  cases cond with
  | true => exact .throw (hthrow _)
  | false => exact .pure ()

include hread

theorem readBuffer_relates (len : Int32) :
    Relates R E (readBuffer len : Decode ρ (List Byte))
      (readBuffer len : Decode ρ' (List Byte)) := by
  unfold readBuffer
  split
  · exact .throw (hthrow _)
  · exact hread _

omit hthrow in
theorem decodeLengthLoop_relates (left : Nat) (i v shift : Int32) :
    Relates R E (decodeLengthLoop left i v shift : Decode ρ _)
      (decodeLengthLoop left i v shift : Decode ρ' _) := by
  induction left generalizing i v shift with
  | zero => exact .pure _
  | succ left ih =>
      unfold decodeLengthLoop
      refine (hread 1).bind fun buf => ?_
      dsimp only
      split
      · exact .pure _
      · exact ih _ _ _

theorem getUint8_relates (remainLen : UInt32) :
    Relates R E (getUint8 remainLen : Decode ρ _)
      (getUint8 remainLen : Decode ρ' _) :=
  (throwIf_relates hthrow _ _).bind fun _ => (hread 1).bind fun _ => .pure _

theorem getUint16_relates (remainLen : UInt32) :
    Relates R E (getUint16 remainLen : Decode ρ _)
      (getUint16 remainLen : Decode ρ' _) :=
  (throwIf_relates hthrow _ _).bind fun _ => (hread 2).bind fun _ => .pure _

theorem getBlock_relates (remainLen : UInt32) :
    Relates R E (getBlock remainLen : Decode ρ _)
      (getBlock remainLen : Decode ρ' _) :=
  (decodeLengthLoop_relates hread 4 0 0 0).bind fun _ =>
    (throwIf_relates hthrow _ _).bind fun _ =>
      (readBuffer_relates hread hthrow _).bind fun _ => .pure _

theorem getGzipString_relates (z : Gzip) (remainLen : UInt32) :
    Relates R E (getGzipString z remainLen : Decode ρ _)
      (getGzipString z remainLen : Decode ρ' _) := by
  refine (getBlock_relates hread hthrow remainLen).bind fun block => ?_
  refine Relates.bind ?_ fun _ => .pure _
  unfold uncompress
  split
  · split
    · exact .pure _
    · exact .throw (hthrow _)
  · exact .pure _

/-! ## Messages -/

theorem header_relates :
    Relates R E (FixHeader.decode : Decode ρ _) (FixHeader.decode : Decode ρ' _) :=
  (hread 1).bind fun _ => (throwIf_relates hthrow _ _).bind fun _ =>
    (throwIf_relates hthrow _ _).bind fun _ =>
      (decodeLengthLoop_relates hread 4 0 0 0).bind fun _ => .pure _

theorem connect_relates (z : Gzip) (self : Connect) :
    Relates R E (self.decode z : Decode ρ _) (self.decode z : Decode ρ' _) :=
  (getBlock_relates hread hthrow _).bind fun _ =>
    (throwIf_relates hthrow _ _).bind fun _ =>
      (getUint8_relates hread hthrow _).bind fun _ =>
        (throwIf_relates hthrow _ _).bind fun _ =>
          (getUint8_relates hread hthrow _).bind fun _ =>
            (throwIf_relates hthrow _ _).bind fun _ =>
              (getUint16_relates hread hthrow _).bind fun _ =>
                (getGzipString_relates hread hthrow z _).bind fun _ =>
                  (throwIf_relates hthrow _ _).bind fun _ => .pure _

theorem connAck_relates (self : ConnAck) :
    Relates R E (self.decode : Decode ρ _) (self.decode : Decode ρ' _) :=
  (getUint8_relates hread hthrow _).bind fun _ =>
    (throwIf_relates hthrow _ _).bind fun _ =>
      (getUint8_relates hread hthrow _).bind fun _ =>
        (throwIf_relates hthrow _ _).bind fun _ =>
          (throwIf_relates hthrow _ _).bind fun _ => .pure _

theorem disconnect_relates (self : Disconnect) :
    Relates R E (self.decode : Decode ρ _) (self.decode : Decode ρ' _) :=
  (getUint8_relates hread hthrow _).bind fun _ =>
    (throwIf_relates hthrow _ _).bind fun _ => .pure _

theorem sendReq_relates (z : Gzip) (self : SendReq) :
    Relates R E (self.decode z : Decode ρ _) (self.decode z : Decode ρ' _) := by
  refine (getUint16_relates hread hthrow _).bind fun _ =>
    (getBlock_relates hread hthrow _).bind fun _ =>
      (getGzipString_relates hread hthrow z _).bind fun payload => ?_
  dsimp only
  split
  · exact (getGzipString_relates hread hthrow z _).bind fun _ =>
      (throwIf_relates hthrow _ _).bind fun _ => .pure _
  · exact (throwIf_relates hthrow _ _).bind fun _ => .pure _

theorem sendResp_relates (z : Gzip) (self : SendResp) :
    Relates R E (self.decode z : Decode ρ _) (self.decode z : Decode ρ' _) :=
  (getUint16_relates hread hthrow _).bind fun _ =>
    (getGzipString_relates hread hthrow z _).bind fun _ =>
      (throwIf_relates hthrow _ _).bind fun _ => .pure _

theorem decodeBody_relates (z : Gzip) (header : FixHeader) :
    Relates R E (decodeBody z header : Decode ρ _)
      (decodeBody z header : Decode ρ' _) := by
  unfold decodeBody
  split
  · next message _ =>
      cases message.setHeader header with
      | connect m => exact (connect_relates hread hthrow z m).map _
      | connAck m => exact (connAck_relates hread hthrow m).map _
      | pingReq m =>
          exact Relates.map _ ((throwIf_relates hthrow _ _).bind fun _ => .pure _)
      | pingResp m =>
          exact Relates.map _ ((throwIf_relates hthrow _ _).bind fun _ => .pure _)
      | disconnect m => exact (disconnect_relates hread hthrow m).map _
      | sendReq m => exact (sendReq_relates hread hthrow z m).map _
      | sendResp m => exact (sendResp_relates hread hthrow z m).map _
  · exact .throw (hthrow _)

theorem decodeMessage_relates (z : Gzip) :
    Relates R E (decodeMessage z : Decode ρ _) (decodeMessage z : Decode ρ' _) :=
  (header_relates hread hthrow).bind fun header => decodeBody_relates hread hthrow z header

end

theorem decodeMessage_simulates {ρ ρ' : Type} [IReader ρ] [IReader ρ']
    {R : ρ → ρ' → Prop}
    (hread : ∀ len, Simulates R (readFull len : Decode ρ (List Byte))
      (readFull len : Decode ρ' (List Byte))) (z : Gzip) :
    Simulates R (decodeMessage z : Decode ρ _) (decodeMessage z : Decode ρ' _) :=
  simulates_iff_relates.mpr
    (decodeMessage_relates (fun len => simulates_iff_relates.mp (hread len))
      (fun _ _ _ _ => trivial) z)

end GoSocket.Packet
