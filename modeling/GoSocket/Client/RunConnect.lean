import GoSocket.Client.Step
import GoSocket.Packet.RoundTrip
import GoSocket.Socket.SslSocket

/-!
# The answer to the connect request

`__RunConnect` sends `Connect` and casts whatever message comes first to
`ConnAck`.  The return code it then reads is what the object has at that place:
the first member that its class adds to `MessageBase`, or bytes that no member
has.  The object is deleted by then, and what it held is taken as still there.
-/

namespace GoSocket.Client

open GoSocket.Foundation GoSocket.Packet

/-- What `__RunConnect` finds before the server answers. -/
structure Surroundings where
  noNet : Bool := false
  host : List Byte
  backupIp : List Byte
  dnsRet : Bool := true
  -- neither `NULL` nor invalid
  validSocket : Bool := true
  receiveTimeout : Bool := true
  sendTimeout : Bool := true
  getConnectInfo : Option (List Byte)
  -- the socket takes the whole message
  written : Bool := true

namespace Surroundings

def connect (connectInfo : List Byte) : Connect where
  payload := connectInfo
  protocolName := kProtocolName
  protocolVersion := kProtocolVersion
  keepAlive := .ofNat kPingInterval.toNat
  enableGzip := kEnableGzip

/-- None of the returns before the answer is taken; each is `kRetConnFailed`. -/
def sendsConnect (self : Surroundings) (z : Gzip) : Bool :=
  self.host ≠ [] && self.backupIp ≠ [] && self.dnsRet && self.validSocket &&
    self.receiveTimeout && self.sendTimeout &&
    match self.getConnectInfo with
    | none => false
    | some connectInfo => ((connect connectInfo).encode z).isOk && self.written

end Surroundings

/-- The four bytes of an object where a `ConnAck` has `_returnCode`; `unset` is
what lies there where the class has no member. -/
def connAckWord (unset : MessageBase → UInt32) (message : MessageBase) : UInt32 :=
  match message with
  | .connAck m => m.returnCode.code.toUInt32
  | .disconnect m => m.type.toUInt32
  | .sendReq m => m.replyLevel.code.toUInt32
  -- two bytes of padding follow
  | .sendResp m =>
      .ofNat (m.messageId.toNat + 2 ^ 16 * (unset message).toUInt16.toNat)
  | .connect _ => unset message
  | .pingReq _ => unset message
  | .pingResp _ => unset message

/-- What `__RunConnect` returns, and `_shouldReconnect`. -/
structure ConnectOutcome where
  ret : ConnectResult
  shouldReconnect : Bool
  deriving DecidableEq, Repr

def outcomeOf (unset : MessageBase → UInt32) (shouldReconnect : Bool)
    (connAck : MessageBase) : ConnectOutcome :=
  let code := connAckWord unset connAck
  if code = ReturnCode.RetCodeAccepted.code.toUInt32 then
    { ret := .kRetConnSuccess, shouldReconnect }
  else if code = ReturnCode.RetCodeNotAuthorized.code.toUInt32 then
    { ret := .kRetConnKickout, shouldReconnect := false }
  else { ret := .kRetConnFailed, shouldReconnect }

section

variable {ρ : Type} [IReader ρ]

def readConnAck (z : Gzip) (unset : MessageBase → UInt32) (shouldReconnect : Bool) :
    Decode ρ ConnectOutcome := do
  let connAck ← decodeMessage z
  return outcomeOf unset shouldReconnect connAck

def runConnect (z : Gzip) (unset : MessageBase → UInt32) (found : Surroundings)
    (shouldReconnect : Bool) : Decode ρ ConnectOutcome :=
  if found.noNet then
    return { ret := .kRetConnFailed, shouldReconnect := false }
  else if found.sendsConnect z then
    tryCatch (readConnAck z unset shouldReconnect) fun fault =>
      match fault with
      | .tcp e =>
          return { ret := if e.errorNo = Socket.kEagain then .kRetConnTimeout
                          else .kRetConnFailed
                   shouldReconnect }
      | fault => throw fault
  else return { ret := .kRetConnFailed, shouldReconnect }

end

/-! ## What a result says about the first frame -/

/-- The bytes begin with a `ConnAck` of that code. -/
def BeginsWithConnAck (z : Gzip) (bytes : List Byte) (returnCode : ReturnCode) : Prop :=
  ∃ m frame rest, bytes = frame ++ rest ∧ IsFrame z (.connAck m) frame ∧
    m.returnCode = returnCode

/-- A session is accepted, or kicked out, only by a `ConnAck` that says so. -/
structure Trusted (z : Gzip) (unset : MessageBase → UInt32) (found : Surroundings)
    (bytes : List Byte) : Prop where
  accepted : ∀ shouldReconnect outcome r,
    exec (runConnect z unset found shouldReconnect) (⟨bytes, []⟩ : ByteStream) =
        (.ok outcome, r) →
      outcome.ret = .kRetConnSuccess → BeginsWithConnAck z bytes .RetCodeAccepted
  kickedOut : ∀ shouldReconnect outcome r,
    exec (runConnect z unset found shouldReconnect) (⟨bytes, []⟩ : ByteStream) =
        (.ok outcome, r) →
      outcome.ret = .kRetConnKickout → BeginsWithConnAck z bytes .RetCodeNotAuthorized

def disguised (unset : MessageBase → UInt32) (message : MessageBase) : Bool :=
  match message with
  | .connAck _ => false
  | .connect _ => unset message = 0 || unset message = 3
  | .pingReq _ => unset message = 0 || unset message = 3
  | .pingResp _ => unset message = 0 || unset message = 3
  | .disconnect m => m.type = 0 || m.type = 3
  | .sendReq m => m.replyLevel = .RLevelNoReply || m.replyLevel = .unnamed
  | .sendResp m =>
      (m.messageId = 0 || m.messageId = 3) && (unset message).toUInt16 = 0

/-- The bytes begin with no message of another class that passes for one of the
two. -/
def ReadsConnAck (z : Gzip) (unset : MessageBase → UInt32) (bytes : List Byte) : Prop :=
  ∀ message frame rest, bytes = frame ++ rest → IsFrame z message frame →
    disguised unset message = false

variable {z : Gzip} {unset : MessageBase → UInt32} {found : Surroundings}
  {bytes : List Byte}

theorem code_eq_accepted {returnCode : ReturnCode}
    (h : returnCode.code.toUInt32 = ReturnCode.RetCodeAccepted.code.toUInt32) :
    returnCode = .RetCodeAccepted := by
  revert h
  cases returnCode <;> decide

theorem code_eq_notAuthorized {returnCode : ReturnCode}
    (h : returnCode.code.toUInt32 = ReturnCode.RetCodeNotAuthorized.code.toUInt32) :
    returnCode = .RetCodeNotAuthorized := by
  revert h
  cases returnCode <;> decide

theorem toUInt32_eq_iff (b : UInt8) :
    (b.toUInt32 = 0 ↔ b = 0) ∧ (b.toUInt32 = 3 ↔ b = 3) := by
  constructor <;> constructor
  all_goals
    intro h
  · exact UInt8.toNat_inj.mp (by simpa using congrArg UInt32.toNat h)
  · rw [h]
    rfl
  · exact UInt8.toNat_inj.mp (by simpa using congrArg UInt32.toNat h)
  · rw [h]
    rfl

theorem disguised_eq_true_iff {message : MessageBase} (hnot : ∀ m, message ≠ .connAck m) :
    disguised unset message = true ↔
      connAckWord unset message = ReturnCode.RetCodeAccepted.code.toUInt32 ∨
        connAckWord unset message =
          ReturnCode.RetCodeNotAuthorized.code.toUInt32 := by
  have hcodes : ReturnCode.RetCodeAccepted.code.toUInt32 = 0 ∧
      ReturnCode.RetCodeNotAuthorized.code.toUInt32 = 3 := ⟨rfl, rfl⟩
  rw [hcodes.1, hcodes.2]
  cases message with
  | connAck m => exact absurd rfl (hnot m)
  | connect m => simp [disguised, connAckWord]
  | pingReq m => simp [disguised, connAckWord]
  | pingResp m => simp [disguised, connAckWord]
  | disconnect m =>
      simp [disguised, connAckWord, (toUInt32_eq_iff m.type).1,
        (toUInt32_eq_iff m.type).2]
  | sendReq m =>
      simp only [disguised, connAckWord]
      cases m.replyLevel <;> decide
  | sendResp m =>
      have hpadded (k : UInt16) :
          UInt32.ofNat (m.messageId.toNat +
              2 ^ 16 * (unset (.sendResp m)).toUInt16.toNat) = k.toUInt32 ↔
            m.messageId = k ∧ (unset (.sendResp m)).toUInt16 = 0 := by
        have hk := k.toNat_lt
        have hid := m.messageId.toNat_lt
        have hpadding := (unset (.sendResp m)).toUInt16.toNat_lt
        rw [← UInt32.toNat_inj, UInt32.toNat_ofNat_of_lt' (by
          simp only [UInt32.size]; omega), UInt16.toNat_toUInt32,
          ← UInt16.toNat_inj, ← UInt16.toNat_inj, UInt16.toNat_zero]
        omega
      have haccepted := hpadded 0
      have hnotAuthorized := hpadded 3
      simp only [disguised, connAckWord, Bool.and_eq_true, Bool.or_eq_true,
        decide_eq_true_eq, or_and_right]
      exact (or_congr haccepted hnotAuthorized).symm

/-! ## What `__RunConnect` returns -/

variable {shouldReconnect : Bool} {outcome : ConnectOutcome} {r : ByteStream}

theorem outcomeOf_ret (message : MessageBase) :
    ((outcomeOf unset shouldReconnect message).ret = .kRetConnSuccess ↔
      connAckWord unset message = ReturnCode.RetCodeAccepted.code.toUInt32) ∧
    ((outcomeOf unset shouldReconnect message).ret = .kRetConnKickout ↔
      connAckWord unset message = ReturnCode.RetCodeNotAuthorized.code.toUInt32) := by
  have hne : ReturnCode.RetCodeAccepted.code.toUInt32 ≠
      ReturnCode.RetCodeNotAuthorized.code.toUInt32 := by decide
  unfold outcomeOf
  dsimp only
  split
  · next haccepted => simp [haccepted, hne]
  · next haccepted =>
      split
      · next hnotAuthorized => simp [hnotAuthorized, hne.symm]
      · next hnotAuthorized => simp [haccepted, hnotAuthorized]

theorem exec_runConnect_of_isFrame (hnet : found.noNet = false)
    (hsends : found.sendsConnect z = true) {message : MessageBase}
    {frame rest : List Byte} (hbytes : bytes = frame ++ rest)
    (hframe : IsFrame z message frame) (shouldReconnect : Bool) :
    ∃ r, exec (runConnect z unset found shouldReconnect)
        (⟨bytes, []⟩ : ByteStream) =
      (.ok (outcomeOf unset shouldReconnect message), r) := by
  obtain ⟨requests, hread⟩ := decodeMessage_of_isFrame hframe rest []
  have hack : exec (readConnAck z unset shouldReconnect) (⟨bytes, []⟩ : ByteStream) =
      (.ok (outcomeOf unset shouldReconnect message), ⟨rest, requests⟩) := by
    rw [readConnAck, hbytes, exec_bind_of_ok hread, exec_pure]
  refine ⟨⟨rest, requests⟩, ?_⟩
  rw [runConnect, hnet, hsends, if_neg Bool.false_ne_true, if_pos rfl, exec_tryCatch,
    hack]

/-- Nothing has been decoded. -/
structure Undecided (found : Surroundings) (shouldReconnect : Bool)
    (outcome : ConnectOutcome) : Prop where
  not_accepted : outcome.ret ≠ .kRetConnSuccess
  not_kickedOut : outcome.ret ≠ .kRetConnKickout
  noNet : found.noNet = true → outcome.ret = .kRetConnFailed
  shouldReconnect : outcome.shouldReconnect = (shouldReconnect && !found.noNet)

theorem runConnect_cases
    (h : exec (runConnect z unset found shouldReconnect) (⟨bytes, []⟩ : ByteStream) =
      (.ok outcome, r)) :
    Undecided found shouldReconnect outcome ∨
      (found.noNet = false ∧ found.sendsConnect z = true) ∧
        ∃ message frame rest, bytes = frame ++ rest ∧ IsFrame z message frame ∧
          outcome = outcomeOf unset shouldReconnect message := by
  have returned {outcome' : ConnectOutcome} {s : ByteStream}
      (hundecided : Undecided found shouldReconnect outcome')
      (h : exec (pure outcome' : Decode ByteStream ConnectOutcome) s =
        (.ok outcome, r)) : Undecided found shouldReconnect outcome := by
    simp only [exec_pure, Prod.mk.injEq, Except.ok.injEq] at h
    rw [← h.1]
    exact hundecided
  unfold runConnect at h
  split at h
  · next hnet => exact .inl (returned ⟨by simp, by simp, by simp, by simp [hnet]⟩ h)
  · next hnet =>
      rw [Bool.not_eq_true] at hnet
      split at h
      · next hsends =>
          rw [exec_tryCatch] at h
          cases hack : exec (readConnAck z unset shouldReconnect)
              (⟨bytes, []⟩ : ByteStream) with
          | mk result s =>
              rw [hack] at h
              cases result with
              | error fault =>
                  cases fault with
                  | tcp e =>
                      refine .inl (returned ⟨?_, ?_, by simp [hnet], by simp [hnet]⟩ h)
                      all_goals
                        dsimp only
                        split <;> decide
                  | negativeBuffer len => simp at h
                  | nullMessage => simp at h
              | ok outcome' =>
                  simp only [Prod.mk.injEq, Except.ok.injEq] at h
                  obtain ⟨rfl, rfl⟩ := h
                  obtain ⟨message, ⟨rest, requests⟩, hread, hpure⟩ :=
                    exec_bind_eq_ok.mp hack
                  simp only [exec_pure, Prod.mk.injEq, Except.ok.injEq] at hpure
                  obtain ⟨frame, hframe, hbytes⟩ := isFrame_of_decodeMessage hread
                  exact .inr ⟨⟨hnet, hsends⟩, message, frame, rest, hbytes, hframe,
                    hpure.1.symm⟩
      · exact .inl (returned ⟨by simp, by simp, by simp, by simp [hnet]⟩ h)

/-! ## When it can be trusted -/

private theorem begins_of_word (hreads : ReadsConnAck z unset bytes)
    {message : MessageBase} {frame rest : List Byte} (hbytes : bytes = frame ++ rest)
    (hframe : IsFrame z message frame) {returnCode : ReturnCode}
    (hcode : returnCode = .RetCodeAccepted ∨ returnCode = .RetCodeNotAuthorized)
    (hword : connAckWord unset message = returnCode.code.toUInt32) :
    BeginsWithConnAck z bytes returnCode := by
  have hplain := hreads message frame rest hbytes hframe
  by_cases hack : ∃ m, message = .connAck m
  · obtain ⟨m, rfl⟩ := hack
    refine ⟨m, frame, rest, hbytes, hframe, ?_⟩
    rcases hcode with rfl | rfl
    · exact code_eq_accepted hword
    · exact code_eq_notAuthorized hword
  · have hdisguised : disguised unset message = true := by
      refine (disguised_eq_true_iff fun m heq => hack ⟨m, heq⟩).mpr ?_
      rcases hcode with rfl | rfl
      · exact .inl hword
      · exact .inr hword
    cases hplain.symm.trans hdisguised

/-- The two results can be trusted where the bytes do not begin with a message
of another class that has one of the codes in the place of `_returnCode`, as long as
nobody writes to the freed message before it is read. -/
theorem trusted_iff (z : Gzip) (unset : MessageBase → UInt32) (found : Surroundings)
    (bytes : List Byte) :
    Trusted z unset found bytes ↔
      (found.noNet = false → found.sendsConnect z = true →
        ReadsConnAck z unset bytes) := by
  constructor
  · intro h hnet hsends message frame rest hbytes hframe
    by_contra hdisguised
    rw [Bool.not_eq_false] at hdisguised
    obtain ⟨r, hrun⟩ : ∃ r, exec (runConnect z unset found true)
        (⟨bytes, []⟩ : ByteStream) = (.ok (outcomeOf unset true message), r) :=
      exec_runConnect_of_isFrame hnet hsends hbytes hframe true
    have hconnAck {returnCode : ReturnCode}
        (hbegins : BeginsWithConnAck z bytes returnCode) : False := by
      obtain ⟨m, frame', rest', hbytes', hframe', -⟩ := hbegins
      obtain rfl := hframe.unique_message hframe' (hbytes.symm.trans hbytes')
      cases hdisguised
    have hnot : ∀ m, message ≠ .connAck m := by
      rintro m rfl
      cases hdisguised
    rcases (disguised_eq_true_iff hnot).mp hdisguised with hword | hword
    · exact hconnAck (h.accepted true _ r hrun ((outcomeOf_ret message).1.mpr hword))
    · exact hconnAck (h.kickedOut true _ r hrun ((outcomeOf_ret message).2.mpr hword))
  · intro h
    constructor
    case accepted =>
      intro shouldReconnect outcome r hrun hret
      rcases runConnect_cases hrun with
        hundecided | ⟨⟨hnet, hsends⟩, message, frame, rest, hbytes, hframe, rfl⟩
      · exact absurd hret hundecided.not_accepted
      · exact begins_of_word (h hnet hsends) hbytes hframe (.inl rfl)
          ((outcomeOf_ret message).1.mp hret)
    case kickedOut =>
      intro shouldReconnect outcome r hrun hret
      rcases runConnect_cases hrun with
        hundecided | ⟨⟨hnet, hsends⟩, message, frame, rest, hbytes, hframe, rfl⟩
      · exact absurd hret hundecided.not_kickedOut
      · exact begins_of_word (h hnet hsends) hbytes hframe (.inr rfl)
          ((outcomeOf_ret message).2.mp hret)

/-- A `Disconnect` of type 0 is taken for a `ConnAck` that accepts. -/
theorem disconnect_accepted :
    ¬ ∀ (z : Gzip) (unset : MessageBase → UInt32) (found : Surroundings)
      (bytes : List Byte), Trusted z unset found bytes := by
  intro hall
  let found : Surroundings :=
    { host := [104], backupIp := [49], getConnectInfo := some [104, 105] }
  have hsends : found.sendsConnect sampleGzip = true := by decide +kernel
  have hread : exec (decodeMessage sampleGzip)
      (⟨[0x50, 1, 0], []⟩ : ByteStream) =
        (.ok (.disconnect { header :=
          { msgType := .kMsgDisconnect, remainLen := 1 } }), ⟨[], [1, 1, 1]⟩) := by
    decide +kernel
  obtain ⟨frame, hframe, hbytes⟩ := isFrame_of_decodeMessage hread
  have hreads := (trusted_iff sampleGzip (fun _ => 1) found [0x50, 1, 0]).mp
    (hall _ _ _ _) rfl hsends _ _ _ hbytes hframe
  cases hreads

/-! ## The step of the client -/

def Surroundings.event (self : Surroundings) (outcome : ConnectOutcome) : IoEvent :=
  if self.noNet then .noNet else .connected outcome.ret

theorem ioStep_runConnect {s : TcpClient} (hio : s.io = .runConnect)
    (h : exec (runConnect z unset found s.shouldReconnect) (⟨bytes, []⟩ : ByteStream) =
      (.ok outcome, r)) :
    ∃ t, s.ioStep (found.event outcome) = some t ∧
      t.io = .setConnectStatus outcome.ret ∧
      t.shouldReconnect = outcome.shouldReconnect := by
  have connected (hnet : found.noNet = false) (hret : outcome.ret ≠ .kRetConnKickout)
      (hkept : outcome.shouldReconnect = s.shouldReconnect) :
      ∃ t, s.ioStep (found.event outcome) = some t ∧
        t.io = .setConnectStatus outcome.ret ∧
        t.shouldReconnect = outcome.shouldReconnect := by
    refine ⟨{ s with io := .setConnectStatus outcome.ret }, ?_, rfl, hkept.symm⟩
    unfold Surroundings.event TcpClient.ioStep
    rw [hnet, hio]
    generalize outcome.ret = ret at hret
    cases ret <;> first | rfl | exact absurd rfl hret
  rcases runConnect_cases h with
    hundecided | ⟨⟨hnet, hsends⟩, message, frame, rest, hbytes, hframe, rfl⟩
  · cases hnet : found.noNet with
    | false =>
        exact connected hnet hundecided.not_kickedOut
          (by simp [hundecided.shouldReconnect, hnet])
    | true =>
        refine ⟨{ s.refuse with io := .setConnectStatus .kRetConnFailed }, ?_, ?_, ?_⟩
        · unfold Surroundings.event TcpClient.ioStep
          rw [hnet, hio]
          rfl
        · rw [hundecided.noNet hnet]
        · rw [hundecided.shouldReconnect, hnet, Bool.not_true, Bool.and_false]
          rfl
  · by_cases hret : (outcomeOf unset s.shouldReconnect message).ret = .kRetConnKickout
    · have hword := (outcomeOf_ret message).2.mp hret
      have heq : outcomeOf unset s.shouldReconnect message =
          { ret := .kRetConnKickout, shouldReconnect := false } := by
        unfold outcomeOf
        dsimp only
        rw [hword, if_neg (by decide), if_pos rfl]
      rw [heq]
      refine ⟨{ s.refuse with io := .setConnectStatus .kRetConnKickout }, ?_, rfl, rfl⟩
      unfold Surroundings.event TcpClient.ioStep
      rw [hnet, hio]
      rfl
    · refine connected hnet hret ?_
      unfold outcomeOf at hret ⊢
      dsimp only at hret ⊢
      split
      · rfl
      · next haccepted =>
          rw [if_neg haccepted] at hret
          split
          · next hword =>
              rw [if_pos hword] at hret
              exact absurd rfl hret
          · rfl

end GoSocket.Client
