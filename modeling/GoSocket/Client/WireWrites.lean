import GoSocket.Client.Wire

/-!
# What the server gets

The frames of a session are `Connect` and then what its calls have pushed, with
pings between them.  A server that reads them gets the same messages.
-/

namespace GoSocket.Client

open GoSocket.Common GoSocket.Foundation GoSocket.Packet GoSocket.Socket

/-! ## What the calls may push -/

def isPing : MessageBase → Bool
  | .pingReq _ => true
  | _ => false

theorem isPing_setHeader (header : FixHeader) (m : MessageBase) :
    isPing (m.setHeader header) = isPing m := by
  cases m <;> rfl

/-- A message that is read back as it was written, and no ping. -/
def Plain (z : Gzip) (message : MessageBase) : Prop :=
  ∃ m : ClientMessage, m.Short z ∧ message = m.toMessage ∧ isPing message = false

def UserCall.Plain (z : Gzip) : UserCall → Prop
  | .send type payload data _ =>
      data = none ∧ type.length < 2 ^ 30 ∧ z.Short payload
  | .sendNoReply type payload => type.length < 2 ^ 30 ∧ z.Short payload
  | _ => True

def Action.Plain (z : Gzip) : Action → Prop
  | .user call => call.Plain z
  | _ => True

def Section.Plain (z : Gzip) : Section → Prop
  | .register _ _ sendReq =>
      ∀ messageId, Client.Plain z (.sendReq { sendReq with messageId })
  | .pushSendReq _ sendReq =>
      ∀ messageId, Client.Plain z (.sendReq { sendReq with messageId })
  | .pushMessage _ message => Client.Plain z message
  | _ => True

structure PlainClient (z : Gzip) (s : TcpClient) : Prop where
  queued : ∀ queued ∈ s.messageQueue, Plain z queued.message
  pushing : ∀ holder next, s.mutex = some (holder, next) → next.Plain z

namespace PlainClient

variable {z : Gzip} {s t : TcpClient}

theorem init : PlainClient z .init := by
  constructor <;> simp [TcpClient.init]

private theorem lock (h : PlainClient z s)
    (hqueue : ∀ queued ∈ t.messageQueue, queued ∈ s.messageQueue)
    (hmutex : ∀ holder next, t.mutex = some (holder, next) →
      s.mutex = some (holder, next) ∨ next.Plain z) : PlainClient z t where
  queued queued hmem := h.queued queued (hqueue queued hmem)
  pushing holder next hnext := by
    rcases hmutex holder next hnext with hsame | hplain
    · exact h.pushing holder next hsame
    · exact hplain

private theorem same (h : PlainClient z s) (hqueue : t.messageQueue = s.messageQueue)
    (hmutex : t.mutex = s.mutex) : PlainClient z t := by
  refine h.lock (fun queued hmem => by rwa [← hqueue]) fun holder next hnext => ?_
  rw [hmutex] at hnext
  exact .inl hnext

private theorem enterConnect (h : PlainClient z s) (holder : Holder) :
    PlainClient z (s.enterConnect holder) := by
  refine h.lock (fun _ hmem => hmem) ?_
  unfold TcpClient.enterConnect
  intro holder' next hnext
  split at hnext <;> cases hnext
  exact .inr trivial

private theorem enterDisconnect (h : PlainClient z s) (holder : Holder)
    (code : DisconnectCode) (shouldReconnect : Bool) :
    PlainClient z (s.enterDisconnect holder code shouldReconnect) := by
  refine h.lock (fun _ hmem => hmem) ?_
  unfold TcpClient.enterDisconnect
  intro holder' next hnext
  split at hnext <;> cases hnext
  exact .inr trivial

private theorem enterSend (h : PlainClient z s) {type payload : List Byte}
    {data : Option (List Byte)} (hasCallback : Bool)
    (hcall : (UserCall.send type payload data hasCallback).Plain z) :
    PlainClient z (s.enterSend type payload data hasCallback) := by
  obtain ⟨rfl, htype, hshort⟩ := hcall
  unfold TcpClient.enterSend
  dsimp only
  split
  · refine h.lock (fun _ hmem => hmem) ?_
    rintro _ _ ⟨⟩
    refine .inr fun messageId => ?_
    exact ⟨.sendReq messageId .RLevelReplyLater type payload, ⟨htype, hshort⟩, rfl, rfl⟩
  · split <;> exact h.same rfl rfl

private theorem enterPush (h : PlainClient z s) {message : MessageBase}
    (hmessage : Plain z message) : PlainClient z (s.enterPush message) := by
  unfold TcpClient.enterPush
  split
  · refine h.lock (fun _ hmem => hmem) ?_
    rintro _ _ ⟨⟩
    exact .inr hmessage
  · exact h.same rfl rfl

private theorem push (h : PlainClient z s) {queued : Queued} {holder : Holder}
    (hmessage : Plain z queued.message)
    (hqueue : t.messageQueue = s.messageQueue ++ [queued])
    (hmutex : t.mutex = some (holder, .wakeUp)) : PlainClient z t where
  queued queued' hmem := by
    rw [hqueue, List.mem_append, List.mem_singleton] at hmem
    rcases hmem with hmem | rfl
    · exact h.queued queued' hmem
    · exact hmessage
  pushing holder' next hnext := by
    rw [hmutex] at hnext
    cases hnext
    trivial

private theorem proceed (h : PlainClient z s) {holder : Holder} {next : Section}
    (hmutex : s.mutex = some (holder, next)) : PlainClient z (s.proceed holder next) := by
  have hplain := h.pushing holder next hmutex
  cases next with
  | connect =>
      simp only [TcpClient.proceed]
      split
      · exact h.lock (fun _ hmem => hmem) (by simp)
      · refine ⟨by simp, ?_⟩
        rintro _ _ ⟨⟩
        trivial
  | breakReadWrite =>
      refine h.lock (fun _ hmem => hmem) ?_
      simp only [TcpClient.proceed]
      intro holder' next hnext
      split at hnext <;> cases hnext <;> exact .inr trivial
  | breakConnect =>
      refine h.lock (fun _ hmem => hmem) ?_
      simp only [TcpClient.proceed]
      intro holder' next hnext
      split at hnext <;> cases hnext
      exact .inr trivial
  | register call hasCallback sendReq =>
      refine h.lock (fun _ hmem => hmem) ?_
      rintro _ _ ⟨⟩
      exact .inr hplain
  | pushSendReq call sendReq => exact h.push (hplain s.currentMsgId) rfl rfl
  | pushMessage call message =>
      exact h.push (show Plain z (Queued.mk call message).message from hplain) rfl rfl
  | disconnect | setShouldReconnect | closeReadWrite | flagReadWrite =>
      refine h.lock (fun _ hmem => hmem) ?_
      rintro _ _ ⟨⟩
      exact .inr trivial
  | assignThread | flagConnect | wakeUp =>
      refine h.lock (fun _ hmem => hmem) ?_
      rintro _ _ ⟨⟩

private theorem userStep (h : PlainClient z s) {call : UserCall} (hcall : call.Plain z)
    (hs : s.userStep call = some t) : PlainClient z t := by
  unfold TcpClient.userStep at hs
  split at hs
  · split at hs
    · next next hmutex =>
        cases hs
        exact h.proceed hmutex
    · cases hs
  all_goals
    split at hs
    · cases hs
      first
        | exact h.enterConnect .user
        | exact h.enterDisconnect .user _ _
        | exact h.enterSend _ hcall
        | exact h.enterPush ⟨.sendReq 0 .RLevelNoReply _ _, hcall, rfl, rfl⟩
        | exact h.enterPush ⟨.disconnect, trivial, rfl, rfl⟩
    · cases hs

theorem step (h : PlainClient z s) {action : Action} (haction : action.Plain z)
    (hs : s.step action = some t) : PlainClient z t := by
  cases action with
  | user call => exact h.userStep haction hs
  | io event =>
      cases TcpClient.ioStep_cases hs with
      | timer u io htimer =>
          obtain ⟨timers, map, pool, created, armed, rfl⟩ := htimer.eq
          exact h.same rfl rfl
      | pop readable hio hmutex =>
          exact h.lock (fun _ hmem => List.mem_of_mem_tail hmem) fun _ _ hnext => .inl hnext
      | enter hio hmutex => exact (h.enterDisconnect .io .kDisCodeKickout false).same rfl rfl
      | inside next hio hmutex => exact h.proceed hmutex
      | _ => exact h.same rfl rfl
  | queue =>
      cases TcpClient.queueStep_cases hs with
      | timer u callback htimer =>
          obtain ⟨timers, map, pool, canceled, rfl⟩ := htimer.eq
          exact h.same rfl rfl
      | enterDisconnect hcallback hmutex =>
          exact (h.enterDisconnect .queue .kDisCodeSendReqTimeout true).same rfl rfl
      | enterConnect hcallback hmutex => exact (h.enterConnect .queue).same rfl rfl
      | inside next hcallback hmutex => exact h.proceed hmutex
      | _ => exact h.same rfl rfl
  | tick nanoseconds =>
      cases hs
      exact h.same rfl rfl
  | pipes ok =>
      cases hs
      exact h.same rfl rfl

end PlainClient

/-! ## What the frames carry -/

/-- The message, but for its header. -/
def SameFields (received m : MessageBase) : Prop :=
  ∃ header, received = m.setHeader header

/-- `Connect` first, and then the messages, with pings between them. -/
def Carries (connect : Option MessageBase) (sent received : List MessageBase) : Prop :=
  match connect, received with
  | none, received => received = [] ∧ sent = []
  | some _, [] => False
  | some connect, first :: rest =>
      SameFields first connect ∧
        List.Forall₂ SameFields (rest.filter fun m => !isPing m) sent

namespace Carries

variable {connect : Option MessageBase} {sent received : List MessageBase}
  {m message : MessageBase}

theorem ping (h : Carries connect sent received) (hconnect : connect ≠ none)
    (hm : isPing m = true) : Carries connect sent (received ++ [m]) := by
  match connect, received, h with
  | none, _, _ => exact absurd rfl hconnect
  | some _, first :: rest, ⟨hfirst, hrest⟩ =>
      refine ⟨hfirst, ?_⟩
      simpa [List.filter_append, hm] using hrest

theorem send (h : Carries connect sent received) (hconnect : connect ≠ none)
    (hsame : SameFields m message) (hm : isPing m = false) :
    Carries connect (sent ++ [message]) (received ++ [m]) := by
  match connect, received, h with
  | none, _, _ => exact absurd rfl hconnect
  | some _, first :: rest, ⟨hfirst, hrest⟩ =>
      refine ⟨hfirst, ?_⟩
      have hone : List.Forall₂ SameFields ([m].filter fun m => !isPing m) [message] := by
        simpa [hm] using hsame
      simpa only [List.append_eq, List.filter_append] using List.rel_append hrest hone

end Carries

namespace WiredClient

variable {z : Gzip} {unset : MessageBase → UInt32} {s t : WiredClient}
  {sent : List MessageBase} {frames : List (MessageBase × List Byte)}

/-- The frames in the socket carry these messages of the session. -/
structure Conversing (z : Gzip) (s : WiredClient) (sent : List MessageBase)
    (frames : List (MessageBase × List Byte)) : Prop where
  taken : s.taken = streamOf frames
  isFrame : ∀ f ∈ frames, IsFrame z f.1 f.2
  carried : Carries s.connect sent (frames.map Prod.fst)
  pushed : s.pushed = sent ++ s.client.pending.map (·.message)
  unpopped : s.client.io.unpopped = true → s.client.messageQueue ≠ []
  connected : s.connect = none → s.client.io.unconnected = true
  connecting : s.client.io.connecting = true → s.connect = none
  socket : s.connect ≠ none → s.writer.socket ≠ none

theorem Conversing.silent (h : Conversing z s sent frames) {action : Action}
    (hsession : ∀ client, s.client.step action = some client →
      TcpClient.SessionStep s.client client)
    (hs : s.goOn action = some t) :
    ∃ sent frames, Conversing z t sent frames := by
  obtain ⟨client, hclient, hcases⟩ := goOn_cases hs
  cases hsession client hclient with
  | same hqueue hsessions hunpopped hunconnected hconnecting =>
      obtain ⟨-, rfl⟩ | ⟨hother, -⟩ := hcases
      · have hpending : client.pending = s.client.pending := by
          rw [TcpClient.pending, TcpClient.pending, hunpopped, hqueue]
        refine ⟨sent, frames, h.taken, h.isFrame, h.carried, ?_, ?_, ?_, ?_, h.socket⟩
        · simp [hqueue, hpending, h.pushed]
        · simpa [hunpopped, hqueue] using h.unpopped
        · exact fun hconnect => hunconnected (h.connected hconnect)
        · exact fun hconnect => h.connecting (hconnecting hconnect)
      · exact absurd hsessions hother
  | push queued hqueue hsessions hio =>
      obtain ⟨-, rfl⟩ | ⟨hother, -⟩ := hcases
      · have hpending : client.pending = s.client.pending ++ [queued] := by
          rw [TcpClient.pending, TcpClient.pending, hio, hqueue]
          split
          · next hunpopped => exact List.tail_append_of_ne_nil (h.unpopped hunpopped)
          · rfl
        refine ⟨sent, frames, h.taken, h.isFrame, h.carried, ?_, ?_, ?_, ?_, h.socket⟩
        · simp [hqueue, hpending, h.pushed]
        · simp [hqueue]
        · rw [hio]
          exact h.connected
        · rw [hio]
          exact h.connecting
      · exact absurd hsessions hother
  | pop hqueue hsessions hunpopped hpopped hconnected hconnecting =>
      obtain ⟨-, rfl⟩ | ⟨hother, -⟩ := hcases
      · have hpending : client.pending = s.client.pending := by
          rw [TcpClient.pending, TcpClient.pending, hpopped, hunpopped, hqueue]
          rfl
        refine ⟨sent, frames, h.taken, h.isFrame, h.carried, ?_, ?_, ?_, ?_, h.socket⟩
        · simp [hqueue, hpending, h.pushed]
        · simp [hpopped]
        · intro hconnect
          rw [h.connected hconnect] at hconnected
          cases hconnected
        · simp [hconnecting]
      · exact absurd hsessions hother
  | renew hqueue hio hsessions =>
      obtain ⟨hsame, -⟩ | ⟨-, rfl⟩ := hcases
      · omega
      · have hpending : client.pending = [] := by
          rw [TcpClient.pending, hqueue]
          split <;> rfl
        exact ⟨[], [], rfl, by simp, ⟨rfl, rfl⟩, by simp [hpending],
          by simp [hio, IoPc.unpopped], fun _ => by rw [hio]; rfl, fun _ => rfl,
          by simp⟩

theorem Conversing.encode (hz : z.Lossless) (h : Conversing z s sent frames)
    (hplain : PlainClient z s.client) {message object : MessageBase} {bytes : List Byte}
    {writer : TcpWriter} (houtgoing : s.client.outgoing = some message)
    (hencode : encodeMessage z message = .ok (object, bytes))
    (hwrite : s.writer.write bytes (.sent bytes.length) = (.ok (), writer))
    (hs : { s with writer }.goOn (.io (.encoded true)) = some t) :
    ∃ sent frames, Conversing z t sent frames := by
  obtain ⟨client, hclient, hcases⟩ := goOn_cases hs
  obtain ⟨hqueue, hsessions, hconnected, hpopped, hconnecting, hmessage⟩ :=
    encoded_step houtgoing hclient
  have hconnect : s.connect ≠ none := by
    intro hnone
    rw [h.connected hnone] at hconnected
    cases hconnected
  obtain ⟨-, rfl⟩ | ⟨hother, -⟩ := hcases
  swap
  · exact absurd hsessions hother
  obtain ⟨m, hshort, hm, hping⟩ : ∃ m : ClientMessage, m.Short z ∧
      message = m.toMessage ∧ isPing message = isPing m.toMessage := by
    obtain ⟨rfl, -⟩ | ⟨queued, rest, hfront, rfl, -⟩ := hmessage
    · exact ⟨.pingReq, trivial, rfl, rfl⟩
    · obtain ⟨m, hshort, hm, -⟩ := hplain.queued queued (by simp [hfront])
      exact ⟨m, hshort, hm, by rw [hm]⟩
  rw [hm] at hencode
  obtain ⟨hframe, header, rfl⟩ := encodeMessage_isFrame hz hshort hencode
  obtain ⟨socket, hsocket⟩ := Option.ne_none_iff_exists'.mp (h.socket hconnect)
  have htaken : socket.accepted ++ bytes.take bytes.length =
      streamOf (frames ++ [(m.toMessage.setHeader header, bytes)]) := by
    have hbefore : socket.accepted = streamOf frames := by
      rw [← h.taken, WiredClient.taken, hsocket]
    rw [hbefore, List.take_length]
    simp [streamOf]
  rw [TcpWriter.write, hsocket] at hwrite
  cases hwrite
  have hframes : ∀ f ∈ frames ++ [(m.toMessage.setHeader header, bytes)],
      IsFrame z f.1 f.2 := by
    intro f hf
    rcases List.mem_append.mp hf with hf | hf
    · exact h.isFrame f hf
    · cases List.mem_singleton.mp hf
      exact hframe
  obtain ⟨rfl, hunpopped⟩ | ⟨queued, rest, hfront, rfl, hunpopped⟩ := hmessage
  · refine ⟨sent, _, htaken, hframes, ?_, ?_, ?_, ?_, ?_, ?_⟩
    · rw [List.map_append]
      exact h.carried.ping hconnect ((isPing_setHeader header _).trans hping.symm)
    · simp [hqueue, h.pushed, TcpClient.pending, hpopped, hunpopped]
    · simp [hunpopped]
    · exact fun hnone => absurd hnone hconnect
    · simp [hconnecting]
    · simp
  · obtain ⟨-, -, -, hnot⟩ := hplain.queued queued (by simp [hfront])
    refine ⟨sent ++ [queued.message], _, htaken, hframes, ?_, ?_,
      ?_, ?_, ?_, ?_⟩
    · rw [List.map_append]
      refine h.carried.send hconnect ⟨header, by rw [hm]⟩ ?_
      exact (isPing_setHeader header _).trans (hping.symm.trans hnot)
    · simp [hqueue, h.pushed, TcpClient.pending, hpopped, hunpopped, hfront]
    · simp [hqueue, hfront]
    · exact fun hnone => absurd hnone hconnect
    · simp [hconnecting]
    · simp

theorem Conversing.attach (hz : z.Lossless) (h : Conversing z s sent frames)
    {found : Surroundings} {server : Delivery} {outcome : ConnectOutcome}
    {reader : TcpReader} (hio : s.client.io = .runConnect)
    (hshort : ∀ connectInfo ∈ found.getConnectInfo, z.Short connectInfo)
    (hrun : exec (runConnect z unset found s.client.shouldReconnect)
      ({ socket := some server } : TcpReader) = (.ok outcome, reader))
    (hs : (s.attach z found server reader).goOn (.io (found.event outcome)) = some t) :
    ∃ sent frames, Conversing z t sent frames := by
  have hnone : s.connect = none := h.connecting (by rw [hio]; rfl)
  have hcarried := h.carried
  rw [hnone] at hcarried
  obtain ⟨-, rfl⟩ := hcarried
  have hpushed : s.pushed = s.client.messageQueue.map (·.message) := by
    rw [h.pushed, TcpClient.pending, hio]
    rfl
  cases hsends : found.sendsConnect z with
  | false =>
      have hattach : s.attach z found server reader = s := by
        simp [WiredClient.attach, Surroundings.request, hsends]
      rw [hattach] at hs
      obtain ⟨client, hclient, hcases⟩ := goOn_cases hs
      obtain ⟨hqueue, hsessions, ret, hret, hsuccess⟩ := event_step hio hclient
      obtain ⟨-, rfl⟩ | ⟨hother, -⟩ := hcases
      · refine ⟨[], frames, h.taken, h.isFrame, h.carried, ?_, ?_, ?_, ?_, h.socket⟩
        · simp [hqueue, hpushed, TcpClient.pending, hret, IoPc.unpopped]
        · simp [hret, IoPc.unpopped]
        · intro _
          rw [hret]
          refine decide_eq_true fun hsame => ?_
          rw [(runConnect_success hrun (hsuccess hsame)).1] at hsends
          cases hsends
        · simp [hret, IoPc.connecting]
      · exact absurd hsessions hother
  | true =>
      obtain ⟨connectInfo, object, bytes, hinfo, hencode, hrequest⟩ :=
        request_of_sendsConnect hsends
      obtain ⟨hframe, header, rfl⟩ := encodeMessage_isFrame hz
        (show (ClientMessage.connect kProtocolVersion (Nat.le_refl _)
          (.ofNat kPingInterval.toNat) kEnableGzip connectInfo).Short z from
            hshort connectInfo hinfo) hencode
      rw [WiredClient.attach, hrequest] at hs
      obtain ⟨client, hclient, hcases⟩ := goOn_cases hs
      obtain ⟨hqueue, hsessions, ret, hret, -⟩ := event_step hio hclient
      obtain ⟨-, rfl⟩ | ⟨hother, -⟩ := hcases
      · refine ⟨[], [(_, bytes)], (List.append_nil bytes).symm, ?_, ⟨⟨header, rfl⟩, .nil⟩,
          ?_, ?_, by simp, ?_, by simp⟩
        · intro f hf
          cases List.mem_singleton.mp hf
          exact hframe
        · simp [hqueue, hpushed, TcpClient.pending, hret, IoPc.unpopped]
        · simp [hret, IoPc.unpopped]
        · simp [hret, IoPc.connecting]
      · exact absurd hsessions hother

/-! ## Runs -/

/-- The calls push what is read back, no string is too long, and `send` takes a
frame whole or fails. -/
def Wholesome (z : Gzip) (s : WiredClient) : WireAction → Prop
  | .client action => action.Plain z
  | .runConnect found _ => ∀ connectInfo ∈ found.getConnectInfo, z.Short connectInfo
  | .encode (.sent sendLen) =>
      ∀ message ∈ s.client.outgoing, ∀ frame ∈ (encodeMessage z message).toOption,
        sendLen = frame.2.length
  | .encode (.failed _) => True
  | .decode => True

theorem goOn_plain (h : PlainClient z s.client) {action : Action}
    (haction : action.Plain z) (hs : s.goOn action = some t) :
    PlainClient z t.client := by
  obtain ⟨client, hclient, ⟨-, rfl⟩ | ⟨-, rfl⟩⟩ := goOn_cases hs
  · exact h.step haction hclient
  · exact h.step haction hclient

theorem goOn_io_plain {event : IoEvent} (hs : s.goOn (.io event) = some t)
    (h : PlainClient z s.client) : PlainClient z t.client :=
  goOn_plain h (show (Action.io event).Plain z from trivial) hs

theorem plain_step (h : PlainClient z s.client) {action : WireAction}
    (hok : Wholesome z s action) (hs : s.step z unset action = some t) :
    PlainClient z t.client := by
  cases step_cases hs with
  | client action hsocket hgo => exact goOn_plain h hok hgo
  | runConnect found server outcome reader hio hrun hgo =>
      refine goOn_io_plain hgo ?_
      unfold attach
      split <;> exact h
  | notEncoded result hgo => exact goOn_io_plain hgo h
  | encoded message object bytes sendLen writer houtgoing hencode hwrite hgo =>
      exact goOn_io_plain hgo h
  | decoded message reader hio hread hgo => exact goOn_io_plain hgo h
  | decodeError reader hio hgo => exact goOn_io_plain hgo h

theorem Conversing.step (hz : z.Lossless) (h : Conversing z s sent frames)
    (hplain : PlainClient z s.client) {action : WireAction}
    (hok : Wholesome z s action) (hs : s.step z unset action = some t) :
    ∃ sent frames, Conversing z t sent frames := by
  have silent {u : WiredClient} {event : IoEvent} (hgo : u.goOn (.io event) = some t)
      (hsilent : event.silent = true) (hu : Conversing z u sent frames) :
      ∃ sent frames, Conversing z t sent frames := by
    refine hu.silent ?_ hgo
    intro client (hclient : u.client.ioStep event = some client)
    exact .of_io_step hsilent hclient
  cases step_cases hs with
  | client action hsocket hgo =>
      exact h.silent (fun client hclient => .of_step hsocket hclient) hgo
  | runConnect found server outcome reader hio hrun hgo =>
      exact h.attach hz hio hok hrun hgo
  | notEncoded result hgo => exact silent hgo rfl h
  | encoded message object bytes sendLen writer houtgoing hencode hwrite hgo =>
      obtain rfl : sendLen = bytes.length :=
        hok message houtgoing (object, bytes) (by rw [hencode]; rfl)
      exact h.encode hz hplain houtgoing hencode hwrite hgo
  | decoded message reader hio hread hgo =>
      exact silent hgo rfl ⟨h.taken, h.isFrame, h.carried, h.pushed, h.unpopped,
        h.connected, h.connecting, h.socket⟩
  | decodeError reader hio hgo =>
      exact silent hgo rfl ⟨h.taken, h.isFrame, h.carried, h.pushed, h.unpopped,
        h.connected, h.connecting, h.socket⟩

abbrev Run (z : Gzip) (unset : MessageBase → UInt32) (s : WiredClient) : Prop :=
  Reachable (WiredClient.step z unset) (Wholesome z) {} s

def Converses (z : Gzip) (s : WiredClient) : Prop :=
  PlainClient z s.client ∧ ∃ sent frames, Conversing z s sent frames

theorem converses_of_run (hz : z.Lossless) (h : Run z unset s) : Converses z s := by
  have hinit : Conversing z {} [] [] :=
    ⟨rfl, by simp, ⟨rfl, rfl⟩, rfl, by simp [TcpClient.init, IoPc.unpopped],
      fun _ => rfl, fun _ => rfl, by simp⟩
  have hstep (u : WiredClient) (action : WireAction) (v : WiredClient)
      (_ : Run z unset u) (hu : Converses z u) (hok : Wholesome z u action)
      (hs : u.step z unset action = some v) : Converses z v := by
    obtain ⟨hplain, sent, frames, hconversing⟩ := hu
    exact ⟨plain_step hplain hok hs, hconversing.step hz hplain hok hs⟩
  exact h.invariant ⟨.init, [], [], hinit⟩ hstep

/-- A server that reads what the session has written, wherever the connection is
cut and however the bytes arrive, gets `Connect` and then, but for pings, messages
that the session's calls have pushed, in order and each as it was. -/
theorem server_gets_pushed (hz : z.Lossless) (h : Run z unset s) :
    ∃ sent received, sent <+: s.pushed ∧ Carries s.connect sent received ∧
      ∀ (cut : List Byte), cut <+: s.taken → cut.length < 2 ^ 31 →
        ∀ (ending : StreamEnd) (counts : Nat → Nat) (turns : Nat),
          s.taken.length < turns →
          ∃ messages, readMessages z turns (TcpReader.start cut ending counts) =
              (messages, some (.tcp ending.exception)) ∧
            messages <+: received ∧ (cut = s.taken → messages = received) := by
  obtain ⟨-, sent, frames, hconversing⟩ := converses_of_run hz h
  refine ⟨sent, frames.map Prod.fst, ?_, hconversing.carried, ?_⟩
  · rw [hconversing.pushed]
    exact List.prefix_append _ _
  intro cut hcut hlen ending counts turns hturns
  rw [hconversing.taken] at hcut hturns
  have hframes := hconversing.isFrame
  have hsocket : (TcpReader.start cut ending counts).socket =
      some ⟨cut, ending, counts, 0⟩ := rfl
  refine ⟨_, TcpReader.readMessages_eq hframes hsocket hcut hlen
    (Nat.lt_of_le_of_lt (length_le_streamOf hframes) hturns), ?_, ?_⟩
  · exact arrived_prefix cut.length frames
  · rintro rfl
    rw [hconversing.taken]
    exact arrived_all frames

instance (z : Gzip) (val : List Byte) : Decidable (z.Short val) :=
  decidable_of_iff
    (val.length < 2 ^ 30 ∧ ∀ output ∈ z.gzipCompress val, output.length < 2 ^ 30) .rfl

instance (z : Gzip) : (action : Action) → Decidable (action.Plain z)
  | .user (.send type payload data _) =>
      inferInstanceAs (Decidable
        (data = none ∧ type.length < 2 ^ 30 ∧ z.Short payload))
  | .user (.sendNoReply type payload) =>
      inferInstanceAs (Decidable (type.length < 2 ^ 30 ∧ z.Short payload))
  | .user .makeSureConnected => .isTrue trivial
  | .user (.disconnectAsync _ _) => .isTrue trivial
  | .user .sendDisconnect => .isTrue trivial
  | .user .proceed => .isTrue trivial
  | .io _ => .isTrue trivial
  | .queue => .isTrue trivial
  | .tick _ => .isTrue trivial
  | .pipes _ => .isTrue trivial

instance (z : Gzip) (s : WiredClient) : (action : WireAction) →
    Decidable (Wholesome z s action)
  | .client action => inferInstanceAs (Decidable (action.Plain z))
  | .runConnect found _ =>
      inferInstanceAs (Decidable (∀ connectInfo ∈ found.getConnectInfo, z.Short connectInfo))
  | .encode (.sent sendLen) =>
      inferInstanceAs (Decidable (∀ message ∈ s.client.outgoing,
        ∀ frame ∈ (encodeMessage z message).toOption, sendLen = frame.2.length))
  | .encode (.failed _) => .isTrue trivial
  | .decode => .isTrue trivial

def sampleFound : Surroundings where
  host := [104]
  backupIp := [105]
  getConnectInfo := some []

def accepting : Delivery := ⟨[0x20, 2, 0, 0], .closed, fun _ => 1, 0⟩

def oneRequest : List WireAction :=
  [.client (.user .makeSureConnected), .client (.user .proceed),
    .client (.user .proceed), .client (.io .none), .runConnect sampleFound accepting,
    .client (.io .none)] ++ TcpClient.sending.map .client ++
    [.client (.io .none), .client (.io .none), .client (.io (.selected true true)),
      .client (.io .none), .client (.io .none), .client (.io .none),
      .client (.io .none), .encode (.sent 26)] ++
    List.replicate 8 (.client (.io .none))

/-- The frame of `Connect`, and that of an empty request. -/
def oneRequestBytes : List Byte :=
  [0x10, 31, 5, 71, 79, 83, 79, 67, 1, 128, 0, 60, 20] ++ emptyGzip ++
    [0x62, 24, 0, 1, 0, 20] ++ emptyGzip

theorem server_gets_pushed_oneRequest :
    ∃ s : WiredClient, s.taken = oneRequestBytes ∧
      s.pushed = [.sendReq { messageId := 1 }] ∧
      ∃ sent received, sent <+: s.pushed ∧ Carries s.connect sent received ∧
        ∀ (cut : List Byte), cut <+: s.taken → cut.length < 2 ^ 31 →
          ∀ (ending : StreamEnd) (counts : Nat → Nat) (turns : Nat),
            s.taken.length < turns →
            ∃ messages, readMessages sampleGzip turns
                (TcpReader.start cut ending counts) =
                  (messages, some (.tcp ending.exception)) ∧
              messages <+: received ∧ (cut = s.taken → messages = received) := by
  have hrun : (run (step sampleGzip fun _ => 0) {} oneRequest).map
      (fun s => (s.taken, s.pushed)) =
        some (oneRequestBytes, [.sendReq { messageId := 1 }]) := by
    decide +kernel
  obtain ⟨s, hs, hlogs⟩ := Option.map_eq_some_iff.mp hrun
  have hmeets : Meets (step sampleGzip fun _ => 0) (Wholesome sampleGzip) {} oneRequest := by
    decide +kernel
  exact ⟨s, congrArg Prod.fst hlogs, congrArg Prod.snd hlogs,
    server_gets_pushed sampleGzip_lossless (.of_meets hmeets hs)⟩

end WiredClient

end GoSocket.Client
