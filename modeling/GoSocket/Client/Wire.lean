import GoSocket.Client.Delivery
import GoSocket.Client.RunConnect
import GoSocket.Socket.CutDelivery
import GoSocket.Socket.TcpSocket

/-!
# A client and its socket

The client takes its steps on the bytes of the session's socket: `__RunConnect`
writes `Connect` and reads an answer, and `__RunReadWrite` writes what `Send` has
pushed, writes pings, and reads.  What the server gets is compared with what the
calls have pushed, and what the client gets with what the server has sent.
-/

namespace GoSocket.Client

open GoSocket.Common GoSocket.Foundation GoSocket.Packet GoSocket.Socket

structure WiredClient where
  client : TcpClient := .init
  reader : TcpReader := {}
  writer : TcpWriter := {}
  -- what follows belongs to the session in progress, and no step reads it
  connect : Option MessageBase := none
  pushed : List MessageBase := []
  server : List Byte := []
  handled : List MessageBase := []

inductive WireAction where
  | client (action : Action)
  -- `__RunConnect`, with what the server is to send in the session
  | runConnect (found : Surroundings) (server : Delivery)
  -- `EncodeMessage`, with what `send` answers
  | encode (result : SendResult)
  | decode

/-- The event says what `EncodeMessage`, `DecodeMessage` or `__RunConnect` did. -/
def IoEvent.onSocket : IoEvent → Bool
  | .noNet => true
  | .connected _ => true
  | .encoded _ => true
  | .received _ => true
  | _ => false

def Action.onSocket : Action → Bool
  | .io event => event.onSocket
  | _ => false

def TcpClient.outgoing (self : TcpClient) : Option MessageBase :=
  match self.io with
  | .encode _ => self.messageQueue.head?.map (·.message)
  | .sendPing => some (.pingReq {})
  | _ => none

/-- `Connect`, and its bytes, where `__RunConnect` comes to write them. -/
def Surroundings.request (self : Surroundings) (z : Gzip) :
    Option (MessageBase × List Byte) :=
  if self.sendsConnect z then
    match self.getConnectInfo with
    | none => none
    | some connectInfo =>
        let message := .connect (connect connectInfo)
        match encodeMessage z message with
        | .ok (_, bytes) => some (message, bytes)
        | .error _ => none
  else none

namespace WiredClient

/-- The client takes the step; in a new session there is no socket yet. -/
def goOn (self : WiredClient) (action : Action) : Option WiredClient :=
  (self.client.step action).map fun client =>
    if client.history.sessions = self.client.history.sessions then
      { self with
        client
        pushed := self.pushed ++
          (client.messageQueue.drop self.client.messageQueue.length).map (·.message) }
    else { client }

/-- The socket that `__RunConnect` has written to and read from. -/
def attach (z : Gzip) (self : WiredClient) (found : Surroundings) (server : Delivery)
    (reader : TcpReader) : WiredClient :=
  match found.request z with
  | none => self
  | some (connect, bytes) =>
      { self with
        reader
        writer := { socket := some { accepted := bytes } }
        connect := some connect
        server := server.rest
        handled :=
          match exec (decodeMessage z) ({ socket := some server } : TcpReader) with
          | (.ok message, _) => [message]
          | (.error _, _) => [] }

def step (z : Gzip) (unset : MessageBase → UInt32) (self : WiredClient) :
    WireAction → Option WiredClient
  | .client action => if action.onSocket then none else self.goOn action
  | .runConnect found server =>
      if self.client.io ≠ .runConnect then none
      else
        match exec (runConnect z unset found self.client.shouldReconnect)
            ({ socket := some server } : TcpReader) with
        | (.ok outcome, reader) =>
            (self.attach z found server reader).goOn (.io (found.event outcome))
        -- not an exception that `__RunConnect` catches
        | (.error _, _) => none
  | .encode result =>
      match self.client.outgoing with
      | none => none
      | some message =>
          match encodeMessage z message with
          | .error _ => self.goOn (.io (.encoded false))
          | .ok (_, bytes) =>
              if result.Allowed bytes.length then
                match self.writer.write bytes result with
                | (.ok (), writer) => { self with writer }.goOn (.io (.encoded true))
                | (.error _, writer) => { self with writer }.goOn (.io (.encoded false))
              else none
  | .decode =>
      if self.client.io ≠ .read true then none
      else
        match exec (decodeMessage z) self.reader with
        | (.ok message, reader) =>
            { self with reader, handled := self.handled ++ [message] }.goOn
              (.io (.received (some message)))
        | (.error (.tcp _), reader) =>
            { self with reader }.goOn (.io (.received none))
        | (.error _, _) => none

/-- What `send` has taken in the session in progress. -/
def taken (self : WiredClient) : List Byte :=
  match self.writer.socket with
  | some socket => socket.accepted
  | none => []

end WiredClient

/-! ## What a step does to the queue of the session -/

/-- The thread is not in `__RunReadWrite`, or about to leave it. -/
def IoPc.unconnected : IoPc → Bool
  | .finished => true
  | .start => true
  | .runConnect => true
  | .setConnectStatus ret => ret ≠ .kRetConnSuccess
  | .leave => true
  | .leavePingTimeout => true
  | .setDisconnected => true
  | .startReconnect => true
  | _ => false

/-- `__RunConnect` has not come to an end. -/
def IoPc.connecting : IoPc → Bool
  | .start => true
  | .runConnect => true
  | _ => false

/-- The event is not that `__RunConnect` has returned or a frame is written. -/
def IoEvent.silent : IoEvent → Bool
  | .noNet => false
  | .connected _ => false
  | .encoded ok => !ok
  | _ => true

namespace TcpClient

variable {s t : TcpClient}

/-- What the queue holds and the socket has not taken. -/
def pending (self : TcpClient) : List Queued :=
  if self.io.unpopped then self.messageQueue.tail else self.messageQueue

inductive SessionStep (s t : TcpClient) : Prop
  | same (hqueue : t.messageQueue = s.messageQueue)
      (hsessions : t.history.sessions = s.history.sessions)
      (hunpopped : t.io.unpopped = s.io.unpopped)
      (hunconnected : s.io.unconnected = true → t.io.unconnected = true)
      (hconnecting : t.io.connecting = true → s.io.connecting = true)
  | push (queued : Queued) (hqueue : t.messageQueue = s.messageQueue ++ [queued])
      (hsessions : t.history.sessions = s.history.sessions) (hio : t.io = s.io)
  | pop (hqueue : t.messageQueue = s.messageQueue.tail)
      (hsessions : t.history.sessions = s.history.sessions)
      (hunpopped : s.io.unpopped = true) (hpopped : t.io.unpopped = false)
      (hconnected : s.io.unconnected = false) (hconnecting : t.io.connecting = false)
  | renew (hqueue : t.messageQueue = []) (hio : t.io = .start)
      (hsessions : t.history.sessions = s.history.sessions + 1)

namespace SessionStep

theorem of_io (hqueue : t.messageQueue = s.messageQueue)
    (hsessions : t.history.sessions = s.history.sessions) (hio : t.io = s.io) :
    SessionStep s t :=
  .same hqueue hsessions (by rw [hio]) (by rw [hio]; exact id) (by rw [hio]; exact id)

theorem of_proceed (s : TcpClient) (holder : Holder) (next : Section) :
    SessionStep s (s.proceed holder next) := by
  cases next with
  | connect =>
      simp only [TcpClient.proceed]
      split
      · exact .of_io rfl rfl rfl
      · exact .renew rfl rfl rfl
  | pushSendReq call sendReq => exact .push _ rfl rfl rfl
  | pushMessage call message => exact .push _ rfl rfl rfl
  | _ => exact .of_io rfl rfl rfl

theorem of_user {call : UserCall} (hs : s.userStep call = some t) : SessionStep s t := by
  cases userStep_cases hs with
  | enterSend type payload data hasCallback hfree =>
      obtain ⟨mutex, calls, invoked, heq⟩ :=
        s.enterSend_eq type payload data hasCallback
      rw [heq]
      exact .of_io rfl rfl rfl
  | enterPush message hfree =>
      obtain ⟨mutex, calls, heq⟩ := s.enterPush_eq message
      rw [heq]
      exact .of_io rfl rfl rfl
  | inside next hcall hmutex => exact .of_proceed s .user next
  | _ => exact .of_io rfl rfl rfl

theorem of_queue (hs : s.queueStep = some t) : SessionStep s t := by
  cases queueStep_cases hs with
  | timer u callback htimer =>
      obtain ⟨timers, map, pool, canceled, rfl⟩ := htimer.eq
      exact .of_io rfl rfl rfl
  | inside next hcallback hmutex => exact .of_proceed s .queue next
  | _ => exact .of_io rfl rfl rfl

theorem not_silent_of_runConnect {event : IoEvent} (hio : s.io = .runConnect)
    (hs : s.ioStep event = some t) : event.silent = false := by
  unfold ioStep at hs
  rw [hio] at hs
  cases event <;> first | rfl | cases hs

theorem not_silent_of_encode {readable : Bool} {event : IoEvent}
    (hio : s.io = .encode readable) (hunpopped : t.io.unpopped = true)
    (hs : s.ioStep event = some t) : event.silent = false := by
  unfold ioStep at hs
  rw [hio] at hs
  cases event with
  | encoded ok =>
      cases ok with
      | true => rfl
      | false =>
          cases hs
          cases hunpopped
  | _ => cases hs

private theorem alarm_connects {io next : IoPc} {action : AlarmAction ClientAlarm}
    (h : IoAlarm io action next) :
    (io.unconnected = true → next.unconnected = true) ∧ next.connecting = false := by
  cases h <;> exact ⟨by simp [IoPc.unconnected], rfl⟩

private theorem status_connects {io next : IoPc} {status : ConnectStatus}
    (h : IoStatus io status next) :
    (io.unconnected = true → next.unconnected = true) ∧
      (next.connecting = true → io.connecting = true) := by
  cases h <;> simp_all [IoPc.unconnected, IoPc.connecting]

private theorem timer_connects {u : TcpClient} {io : IoPc} (h : IoTimer s u io) :
    s.io.unconnected = false ∧ io.connecting = false := by
  cases h <;> simp [*, IoPc.unconnected, IoPc.connecting]

theorem of_io_step {event : IoEvent} (hsilent : event.silent = true)
    (hs : s.ioStep event = some t) : SessionStep s t := by
  cases ioStep_cases hs with
  | move io hmove =>
      refine .same rfl rfl hmove.unpopped ?_ ?_
      · intro hunconnected
        cases hmove with
        | connected ret hio =>
            rw [not_silent_of_runConnect hio hs] at hsilent
            cases hsilent
        | _ => simp_all [IoPc.unconnected]
      · intro hconnecting
        cases hmove <;> cases hconnecting
  | alarm action timers io halarm =>
      obtain ⟨hunconnected, hconnecting⟩ := alarm_connects halarm
      exact .same rfl rfl halarm.unpopped hunconnected (by simp [hconnecting])
  | status status io hstatus =>
      obtain ⟨hunconnected, hconnecting⟩ := status_connects hstatus
      exact .same rfl rfl hstatus.unpopped hunconnected hconnecting
  | timer u io htimer =>
      have hunpopped := htimer.unpopped
      obtain ⟨hconnected, hconnecting⟩ := timer_connects htimer
      obtain ⟨timers, map, pool, created, armed, rfl⟩ := htimer.eq
      exact .same rfl rfl hunpopped (by simp [hconnected]) (by simp [hconnecting])
  | refuse ret hio =>
      rw [not_silent_of_runConnect hio hs] at hsilent
      cases hsilent
  | encode readable queued rest hio hqueue =>
      have hunpopped : (behindEncode readable queued.call queued.message).unpopped =
          true := by
        unfold behindEncode
        split <;> rfl
      rw [not_silent_of_encode hio hunpopped hs] at hsilent
      cases hsilent
  | pop readable hio hmutex =>
      exact .pop rfl rfl (by rw [hio]; rfl) rfl (by rw [hio]; rfl) rfl
  | inside next hio hmutex => exact .of_proceed s .io next
  | clear | pingTimeout | noCallback | takeCallback | callBack | enter =>
      exact .same rfl rfl (by simp [*, IoPc.unpopped])
        (by simp [*, IoPc.unconnected]) (by simp [IoPc.connecting])

theorem of_step {action : Action} (hsocket : action.onSocket = false)
    (hs : s.step action = some t) : SessionStep s t := by
  cases action with
  | user call => exact .of_user hs
  | io event =>
      refine .of_io_step ?_ hs
      cases event <;> first | rfl | cases hsocket
  | queue => exact .of_queue hs
  | tick nanoseconds =>
      cases hs
      exact .of_io rfl rfl rfl
  | pipes ok =>
      cases hs
      exact .of_io rfl rfl rfl

end SessionStep

end TcpClient

/-! ## What a step is -/

namespace WiredClient

variable {z : Gzip} {unset : MessageBase → UInt32} {s t : WiredClient}

theorem goOn_cases {action : Action} (hs : s.goOn action = some t) :
    ∃ client, s.client.step action = some client ∧
      ((client.history.sessions = s.client.history.sessions ∧
          t = { s with
            client
            pushed := s.pushed ++ (client.messageQueue.drop
              s.client.messageQueue.length).map (·.message) }) ∨
        (client.history.sessions ≠ s.client.history.sessions ∧ t = { client })) := by
  obtain ⟨client, hclient, heq⟩ := Option.map_eq_some_iff.mp hs
  refine ⟨client, hclient, ?_⟩
  split at heq
  · next hsame => exact .inl ⟨hsame, heq.symm⟩
  · next hother => exact .inr ⟨hother, heq.symm⟩

inductive StepCases (z : Gzip) (unset : MessageBase → UInt32) (s t : WiredClient) :
    WireAction → Prop
  | client (action : Action) (hsocket : action.onSocket = false)
      (hgo : s.goOn action = some t) : StepCases z unset s t (.client action)
  | runConnect (found : Surroundings) (server : Delivery) (outcome : ConnectOutcome)
      (reader : TcpReader) (hio : s.client.io = .runConnect)
      (hrun : exec (Client.runConnect z unset found s.client.shouldReconnect)
        ({ socket := some server } : TcpReader) = (.ok outcome, reader))
      (hgo : (s.attach z found server reader).goOn (.io (found.event outcome)) = some t) :
      StepCases z unset s t (.runConnect found server)
  | notEncoded (result : SendResult) (hgo : s.goOn (.io (.encoded false)) = some t) :
      StepCases z unset s t (.encode result)
  | encoded (message object : MessageBase) (bytes : List Byte) (sendLen : Nat)
      (writer : TcpWriter) (houtgoing : s.client.outgoing = some message)
      (hencode : encodeMessage z message = .ok (object, bytes))
      (hwrite : s.writer.write bytes (.sent sendLen) = (.ok (), writer))
      (hgo : { s with writer }.goOn (.io (.encoded true)) = some t) :
      StepCases z unset s t (.encode (.sent sendLen))
  | decoded (message : MessageBase) (reader : TcpReader) (hio : s.client.io = .read true)
      (hread : exec (decodeMessage z) s.reader = (.ok message, reader))
      (hgo : { s with reader, handled := s.handled ++ [message] }.goOn
        (.io (.received (some message))) = some t) :
      StepCases z unset s t .decode
  | decodeError (reader : TcpReader) (hio : s.client.io = .read true)
      (hgo : { s with reader }.goOn (.io (.received none)) = some t) :
      StepCases z unset s t .decode

private theorem write_ok {writer writer' : TcpWriter} {bytes : List Byte}
    {result : SendResult} (h : writer.write bytes result = (.ok (), writer')) :
    ∃ sendLen, result = .sent sendLen := by
  cases result with
  | sent sendLen => exact ⟨sendLen, rfl⟩
  | failed errorNo =>
      obtain ⟨_ | socket⟩ := writer <;> cases h

private theorem write_error {writer writer' : TcpWriter} {bytes : List Byte}
    {result : SendResult} {e : TcpException}
    (h : writer.write bytes result = (.error e, writer')) : writer' = writer := by
  obtain ⟨_ | socket⟩ := writer <;> cases result <;> cases h <;> rfl

theorem step_cases {action : WireAction} (hs : s.step z unset action = some t) :
    StepCases z unset s t action := by
  unfold step at hs
  split at hs
  · next action =>
      split at hs
      · cases hs
      · next hsocket => exact .client action (Bool.eq_false_iff.mpr hsocket) hs
  · next found server =>
      split at hs
      · cases hs
      next hio =>
      split at hs
      · next outcome reader hrun =>
          exact .runConnect found server outcome reader (not_not.mp hio) hrun hs
      · cases hs
  · next result =>
      split at hs
      · cases hs
      next message houtgoing =>
      split at hs
      · exact .notEncoded result hs
      next object bytes hencode =>
      split at hs
      · split at hs
        · next writer hwrite =>
            obtain ⟨sendLen, rfl⟩ := write_ok hwrite
            exact .encoded message object bytes sendLen writer houtgoing hencode hwrite hs
        · next e writer hwrite =>
            rw [write_error hwrite] at hs
            exact .notEncoded result hs
      · cases hs
  · split at hs
    · cases hs
    next hio =>
    split at hs
    · next message reader hread => exact .decoded message reader (not_not.mp hio) hread hs
    · next reader hread => exact .decodeError reader (not_not.mp hio) hs
    · cases hs

theorem encoded_step {client client' : TcpClient} {message : MessageBase}
    (houtgoing : client.outgoing = some message)
    (hs : client.ioStep (.encoded true) = some client') :
    client'.messageQueue = client.messageQueue ∧
      client'.history.sessions = client.history.sessions ∧
      client.io.unconnected = false ∧ client.io.unpopped = false ∧
      client'.io.connecting = false ∧
      ((message = .pingReq {} ∧ client'.io.unpopped = false) ∨
        ∃ queued rest, client.messageQueue = queued :: rest ∧
          message = queued.message ∧ client'.io.unpopped = true) := by
  unfold TcpClient.outgoing at houtgoing
  split at houtgoing
  · next readable hio =>
      cases hqueue : client.messageQueue with
      | nil =>
          rw [hqueue] at houtgoing
          cases houtgoing
      | cons queued rest =>
          rw [hqueue] at houtgoing
          cases houtgoing
          unfold TcpClient.ioStep at hs
          rw [hio] at hs
          change client.encoded readable = some client' at hs
          unfold TcpClient.encoded at hs
          rw [hqueue] at hs
          obtain ⟨call, message⟩ := queued
          cases message <;> cases hs <;>
            exact ⟨hqueue, rfl, by rw [hio]; rfl, by rw [hio]; rfl, rfl,
              .inr ⟨_, _, rfl, rfl, rfl⟩⟩
  · next hio =>
      cases houtgoing
      unfold TcpClient.ioStep at hs
      rw [hio] at hs
      cases hs
      exact ⟨rfl, rfl, by rw [hio]; rfl, by rw [hio]; rfl, rfl, .inl ⟨rfl, rfl⟩⟩
  · cases houtgoing

theorem event_step {client client' : TcpClient} {found : Surroundings}
    {outcome : ConnectOutcome} (hio : client.io = .runConnect)
    (hs : client.ioStep (found.event outcome) = some client') :
    client'.messageQueue = client.messageQueue ∧
      client'.history.sessions = client.history.sessions ∧
      ∃ ret, client'.io = .setConnectStatus ret ∧
        (ret = .kRetConnSuccess → outcome.ret = .kRetConnSuccess) := by
  unfold Surroundings.event TcpClient.ioStep at hs
  rw [hio] at hs
  cases hnet : found.noNet with
  | true =>
      rw [hnet] at hs
      cases hs
      exact ⟨rfl, rfl, _, rfl, by simp⟩
  | false =>
      rw [hnet] at hs
      generalize outcome.ret = ret at hs
      cases ret <;> cases hs <;> exact ⟨rfl, rfl, _, rfl, id⟩

theorem runConnect_success {ρ : Type} [IReader ρ] {found : Surroundings}
    {shouldReconnect : Bool} {outcome : ConnectOutcome} {r r' : ρ}
    (h : exec (runConnect z unset found shouldReconnect) r = (.ok outcome, r'))
    (hret : outcome.ret = .kRetConnSuccess) :
    found.sendsConnect z = true ∧ ∃ m, exec (decodeMessage z) r = (.ok m, r') := by
  unfold runConnect at h
  split at h
  · cases h
    cases hret
  · split at h
    · next hsends =>
        refine ⟨hsends, ?_⟩
        rw [exec_tryCatch] at h
        cases hread : exec (readConnAck z unset shouldReconnect) r with
        | mk result s =>
            rw [hread] at h
            cases result with
            | ok outcome' =>
                cases h
                rw [readConnAck] at hread
                obtain ⟨m, r'', hdecode, hpure⟩ := exec_bind_eq_ok.mp hread
                cases hpure
                exact ⟨m, hdecode⟩
            | error fault =>
                cases fault <;> cases h
                dsimp only at hret
                split at hret <;> cases hret
    · cases h
      cases hret

theorem request_of_sendsConnect {found : Surroundings}
    (h : found.sendsConnect z = true) :
    ∃ connectInfo object bytes, found.getConnectInfo = some connectInfo ∧
      encodeMessage z (.connect (Surroundings.connect connectInfo)) =
        .ok (object, bytes) ∧
      found.request z = some (.connect (Surroundings.connect connectInfo), bytes) := by
  have hsends := h
  unfold Surroundings.sendsConnect at hsends
  cases hinfo : found.getConnectInfo with
  | none =>
      rw [hinfo] at hsends
      simp at hsends
  | some connectInfo =>
      rw [hinfo] at hsends
      simp only [Bool.and_eq_true] at hsends
      cases hencode : (Surroundings.connect connectInfo).encode z with
      | error e =>
          rw [hencode] at hsends
          exact absurd hsends.2.1 (by simp [Except.isOk, Except.toBool])
      | ok written =>
          have hmessage : encodeMessage z (.connect (Surroundings.connect connectInfo)) =
              .ok (.connect written.1, written.2) := by
            rw [encodeMessage, hencode]
            rfl
          refine ⟨connectInfo, _, _, rfl, hmessage, ?_⟩
          unfold Surroundings.request
          rw [if_pos h, hinfo]
          simp only [hmessage]

end WiredClient

end GoSocket.Client
