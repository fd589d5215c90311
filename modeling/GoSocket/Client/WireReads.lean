import GoSocket.Client.Wire

/-!
# What the client gets

What the I/O thread decodes in a session is the beginning of what the server has
sent in it, frame by frame.
-/

namespace GoSocket.Client

open GoSocket.Common GoSocket.Foundation GoSocket.Packet GoSocket.Socket

/-! ## Two readings of one stream -/

theorem messages_prefix {z : Gzip} {frames frames' : List (MessageBase × List Byte)}
    (hframes : ∀ f ∈ frames, IsFrame z f.1 f.2)
    (hframes' : ∀ f ∈ frames', IsFrame z f.1 f.2)
    (h : streamOf frames <+: streamOf frames') :
    frames.map Prod.fst <+: frames'.map Prod.fst := by
  induction frames generalizing frames' with
  | nil => exact List.nil_prefix
  | cons f frames ih =>
      obtain ⟨m, frame⟩ := f
      have hframe : IsFrame z m frame := hframes _ List.mem_cons_self
      obtain ⟨tail, htail⟩ := h
      rw [streamOf_cons, List.append_assoc] at htail
      cases frames' with
      | nil =>
          have hlen := length_le_streamOf hframes
          have hempty := congrArg List.length htail
          simp only [streamOf, List.map_nil, List.flatten_nil, List.length_append,
            List.length_nil, List.length_cons, List.map_cons, List.flatten_cons] at hlen hempty
          omega
      | cons f' frames' =>
          obtain ⟨m', frame'⟩ := f'
          rw [streamOf_cons] at htail
          have hframe' : IsFrame z m' frame' := hframes' _ List.mem_cons_self
          obtain rfl := hframe.unique_message hframe' htail
          obtain rfl := hframe.unique hframe' htail
          refine List.cons_prefix_cons.mpr ⟨rfl, ih ?_ ?_ ?_⟩
          · exact fun f hf => hframes f (List.mem_cons_of_mem _ hf)
          · exact fun f hf => hframes' f (List.mem_cons_of_mem _ hf)
          · exact ⟨tail, List.append_cancel_left htail⟩

/-! ## What a session has decoded -/

namespace WiredClient

variable {z : Gzip} {unset : MessageBase → UInt32} {s t : WiredClient}
  {frames : List (MessageBase × List Byte)} {rest : List Byte}

/-- What has been decoded are the messages of the frames in front of the rest. -/
structure Handling (z : Gzip) (s : WiredClient)
    (frames : List (MessageBase × List Byte)) (rest : List Byte) : Prop where
  isFrame : ∀ f ∈ frames, IsFrame z f.1 f.2
  handled : s.handled = frames.map Prod.fst
  server : s.server = streamOf frames ++ rest
  short : rest.length < 2 ^ 31
  -- behind an exception the reader is not used
  reader : s.client.io.unconnected = false →
    ∃ socket, s.reader.socket = some socket ∧ socket.rest = rest

def Bounded (_ : WiredClient) : WireAction → Prop
  | .runConnect _ server => server.rest.length < 2 ^ 31
  | _ => True

theorem Handling.silent (h : Handling z s frames rest) {action : Action}
    (hsession : ∀ client, s.client.step action = some client →
      TcpClient.SessionStep s.client client)
    (hs : s.goOn action = some t) : ∃ frames rest, Handling z t frames rest := by
  obtain ⟨client, hclient, hcases⟩ := goOn_cases hs
  have keeps (hio : client.io.unconnected = false → s.client.io.unconnected = false)
      (hsame : t = { s with
        client
        pushed := s.pushed ++ (client.messageQueue.drop
          s.client.messageQueue.length).map (·.message) }) :
      ∃ frames rest, Handling z t frames rest := by
    subst hsame
    exact ⟨frames, rest, h.isFrame, h.handled, h.server, h.short,
      fun hnot => h.reader (hio hnot)⟩
  cases hsession client hclient with
  | same hqueue hsessions hunpopped hunconnected hconnecting =>
      obtain ⟨-, hsame⟩ | ⟨hother, -⟩ := hcases
      · refine keeps (fun hnot => ?_) hsame
        by_contra hbefore
        rw [Bool.not_eq_false] at hbefore
        rw [hunconnected hbefore] at hnot
        cases hnot
      · exact absurd hsessions hother
  | push queued hqueue hsessions hio =>
      obtain ⟨-, hsame⟩ | ⟨hother, -⟩ := hcases
      · exact keeps (by rw [hio]; exact id) hsame
      · exact absurd hsessions hother
  | pop hqueue hsessions hunpopped hpopped hconnected hconnecting =>
      obtain ⟨-, hsame⟩ | ⟨hother, -⟩ := hcases
      · exact keeps (fun _ => hconnected) hsame
      · exact absurd hsessions hother
  | renew hqueue hio hsessions =>
      obtain ⟨hsame, -⟩ | ⟨-, rfl⟩ := hcases
      · omega
      · refine ⟨[], [], by simp, rfl, rfl, by simp, fun hnot => ?_⟩
        rw [hio] at hnot
        cases hnot

theorem Handling.attach (h : Handling z s frames rest) {found : Surroundings}
    {server : Delivery} {outcome : ConnectOutcome} {reader : TcpReader}
    (hio : s.client.io = .runConnect) (hshort : server.rest.length < 2 ^ 31)
    (hrun : exec (runConnect z unset found s.client.shouldReconnect)
      ({ socket := some server } : TcpReader) = (.ok outcome, reader))
    (hs : (s.attach z found server reader).goOn (.io (found.event outcome)) = some t) :
    ∃ frames rest, Handling z t frames rest := by
  cases hsends : found.sendsConnect z with
  | false =>
      have hattach : s.attach z found server reader = s := by
        simp [WiredClient.attach, Surroundings.request, hsends]
      rw [hattach] at hs
      obtain ⟨client, hclient, hcases⟩ := goOn_cases hs
      obtain ⟨-, hsessions, ret, hret, hsuccess⟩ := event_step hio hclient
      obtain ⟨-, rfl⟩ | ⟨hother, -⟩ := hcases
      · refine ⟨frames, rest, h.isFrame, h.handled, h.server, h.short, fun hnot => ?_⟩
        have hsame : ret = .kRetConnSuccess := by
          simpa [hret, IoPc.unconnected] using hnot
        rw [(runConnect_success hrun (hsuccess hsame)).1] at hsends
        cases hsends
      · exact absurd hsessions hother
  | true =>
      obtain ⟨connectInfo, object, bytes, -, -, hrequest⟩ := request_of_sendsConnect hsends
      rw [WiredClient.attach, hrequest] at hs
      obtain ⟨client, hclient, hcases⟩ := goOn_cases hs
      obtain ⟨-, hsessions, ret, hret, hsuccess⟩ := event_step hio hclient
      obtain ⟨-, rfl⟩ | ⟨hother, -⟩ := hcases
      swap
      · exact absurd hsessions hother
      have hloop (hnot : client.io.unconnected = false) :
          ∃ m, exec (decodeMessage z) ({ socket := some server } : TcpReader) =
            (.ok m, reader) := by
        have hsame : ret = .kRetConnSuccess := by
          simpa [hret, IoPc.unconnected] using hnot
        exact (runConnect_success hrun (hsuccess hsame)).2
      cases hread : exec (decodeMessage z) ({ socket := some server } : TcpReader) with
      | mk result reader' =>
          cases result with
          | ok m =>
              obtain ⟨frame, socket, hframe, hsocket, hrest⟩ :=
                TcpReader.decodeMessage_ok rfl hshort hread
              refine ⟨[(m, frame)], socket.rest, by simpa using hframe, by simp,
                by simpa [streamOf] using hrest, ?_, fun hnot => ?_⟩
              · rw [hrest, List.length_append] at hshort
                omega
              · obtain ⟨m', hread'⟩ := hloop hnot
                rw [hread] at hread'
                cases hread'
                exact ⟨socket, hsocket, rfl⟩
          | error fault =>
              refine ⟨[], server.rest, by simp, by simp, rfl, hshort,
                fun hnot => ?_⟩
              obtain ⟨m', hread'⟩ := hloop hnot
              rw [hread] at hread'
              cases hread'

theorem received_step {client client' : TcpClient} {message : Option MessageBase}
    (hio : client.io = .read true)
    (hs : client.ioStep (.received message) = some client') :
    client'.history.sessions = client.history.sessions ∧
      (message = none → client'.io.unconnected = true) := by
  unfold TcpClient.ioStep at hs
  rw [hio] at hs
  cases message with
  | none =>
      cases hs
      exact ⟨rfl, fun _ => rfl⟩
  | some message =>
      have hsome : client' = client.received message := (Option.some.inj hs).symm
      subst hsome
      refine ⟨?_, by simp⟩
      cases message with
      | disconnect m =>
          unfold TcpClient.received
          dsimp only
          split <;> rfl
      | _ => rfl

theorem Handling.decode (h : Handling z s frames rest) {message : MessageBase}
    {reader : TcpReader} (hio : s.client.io = .read true)
    (hread : exec (decodeMessage z) s.reader = (.ok message, reader))
    (hs : { s with reader, handled := s.handled ++ [message] }.goOn
      (.io (.received (some message))) = some t) :
    ∃ frames rest, Handling z t frames rest := by
  obtain ⟨client, hclient, ⟨-, rfl⟩ | ⟨hother, -⟩⟩ := goOn_cases hs
  swap
  · exact absurd (received_step hio hclient).1 hother
  obtain ⟨socket, hsocket, rfl⟩ := h.reader (by rw [hio]; rfl)
  obtain ⟨frame, socket', hframe, hsocket', hrest⟩ :=
    TcpReader.decodeMessage_ok hsocket h.short hread
  refine ⟨frames ++ [(message, frame)], socket'.rest, ?_, by simp [h.handled], ?_, ?_,
    fun _ => ⟨socket', hsocket', rfl⟩⟩
  · intro f hf
    rcases List.mem_append.mp hf with hf | hf
    · exact h.isFrame f hf
    · cases List.mem_singleton.mp hf
      exact hframe
  · simp [h.server, hrest, streamOf]
  · have hshort := h.short
    rw [hrest, List.length_append] at hshort
    omega

theorem Handling.step (h : Handling z s frames rest) {action : WireAction}
    (hok : Bounded s action) (hs : s.step z unset action = some t) :
    ∃ frames rest, Handling z t frames rest := by
  cases step_cases hs with
  | client action hsocket hgo =>
      exact h.silent (fun client hclient => .of_step hsocket hclient) hgo
  | runConnect found server outcome reader hio hrun hgo => exact h.attach hio hok hrun hgo
  | notEncoded result hgo =>
      refine h.silent ?_ hgo
      intro client (hclient : s.client.ioStep (.encoded false) = some client)
      exact .of_io_step rfl hclient
  | encoded message object bytes sendLen writer houtgoing hencode hwrite hgo =>
      obtain ⟨client, hclient, hcases⟩ := goOn_cases hgo
      obtain ⟨-, hsessions, hconnected, -⟩ := encoded_step houtgoing hclient
      obtain ⟨-, rfl⟩ | ⟨hother, -⟩ := hcases
      · exact ⟨frames, rest, h.isFrame, h.handled, h.server, h.short,
          fun _ => h.reader hconnected⟩
      · exact absurd hsessions hother
  | decoded message reader hio hread hgo => exact h.decode hio hread hgo
  | decodeError reader hio hgo =>
      obtain ⟨client, hclient, hcases⟩ := goOn_cases hgo
      obtain ⟨hsessions, hleft⟩ := received_step hio hclient
      obtain ⟨-, rfl⟩ | ⟨hother, -⟩ := hcases
      · refine ⟨frames, rest, h.isFrame, h.handled, h.server, h.short, fun hnot => ?_⟩
        rw [hleft rfl] at hnot
        cases hnot
      · exact absurd hsessions hother

def Handles (z : Gzip) (s : WiredClient) : Prop :=
  ∃ frames rest, Handling z s frames rest

theorem handles_of_run (h : Reachable (WiredClient.step z unset) Bounded {} s) :
    Handles z s := by
  have hinit : Handling z {} [] [] :=
    ⟨by simp, rfl, rfl, by simp, fun hnot => by cases hnot⟩
  have hstep (u : WiredClient) (action : WireAction) (v : WiredClient)
      (_ : Reachable (WiredClient.step z unset) Bounded {} u) (hu : Handles z u)
      (hok : Bounded u action) (hs : u.step z unset action = some v) :
      Handles z v := by
    obtain ⟨frames, rest, hhandling⟩ := hu
    exact hhandling.step hok hs
  exact h.invariant ⟨[], [], hinit⟩ hstep

/-- Whatever the calls, the network and the threads do, what the client decodes in
a session are the messages of frames at the beginning of what the server sends.
Where the server sends frames, these are its first ones, each once. -/
theorem client_gets_frames
    (h : Reachable (WiredClient.step z unset) Bounded {} s) :
    (∃ frames : List (MessageBase × List Byte), (∀ f ∈ frames, IsFrame z f.1 f.2) ∧
      s.handled = frames.map Prod.fst ∧ streamOf frames <+: s.server) ∧
      ∀ sent : List (MessageBase × List Byte), (∀ f ∈ sent, IsFrame z f.1 f.2) →
        s.server <+: streamOf sent → s.handled <+: sent.map Prod.fst := by
  obtain ⟨frames, rest, hhandling⟩ := handles_of_run h
  have hbegins : streamOf frames <+: s.server := by
    rw [hhandling.server]
    exact List.prefix_append _ _
  refine ⟨⟨frames, hhandling.isFrame, hhandling.handled, hbegins⟩, ?_⟩
  intro sent hsent hserver
  rw [hhandling.handled]
  exact messages_prefix hhandling.isFrame hsent (hbegins.trans hserver)

instance (s : WiredClient) : (action : WireAction) → Decidable (Bounded s action)
  | .runConnect _ server => inferInstanceAs (Decidable (server.rest.length < 2 ^ 31))
  | .client _ => .isTrue trivial
  | .encode _ => .isTrue trivial
  | .decode => .isTrue trivial

def onePingResp : List WireAction :=
  [.client (.user .makeSureConnected), .client (.user .proceed),
    .client (.user .proceed), .client (.io .none),
    .runConnect { host := [104], backupIp := [105], getConnectInfo := some [] }
      ⟨[0x20, 2, 0, 0, 0x40, 0], .closed, fun _ => 1, 0⟩,
    .client (.io .none), .client (.io .none), .client (.io .none),
    .client (.io (.selected true false)), .client (.io .none), .client (.io .none),
    .client (.io .none), .client (.io .none), .decode]

def onePingRespMessages : List MessageBase :=
  [.connAck { header := { msgType := .kMsgConnAck, remainLen := 2 } },
    .pingResp { header := { msgType := .kMsgPingResp } }]

theorem client_gets_frames_onePingResp :
    ∃ s : WiredClient, s.handled = onePingRespMessages ∧
      s.server = [0x20, 2, 0, 0, 0x40, 0] ∧
      (∃ frames : List (MessageBase × List Byte),
        (∀ f ∈ frames, IsFrame sampleGzip f.1 f.2) ∧
          s.handled = frames.map Prod.fst ∧ streamOf frames <+: s.server) ∧
        ∀ sent : List (MessageBase × List Byte),
          (∀ f ∈ sent, IsFrame sampleGzip f.1 f.2) → s.server <+: streamOf sent →
            s.handled <+: sent.map Prod.fst := by
  have hrun : (run (step sampleGzip fun _ => 0) {} onePingResp).map
      (fun s => (s.handled, s.server)) =
        some (onePingRespMessages, [0x20, 2, 0, 0, 0x40, 0]) := by
    decide +kernel
  obtain ⟨s, hs, hlogs⟩ := Option.map_eq_some_iff.mp hrun
  have hmeets : Meets (step sampleGzip fun _ => 0) Bounded {} onePingResp := by
    decide +kernel
  exact ⟨s, congrArg Prod.fst hlogs, congrArg Prod.snd hlogs,
    client_gets_frames (.of_meets hmeets hs)⟩

end WiredClient

end GoSocket.Client
