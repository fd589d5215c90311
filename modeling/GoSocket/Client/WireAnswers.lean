import GoSocket.Client.SentRequests
import GoSocket.Client.WireReads
import GoSocket.Client.WireWrites

/-!
# What the callbacks get

A callback that is called with `kErrorCodeNone` gets the payload of a `SendResp`.
Over any number of sessions, each of these calls is traced to a frame that the
server has sent, and to the request that `Send` has pushed.
-/

namespace GoSocket.Client

open GoSocket.Common GoSocket.Foundation GoSocket.Packet GoSocket.Socket

/-- A callback has been called with `kErrorCodeNone` and that payload. -/
structure Answer where
  call : Nat
  payload : List Byte
  deriving DecidableEq, Repr

/-- What the server has sent in a session, and the answers it has come to. -/
structure SessionAnswers where
  server : List Byte
  answers : List Answer

/-- No step reads what is kept beside the client. -/
structure AnsweredClient where
  wired : WiredClient := {}
  requests : List (Nat × SendReq) := []
  answers : List Answer := []
  before : List SessionAnswers := []

/-- `__handleSendResp` calls the callback, with the payload of the message that has
been decoded last. -/
def WiredClient.answering (self : WiredClient) (behind : TcpClient) : List Answer :=
  match self.client.io, behind.io, self.handled.getLast? with
  | .callBack call, .checkPing, some (.sendResp resp) =>
      [{ call, payload := resp.payload }]
  | _, _, _ => []

namespace AnsweredClient

def step (z : Gzip) (unset : MessageBase → UInt32) (self : AnsweredClient)
    (action : WireAction) : Option AnsweredClient :=
  (self.wired.step z unset action).map fun wired =>
    let requests := self.wired.client.entered wired.client ++ self.requests
    if wired.client.history.sessions = self.wired.client.history.sessions then
      { self with
        wired
        requests
        answers := self.answers ++ self.wired.answering wired.client }
    else
      { wired
        requests
        before := { server := self.wired.server, answers := self.answers } :: self.before }

def sessions (self : AnsweredClient) : List SessionAnswers :=
  { server := self.wired.server, answers := self.answers } :: self.before

end AnsweredClient

/-! ## What a step does to the response in hand -/

/-- The I/O thread is in `__handleSendResp`. -/
def IoPc.replying : IoPc → Bool
  | .cancelTimer _ => true
  | .getCallback _ => true
  | .callBack _ => true
  | _ => false

namespace TcpClient

/-- The calls whose callbacks have been called with `kErrorCodeNone`, newest first. -/
def answeredCalls (self : TcpClient) : List Nat :=
  (self.history.invoked.filter fun entry => entry.2 = .kErrorCodeNone).map Prod.fst

inductive ReplyCases (s t : TcpClient) : Action → Prop
  | same {action : Action} (hio : t.io = s.io)
      (hcalls : t.answeredCalls = s.answeredCalls) : ReplyCases s t action
  | aside {action : Action} (hbefore : s.io.replying = false)
      (hio : t.io.replying = false) (hcalls : t.answeredCalls = s.answeredCalls) :
      ReplyCases s t action
  | received (resp : SendResp) (hnext : t.io = .cancelTimer resp.messageId)
      (hcalls : t.answeredCalls = s.answeredCalls) :
      ReplyCases s t (.io (.received (some (.sendResp resp))))
  | cancelTimer {action : Action} (messageId : UInt16) (hio : s.io = .cancelTimer messageId)
      (hnext : t.io = .getCallback messageId)
      (hcalls : t.answeredCalls = s.answeredCalls) : ReplyCases s t action
  | noCallback {action : Action} (messageId : UInt16) (hio : s.io = .getCallback messageId)
      (hnext : t.io = .checkPing) (hcalls : t.answeredCalls = s.answeredCalls) :
      ReplyCases s t action
  | takeCallback {action : Action} (messageId : UInt16) (call : Nat)
      (hio : s.io = .getCallback messageId)
      (hsome : s.callback? messageId = some call) (hnext : t.io = .callBack call)
      (hcalls : t.answeredCalls = s.answeredCalls) : ReplyCases s t action
  | callBack {action : Action} (call : Nat) (hio : s.io = .callBack call)
      (hnext : t.io = .checkPing) (hcalls : t.answeredCalls = call :: s.answeredCalls) :
      ReplyCases s t action

namespace ReplyCases

variable {s t : TcpClient} {action : Action}

private theorem of_invoked (hio : t.io = s.io)
    (hinvoked : t.history.invoked = s.history.invoked) : ReplyCases s t action := by
  refine .same hio ?_
  unfold answeredCalls
  rw [hinvoked]

private theorem of_proceed (hthreads : Threads s) {holder : Holder} {next : Section}
    (hmutex : s.mutex = some (holder, next)) :
    ReplyCases s (s.proceed holder next) action := by
  cases next with
  | connect =>
      simp only [TcpClient.proceed]
      split
      · exact .of_invoked rfl rfl
      · next hthread =>
          refine .aside ?_ rfl rfl
          rw [hthreads.finished_of_connect hmutex (Bool.eq_false_iff.mpr hthread)]
          rfl
  | _ => exact .of_invoked rfl rfl

private theorem of_user (hthreads : Threads s) {call : UserCall}
    (hs : s.userStep call = some t) : ReplyCases s t (.user call) := by
  cases userStep_cases hs with
  | enterSend type payload data hasCallback hfree =>
      unfold enterSend
      dsimp only
      split
      · exact .of_invoked rfl rfl
      · split
        · exact .same rfl rfl
        · exact .of_invoked rfl rfl
  | enterPush message hfree =>
      obtain ⟨mutex, calls, heq⟩ := s.enterPush_eq message
      rw [heq]
      exact .of_invoked rfl rfl
  | inside next hcall hmutex => exact .of_proceed hthreads hmutex
  | _ => exact .of_invoked rfl rfl

private theorem of_queue (hthreads : Threads s) (hs : s.queueStep = some t) :
    ReplyCases s t .queue := by
  cases queueStep_cases hs with
  | timer u callback htimer =>
      obtain ⟨timers, map, pool, canceled, rfl⟩ := htimer.eq
      exact .of_invoked rfl rfl
  | inside next hcallback hmutex => exact .of_proceed hthreads hmutex
  | callTimeout | callLost => exact .same rfl rfl
  | _ => exact .of_invoked rfl rfl

private theorem alarm_replying {io next : IoPc} {action : AlarmAction ClientAlarm}
    (h : IoAlarm io action next) : io.replying = false ∧ next.replying = false := by
  cases h <;> exact ⟨rfl, rfl⟩

private theorem status_replying {io next : IoPc} {status : ConnectStatus}
    (h : IoStatus io status next) : io.replying = false ∧ next.replying = false := by
  cases h <;> exact ⟨rfl, rfl⟩

private theorem of_read {event : IoEvent} (hio : s.io = .read true)
    (hs : s.ioStep event = some t) : ReplyCases s t (.io event) := by
  have hbefore : s.io.replying = false := by rw [hio]; rfl
  unfold ioStep at hs
  rw [hio] at hs
  cases event with
  | received message =>
      cases message with
      | none =>
          cases hs
          exact .aside hbefore rfl rfl
      | some message =>
          have heq : t = s.received message := (Option.some.inj hs).symm
          subst heq
          cases message with
          | sendResp resp => exact .received resp rfl rfl
          | disconnect disconnect =>
              refine .aside hbefore ?_ ?_ <;> unfold TcpClient.received <;> dsimp only <;>
                split <;> rfl
          | _ => exact .aside hbefore rfl rfl
  | _ => cases hs

private theorem of_io (hthreads : Threads s) {event : IoEvent}
    (hs : s.ioStep event = some t) : ReplyCases s t (.io event) := by
  by_cases hread : s.io = .read true
  · exact .of_read hread hs
  cases ioStep_cases hs with
  | move io hmove =>
      refine .aside ?_ ?_ rfl
      · cases hmove <;> simp_all [IoPc.replying]
      · cases hmove <;> first | rfl | exact absurd ‹_› hread
  | alarm action timers io halarm =>
      obtain ⟨hbefore, hnext⟩ := alarm_replying halarm
      exact .aside hbefore hnext rfl
  | status status io hstatus =>
      obtain ⟨hbefore, hnext⟩ := status_replying hstatus
      exact .aside hbefore hnext rfl
  | timer u io htimer =>
      have hinvoked : u.history.invoked = s.history.invoked := by
        obtain ⟨timers, map, pool, created, armed, rfl⟩ := htimer.eq
        rfl
      have hcalls : { u with io }.answeredCalls = s.answeredCalls := by
        unfold answeredCalls
        rw [hinvoked]
      cases htimer with
      | cancelTimer messageId hio hfree => exact .cancelTimer messageId hio rfl hcalls
      | takeAlarm readable written hio => exact .aside (by rw [hio]; rfl) rfl hcalls
      | startAlarm readable written alarm hio => exact .aside (by rw [hio]; rfl) rfl hcalls
      | recordAlarm readable written alarm hio => exact .aside (by rw [hio]; rfl) rfl hcalls
  | encode readable queued rest hio hqueue =>
      refine .aside (by rw [hio]; rfl) ?_ rfl
      unfold behindEncode
      dsimp only
      split <;> rfl
  | noCallback messageId hio hnone => exact .noCallback messageId hio rfl rfl
  | takeCallback messageId call hio hsome => exact .takeCallback messageId call hio hsome rfl rfl
  | callBack call hio => exact .callBack call hio rfl rfl
  | inside next hio hmutex => exact .of_proceed hthreads hmutex
  | refuse | clear | pingTimeout | pop | enter =>
      exact .aside (by simp [*, IoPc.replying]) rfl rfl

theorem of_step (hthreads : Threads s) (hs : s.step action = some t) :
    ReplyCases s t action := by
  cases action with
  | user call => exact .of_user hthreads hs
  | io event => exact .of_io hthreads hs
  | queue => exact .of_queue hthreads hs
  | tick nanoseconds =>
      cases hs
      exact .same rfl rfl
  | pipes ok =>
      cases hs
      exact .same rfl rfl

end ReplyCases

end TcpClient

/-! ## What a step does to what has been decoded -/

namespace WiredClient

variable {z : Gzip} {unset : MessageBase → UInt32} {s t : WiredClient}

inductive HandledCases (s t : WiredClient) : Action → Prop
  | kept {action : Action} (hhandled : t.handled = s.handled)
      (hreceived : ∀ message, action ≠ .io (.received (some message)))
      (hconnecting : t.client.io.connecting = true → s.client.io.connecting = true) :
      HandledCases s t action
  | attached {event : IoEvent} (hio : s.client.io = .runConnect)
      (hnext : t.client.io.replying = false) (hconnecting : t.client.io.connecting = false) :
      HandledCases s t (.io event)
  | decoded (message : MessageBase) (hio : s.client.io = .read true)
      (hhandled : t.handled = s.handled ++ [message])
      (hconnecting : t.client.io.connecting = false) :
      HandledCases s t (.io (.received (some message)))

/-- The client's step within a session, or another session has begun. -/
inductive SessionCases (s t : WiredClient) : Prop
  | within (action : Action) (hs : s.client.step action = some t.client)
      (hsessions : t.client.history.sessions = s.client.history.sessions)
      (hhandled : HandledCases s t action)
  | renewed (action : Action) (hs : s.client.step action = some t.client)
      (hsessions : t.client.history.sessions ≠ s.client.history.sessions)
      (hio : t.client.io = .start) (hhandled : t.handled = [])

private theorem connecting_kept {s t : TcpClient} (h : TcpClient.SessionStep s t)
    (hsame : t.history.sessions = s.history.sessions)
    (hconnecting : t.io.connecting = true) : s.io.connecting = true := by
  cases h with
  | same hqueue hsessions hunpopped hunconnected hkept => exact hkept hconnecting
  | push queued hqueue hsessions hio => rwa [← hio]
  | pop hqueue hsessions hunpopped hpopped hconnected hnot =>
      rw [hnot] at hconnecting
      cases hconnecting
  | renew hqueue hio hsessions => omega

private theorem of_silent {action : Action} (hgo : s.goOn action = some t)
    (hreceived : ∀ message, action ≠ .io (.received (some message)))
    (hsession : ∀ client, s.client.step action = some client →
      TcpClient.SessionStep s.client client) : SessionCases s t := by
  obtain ⟨client, hclient, hcases⟩ := goOn_cases hgo
  obtain ⟨hsame, rfl⟩ | ⟨hother, rfl⟩ := hcases
  · exact .within action hclient hsame
      (.kept rfl hreceived (connecting_kept (hsession client hclient) hsame))
  · refine .renewed action hclient hother ?_ rfl
    cases hsession client hclient with
    | renew hqueue hio hsessions => exact hio
    | same hqueue hsessions | push queued hqueue hsessions | pop hqueue hsessions =>
        exact absurd hsessions hother

theorem session_cases {action : WireAction} (hs : s.step z unset action = some t) :
    SessionCases s t := by
  cases step_cases hs with
  | client action hsocket hgo =>
      refine of_silent hgo ?_ fun client hclient => .of_step hsocket hclient
      rintro message rfl
      cases hsocket
  | runConnect found server outcome reader hio hrun hgo =>
      have hsame : (s.attach z found server reader).client = s.client := by
        unfold WiredClient.attach
        split <;> rfl
      obtain ⟨client, hclient, hcases⟩ := goOn_cases hgo
      rw [hsame] at hclient hcases
      obtain ⟨-, hsessions, ret, hret, -⟩ := event_step hio hclient
      obtain ⟨-, rfl⟩ | ⟨hother, -⟩ := hcases
      · exact .within _ hclient hsessions
          (.attached hio (by simp [hret, IoPc.replying]) (by simp [hret, IoPc.connecting]))
      · exact absurd hsessions hother
  | notEncoded result hgo =>
      refine of_silent hgo (by simp) ?_
      intro client (hclient : s.client.ioStep (.encoded false) = some client)
      exact .of_io_step rfl hclient
  | encoded message object bytes sendLen writer houtgoing hencode hwrite hgo =>
      obtain ⟨client, hclient, hcases⟩ := goOn_cases hgo
      obtain ⟨-, hsessions, -, -, hconnecting, -⟩ := encoded_step houtgoing hclient
      obtain ⟨-, rfl⟩ | ⟨hother, -⟩ := hcases
      · exact .within _ hclient hsessions (.kept rfl (by simp) (by simp [hconnecting]))
      · exact absurd hsessions hother
  | decoded message reader hio hread hgo =>
      obtain ⟨client, hclient, hcases⟩ := goOn_cases hgo
      have hsessions := (received_step hio hclient).1
      obtain ⟨-, rfl⟩ | ⟨hother, -⟩ := hcases
      · refine .within _ hclient hsessions (.decoded message hio rfl ?_)
        by_contra hconnecting
        rw [Bool.not_eq_false] at hconnecting
        have hbefore := connecting_kept (.of_io_step rfl hclient) hsessions hconnecting
        rw [hio] at hbefore
        cases hbefore
      · exact absurd hsessions hother
  | decodeError reader hio hgo =>
      obtain ⟨client, hclient, hcases⟩ := goOn_cases hgo
      obtain ⟨hsessions, hleft⟩ := received_step hio hclient
      obtain ⟨-, rfl⟩ | ⟨hother, -⟩ := hcases
      · exact .within _ hclient hsessions
          (.kept rfl (by simp) (connecting_kept (.of_io_step rfl hclient) hsessions))
      · exact absurd hsessions hother

theorem client_of_run {ok : WiredClient → WireAction → Prop}
    (h : Reachable (step z unset) ok {} s) : Reachable TcpClient.step AnyStep .init s.client := by
  apply h.project client
  intro u action t _ _ hs
  cases session_cases hs with
  | within action' hclient | renewed action' hclient => exact .single action' trivial hclient

end WiredClient

/-! ## Answers, requests and frames -/

/-- The response is one to a request of the call. -/
def IsFor (requests : List (Nat × SendReq)) (call : Nat) (resp : SendResp) : Prop :=
  ∃ sendReq, (call, sendReq) ∈ requests ∧ sendReq.messageId = resp.messageId

/-- The answer is what the response makes of it. -/
structure Answers (requests : List (Nat × SendReq)) (answer : Answer)
    (resp : SendResp) : Prop where
  payload : answer.payload = resp.payload
  isFor : IsFor requests answer.call resp

/-- The answers come, one from each and in their order, from responses among the frames at
the beginning of what the server has sent. -/
def FromFrames (z : Gzip) (requests : List (Nat × SendReq)) (session : SessionAnswers) :
    Prop :=
  ∃ (frames : List (MessageBase × List Byte)) (resps : List SendResp),
    (∀ f ∈ frames, IsFrame z f.1 f.2) ∧ streamOf frames <+: session.server ∧
      (resps.map MessageBase.sendResp).Sublist (frames.map Prod.fst) ∧
        List.Forall₂ (Answers requests) session.answers resps

variable {requests requests' : List (Nat × SendReq)}

theorem IsFor.mono (hsub : requests ⊆ requests') {call : Nat} {resp : SendResp}
    (h : IsFor requests call resp) : IsFor requests' call resp := by
  obtain ⟨sendReq, hmem, hid⟩ := h
  exact ⟨sendReq, hsub hmem, hid⟩

theorem Answers.mono (hsub : requests ⊆ requests') {answer : Answer} {resp : SendResp}
    (h : Answers requests answer resp) : Answers requests' answer resp :=
  ⟨h.payload, h.isFor.mono hsub⟩

theorem FromFrames.mono {z : Gzip} (hsub : requests ⊆ requests')
    {session : SessionAnswers} (h : FromFrames z requests session) :
    FromFrames z requests' session := by
  obtain ⟨frames, resps, hframes, hserver, hresps, hanswers⟩ := h
  exact ⟨frames, resps, hframes, hserver, hresps,
    hanswers.imp fun _ _ hanswer => hanswer.mono hsub⟩

/-- The place of the I/O thread is one of `__handleSendResp` for the response. -/
inductive InHand (requests : List (Nat × SendReq)) (resp : SendResp) : IoPc → Prop
  | cancelTimer : InHand requests resp (.cancelTimer resp.messageId)
  | getCallback : InHand requests resp (.getCallback resp.messageId)
  | callBack {call : Nat} (h : IsFor requests call resp) :
      InHand requests resp (.callBack call)

/-- All that has been decoded is settled, but for the response in hand. -/
inductive Settled (requests : List (Nat × SendReq)) (settled : List MessageBase) :
    List MessageBase → IoPc → Prop
  | all {io : IoPc} (hio : io.replying = false) : Settled requests settled settled io
  | but {io : IoPc} (resp : SendResp) (h : InHand requests resp io) :
      Settled requests settled (settled ++ [.sendResp resp]) io

theorem InHand.mono (hsub : requests ⊆ requests') {resp : SendResp} {io : IoPc}
    (h : InHand requests resp io) : InHand requests' resp io := by
  cases h with
  | cancelTimer => exact .cancelTimer
  | getCallback => exact .getCallback
  | callBack h => exact .callBack (h.mono hsub)

theorem InHand.replying {resp : SendResp} {io : IoPc} (h : InHand requests resp io) :
    io.replying = true := by
  cases h <;> rfl

namespace WiredClient

variable {s t : WiredClient} {action : Action} {answers : List Answer}

theorem HandledCases.of_replying (h : HandledCases s t action)
    (hio : s.client.io.replying = true) : t.handled = s.handled := by
  cases h with
  | kept hhandled => exact hhandled
  | attached hconnect =>
      rw [hconnect] at hio
      cases hio
  | decoded message hread =>
      rw [hread] at hio
      cases hio

theorem answering_eq_nil (s : WiredClient) (behind : TcpClient)
    (h : ∀ call, s.client.io = .callBack call → behind.io ≠ .checkPing) :
    s.answering behind = [] := by
  unfold answering
  split
  · next hio hbehind _ => exact absurd hbehind (h _ hio)
  · rfl

/-- The answers of a session are settled with the responses that they come from. -/
def Matched (requests : List (Nat × SendReq)) (s : WiredClient) (answers : List Answer) :
    Prop :=
  ∃ (settled : List MessageBase) (resps : List SendResp),
    Settled requests settled s.handled s.client.io ∧
      (resps.map MessageBase.sendResp).Sublist settled ∧
        List.Forall₂ (Answers requests) answers resps

theorem Matched.mono (hsub : requests ⊆ requests') (h : Matched requests s answers) :
    Matched requests' s answers := by
  obtain ⟨settled, resps, hsettled, hresps, hanswers⟩ := h
  refine ⟨settled, resps, ?_, hresps, hanswers.imp fun _ _ hanswer => hanswer.mono hsub⟩
  generalize s.handled = handled at hsettled ⊢
  cases hsettled with
  | all hio => exact .all hio
  | but resp hresp => exact .but resp (hresp.mono hsub)

theorem matched_iff (hio : s.client.io.replying = false) :
    Matched requests s answers ↔ ∃ resps : List SendResp,
      (resps.map MessageBase.sendResp).Sublist s.handled ∧
        List.Forall₂ (Answers requests) answers resps := by
  constructor
  · rintro ⟨settled, resps, hsettled, hresps, hanswers⟩
    generalize s.handled = handled at hsettled ⊢
    cases hsettled with
    | all => exact ⟨resps, hresps, hanswers⟩
    | but resp hresp =>
        rw [hresp.replying] at hio
        cases hio
  · rintro ⟨resps, hresps, hanswers⟩
    exact ⟨s.handled, resps, .all hio, hresps, hanswers⟩

private theorem Matched.aside (h : Matched requests s answers)
    (hbefore : s.client.io.replying = false) (hio : t.client.io.replying = false)
    (hhandled : HandledCases s t action)
    (hfresh : s.client.io.connecting = true → answers = []) :
    Matched requests t answers := by
  rw [matched_iff hio]
  obtain ⟨resps, hresps, hanswers⟩ := (matched_iff hbefore).mp h
  cases hhandled with
  | kept hhandled => exact ⟨resps, hhandled ▸ hresps, hanswers⟩
  | attached hconnect =>
      obtain rfl := hfresh (by rw [hconnect]; rfl)
      exact ⟨[], List.nil_sublist _, .nil⟩
  | decoded message hread hhandled =>
      refine ⟨resps, ?_, hanswers⟩
      rw [hhandled]
      exact hresps.trans (List.sublist_append_left _ _)

private theorem Matched.inHand (h : Matched requests s answers)
    (hio : s.client.io.replying = true) :
    ∃ (settled : List MessageBase) (resps : List SendResp) (resp : SendResp),
      s.handled = settled ++ [.sendResp resp] ∧ InHand requests resp s.client.io ∧
        (resps.map MessageBase.sendResp).Sublist settled ∧
          List.Forall₂ (Answers requests) answers resps := by
  obtain ⟨settled, resps, hsettled, hresps, hanswers⟩ := h
  generalize s.handled = handled at hsettled ⊢
  cases hsettled with
  | all hnot =>
      rw [hnot] at hio
      cases hio
  | but resp hresp => exact ⟨settled, resps, resp, rfl, hresp, hresps, hanswers⟩

theorem Matched.step (h : Matched requests s answers)
    (hreply : TcpClient.ReplyCases s.client t.client action)
    (hhandled : HandledCases s t action)
    (hfresh : s.client.io.connecting = true → answers = [])
    (hcallbacks : ∀ messageId call, s.client.callback? messageId = some call →
      ∃ sendReq, (call, sendReq) ∈ requests ∧ sendReq.messageId = messageId) :
    Matched requests t (answers ++ s.answering t.client) ∧
      t.client.answeredCalls =
        ((s.answering t.client).map (·.call)).reverse ++ s.client.answeredCalls := by
  cases hreply with
  | same hio hcalls =>
      have hnil := s.answering_eq_nil t.client fun call hcall => by simp [hio, hcall]
      rw [hnil, List.append_nil]
      refine ⟨?_, hcalls⟩
      cases hreplying : s.client.io.replying with
      | false => exact h.aside hreplying (hio ▸ hreplying) hhandled hfresh
      | true =>
          have hsame := hhandled.of_replying hreplying
          unfold Matched at h ⊢
          rwa [hsame, hio]
  | aside hbefore hio hcalls =>
      have hnil := s.answering_eq_nil t.client fun call hcall => by
        rw [hcall] at hbefore
        cases hbefore
      rw [hnil, List.append_nil]
      refine ⟨?_, hcalls⟩
      exact h.aside hbefore hio hhandled hfresh
  | received resp hnext hcalls =>
      have hnil := s.answering_eq_nil t.client fun call _ => by simp [hnext]
      rw [hnil, List.append_nil]
      refine ⟨?_, hcalls⟩
      cases hhandled with
      | kept hhandled hreceived => exact absurd rfl (hreceived _)
      | attached hconnect hnot =>
          rw [hnext] at hnot
          cases hnot
      | decoded message hread hhandled =>
          obtain ⟨resps, hresps, hanswers⟩ := (matched_iff (by rw [hread]; rfl)).mp h
          refine ⟨s.handled, resps, ?_, hresps, hanswers⟩
          rw [hhandled, hnext]
          exact .but resp .cancelTimer
  | cancelTimer messageId hio hnext hcalls =>
      have hnil := s.answering_eq_nil t.client fun call _ => by simp [hnext]
      rw [hnil, List.append_nil]
      refine ⟨?_, hcalls⟩
      have hreplying : s.client.io.replying = true := by rw [hio]; rfl
      obtain ⟨settled, resps, resp, hhand, hresp, hresps, hanswers⟩ := h.inHand hreplying
      refine ⟨settled, resps, ?_, hresps, hanswers⟩
      rw [hhandled.of_replying hreplying, hhand, hnext]
      rw [hio] at hresp
      cases hresp
      exact .but resp .getCallback
  | noCallback messageId hio hnext hcalls =>
      have hnil := s.answering_eq_nil t.client fun call hcall => by simp [hcall] at hio
      rw [hnil, List.append_nil]
      refine ⟨?_, hcalls⟩
      have hreplying : s.client.io.replying = true := by rw [hio]; rfl
      obtain ⟨settled, resps, resp, hhand, hresp, hresps, hanswers⟩ := h.inHand hreplying
      refine (matched_iff (by rw [hnext]; rfl)).mpr ⟨resps, ?_, hanswers⟩
      rw [hhandled.of_replying hreplying, hhand]
      exact hresps.trans (List.sublist_append_left _ _)
  | takeCallback messageId call hio hsome hnext hcalls =>
      have hnil := s.answering_eq_nil t.client fun call _ => by simp [hnext]
      rw [hnil, List.append_nil]
      refine ⟨?_, hcalls⟩
      have hreplying : s.client.io.replying = true := by rw [hio]; rfl
      obtain ⟨settled, resps, resp, hhand, hresp, hresps, hanswers⟩ := h.inHand hreplying
      refine ⟨settled, resps, ?_, hresps, hanswers⟩
      rw [hhandled.of_replying hreplying, hhand, hnext]
      rw [hio] at hresp
      cases hresp
      exact .but resp (.callBack (hcallbacks _ _ hsome))
  | callBack call hio hnext hcalls =>
      have hreplying : s.client.io.replying = true := by rw [hio]; rfl
      obtain ⟨settled, resps, resp, hhand, hresp, hresps, hanswers⟩ := h.inHand hreplying
      have hanswering : s.answering t.client = [{ call, payload := resp.payload }] := by
        simp [answering, hio, hnext, hhand]
      rw [hio] at hresp
      cases hresp with
      | callBack hfor =>
      rw [hanswering]
      refine ⟨(matched_iff (by rw [hnext]; rfl)).mpr ⟨resps ++ [resp], ?_, ?_⟩, hcalls⟩
      · rw [hhandled.of_replying hreplying, hhand, List.map_append]
        exact hresps.append (List.Sublist.refl _)
      · exact List.rel_append hanswers (.cons ⟨rfl, hfor⟩ .nil)

theorem Matched.fromFrames {z : Gzip} (h : Matched requests s answers)
    (hhandles : Handles z s) : FromFrames z requests { server := s.server, answers } := by
  obtain ⟨settled, resps, hsettled, hresps, hanswers⟩ := h
  obtain ⟨frames, rest, hhandling⟩ := hhandles
  refine ⟨frames, resps, hhandling.isFrame, ?_, ?_, hanswers⟩
  · exact hhandling.server ▸ List.prefix_append _ _
  · rw [← hhandling.handled]
    generalize s.handled = handled at hsettled ⊢
    cases hsettled with
    | all => exact hresps
    | but resp => exact hresps.trans (List.sublist_append_left _ _)

end WiredClient

namespace AnsweredClient

variable {z : Gzip} {unset : MessageBase → UInt32} {s t : AnsweredClient}

structure Traced (z : Gzip) (s : AnsweredClient) : Prop where
  requested : s.wired.client.Requested s.requests
  matched : s.wired.Matched s.requests s.answers
  fresh : s.wired.client.io.connecting = true → s.answers = []
  before : ∀ session ∈ s.before, FromFrames z s.requests session
  calls : s.wired.client.answeredCalls =
    s.sessions.flatMap fun session => (session.answers.map (·.call)).reverse

namespace Traced

theorem init : Traced z {} where
  requested := .init
  matched := ⟨[], [], .all rfl, List.nil_sublist _, .nil⟩
  fresh _ := rfl
  before := by simp
  calls := rfl

theorem step {action : WireAction} (h : Traced z s) (hthreads : s.wired.client.Threads)
    (hbooks : s.wired.client.Books) (hnumbered : s.wired.client.Numbered)
    (hhandles : WiredClient.Handles z s.wired) (hs : s.step z unset action = some t) :
    Traced z t := by
  obtain ⟨wired, hwired, rfl⟩ := Option.map_eq_some_iff.mp hs
  have hsub : s.requests ⊆ s.wired.client.entered wired.client ++ s.requests :=
    List.subset_append_right _ _
  cases WiredClient.session_cases hwired with
  | within action' hclient hsame hhandled =>
      have hrequested := h.requested.step hbooks hnumbered hclient
      obtain ⟨hmatched, hcalls⟩ := h.matched.step (.of_step hthreads hclient) hhandled h.fresh
        h.requested.callbacks
      simp only [hsame, if_true]
      refine ⟨hrequested, hmatched.mono hsub, fun hconnecting => ?_,
        fun session hsession => (h.before session hsession).mono hsub, ?_⟩
      · cases hhandled with
        | kept _ _ hkept =>
            have hbefore := hkept hconnecting
            have hnil := s.wired.answering_eq_nil wired.client fun call hcall => by
              rw [hcall] at hbefore
              cases hbefore
            rw [hnil, h.fresh hbefore]
            rfl
        | attached _ _ hnot | decoded _ _ _ hnot =>
            rw [hnot] at hconnecting
            cases hconnecting
      · rw [hcalls, h.calls]
        simp [sessions]
  | renewed action' hclient hother hio hhandled =>
      have hrequested := h.requested.step hbooks hnumbered hclient
      have hcalls : wired.client.answeredCalls = s.wired.client.answeredCalls := by
        cases TcpClient.ReplyCases.of_step hthreads hclient with
        | callBack call _ hnext =>
            rw [hio] at hnext
            cases hnext
        | same | aside | received | cancelTimer | noCallback | takeCallback => assumption
      simp only [hother, if_false]
      refine ⟨hrequested, ?_, fun _ => rfl, fun session hsession => ?_, ?_⟩
      · exact (WiredClient.matched_iff (by rw [hio]; rfl)).mpr ⟨[], List.nil_sublist _, .nil⟩
      · rcases List.mem_cons.mp hsession with rfl | hsession
        · exact (h.matched.fromFrames hhandles).mono hsub
        · exact (h.before session hsession).mono hsub
      · rw [hcalls, h.calls]
        simp [sessions]

end Traced

/-- The server sends less than two gigabytes in a session. -/
def Bounded (self : AnsweredClient) (action : WireAction) : Prop :=
  WiredClient.Bounded self.wired action

theorem wired_of_run (h : Reachable (step z unset) Bounded {} s) :
    Reachable (WiredClient.step z unset) WiredClient.Bounded {} s.wired := by
  apply h.project wired
  intro u action t _ hok hs
  obtain ⟨wired, hwired, rfl⟩ := Option.map_eq_some_iff.mp hs
  refine .single action hok ?_
  rw [hwired]
  dsimp only
  split <;> rfl

theorem traced_of_run (h : Reachable (step z unset) Bounded {} s) : Traced z s := by
  refine h.invariant .init fun u action t hu htraced _ hs => ?_
  have hwired := wired_of_run hu
  have hclient := WiredClient.client_of_run hwired
  exact htraced.step (.of_reachable hclient) (.of_reachable hclient) (.of_reachable hclient)
    (WiredClient.handles_of_run hwired) hs

/-- Over all sessions, each call with `kErrorCodeNone` has the payload of a response that
the server has sent in the session, under the id of the request that the call's `Send`
has pushed; no response serves twice, and no call gets two answers. -/
theorem answers_from_frames (h : Reachable (step z unset) Bounded {} s) :
    (∀ session ∈ s.sessions, FromFrames z s.requests session) ∧
      (s.wired.client.answeredCalls =
        s.sessions.flatMap fun session => (session.answers.map (·.call)).reverse) ∧
      s.wired.client.answeredCalls.Nodup ∧
      (s.requests.map Prod.fst).Nodup ∧
      ∀ queued ∈ s.wired.client.messageQueue, ∀ sendReq,
        (queued.call, sendReq) ∈ s.requests → queued.message = .sendReq sendReq := by
  have htraced := traced_of_run h
  have hwired := wired_of_run h
  have hclient := WiredClient.client_of_run hwired
  refine ⟨fun session hsession => ?_, htraced.calls, ?_, htraced.requested.nodup,
    htraced.requested.queued⟩
  · rcases List.mem_cons.mp hsession with rfl | hsession
    · exact htraced.matched.fromFrames (WiredClient.handles_of_run hwired)
    · exact htraced.before session hsession
  · exact (TcpClient.ledger_linear hclient).nodup.sublist (List.filter_sublist.map Prod.fst)

instance (s : AnsweredClient) (action : WireAction) : Decidable (Bounded s action) :=
  inferInstanceAs (Decidable (WiredClient.Bounded s.wired action))

/-- The server accepts the session and answers the request 1 with `hi`. -/
def answering : Delivery :=
  ⟨[0x20, 2, 0, 0, 0x70, 25, 0, 1, 22] ++ hiGzip, .closed, fun _ => 1, 0⟩

def oneAnswer : List WireAction :=
  [.client (.user .makeSureConnected), .client (.user .proceed),
    .client (.user .proceed), .client (.io .none),
    .runConnect WiredClient.sampleFound answering, .client (.io .none)] ++
    TcpClient.sending.map .client ++
    [.client (.io .none), .client (.io .none), .client (.io (.selected true true)),
      .client (.io .none), .client (.io .none), .client (.io .none),
      .client (.io .none), .encode (.sent 26)] ++
    List.replicate 8 (.client (.io .none)) ++ [.decode] ++
    List.replicate 3 (.client (.io .none))

theorem answers_from_frames_oneAnswer :
    ∃ s : AnsweredClient, s.answers = [{ call := 0, payload := [104, 105] }] ∧
      (∀ session ∈ s.sessions, FromFrames sampleGzip s.requests session) ∧
        (s.wired.client.answeredCalls =
          s.sessions.flatMap fun session => (session.answers.map (·.call)).reverse) ∧
        s.wired.client.answeredCalls.Nodup ∧
        (s.requests.map Prod.fst).Nodup ∧
        ∀ queued ∈ s.wired.client.messageQueue, ∀ sendReq,
          (queued.call, sendReq) ∈ s.requests → queued.message = .sendReq sendReq := by
  have hrun : (run (step sampleGzip fun _ => 0) {} oneAnswer).map (·.answers) =
      some [{ call := 0, payload := [104, 105] }] := by
    decide +kernel
  obtain ⟨s, hs, hanswers⟩ := Option.map_eq_some_iff.mp hrun
  have hmeets : Meets (step sampleGzip fun _ => 0) Bounded {} oneAnswer := by
    decide +kernel
  exact ⟨s, hanswers, answers_from_frames (.of_meets hmeets hs)⟩

end AnsweredClient

end GoSocket.Client
