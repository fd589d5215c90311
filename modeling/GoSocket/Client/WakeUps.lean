import GoSocket.Client.Callbacks

/-!
# The I/O thread is woken up

What the I/O thread waits for in `Select` is announced on `_readWriteBreaker`:
by who sets `_disCode`, by who pushes a message, and by the ping alarms.  The
thread looks at each of them at a place of its own, and `Select` clears the
breaker in between; behind that place the announcement is out, or on its way.
-/

namespace GoSocket.Client

open GoSocket.Common GoSocket.Foundation GoSocket.Socket

/-- From here to the end of `Select`, `_disCode` is not looked at. -/
def IoPc.pastCode : IoPc → Bool
  | .finished => false
  | .clear _ _ _ => false
  | .checkDisCode _ _ _ => false
  | .leave => false
  | .leavePingTimeout => false
  | .setDisconnected => false
  | .startReconnect => false
  | _ => true

def IoPc.betweenLoops : IoPc → Bool
  | .finished => true
  | .start => true
  | .runConnect => true
  | .setConnectStatus _ => true
  | .setDisconnected => true
  | .startReconnect => true
  | _ => false

/-- From here to the end of `Select`, `_pingTimeoutAlarm` is not looked at. -/
def IoPc.pastPingTimeout (io : IoPc) : Bool :=
  match io with
  | .checkPingTimeout _ _ => false
  | io => io.pastCode && !io.betweenLoops

/-- From here to the end of `Select`, `_pingAlarm` is not looked at. -/
def IoPc.pastPing : IoPc → Bool
  | .sample => true
  | .select _ => true
  | _ => false

/-- `_disCode` is set, and `_readWriteBreaker` not yet broken for it. -/
def Section.breaksForCode : Section → Bool
  | .setShouldReconnect _ => true
  | .breakReadWrite => true
  | _ => false

def Section.afterFailure : Section → Bool
  | .closeReadWrite => true
  | .flagReadWrite => true
  | .flagConnect => true
  | _ => false

namespace TcpClient

/-- The kernel serves the pipes of the breakers throughout. -/
def PipesServe (_ : TcpClient) (action : Action) : Prop := action ≠ .pipes false

instance (self : TcpClient) (action : Action) : Decidable (PipesServe self action) :=
  inferInstanceAs (Decidable (action ≠ .pipes false))

/-- A producer stands between its change of the state and its `Break`. -/
def Producing (self : TcpClient) : Prop :=
  (∃ holder next, self.mutex = some (holder, next) ∧
    (next.breaksForCode = true ∨ next = .wakeUp)) ∨
    self.callback = .breakPing

variable {s t : TcpClient}

/-! ## The breaker serves -/

structure Serving (s : TcpClient) : Prop where
  pipes : s.pipes = true
  intact : s.breaker.Intact
  sections : ∀ holder next, s.mutex = some (holder, next) →
    next.afterFailure = false
  flag : s.shouldNewBreaker = false
  callback : ∀ session, s.callback ≠ .reCreate session

namespace Serving

theorem init : Serving .init := by
  constructor <;> simp [TcpClient.init, Breaker.Intact]

theorem clearBreaker (h : Serving s) :
    s.clearBreaker.Intact ∧ s.clearBreaker.broken = false := by
  obtain ⟨b, ret, hclear, hintact, hbroken⟩ := h.intact.clear s.pipes
  unfold TcpClient.clearBreaker
  rw [hclear]
  exact ⟨hintact, hbroken⟩

private theorem lock (h : Serving s) (hpipes : t.pipes = s.pipes)
    (hintact : t.breaker.Intact)
    (hmutex : ∀ holder next, t.mutex = some (holder, next) →
      next.afterFailure = false)
    (hflag : t.shouldNewBreaker = s.shouldNewBreaker)
    (hcallback : ∀ session, t.callback ≠ .reCreate session) : Serving t :=
  ⟨hpipes.trans h.pipes, hintact, hmutex, hflag.trans h.flag, hcallback⟩

private theorem same (h : Serving s) (hpipes : t.pipes = s.pipes)
    (hbreaker : t.breaker = s.breaker) (hmutex : t.mutex = s.mutex)
    (hflag : t.shouldNewBreaker = s.shouldNewBreaker)
    (hcallback : ∀ session, t.callback ≠ .reCreate session) : Serving t :=
  h.lock hpipes (hbreaker ▸ h.intact) (hmutex ▸ h.sections) hflag hcallback

private theorem enterConnect (h : Serving s) (holder : Holder) :
    Serving (s.enterConnect holder) := by
  refine h.lock rfl h.intact ?_ rfl h.callback
  unfold TcpClient.enterConnect
  intro holder' next hnext
  split at hnext <;> cases hnext
  rfl

private theorem enterDisconnect (h : Serving s) (holder : Holder)
    (code : DisconnectCode) (shouldReconnect : Bool) :
    Serving (s.enterDisconnect holder code shouldReconnect) := by
  refine h.lock rfl h.intact ?_ rfl h.callback
  unfold TcpClient.enterDisconnect
  intro holder' next hnext
  split at hnext <;> cases hnext
  rfl

private theorem proceed (h : Serving s) {holder : Holder} {next : Section}
    (hmutex : s.mutex = some (holder, next)) :
    Serving (s.proceed holder next) := by
  have hpipes := h.pipes
  have hbroken := h.intact.broken_break_
  cases next with
  | connect =>
      simp only [TcpClient.proceed]
      split
      · exact h.lock rfl h.intact (by simp) rfl h.callback
      · refine ⟨h.pipes, h.clearBreaker.1, ?_, rfl, h.callback⟩
        rintro _ _ ⟨⟩
        rfl
  | breakReadWrite =>
      simp only [TcpClient.proceed, hpipes, hbroken.2, if_true]
      refine h.lock hpipes.symm (h.intact.break_ true).1 ?_ rfl h.callback
      rintro _ _ ⟨⟩
      rfl
  | breakConnect =>
      simp only [TcpClient.proceed, hpipes, if_true]
      exact h.lock hpipes.symm h.intact (by simp) rfl h.callback
  | wakeUp =>
      exact h.lock rfl (h.intact.break_ s.pipes).1 (by simp [TcpClient.proceed])
        rfl h.callback
  | assignThread =>
      exact h.lock rfl h.intact (by simp [TcpClient.proceed]) rfl h.callback
  | closeReadWrite => cases h.sections holder _ hmutex
  | flagReadWrite => cases h.sections holder _ hmutex
  | flagConnect => cases h.sections holder _ hmutex
  | disconnect | setShouldReconnect | register | pushSendReq | pushMessage =>
      refine h.lock rfl h.intact ?_ rfl h.callback
      rintro _ _ ⟨⟩
      rfl

private theorem userStep (h : Serving s) {call : UserCall}
    (hs : s.userStep call = some t) : Serving t := by
  cases userStep_cases hs with
  | enterConnect hfree => exact h.enterConnect .user
  | enterDisconnect code shouldReconnect hfree =>
      exact h.enterDisconnect .user code shouldReconnect
  | enterSend type payload data hasCallback hfree =>
      unfold TcpClient.enterSend
      split
      · refine h.lock rfl h.intact ?_ rfl h.callback
        rintro _ _ ⟨⟩
        rfl
      · dsimp only
        split <;>
          exact h.lock rfl h.intact (by simp [issue, callBack, hfree]) rfl h.callback
  | enterPush message hfree =>
      unfold TcpClient.enterPush
      split
      · refine h.lock rfl h.intact ?_ rfl h.callback
        rintro _ _ ⟨⟩
        rfl
      · exact h.lock rfl h.intact (by simp [issue, hfree]) rfl h.callback
  | inside next hcall hmutex => exact h.proceed hmutex

private theorem ioStep (h : Serving s) {event : IoEvent}
    (hs : s.ioStep event = some t) : Serving t := by
  cases ioStep_cases hs with
  | timer u io htimer =>
      obtain ⟨timers, map, pool, created, armed, rfl⟩ := htimer.eq
      exact h.same rfl rfl rfl rfl h.callback
  | clear error readable writable hio =>
      exact h.lock rfl h.clearBreaker.1 h.sections rfl h.callback
  | enter hio hmutex =>
      exact (h.enterDisconnect .io .kDisCodeKickout false).same rfl rfl rfl rfl
        h.callback
  | inside next hio hmutex => exact h.proceed hmutex
  | _ => exact h.same rfl rfl rfl rfl h.callback

private theorem queueStep (h : Serving s) (hs : s.queueStep = some t) :
    Serving t := by
  cases queueStep_cases hs with
  | move callback hmove =>
      refine h.same rfl rfl rfl rfl ?_
      rintro session rfl
      cases hmove with
      | checkNewBreaker _ hcallback hflag => cases h.flag.symm.trans hflag
  | loop timers hcallback hstep =>
      refine h.same rfl rfl rfl rfl ?_
      intro session
      rcases innerCallback_cases timers with hinner | hinner | hinner | hinner |
        ⟨_, _, hinner⟩
      all_goals simp [hinner]
  | timer u callback htimer =>
      have hcallback (session : Nat) : callback ≠ .reCreate session := by
        cases htimer <;> simp
      obtain ⟨timers, map, pool, canceled, rfl⟩ := htimer.eq
      exact h.same rfl rfl rfl rfl hcallback
  | breakPing hcallback =>
      exact h.lock rfl (h.intact.break_ s.pipes).1 h.sections rfl (by simp)
  | enterDisconnect hcallback hmutex =>
      refine (h.enterDisconnect .queue .kDisCodeSendReqTimeout true).same
        rfl rfl rfl rfl ?_
      dsimp only
      split <;> simp
  | enterConnect hcallback hmutex =>
      exact (h.enterConnect .queue).same rfl rfl rfl rfl (by simp)
  | inside next hcallback hmutex => exact h.proceed hmutex
  | reCreate session hcallback => exact absurd hcallback (h.callback session)
  | checkReconnect hcallback =>
      refine h.same rfl rfl rfl rfl ?_
      dsimp only
      split <;> simp
  | _ => exact h.same rfl rfl rfl rfl (by rintro _ ⟨⟩)

theorem step (h : Serving s) {action : Action} (hserve : PipesServe s action)
    (hs : s.step action = some t) : Serving t := by
  cases action with
  | user call => exact h.userStep hs
  | io event => exact h.ioStep hs
  | queue => exact h.queueStep hs
  | tick nanoseconds =>
      cases hs
      exact h.same rfl rfl rfl rfl h.callback
  | pipes ok =>
      cases hs
      cases ok with
      | false => exact absurd rfl hserve
      | true => exact ⟨rfl, h.intact, h.sections, h.flag, h.callback⟩

theorem of_reachable (h : Reachable TcpClient.step PipesServe .init s) :
    Serving s :=
  h.invariant init fun _ _ _ _ hserving hserve hs => hserving.step hserve hs

end Serving

/-! ## The ping alarms -/

/-- Between two loops no ping alarm has a message. -/
structure PingAlarms (s : TcpClient) : Prop where
  ping : s.timers.Identified .pingAlarm
  pingTimeout : s.timers.Identified .pingTimeoutAlarm
  hasCallback : (s.timers.alarms .pingAlarm).hasCallback = true
  between : s.io.betweenLoops = true →
    (s.timers.alarms .pingAlarm).messageId = 0 ∧
      (s.timers.alarms .pingTimeoutAlarm).messageId = 0
  leaving : s.io = .leavePingTimeout →
    (s.timers.alarms .pingAlarm).messageId = 0

theorem IoMove.betweenLoops {io : IoPc} (h : IoMove s io) :
    (io.betweenLoops = true → s.io.betweenLoops = true) ∧
      io ≠ .leavePingTimeout := by
  cases h <;> simp [*, IoPc.betweenLoops]

theorem IoStatus.betweenLoops {io next : IoPc} {status : ConnectStatus}
    (h : IoStatus io status next) :
    (next.betweenLoops = true → io.betweenLoops = true) ∧
      next ≠ .leavePingTimeout := by
  cases h <;> simp [IoPc.betweenLoops]

theorem IoTimer.betweenLoops {u : TcpClient} {io : IoPc} (h : IoTimer s u io) :
    io.betweenLoops = false ∧ io ≠ .leavePingTimeout := by
  cases h <;> simp [IoPc.betweenLoops]

namespace PingAlarms

theorem init : PingAlarms .init := by
  have hidentified (a : ClientAlarm) : TcpClient.init.timers.Identified a :=
    (((Alarms.identified_init a).setCallback _).setCallback _).setCallback _
  refine ⟨hidentified _, hidentified _, ?_, ?_, ?_⟩
  all_goals simp [TcpClient.init, Alarms.setCallback, Alarms.set]

private theorem requests (h : PingAlarms s)
    (htimers : RequestsOnly s.timers t.timers)
    (hio : t.io.betweenLoops = true → s.io.betweenLoops = true)
    (hleaving : t.io = .leavePingTimeout → s.io = .leavePingTimeout) :
    PingAlarms t := by
  have hping : t.timers.alarms .pingAlarm = s.timers.alarms .pingAlarm :=
    htimers.alarms (by simp)
  have hpingTimeout : t.timers.alarms .pingTimeoutAlarm =
      s.timers.alarms .pingTimeoutAlarm := htimers.alarms (by simp)
  constructor
  case ping => exact htimers.identified h.ping
  case pingTimeout => exact htimers.identified h.pingTimeout
  case hasCallback => rw [hping, h.hasCallback]
  case between =>
    rw [hping, hpingTimeout]
    exact fun hbetween => h.between (hio hbetween)
  case leaving =>
    rw [hping]
    exact fun hleave => h.leaving (hleaving hleave)

private theorem same (h : PingAlarms s) (htimers : t.timers = s.timers)
    (hio : t.io.betweenLoops = true → s.io.betweenLoops = true)
    (hleaving : t.io = .leavePingTimeout → s.io = .leavePingTimeout) :
    PingAlarms t :=
  h.requests (htimers ▸ .same) hio hleaving

private theorem loop (h : PingAlarms s) {action : AlarmAction ClientAlarm}
    (hs : s.timers.step action = some t.timers)
    (haction : ∀ a afterSec, action ≠ .start a afterSec) (hio : t.io = s.io) :
    PingAlarms t := by
  have hping {a : ClientAlarm} (hid : (s.timers.alarms a).messageId = 0) :
      (t.timers.alarms a).messageId = 0 :=
    Alarms.messageId_step hs (haction a) hid
  constructor
  case ping => exact h.ping.step hs
  case pingTimeout => exact h.pingTimeout.step hs
  case hasCallback => exact Alarms.hasCallback_step h.hasCallback hs
  case between =>
    rw [hio]
    exact fun hbetween =>
      ⟨hping (h.between hbetween).1, hping (h.between hbetween).2⟩
  case leaving =>
    rw [hio]
    exact fun hleave => hping (h.leaving hleave)

private theorem alarm (h : PingAlarms s) {action : AlarmAction ClientAlarm}
    {timers : Alarms ClientAlarm} {io : IoPc} (halarm : IoAlarm s.io action io)
    (hs : s.timers.step action = some timers) :
    PingAlarms { s with timers, io } := by
  refine ⟨h.ping.step hs, h.pingTimeout.step hs,
    Alarms.hasCallback_step h.hasCallback hs, ?_, ?_⟩
  · intro hbetween
    generalize hpc : s.io = pc at halarm
    cases halarm with
    | leavePingTimeout =>
        refine ⟨Alarms.messageId_step hs (by simp) (h.leaving hpc), ?_⟩
        cases hs
        exact Alarms.messageId_cancel _ _
    | reconnect =>
        obtain ⟨hping, hpingTimeout⟩ := h.between (by rw [hpc]; rfl)
        exact ⟨Alarms.messageId_step hs (by simp) hping,
          Alarms.messageId_step hs (by simp) hpingTimeout⟩
    | _ => cases hbetween
  · rintro rfl
    generalize hpc : s.io = pc at halarm
    cases halarm with
    | leave =>
        cases hs
        exact Alarms.messageId_cancel _ _

private theorem proceed (h : PingAlarms s) (hthreads : Threads s)
    {holder : Holder} {next : Section} (hmutex : s.mutex = some (holder, next)) :
    PingAlarms (s.proceed holder next) := by
  cases next with
  | connect =>
      have hfinished := hthreads.finished_of_connect hmutex
      simp only [TcpClient.proceed]
      split
      · exact h.same rfl id id
      · next hthread =>
          have hio := hfinished (Bool.eq_false_iff.mpr hthread)
          exact h.same rfl (fun _ => by rw [hio]; rfl) (by simp)
  | _ => exact h.same rfl id id

theorem step (h : PingAlarms s) (hthreads : Threads s) {action : Action}
    (hs : s.step action = some t) : PingAlarms t := by
  cases action with
  | user call =>
      cases userStep_cases hs with
      | enterSend type payload data hasCallback hfree =>
          obtain ⟨mutex, calls, invoked, heq⟩ :=
            s.enterSend_eq type payload data hasCallback
          rw [heq]
          exact h.same rfl id id
      | enterPush message hfree =>
          obtain ⟨mutex, calls, heq⟩ := s.enterPush_eq message
          rw [heq]
          exact h.same rfl id id
      | inside next hcall hmutex => exact h.proceed hthreads hmutex
      | _ => exact h.same rfl id id
  | io event =>
      cases ioStep_cases hs with
      | move io hmove =>
          exact h.same rfl hmove.betweenLoops.1
            fun hio => absurd hio hmove.betweenLoops.2
      | alarm action timers io halarm hstep => exact h.alarm halarm hstep
      | status status io hstatus =>
          exact h.same rfl hstatus.betweenLoops.1
            fun hio => absurd hio hstatus.betweenLoops.2
      | timer u io htimer =>
          obtain ⟨hbetween, hleave⟩ := htimer.betweenLoops
          exact h.requests htimer.timers
            (fun hio => absurd hio (by simp [hbetween]))
            fun hio => absurd hio hleave
      | inside next hio hmutex => exact h.proceed hthreads hmutex
      | encode readable queued rest hio =>
          refine h.same rfl ?_ ?_ <;> unfold behindEncode <;> split <;> rintro ⟨⟩
      | refuse | clear | pingTimeout | pop | noCallback | takeCallback
        | callBack | enter =>
          exact h.same rfl (by simp [*, IoPc.betweenLoops]) (by simp)
  | queue =>
      cases queueStep_cases hs with
      | loop timers hcallback hstep =>
          refine h.loop hstep ?_ rfl
          intro a afterSec
          unfold loopAction
          split <;> simp
      | returned timers hcallback hstep =>
          have hreturned : s.timers.step .returned = some timers := hstep
          exact h.loop hreturned (by simp) rfl
      | timer u callback htimer =>
          have htimers := htimer.timers
          obtain ⟨timers, map, pool, canceled, rfl⟩ := htimer.eq
          exact h.requests htimers id id
      | inside next hcallback hmutex => exact h.proceed hthreads hmutex
      | _ => exact h.same rfl id id
  | tick nanoseconds =>
      have htick : s.timers.step (.tick nanoseconds) =
          some { s.timers with now := s.timers.now + nanoseconds } := rfl
      cases hs
      exact h.loop htick (by simp) rfl
  | pipes ok =>
      cases hs
      exact h.same rfl id id

theorem of_reachable {ok : TcpClient → Action → Prop}
    (h : Reachable TcpClient.step ok .init s) : PingAlarms s :=
  h.invariant init fun _ _ _ hu halarms _ hs =>
    halarms.step (.of_reachable hu) hs

end PingAlarms

/-! ## What is set is announced -/

/-- The breaker is broken for `_disCode`, or the lock's holder is about to. -/
def CodeAnnounced (self : TcpClient) : Prop :=
  self.breaker.broken = true ∨ ∃ holder next,
    self.mutex = some (holder, next) ∧ next.breaksForCode = true

def PingAnnounced (self : TcpClient) : Prop :=
  self.breaker.broken = true ∨ self.callback = .breakPing

def MessageAnnounced (self : TcpClient) : Prop :=
  self.breaker.broken = true ∨ ∃ holder, self.mutex = some (holder, .wakeUp)

structure Announced (s : TcpClient) : Prop where
  code : s.io.pastCode = true → s.disCode ≠ .kDisCodeNone → s.CodeAnnounced
  pingTimeout : s.io.pastPingTimeout = true →
    (s.timers.alarms .pingTimeoutAlarm).isAlarm = true → s.PingAnnounced
  ping : s.io.pastPing = true →
    (s.timers.alarms .pingAlarm).isAlarm = true → s.PingAnnounced
  message : s.io = .select false → s.messageQueue ≠ [] → s.MessageAnnounced

theorem IoMove.pastCode {io : IoPc} (h : IoMove s io)
    (hpast : io.pastCode = true) (hcode : s.disCode ≠ .kDisCodeNone) :
    s.io.pastCode = true := by
  cases h <;> simp_all [IoPc.pastCode]

theorem IoMove.pastPingTimeout {io : IoPc} (h : IoMove s io)
    (hpast : io.pastPingTimeout = true)
    (hfired : (s.timers.alarms .pingTimeoutAlarm).isAlarm = true) :
    s.io.pastPingTimeout = true := by
  cases h <;>
    simp_all [IoPc.pastPingTimeout, IoPc.pastCode, IoPc.betweenLoops]

theorem IoMove.pastPing {io : IoPc} (h : IoMove s io)
    (hpast : io.pastPing = true)
    (hfired : (s.timers.alarms .pingAlarm).isAlarm = true) :
    s.io.pastPing = true := by
  cases h with
  | pinging hio hwaiting =>
      rw [Alarm.isAlarm_of_isWaiting hwaiting] at hfired
      cases hfired
  | sample hio hmutex =>
      rw [hio]
      rfl
  | _ => cases hpast

theorem IoAlarm.past {io next : IoPc} {action : AlarmAction ClientAlarm}
    (h : IoAlarm io action next) :
    (next.pastCode = true → io.pastCode = true) ∧
      (next.pastPingTimeout = true → io.pastPingTimeout = true) ∧
      action ≠ .fire ∧ ∀ registered, next ≠ .select registered := by
  cases h <;>
    simp [IoPc.pastPingTimeout, IoPc.pastCode, IoPc.betweenLoops]

theorem IoStatus.past {io next : IoPc} {status : ConnectStatus}
    (h : IoStatus io status next) :
    (next.pastCode = true → io.pastCode = true) ∧
      (next.pastPingTimeout = true → io.betweenLoops = true) ∧
      next.pastPing = false := by
  cases h <;>
    simp [IoPc.pastPingTimeout, IoPc.pastCode, IoPc.betweenLoops, IoPc.pastPing]

theorem IoTimer.past {u : TcpClient} {io : IoPc} (h : IoTimer s u io) :
    s.io.pastCode = true ∧ s.io.pastPingTimeout = true ∧ io.pastPing = false := by
  cases h <;>
    simp [*, IoPc.pastPingTimeout, IoPc.pastCode, IoPc.betweenLoops,
      IoPc.pastPing]

theorem IoMove.queue_empty {io : IoPc} (h : IoMove s io) (hio : io = .select false) :
    s.messageQueue = [] := by
  subst hio
  generalize hregistered : false = registered at h
  cases h with
  | sample hio hmutex => simpa using hregistered

namespace Announced

theorem init : Announced .init := by
  constructor <;>
    simp [TcpClient.init, IoPc.pastCode, IoPc.pastPingTimeout,
      IoPc.betweenLoops, IoPc.pastPing]

private theorem io (h : Announced s) (hbreaker : t.breaker = s.breaker)
    (hmutex : t.mutex = s.mutex) (hcallback : t.callback = s.callback)
    (hcode : t.io.pastCode = true → t.disCode ≠ .kDisCodeNone →
      s.io.pastCode = true ∧ s.disCode ≠ .kDisCodeNone)
    (hpingTimeout : t.io.pastPingTimeout = true →
      (t.timers.alarms .pingTimeoutAlarm).isAlarm = true →
        s.io.pastPingTimeout = true ∧
          (s.timers.alarms .pingTimeoutAlarm).isAlarm = true)
    (hping : t.io.pastPing = true →
      (t.timers.alarms .pingAlarm).isAlarm = true →
        s.io.pastPing = true ∧ (s.timers.alarms .pingAlarm).isAlarm = true)
    (hmessage : t.io = .select false → t.messageQueue ≠ [] →
      s.io = .select false ∧ s.messageQueue ≠ []) : Announced t := by
  constructor
  case code =>
    intro hpast hset
    have hold := h.code (hcode hpast hset).1 (hcode hpast hset).2
    unfold CodeAnnounced at hold ⊢
    rwa [hbreaker, hmutex]
  case pingTimeout =>
    intro hpast hfired
    have hold := h.pingTimeout (hpingTimeout hpast hfired).1
      (hpingTimeout hpast hfired).2
    unfold PingAnnounced at hold ⊢
    rwa [hbreaker, hcallback]
  case ping =>
    intro hpast hfired
    have hold := h.ping (hping hpast hfired).1 (hping hpast hfired).2
    unfold PingAnnounced at hold ⊢
    rwa [hbreaker, hcallback]
  case message =>
    intro hselect hqueue
    have hold := h.message (hmessage hselect hqueue).1 (hmessage hselect hqueue).2
    unfold MessageAnnounced at hold ⊢
    rwa [hbreaker, hmutex]

private theorem other (h : Announced s) (hio : t.io = s.io)
    (hbroken : s.breaker.broken = true → t.breaker.broken = true)
    (hcode : t.disCode ≠ .kDisCodeNone → t.CodeAnnounced ∨
      (s.disCode ≠ .kDisCodeNone ∧ (s.CodeAnnounced → t.CodeAnnounced)))
    (hping : ∀ a, (t.timers.alarms a).isAlarm = true →
      a = .pingAlarm ∨ a = .pingTimeoutAlarm → t.PingAnnounced ∨
        ((s.timers.alarms a).isAlarm = true ∧
          (s.callback = .breakPing → t.PingAnnounced)))
    (hmessage : t.messageQueue ≠ [] → t.MessageAnnounced ∨
      (s.messageQueue ≠ [] ∧ (s.MessageAnnounced → t.MessageAnnounced))) :
    Announced t := by
  have hpinged {a : ClientAlarm} (hfired : (t.timers.alarms a).isAlarm = true)
      (ha : a = .pingAlarm ∨ a = .pingTimeoutAlarm)
      (hold : (s.timers.alarms a).isAlarm = true → s.PingAnnounced) :
      t.PingAnnounced := by
    rcases hping a hfired ha with hannounced | ⟨hfired', hkeep⟩
    · exact hannounced
    · rcases hold hfired' with hb | hcallback
      · exact .inl (hbroken hb)
      · exact hkeep hcallback
  constructor
  case code =>
    rw [hio]
    intro hpast hset
    rcases hcode hset with hannounced | ⟨hset', hkeep⟩
    · exact hannounced
    · exact hkeep (h.code hpast hset')
  case pingTimeout =>
    rw [hio]
    exact fun hpast hfired => hpinged hfired (.inr rfl) (h.pingTimeout hpast)
  case ping =>
    rw [hio]
    exact fun hpast hfired => hpinged hfired (.inl rfl) (h.ping hpast)
  case message =>
    rw [hio]
    intro hselect hqueue
    rcases hmessage hqueue with hannounced | ⟨hqueue', hkeep⟩
    · exact hannounced
    · exact hkeep (h.message hselect hqueue')

private theorem quiet (h : Announced s) (hio : t.io = s.io)
    (hbreaker : t.breaker = s.breaker) (hdisCode : t.disCode = s.disCode)
    (hqueue : t.messageQueue = s.messageQueue)
    (hmutex : (∀ holder next, s.mutex = some (holder, next) →
      next.breaksForCode = false ∧ next ≠ .wakeUp) ∨ t.mutex = s.mutex)
    (hping : ∀ a, (t.timers.alarms a).isAlarm = true →
      a = .pingAlarm ∨ a = .pingTimeoutAlarm → t.PingAnnounced ∨
        ((s.timers.alarms a).isAlarm = true ∧
          (s.callback = .breakPing → t.PingAnnounced))) : Announced t := by
  refine h.other hio (fun hb => by rwa [hbreaker]) ?_ hping ?_
  · rw [hdisCode]
    refine fun hset => .inr ⟨hset, ?_⟩
    rintro (hb | ⟨holder, next, hnext, hbreaks⟩)
    · exact .inl (by rwa [hbreaker])
    · rcases hmutex with hsilent | hmutex
      · cases (hsilent holder next hnext).1.symm.trans hbreaks
      · exact .inr ⟨holder, next, by rwa [hmutex], hbreaks⟩
  · rw [hqueue]
    refine fun hne => .inr ⟨hne, ?_⟩
    rintro (hb | ⟨holder, hnext⟩)
    · exact .inl (by rwa [hbreaker])
    · rcases hmutex with hsilent | hmutex
      · exact absurd rfl (hsilent holder _ hnext).2
      · exact .inr ⟨holder, by rwa [hmutex]⟩

private theorem lock (h : Announced s) (hio : t.io = s.io)
    (hbreaker : t.breaker = s.breaker) (hdisCode : t.disCode = s.disCode)
    (hqueue : t.messageQueue = s.messageQueue)
    (hmutex : ∀ holder next, s.mutex = some (holder, next) →
      next.breaksForCode = false ∧ next ≠ .wakeUp)
    (htimers : t.timers = s.timers) (hcallback : t.callback = s.callback) :
    Announced t := by
  refine h.quiet hio hbreaker hdisCode hqueue (.inl hmutex) ?_
  rw [htimers]
  exact fun a hfired _ => .inr ⟨hfired, fun heq => .inr (hcallback.trans heq)⟩

private theorem callback (h : Announced s) (hcallback : s.callback ≠ .breakPing)
    (hio : t.io = s.io) (hbreaker : t.breaker = s.breaker)
    (hdisCode : t.disCode = s.disCode)
    (hqueue : t.messageQueue = s.messageQueue) (hmutex : t.mutex = s.mutex)
    (htimers : RequestsOnly s.timers t.timers) : Announced t := by
  refine h.quiet hio hbreaker hdisCode hqueue (.inr hmutex) ?_
  intro a hfired ha
  refine .inr ⟨?_, fun heq => absurd heq hcallback⟩
  rcases ha with rfl | rfl
  · rwa [htimers.alarms (a := .pingAlarm) (by simp)] at hfired
  · rwa [htimers.alarms (a := .pingTimeoutAlarm) (by simp)] at hfired

private theorem of_broken (hbroken : t.breaker.broken = true) : Announced t :=
  ⟨fun _ _ => .inl hbroken, fun _ _ => .inl hbroken, fun _ _ => .inl hbroken,
    fun _ _ => .inl hbroken⟩

private theorem push (h : Announced s) {holder : Holder} {next : Section}
    (hmutex : s.mutex = some (holder, next))
    (hsilent : next.breaksForCode = false) (hio : t.io = s.io)
    (hbreaker : t.breaker = s.breaker) (hdisCode : t.disCode = s.disCode)
    (htimers : t.timers = s.timers) (hcallback : t.callback = s.callback)
    (hbehind : t.mutex = some (holder, .wakeUp)) : Announced t := by
  refine h.other hio (fun hb => by rwa [hbreaker]) ?_ ?_
    fun _ => .inl (.inr ⟨holder, hbehind⟩)
  · rw [hdisCode]
    refine fun hset => .inr ⟨hset, ?_⟩
    rintro (hb | ⟨holder', next', hnext, hbreaks⟩)
    · exact .inl (by rwa [hbreaker])
    · rw [hmutex] at hnext
      cases hnext
      cases hsilent.symm.trans hbreaks
  · rw [htimers]
    exact fun a hfired _ => .inr ⟨hfired, fun heq => .inr (hcallback.trans heq)⟩

private theorem disconnect (h : Announced s) {holder : Holder} {next : Section}
    (hmutex : s.mutex = some (holder, next)) (hwake : next ≠ .wakeUp)
    (hio : t.io = s.io) (hbreaker : t.breaker = s.breaker)
    (hqueue : t.messageQueue = s.messageQueue) (htimers : t.timers = s.timers)
    (hcallback : t.callback = s.callback) {next' : Section}
    (hbehind : t.mutex = some (holder, next'))
    (hbreaks : next'.breaksForCode = true) : Announced t := by
  refine h.other hio (fun hb => by rwa [hbreaker])
    (fun _ => .inl (.inr ⟨holder, next', hbehind, hbreaks⟩)) ?_ ?_
  · rw [htimers]
    exact fun a hfired _ => .inr ⟨hfired, fun heq => .inr (hcallback.trans heq)⟩
  · rw [hqueue]
    refine fun hne => .inr ⟨hne, ?_⟩
    rintro (hb | ⟨holder', hnext⟩)
    · exact .inl (by rwa [hbreaker])
    · rw [hmutex] at hnext
      cases hnext
      exact absurd rfl hwake

private theorem proceed (h : Announced s) (hserving : Serving s)
    {holder : Holder} {next : Section} (hmutex : s.mutex = some (holder, next)) :
    Announced (s.proceed holder next) := by
  have hbreak := hserving.intact.broken_break_
  have hsilent (hcode : next.breaksForCode = false) (hwake : next ≠ .wakeUp) :
      ∀ holder' next', s.mutex = some (holder', next') →
        next'.breaksForCode = false ∧ next' ≠ .wakeUp := by
    rw [hmutex]
    rintro _ _ ⟨⟩
    exact ⟨hcode, hwake⟩
  cases next with
  | connect =>
      simp only [TcpClient.proceed]
      split
      · exact h.lock rfl rfl rfl rfl (hsilent rfl (by simp)) rfl rfl
      · constructor
        case code => exact fun _ hset => absurd rfl hset
        all_goals
          simp [IoPc.pastPingTimeout, IoPc.betweenLoops, IoPc.pastPing]
  | assignThread => exact h.lock rfl rfl rfl rfl (hsilent rfl (by simp)) rfl rfl
  | disconnect code shouldReconnect =>
      exact h.disconnect hmutex (by simp) rfl rfl rfl rfl rfl rfl rfl
  | setShouldReconnect shouldReconnect =>
      exact h.disconnect hmutex (by simp) rfl rfl rfl rfl rfl rfl rfl
  | breakReadWrite =>
      exact of_broken (by simp [TcpClient.proceed, hserving.pipes, hbreak.1])
  | closeReadWrite => cases hserving.sections holder _ hmutex
  | flagReadWrite => cases hserving.sections holder _ hmutex
  | breakConnect => exact h.lock rfl rfl rfl rfl (hsilent rfl (by simp)) rfl rfl
  | flagConnect => cases hserving.sections holder _ hmutex
  | register call hasCallback sendReq =>
      exact h.lock rfl rfl rfl rfl (hsilent rfl (by simp)) rfl rfl
  | pushSendReq call sendReq =>
      exact h.push hmutex rfl rfl rfl rfl rfl rfl rfl
  | pushMessage call message =>
      exact h.push hmutex rfl rfl rfl rfl rfl rfl rfl
  | wakeUp =>
      exact of_broken (by simp [TcpClient.proceed, hserving.pipes, hbreak.1])

private theorem userStep (h : Announced s) (hserving : Serving s)
    {call : UserCall} (hs : s.userStep call = some t) : Announced t := by
  have hfree' (hfree : s.mutex = none) : ∀ holder next,
      s.mutex = some (holder, next) →
        next.breaksForCode = false ∧ next ≠ .wakeUp := by
    simp [hfree]
  cases userStep_cases hs with
  | enterConnect hfree => exact h.lock rfl rfl rfl rfl (hfree' hfree) rfl rfl
  | enterDisconnect code shouldReconnect hfree =>
      exact h.lock rfl rfl rfl rfl (hfree' hfree) rfl rfl
  | enterSend type payload data hasCallback hfree =>
      obtain ⟨mutex, calls, invoked, heq⟩ :=
        s.enterSend_eq type payload data hasCallback
      rw [heq]
      exact h.lock rfl rfl rfl rfl (hfree' hfree) rfl rfl
  | enterPush message hfree =>
      obtain ⟨mutex, calls, heq⟩ := s.enterPush_eq message
      rw [heq]
      exact h.lock rfl rfl rfl rfl (hfree' hfree) rfl rfl
  | inside next hcall hmutex => exact h.proceed hserving hmutex

private theorem inLoop (h : Announced s) (hbreaker : t.breaker = s.breaker)
    (hmutex : t.mutex = s.mutex) (hcallback : t.callback = s.callback)
    (hdisCode : t.disCode = s.disCode)
    (htimers : RequestsOnly s.timers t.timers)
    (hpast : s.io.pastCode = true ∧ s.io.pastPingTimeout = true)
    (hping : t.io.pastPing = false) : Announced t := by
  refine h.io hbreaker hmutex hcallback ?_ ?_ ?_ ?_
  · rw [hdisCode]
    exact fun _ hset => ⟨hpast.1, hset⟩
  · rw [htimers.alarms (a := .pingTimeoutAlarm) (by simp)]
    exact fun _ hfired => ⟨hpast.2, hfired⟩
  · exact fun hpast' => absurd hpast' (by simp [hping])
  · intro hselect
    rw [hselect] at hping
    cases hping

private theorem alarm (h : Announced s) (halarms : PingAlarms s)
    {action : AlarmAction ClientAlarm} {timers : Alarms ClientAlarm} {io : IoPc}
    (halarm : IoAlarm s.io action io) (hs : s.timers.step action = some timers) :
    Announced { s with timers, io } := by
  obtain ⟨hcode, hpingTimeout, hfire, hselect⟩ := halarm.past
  refine h.io rfl rfl rfl ?_ ?_ ?_ ?_
  · exact fun hpast hset => ⟨hcode hpast, hset⟩
  · exact fun hpast hfired =>
      ⟨hpingTimeout hpast, Alarms.isAlarm_step hs hfire hfired⟩
  · intro hpast hfired
    generalize s.io = pc at halarm
    cases halarm with
    | startPing =>
        cases hs
        have hwaiting := Alarms.isWaiting_start halarms.hasCallback kPingInterval
        cases (Alarm.isAlarm_of_isWaiting hwaiting).symm.trans hfired
    | _ => cases hpast
  · exact fun heq => absurd heq (hselect false)

private theorem ioStep (h : Announced s) (hserving : Serving s)
    (halarms : PingAlarms s) {event : IoEvent}
    (hs : s.ioStep event = some t) : Announced t := by
  cases ioStep_cases hs with
  | move io hmove =>
      refine h.io rfl rfl rfl ?_ ?_ ?_ ?_
      · exact fun hpast hset => ⟨hmove.pastCode hpast hset, hset⟩
      · exact fun hpast hfired => ⟨hmove.pastPingTimeout hpast hfired, hfired⟩
      · exact fun hpast hfired => ⟨hmove.pastPing hpast hfired, hfired⟩
      · exact fun hselect hne => absurd (hmove.queue_empty hselect) hne
  | alarm action timers io halarm hstep => exact h.alarm halarms halarm hstep
  | status status io hstatus =>
      obtain ⟨hcode, hbetween, hping⟩ := hstatus.past
      refine h.io rfl rfl rfl (fun hpast hset => ⟨hcode hpast, hset⟩) ?_ ?_ ?_
      · intro hpast hfired
        have hid := (halarms.between (hbetween hpast)).2
        cases (halarms.pingTimeout.alarm hid).1.symm.trans hfired
      · exact fun hpast => absurd hpast (by simp [hping])
      · rintro rfl
        cases hping
  | timer u io htimer =>
      have htimers := htimer.timers
      obtain ⟨hcode, hpingTimeout, hping⟩ := htimer.past
      obtain ⟨timers, map, pool, created, armed, rfl⟩ := htimer.eq
      exact h.inLoop rfl rfl rfl rfl htimers ⟨hcode, hpingTimeout⟩ hping
  | refuse ret hio =>
      refine h.io rfl rfl rfl (fun _ hset => ⟨by rw [hio]; rfl, hset⟩) ?_ ?_ ?_
      all_goals
        simp [IoPc.pastPingTimeout, IoPc.betweenLoops, IoPc.pastPing]
  | clear error readable writable hio =>
      constructor <;>
        simp [IoPc.pastPingTimeout, IoPc.pastCode, IoPc.pastPing]
  | pingTimeout readable writable hio =>
      constructor <;>
        simp [IoPc.pastPingTimeout, IoPc.pastCode, IoPc.pastPing]
  | encode readable queued rest hio hqueue =>
      refine h.inLoop rfl rfl rfl rfl .same (by rw [hio]; exact ⟨rfl, rfl⟩) ?_
      unfold behindEncode
      split <;> rfl
  | pop readable hio hmutex =>
      exact h.inLoop rfl rfl rfl rfl .same (by rw [hio]; exact ⟨rfl, rfl⟩) rfl
  | noCallback messageId hio hnone =>
      exact h.inLoop rfl rfl rfl rfl .same (by rw [hio]; exact ⟨rfl, rfl⟩) rfl
  | takeCallback messageId call hio hsome =>
      exact h.inLoop rfl rfl rfl rfl .same (by rw [hio]; exact ⟨rfl, rfl⟩) rfl
  | callBack call hio =>
      exact h.inLoop rfl rfl rfl rfl .same (by rw [hio]; exact ⟨rfl, rfl⟩) rfl
  | enter hio hfree =>
      have hentered : Announced (s.enterDisconnect .io .kDisCodeKickout false) :=
        h.lock rfl rfl rfl rfl (by simp [hfree]) rfl rfl
      have hpast : (s.enterDisconnect .io .kDisCodeKickout false).io =
          .disconnectAsync := hio
      exact hentered.inLoop rfl rfl rfl rfl .same
        (by rw [hpast]; exact ⟨rfl, rfl⟩) rfl
  | inside next hio hmutex => exact h.proceed hserving hmutex

private theorem loop (h : Announced s) {timers : Alarms ClientAlarm}
    (hidle : s.callback = .idle)
    (hs : s.timers.step (loopAction s.timers.queue.loop) = some timers) :
    Announced { s with timers, callback := innerCallback timers } := by
  refine h.quiet rfl rfl rfl rfl (.inr rfl) ?_
  intro a hfired ha
  by_cases hfire : loopAction s.timers.queue.loop = .fire
  · rw [hfire] at hs
    cases Alarms.step_alarm hs a with
    | same heq =>
        refine .inr ⟨?_, fun hbreak => absurd hbreak (by simp [hidle])⟩
        change (timers.alarms a).isAlarm = true at hfired
        rwa [heq] at hfired
    | fire messageId start pass hid hfiring hloop heq =>
        refine .inl (.inr ?_)
        rcases ha with rfl | rfl <;> simp [innerCallback, hfiring, hloop]
  · exact .inr ⟨Alarms.isAlarm_step hs hfire hfired,
      fun hbreak => absurd hbreak (by simp [hidle])⟩

private theorem queueStep (h : Announced s) (hserving : Serving s)
    (hs : s.queueStep = some t) : Announced t := by
  cases queueStep_cases hs with
  | move callback hmove =>
      have hcallback : s.callback ≠ .breakPing := by
        cases hmove <;> simp [*]
      exact h.callback hcallback rfl rfl rfl rfl rfl .same
  | loop timers hcallback hstep => exact h.loop hcallback hstep
  | returned timers hcallback hstep =>
      have hreturned : s.timers.step .returned = some timers := hstep
      refine h.quiet rfl rfl rfl rfl (.inr rfl) fun a hfired _ => ?_
      exact .inr ⟨Alarms.isAlarm_step hreturned (by simp) hfired,
        fun hbreak => absurd hbreak (by simp [hcallback])⟩
  | timer u callback htimer =>
      have hcallback : s.callback ≠ .breakPing := by
        cases htimer <;> simp [*]
      have htimers := htimer.timers
      obtain ⟨timers, map, pool, canceled, rfl⟩ := htimer.eq
      exact h.callback hcallback rfl rfl rfl rfl rfl htimers
  | breakPing hcallback =>
      refine of_broken ?_
      rw [hserving.pipes]
      exact hserving.intact.broken_break_.1
  | enterDisconnect hcallback hfree =>
      have hentered :
          Announced (s.enterDisconnect .queue .kDisCodeSendReqTimeout true) :=
        h.lock rfl rfl rfl rfl (by simp [hfree]) rfl rfl
      refine hentered.callback ?_ rfl rfl rfl rfl rfl .same
      simp [TcpClient.enterDisconnect, hcallback]
  | enterConnect hcallback hfree =>
      have hentered : Announced (s.enterConnect .queue) :=
        h.lock rfl rfl rfl rfl (by simp [hfree]) rfl rfl
      refine hentered.callback ?_ rfl rfl rfl rfl rfl .same
      simp [TcpClient.enterConnect, hcallback]
  | inside next hcallback hmutex => exact h.proceed hserving hmutex
  | reCreate session hcallback => exact absurd hcallback (hserving.callback session)
  | noTimeout | takeTimeout | callTimeout | setTimeoutDisconnect | clearThread
    | noLost | takeLost | callLost | tearDown | reCreateConn | checkReconnect =>
      exact h.callback (by simp [*]) rfl rfl rfl rfl rfl .same

theorem step (h : Announced s) (hserving : Serving s) (halarms : PingAlarms s)
    {action : Action} (hs : s.step action = some t) : Announced t := by
  cases action with
  | user call => exact h.userStep hserving hs
  | io event => exact h.ioStep hserving halarms hs
  | queue => exact h.queueStep hserving hs
  | tick nanoseconds =>
      cases hs
      exact ⟨h.code, h.pingTimeout, h.ping, h.message⟩
  | pipes ok =>
      cases hs
      exact ⟨h.code, h.pingTimeout, h.ping, h.message⟩

theorem of_reachable (h : Reachable TcpClient.step PipesServe .init s) :
    Announced s :=
  h.invariant init fun _ _ _ hu hannounced _ hs =>
    hannounced.step (.of_reachable hu) (.of_reachable hu) hs

end Announced

/-- While the I/O thread sleeps in `Select`, and no producer is about to break
its breaker, there is nothing it should wake up for. -/
theorem no_missed_wakeUp (h : Reachable step PipesServe .init s)
    (hidle : ¬ s.Producing) {registered : Bool} (hio : s.io = .select registered)
    (hsilent : s.breaker.readable = false) :
    s.disCode = .kDisCodeNone ∧
      (s.timers.alarms .pingTimeoutAlarm).isAlarm = false ∧
      (s.timers.alarms .pingAlarm).isAlarm = false ∧
      (s.messageQueue ≠ [] → registered = true) := by
  have hannounced := Announced.of_reachable h
  have hbroken : s.breaker.broken ≠ true := by
    rw [← (Serving.of_reachable h).intact.readable, hsilent]
    simp
  have hping : ¬ s.PingAnnounced := by
    rintro (hb | hcallback)
    · exact hbroken hb
    · exact hidle (.inr hcallback)
  refine ⟨?_, ?_, ?_, ?_⟩
  · by_contra hset
    rcases hannounced.code (by rw [hio]; rfl) hset with hb | ⟨holder, next, hmutex, hbreaks⟩
    · exact hbroken hb
    · exact hidle (.inl ⟨holder, next, hmutex, .inl hbreaks⟩)
  · by_contra hfired
    exact hping (hannounced.pingTimeout (by rw [hio]; rfl) (by simpa using hfired))
  · by_contra hfired
    exact hping (hannounced.ping (by rw [hio]; rfl) (by simpa using hfired))
  · intro hqueue
    by_contra hregistered
    rw [Bool.not_eq_true] at hregistered
    subst hregistered
    rcases hannounced.message hio hqueue with hb | ⟨holder, hmutex⟩
    · exact hbroken hb
    · exact hidle (.inl ⟨holder, _, hmutex, .inr rfl⟩)

def sleeping : List Action :=
  connecting ++ sending ++ [.io .none, .io .none, .io (.selected false false)] ++
    List.replicate 8 (.io .none)

theorem no_missed_wakeUp_asleep : ∃ (s : TcpClient) (registered : Bool),
    s.io = .select registered ∧ s.breaker.readable = false ∧
      s.messageQueue.length = 1 ∧ s.disCode = .kDisCodeNone ∧ registered = true := by
  have hmap : (run step init sleeping).map (fun s =>
      (s.io, s.breaker.readable, s.messageQueue.length, s.mutex.isNone, s.callback)) =
        some (.select true, false, 1, true, .idle) := by
    decide +kernel
  obtain ⟨s, hrun, hstate⟩ := Option.map_eq_some_iff.mp hmap
  simp only [Prod.mk.injEq] at hstate
  obtain ⟨hio, hsilent, hlength, hmutex, hcallback⟩ := hstate
  have hreach : Reachable step PipesServe init s :=
    .of_meets (by decide +kernel) hrun
  have hidle : ¬ s.Producing := by
    simp [Producing, Option.isNone_iff_eq_none.mp hmutex, hcallback]
  obtain ⟨hcode, -, -, hregistered⟩ := no_missed_wakeUp hreach hidle hio hsilent
  have hqueue : s.messageQueue ≠ [] := by
    rw [← List.length_pos_iff, hlength]
    exact Nat.one_pos
  exact ⟨s, true, hio, hsilent, hlength, hcode, hregistered hqueue⟩

end TcpClient

end GoSocket.Client
