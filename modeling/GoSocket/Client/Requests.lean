import GoSocket.Client.Callbacks

/-!
# Requests to connect

`MakeSureConnected` leaves the connecting to others where it finds a thread:
that thread may be about to end, and what comes behind it is decided by the
reconnect alarm's callback, from `_shouldReconnect`.  A request is kept where
that flag is set when the call returns.
-/

namespace GoSocket.Client

open GoSocket.Common GoSocket.Foundation

/-- `DisconnectAsync` with `shouldReconnect` false. -/
def Section.forgets : Section → Bool
  | .disconnect _ shouldReconnect => !shouldReconnect
  | .setShouldReconnect shouldReconnect => !shouldReconnect
  | _ => false

/-- The reconnect alarm's callback, up to its `MakeSureConnected`. -/
def CallbackPc.beforeConnect : CallbackPc → Bool
  | .waitDisconnect => true
  | .join => true
  | .checkReconnect => true
  | callback => callback.session?.isSome

/-- The callback has taken `_thread` away and has not asked for a new one. -/
def CallbackPc.mayConnect : CallbackPc → Bool
  | .waitDisconnect => false
  | .join => false
  | .clearThread _ => false
  | .makeSureConnected => true
  | .connecting => true
  | callback => callback.beforeConnect

namespace TcpClient

/-- The queue's thread is in the reconnect alarm's callback. -/
def Reconnecting (self : TcpClient) : Prop :=
  self.timers.firing = true ∧ ∃ messageId start pass,
    self.timers.queue.loop =
      .calling messageId { alarm := .reconnectAlarm, start } pass

/-- `_thread` is `NULL`, and nobody is about to change that. -/
def AtRest (self : TcpClient) : Prop :=
  self.thread = false ∧ ¬ self.Reconnecting ∧
    (self.timers.alarms .reconnectAlarm).isWaiting = false

/-- The holder of the lock is about to return from `MakeSureConnected`. -/
def Returning (self : TcpClient) (holder : Holder) : Prop :=
  self.mutex = some (holder, .assignThread) ∨
    self.mutex = some (holder, .connect) ∧ self.thread = true

instance (self : TcpClient) (holder : Holder) :
    Decidable (self.Returning holder) :=
  inferInstanceAs (Decidable (_ ∨ _))

/-- `MakeSureConnected` returns with this step. -/
def Returns (self : TcpClient) : Action → Prop
  | .user .makeSureConnected => self.connectStatus = .kConnected
  | .user _ => self.Returning .user
  | .io _ => self.Returning .io
  | .queue =>
      self.callback = .makeSureConnected ∧ self.connectStatus = .kConnected ∨
        self.Returning .queue
  | _ => False

instance (self : TcpClient) : (action : Action) → Decidable (self.Returns action)
  | .user .makeSureConnected => inferInstanceAs (Decidable (_ = _))
  | .user .proceed => inferInstanceAs (Decidable (self.Returning .user))
  | .user (.disconnectAsync _ _) => inferInstanceAs (Decidable (self.Returning .user))
  | .user (.send _ _ _ _) => inferInstanceAs (Decidable (self.Returning .user))
  | .user (.sendNoReply _ _) => inferInstanceAs (Decidable (self.Returning .user))
  | .user .sendDisconnect => inferInstanceAs (Decidable (self.Returning .user))
  | .io _ => inferInstanceAs (Decidable (self.Returning .io))
  | .queue => inferInstanceAs (Decidable (_ ∨ _))
  | .tick _ => inferInstanceAs (Decidable False)
  | .pipes _ => inferInstanceAs (Decidable False)

/-- `MakeSureConnected` returns only while the client means to reconnect. -/
def Heeded (self : TcpClient) (action : Action) : Prop :=
  self.Returns action → self.shouldReconnect = true

instance (self : TcpClient) (action : Action) : Decidable (self.Heeded action) :=
  inferInstanceAs (Decidable (_ → _))

variable {s t : TcpClient}

structure Requests (s : TcpClient) : Prop where
  kept : s.history.requested = true → s.shouldReconnect = true
  forgotten : ∀ holder next, s.mutex = some (holder, next) →
    next.forgets = true → s.history.requested = false
  status : s.connectStatus = .kConnected →
    s.io ≠ .finished ∧ s.io ≠ .startReconnect
  linked : s.callback.beforeConnect = true → s.Reconnecting
  pending : s.thread = false → s.history.requested = true →
    s.Reconnecting ∧ s.callback.mayConnect = true ∧
      (s.callback = .connecting → s.mutex = some (.queue, .connect) ∨
        s.mutex = some (.queue, .assignThread))

theorem QueueMove.beforeConnect {callback : CallbackPc}
    (h : QueueMove s callback) (hbefore : callback.beforeConnect = true) :
    s.callback.beforeConnect = true := by
  cases h <;>
    simp_all [CallbackPc.beforeConnect, CallbackPc.session?]

theorem QueueMove.mayConnect {callback : CallbackPc} (h : QueueMove s callback)
    (hnot : s.callback ≠ .connecting) (hmay : s.callback.mayConnect = true) :
    callback.mayConnect = true ∧ callback ≠ .connecting := by
  cases h <;>
    simp_all [CallbackPc.mayConnect, CallbackPc.beforeConnect,
      CallbackPc.session?]

namespace Requests

theorem init : Requests .init := by
  constructor <;>
    simp [TcpClient.init, CallbackPc.beforeConnect, CallbackPc.session?]

theorem reconnecting_congr (hfiring : t.timers.firing = s.timers.firing)
    (hloop : t.timers.queue.loop = s.timers.queue.loop) :
    t.Reconnecting ↔ s.Reconnecting := by
  unfold Reconnecting
  rw [hfiring, hloop]

private theorem thread_of_connected (h : Requests s) (hthreads : Threads s)
    (hfree : s.mutex = none) (hconnected : s.connectStatus = .kConnected) :
    s.thread = true :=
  hthreads.running (by simp [hfree]) (h.status hconnected).1

private theorem io (h : Requests s)
    (hloop : t.timers.firing = s.timers.firing ∧
      t.timers.queue.loop = s.timers.queue.loop)
    (hthread : t.thread = s.thread) (hmutex : t.mutex = s.mutex)
    (hcallback : t.callback = s.callback)
    (hkept : t.history.requested = true →
      s.history.requested = true ∧ t.shouldReconnect = s.shouldReconnect)
    (hstatus : t.connectStatus = .kConnected →
      t.io ≠ .finished ∧ t.io ≠ .startReconnect) : Requests t := by
  have hreconnecting := reconnecting_congr hloop.1 hloop.2
  constructor
  case kept =>
    intro hrequested
    rw [(hkept hrequested).2]
    exact h.kept (hkept hrequested).1
  case forgotten =>
    rw [hmutex]
    intro holder next hnext hforgets
    by_contra hrequested
    rw [Bool.not_eq_false] at hrequested
    cases (h.forgotten holder next hnext hforgets).symm.trans (hkept hrequested).1
  case status => exact hstatus
  case linked =>
    rw [hcallback, hreconnecting]
    exact h.linked
  case pending =>
    rw [hthread, hcallback, hmutex, hreconnecting]
    exact fun hfalse hrequested => h.pending hfalse (hkept hrequested).1

private theorem enterConnect (h : Requests s) (hthreads : Threads s)
    (hfree : s.mutex = none) (holder : Holder)
    (hheeded : s.connectStatus = .kConnected → s.shouldReconnect = true) :
    Requests (s.enterConnect holder) := by
  have hrequested {Q : Prop} (hold : s.history.requested = true → Q)
      (hnew : s.connectStatus = .kConnected → Q)
      (heq : (s.enterConnect holder).history.requested = true) : Q := by
    simp only [TcpClient.enterConnect, Bool.or_eq_true, decide_eq_true_eq] at heq
    exact heq.elim hold hnew
  constructor
  case kept => exact hrequested h.kept hheeded
  case forgotten =>
    unfold TcpClient.enterConnect
    intro holder' next hnext hforgets
    split at hnext <;> cases hnext
    cases hforgets
  case status => exact h.status
  case linked => exact h.linked
  case pending =>
    intro hfalse
    refine hrequested (fun hold => ?_) fun hconnected => ?_
    · obtain ⟨hreconnecting, hmay, hconnecting⟩ := h.pending hfalse hold
      exact ⟨hreconnecting, hmay, fun heq => absurd (hconnecting heq) (by simp [hfree])⟩
    · cases hfalse.symm.trans (h.thread_of_connected hthreads hfree hconnected)

private theorem enterDisconnect (h : Requests s) (hfree : s.mutex = none)
    (holder : Holder) (code : DisconnectCode) (shouldReconnect : Bool) :
    Requests (s.enterDisconnect holder code shouldReconnect) := by
  have hrequested :
      (s.enterDisconnect holder code shouldReconnect).history.requested = true →
        s.history.requested = true := by
    simp only [TcpClient.enterDisconnect, Bool.and_eq_true]
    exact And.left
  constructor
  case kept => exact fun heq => h.kept (hrequested heq)
  case forgotten =>
    unfold TcpClient.enterDisconnect
    intro holder' next hnext hforgets
    split at hnext <;> cases hnext
    have hfalse : shouldReconnect = false := by
      simpa [Section.forgets] using hforgets
    simp [hfalse]
  case status => exact h.status
  case linked => exact h.linked
  case pending =>
    intro hfalse heq
    obtain ⟨hreconnecting, hmay, hconnecting⟩ := h.pending hfalse (hrequested heq)
    exact ⟨hreconnecting, hmay, fun heq => absurd (hconnecting heq) (by simp [hfree])⟩

private theorem enter (h : Requests s) (hfree : s.mutex = none)
    (hstatus : t.connectStatus = s.connectStatus) (hio : t.io = s.io)
    (htimers : t.timers = s.timers) (hthread : t.thread = s.thread)
    (hcallback : t.callback = s.callback)
    (hrequested : t.history.requested = s.history.requested)
    (hshould : t.shouldReconnect = s.shouldReconnect)
    (hforgets : ∀ holder next, t.mutex = some (holder, next) →
      next.forgets = false) : Requests t := by
  have hreconnecting : t.Reconnecting ↔ s.Reconnecting := by
    unfold Reconnecting
    rw [htimers]
  constructor
  case kept =>
    rw [hrequested, hshould]
    exact h.kept
  case forgotten =>
    intro holder next hnext hf
    cases (hforgets holder next hnext).symm.trans hf
  case status =>
    rw [hstatus, hio]
    exact h.status
  case linked =>
    rw [hcallback, hreconnecting]
    exact h.linked
  case pending =>
    rw [hthread, hrequested, hreconnecting, hcallback]
    intro hfalse hold
    obtain ⟨hre, hmay, hconnecting⟩ := h.pending hfalse hold
    exact ⟨hre, hmay, fun heq => absurd (hconnecting heq) (by simp [hfree])⟩

private theorem connect (h : Requests s) {holder : Holder}
    (hmutex : s.mutex = some (holder, .connect))
    (hheeded : s.thread = true → s.shouldReconnect = true) :
    Requests (s.proceed holder .connect) := by
  simp only [TcpClient.proceed]
  split
  · next hthread =>
      refine ⟨fun _ => hheeded hthread, ?_, h.status, h.linked, ?_⟩
      · rintro _ _ ⟨⟩
      · exact fun hfalse => absurd (hthread.symm.trans hfalse) Bool.true_eq_false.mp
  · next hthread =>
      refine ⟨fun _ => rfl, ?_, (by simp), h.linked, ?_⟩
      · rintro _ _ ⟨⟩ ⟨⟩
      · intro hfalse hrequested
        obtain ⟨hreconnecting, hmay, hconnecting⟩ := h.pending hfalse hrequested
        refine ⟨hreconnecting, hmay, fun heq => .inr ?_⟩
        rcases hconnecting heq with hnext | hnext
        · rw [hmutex] at hnext
          cases hnext
          rfl
        · rw [hmutex] at hnext
          cases hnext

private theorem other (h : Requests s) {holder : Holder} {next : Section}
    (hmutex : s.mutex = some (holder, next))
    (hnext : next ≠ .connect ∧ next ≠ .assignThread)
    (hstatus : t.connectStatus = s.connectStatus) (hio : t.io = s.io)
    (htimers : t.timers = s.timers) (hthread : t.thread = s.thread)
    (hcallback : t.callback = s.callback)
    (hrequested : t.history.requested = s.history.requested)
    (hkept : s.history.requested = true → t.shouldReconnect = true)
    (hforgets : ∀ holder' next', t.mutex = some (holder', next') →
      next'.forgets = true → next.forgets = true) : Requests t := by
  have hreconnecting : t.Reconnecting ↔ s.Reconnecting := by
    unfold Reconnecting
    rw [htimers]
  constructor
  case kept => rwa [hrequested]
  case forgotten =>
    rw [hrequested]
    exact fun holder' next' hbehind hf =>
      h.forgotten holder next hmutex (hforgets holder' next' hbehind hf)
  case status =>
    rw [hstatus, hio]
    exact h.status
  case linked =>
    rw [hcallback, hreconnecting]
    exact h.linked
  case pending =>
    rw [hthread, hrequested, hreconnecting, hcallback]
    intro hfalse hold
    obtain ⟨hre, hmay, hconnecting⟩ := h.pending hfalse hold
    refine ⟨hre, hmay, fun heq => ?_⟩
    rcases hconnecting heq with hold' | hold' <;> rw [hmutex] at hold' <;>
      cases hold'
    · exact absurd rfl hnext.1
    · exact absurd rfl hnext.2

private theorem proceed (h : Requests s) {holder : Holder} {next : Section}
    (hmutex : s.mutex = some (holder, next))
    (hheeded : s.Returning holder → s.shouldReconnect = true) :
    Requests (s.proceed holder next) := by
  have hforgotten := h.forgotten holder next hmutex
  cases next with
  | connect =>
      exact h.connect hmutex fun hthread => hheeded (.inr ⟨hmutex, hthread⟩)
  | assignThread =>
      refine ⟨fun _ => hheeded (.inl hmutex), ?_, h.status, h.linked, ?_⟩
      · rintro _ _ ⟨⟩
      · rintro ⟨⟩
  | disconnect code shouldReconnect =>
      refine h.other hmutex (by simp) rfl rfl rfl rfl rfl rfl h.kept ?_
      rintro _ _ ⟨⟩
      exact id
  | setShouldReconnect shouldReconnect =>
      refine h.other hmutex (by simp) rfl rfl rfl rfl rfl rfl ?_ ?_
      · intro hrequested
        cases shouldReconnect with
        | true => rfl
        | false => cases (hforgotten rfl).symm.trans hrequested
      · rintro _ _ ⟨⟩ ⟨⟩
  | breakReadWrite =>
      refine h.other hmutex (by simp) rfl rfl rfl rfl rfl rfl h.kept ?_
      simp only [TcpClient.proceed]
      intro holder' next' hbehind
      split at hbehind <;> cases hbehind <;> rintro ⟨⟩
  | breakConnect =>
      refine h.other hmutex (by simp) rfl rfl rfl rfl rfl rfl h.kept ?_
      simp only [TcpClient.proceed]
      intro holder' next' hbehind
      split at hbehind <;> cases hbehind
      rintro ⟨⟩
  | closeReadWrite | flagReadWrite | register | pushSendReq | pushMessage =>
      refine h.other hmutex (by simp) rfl rfl rfl rfl rfl rfl h.kept ?_
      rintro _ _ ⟨⟩ ⟨⟩
  | flagConnect | wakeUp =>
      refine h.other hmutex (by simp) rfl rfl rfl rfl rfl rfl h.kept ?_
      rintro _ _ ⟨⟩

private theorem userStep (h : Requests s) (hthreads : Threads s)
    {call : UserCall} (hheeded : s.Heeded (.user call))
    (hs : s.userStep call = some t) : Requests t := by
  cases userStep_cases hs with
  | enterConnect hfree hcall =>
      subst hcall
      exact h.enterConnect hthreads hfree .user hheeded
  | enterDisconnect code shouldReconnect hfree =>
      exact h.enterDisconnect hfree .user code shouldReconnect
  | enterSend type payload data hasCallback hfree =>
      unfold enterSend
      dsimp only
      split
      · exact h.enter hfree rfl rfl rfl rfl rfl rfl rfl (by rintro _ _ ⟨⟩; rfl)
      · split <;>
          exact h.enter hfree rfl rfl rfl rfl rfl rfl rfl
            (by simp [issue, callBack, hfree])
  | enterPush message hfree =>
      unfold enterPush
      split
      · exact h.enter hfree rfl rfl rfl rfl rfl rfl rfl (by rintro _ _ ⟨⟩; rfl)
      · exact h.enter hfree rfl rfl rfl rfl rfl rfl rfl (by simp [issue, hfree])
  | inside next hcall hmutex =>
      subst hcall
      exact h.proceed hmutex hheeded

private theorem ioStep (h : Requests s) {event : IoEvent}
    (hheeded : s.Heeded (.io event)) (hs : s.ioStep event = some t) :
    Requests t := by
  cases ioStep_cases hs with
  | move io hmove =>
      exact h.io ⟨rfl, rfl⟩ rfl rfl rfl (fun hr => ⟨hr, rfl⟩)
        fun _ => hmove.staysInside
  | alarm action timers io halarm hstep =>
      refine h.io (halarm.loop hstep) rfl rfl rfl (fun hr => ⟨hr, rfl⟩) ?_
      intro hconnected
      have hstatus := h.status hconnected
      generalize s.io = pc at halarm hstatus
      cases halarm with
      | reconnect => exact absurd rfl hstatus.2
      | _ => simp
  | status status io hstatus =>
      refine h.io ⟨rfl, rfl⟩ rfl rfl rfl (fun hr => ⟨hr, rfl⟩) ?_
      generalize s.io = pc at hstatus
      cases hstatus with
      | failed ret hret => simp
      | disconnected => simp
      | _ => simp
  | timer u io htimer =>
      have hinside := htimer.staysInside
      have hloop := htimer.timers.loop
      obtain ⟨timers, map, pool, created, armed, rfl⟩ := htimer.eq
      exact h.io hloop rfl rfl rfl (fun hr => ⟨hr, rfl⟩) fun _ => hinside
  | encode readable queued rest hio hqueue =>
      refine h.io ⟨rfl, rfl⟩ rfl rfl rfl (fun hr => ⟨hr, rfl⟩) ?_
      intro _
      unfold behindEncode
      split <;> simp
  | enter hio hfree =>
      refine (h.enterDisconnect hfree .io .kDisCodeKickout false).io ⟨rfl, rfl⟩
        rfl rfl rfl (fun hr => ⟨hr, rfl⟩) ?_
      simp
  | inside next hio hmutex => exact h.proceed hmutex hheeded
  | refuse => exact h.io ⟨rfl, rfl⟩ rfl rfl rfl (by rintro ⟨⟩) (by simp)
  | clear | pingTimeout | pop | noCallback | takeCallback | callBack =>
      exact h.io ⟨rfl, rfl⟩ rfl rfl rfl (fun hr => ⟨hr, rfl⟩) (by simp)

private theorem queue (h : Requests s)
    (hloop : t.timers.firing = s.timers.firing ∧
      t.timers.queue.loop = s.timers.queue.loop)
    (hstatus : t.connectStatus = s.connectStatus) (hio : t.io = s.io)
    (hthread : t.thread = s.thread) (hmutex : t.mutex = s.mutex)
    (hrequested : t.history.requested = s.history.requested)
    (hshould : t.shouldReconnect = s.shouldReconnect)
    (hbefore : t.callback.beforeConnect = true →
      s.callback.beforeConnect = true)
    (hmay : s.thread = false → s.history.requested = true →
      s.callback.mayConnect = true →
        t.callback.mayConnect = true ∧ t.callback ≠ .connecting) :
    Requests t := by
  have hreconnecting := reconnecting_congr hloop.1 hloop.2
  constructor
  case kept =>
    rw [hrequested, hshould]
    exact h.kept
  case forgotten =>
    rw [hmutex, hrequested]
    exact h.forgotten
  case status =>
    rw [hstatus, hio]
    exact h.status
  case linked =>
    rw [hreconnecting]
    exact fun hb => h.linked (hbefore hb)
  case pending =>
    rw [hthread, hrequested, hreconnecting]
    intro hfalse hold
    obtain ⟨hre, hmay', -⟩ := h.pending hfalse hold
    obtain ⟨hbehind, hnot⟩ := hmay hfalse hold hmay'
    exact ⟨hre, hbehind, fun heq => absurd heq hnot⟩

private theorem loop (h : Requests s) {timers : Alarms ClientAlarm}
    (hidle : s.callback = .idle) :
    Requests { s with timers, callback := innerCallback timers } := by
  constructor
  case kept => exact h.kept
  case forgotten => exact h.forgotten
  case status => exact h.status
  case linked =>
    intro hbefore
    change (innerCallback timers).beforeConnect = true at hbefore
    unfold innerCallback at hbefore
    split at hbefore
    · next hfiring =>
        split at hbefore
        case h_2 messageId start pass hloop =>
          exact ⟨hfiring, messageId, start, pass, hloop⟩
        all_goals cases hbefore
    · cases hbefore
  case pending =>
    intro hfalse hold
    obtain ⟨-, hmay, -⟩ := h.pending hfalse hold
    rw [hidle] at hmay
    cases hmay

private theorem clearThread (h : Requests s) {session : Nat}
    (hcallback : s.callback = .clearThread session) :
    Requests { s with thread := false, callback := .lockTimers session } := by
  have hreconnecting : s.Reconnecting := h.linked (by rw [hcallback]; rfl)
  exact ⟨h.kept, h.forgotten, h.status, fun _ => hreconnecting,
    fun _ _ => ⟨hreconnecting, rfl, (by simp)⟩⟩

private theorem queueConnect (h : Requests s) (hthreads : Threads s)
    (hfree : s.mutex = none) (hheeded : s.connectStatus = .kConnected →
      s.shouldReconnect = true) :
    Requests { s.enterConnect .queue with callback := .connecting } := by
  have hentered := h.enterConnect hthreads hfree .queue hheeded
  refine ⟨hentered.kept, hentered.forgotten, hentered.status, (by rintro ⟨⟩), ?_⟩
  intro hfalse hold
  obtain ⟨hre, -, -⟩ := hentered.pending hfalse hold
  refine ⟨hre, rfl, fun _ => .inl ?_⟩
  by_cases hconnected : s.connectStatus = .kConnected
  · have htrue := h.thread_of_connected hthreads hfree hconnected
    cases htrue.symm.trans hfalse
  · simp [TcpClient.enterConnect, hconnected]

private theorem queueStep (h : Requests s) (hthreads : Threads s)
    (hheeded : s.Heeded .queue) (hs : s.queueStep = some t) : Requests t := by
  cases queueStep_cases hs with
  | move callback hmove =>
      refine h.queue ⟨rfl, rfl⟩ rfl rfl rfl rfl rfl rfl hmove.beforeConnect ?_
      intro hfalse hold hmay
      refine hmove.mayConnect (fun heq => ?_) hmay
      obtain ⟨-, -, hconnecting⟩ := h.pending hfalse hold
      cases hmove with
      | connected _ hmutex =>
          rcases hconnecting heq with hnext | hnext <;> exact hmutex _ hnext
      | _ => simp_all
  | loop timers hcallback hstep => exact h.loop hcallback
  | returned timers hcallback hstep =>
      refine ⟨h.kept, h.forgotten, h.status, (by rintro ⟨⟩), fun hfalse hold => ?_⟩
      obtain ⟨-, hmay, -⟩ := h.pending hfalse hold
      rw [hcallback] at hmay
      cases hmay
  | timer u callback htimer =>
      have hbefore : callback.beforeConnect = true →
          s.callback.beforeConnect = true := by
        cases htimer <;> simp [*, CallbackPc.beforeConnect, CallbackPc.session?]
      have hmay : s.callback.mayConnect = true →
          callback.mayConnect = true ∧ callback ≠ .connecting := by
        cases htimer <;>
          simp [*, CallbackPc.mayConnect, CallbackPc.beforeConnect,
            CallbackPc.session?]
      have hloop := htimer.timers.loop
      obtain ⟨timers, map, pool, canceled, rfl⟩ := htimer.eq
      exact h.queue hloop rfl rfl rfl rfl rfl rfl hbefore fun _ _ => hmay
  | enterDisconnect hcallback hfree =>
      have hentered :=
        h.enterDisconnect hfree .queue .kDisCodeSendReqTimeout true
      have hcallback' :
          (s.enterDisconnect .queue .kDisCodeSendReqTimeout true).callback =
            .disconnectAsync := hcallback
      refine hentered.queue ⟨rfl, rfl⟩ rfl rfl rfl rfl rfl rfl ?_ ?_
      · dsimp only
        split <;> rintro ⟨⟩
      · rw [hcallback']
        rintro _ _ ⟨⟩
  | clearThread session hcallback => exact h.clearThread hcallback
  | checkReconnect hcallback =>
      refine h.queue ⟨rfl, rfl⟩ rfl rfl rfl rfl rfl rfl ?_ ?_
      · rw [hcallback]
        exact fun _ => rfl
      · intro _ hold _
        dsimp only
        rw [if_pos (h.kept hold)]
        exact ⟨rfl, (by simp)⟩
  | enterConnect hcallback hfree =>
      exact h.queueConnect hthreads hfree
        fun hconnected => hheeded (.inl ⟨hcallback, hconnected⟩)
  | inside next hcallback hmutex =>
      exact h.proceed hmutex fun hreturning => hheeded (.inr hreturning)
  | breakPing | noTimeout | takeTimeout | callTimeout | setTimeoutDisconnect =>
      refine h.queue ⟨rfl, rfl⟩ rfl rfl rfl rfl rfl rfl (by rintro ⟨⟩) ?_
      simp [*, CallbackPc.mayConnect, CallbackPc.beforeConnect,
        CallbackPc.session?]
  | noLost | takeLost | callLost | reCreate | tearDown | reCreateConn =>
      refine h.queue ⟨rfl, rfl⟩ rfl rfl rfl rfl rfl rfl ?_
        fun _ _ _ => ⟨rfl, (by rintro ⟨⟩)⟩
      simp [*, CallbackPc.beforeConnect, CallbackPc.session?]

theorem step (h : Requests s) (hthreads : Threads s) {action : Action}
    (hheeded : s.Heeded action) (hs : s.step action = some t) :
    Requests t := by
  cases action with
  | user call => exact h.userStep hthreads hheeded hs
  | io event => exact h.ioStep hheeded hs
  | queue => exact h.queueStep hthreads hheeded hs
  | tick nanoseconds =>
      cases hs
      exact ⟨h.kept, h.forgotten, h.status, h.linked, h.pending⟩
  | pipes ok =>
      cases hs
      exact ⟨h.kept, h.forgotten, h.status, h.linked, h.pending⟩

theorem of_reachable (h : Reachable TcpClient.step Heeded .init s) :
    Requests s :=
  h.invariant init fun _ _ _ hu hrequests hheeded hs =>
    hrequests.step (.of_reachable hu) hheeded hs

end Requests

/-- A request that returns while the client means to reconnect is not lost. -/
theorem request_not_lost (h : Reachable step Heeded .init s)
    (hrequested : s.history.requested = true) : ¬ s.AtRest := by
  rintro ⟨hthread, hreconnecting, -⟩
  exact hreconnecting ((Requests.of_reachable h).pending hthread hrequested).1

def ending : List Action :=
  [.io .none, .io .none, .io (.selected false false)] ++
    List.replicate 6 (.io .none)

def joining : List Action := List.replicate 6 .queue

theorem request_not_lost_teardown :
    ∃ s : TcpClient, s.history.requested = true ∧ s.thread = false ∧
      ¬ s.AtRest := by
  let actions := connecting ++
    [.user (.disconnectAsync .kDisCodeNetChange true), .user .proceed,
      .user .proceed, .user .proceed, .user .proceed] ++ ending ++ joining
  have hmap : (run step init actions).map
      (fun s => (s.history.requested, s.thread)) = some (true, false) := by
    decide +kernel
  obtain ⟨s, hrun, hstate⟩ := Option.map_eq_some_iff.mp hmap
  simp only [Prod.mk.injEq] at hstate
  have hreach : Reachable step Heeded init s :=
    .of_meets (by decide +kernel) hrun
  exact ⟨s, hstate.1, hstate.2, request_not_lost hreach hstate.1⟩

def lateRequest : List Action :=
  connecting ++
    [.user (.disconnectAsync .kDisCodeLogout false), .user .proceed,
      .user .proceed, .user .proceed, .user .proceed,
      .user .makeSureConnected] ++ ending ++ joining ++
    List.replicate 7 .queue

theorem lateRequest_lost :
    ¬ ∀ s : TcpClient, Reachable step AnyStep init s →
      s.history.requested = true → ¬ s.AtRest := by
  intro hall
  have hmap : (run step init lateRequest).map
      (fun s => (s.history.requested, s.thread, s.timers.firing,
        (s.timers.alarms .reconnectAlarm).isWaiting)) =
          some (true, false, false, false) := by
    decide +kernel
  obtain ⟨s, hreach, hstate⟩ := Reachable.of_run_map hmap
  simp only [Prod.mk.injEq] at hstate
  obtain ⟨hrequested, hthread, hfiring, hwaiting⟩ := hstate
  refine hall s hreach hrequested ⟨hthread, ?_, hwaiting⟩
  rintro ⟨htrue, -⟩
  cases hfiring.symm.trans htrue

end TcpClient

end GoSocket.Client
