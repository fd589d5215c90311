import GoSocket.Client.Frames

/-!
# Which threads run

A session has one I/O thread, a new one starts only where the old one has been
joined, and the session that `__WaitDisconnect` tears down has ended.
-/

namespace GoSocket.Client

open GoSocket.Common GoSocket.Foundation

namespace TcpClient

variable {s t : TcpClient}

/-- Without `_thread` there is no I/O thread, but for the moment before it is
assigned; a thread that is joined has finished. -/
structure Threads (s : TcpClient) : Prop where
  alone : s.thread = false → s.io ≠ .finished →
    ∃ holder, s.mutex = some (holder, .assignThread)
  assigning : ∀ holder, s.mutex = some (holder, .assignThread) →
    s.thread = false
  senders : ∀ holder next, s.mutex = some (holder, next) → next.sends →
    holder = .user
  joining : s.callback = .join → s.thread = true
  joined : ∀ session, s.callback = .clearThread session →
    s.thread = true ∧ s.io = .finished
  ended : ∀ session, s.callback.session? = some session →
    session ≤ s.history.sessions ∧
      (session = s.history.sessions → s.io = .finished)

namespace Threads

theorem init : Threads .init := by
  constructor <;> simp [TcpClient.init, CallbackPc.session?]

theorem running (h : Threads s)
    (hmutex : ∀ holder, s.mutex ≠ some (holder, .assignThread))
    (hio : s.io ≠ .finished) : s.thread = true := by
  cases hthread : s.thread with
  | true => rfl
  | false =>
      obtain ⟨holder, hassign⟩ := h.alone hthread hio
      exact absurd hassign (hmutex holder)

theorem finished_of_connect (h : Threads s) {holder : Holder}
    (hmutex : s.mutex = some (holder, .connect)) (hthread : s.thread = false) :
    s.io = .finished := by
  by_contra hrunning
  obtain ⟨holder', hassign⟩ := h.alone hthread hrunning
  rw [hmutex] at hassign
  cases hassign

private theorem lock (h : Threads s)
    (hbefore : ∀ holder, s.mutex ≠ some (holder, .assignThread))
    (hbehind : ∀ holder next, t.mutex = some (holder, next) →
      next ≠ .assignThread ∧ (next.sends → holder = .user))
    (hthread : t.thread = s.thread) (hio : t.io = s.io)
    (hcallback : t.callback = s.callback)
    (hsessions : t.history.sessions = s.history.sessions) : Threads t := by
  constructor
  case alone =>
    intro hfalse hrunning
    rw [hio] at hrunning
    rw [hthread, h.running hbefore hrunning] at hfalse
    cases hfalse
  case assigning =>
    exact fun holder hassign => absurd rfl (hbehind holder _ hassign).1
  case senders => exact fun holder next hmutex => (hbehind holder next hmutex).2
  case joining =>
    rw [hcallback, hthread]
    exact h.joining
  case joined =>
    rw [hcallback, hthread, hio]
    exact h.joined
  case ended =>
    rw [hcallback, hio, hsessions]
    exact h.ended

private theorem ne_of_free (hfree : s.mutex = none) (holder : Holder) :
    s.mutex ≠ some (holder, .assignThread) := by
  rw [hfree]
  nofun

theorem enterConnect (h : Threads s) (hfree : s.mutex = none)
    (holder : Holder) : Threads (s.enterConnect holder) := by
  refine h.lock (ne_of_free hfree) ?_ rfl rfl rfl rfl
  unfold TcpClient.enterConnect
  intro holder' next hmutex
  split at hmutex <;> cases hmutex
  exact ⟨nofun, nofun⟩

theorem enterDisconnect (h : Threads s) (hfree : s.mutex = none)
    (holder : Holder) (code : DisconnectCode) (shouldReconnect : Bool) :
    Threads (s.enterDisconnect holder code shouldReconnect) := by
  refine h.lock (ne_of_free hfree) ?_ rfl rfl rfl rfl
  unfold TcpClient.enterDisconnect
  intro holder' next hmutex
  split at hmutex <;> cases hmutex
  exact ⟨nofun, nofun⟩

theorem enterSend (h : Threads s) (hfree : s.mutex = none)
    (type payload : List Packet.Byte) (data : Option (List Packet.Byte))
    (hasCallback : Bool) :
    Threads (s.enterSend type payload data hasCallback) := by
  unfold TcpClient.enterSend
  split
  · refine h.lock (ne_of_free hfree) ?_ rfl rfl rfl rfl
    rintro _ _ ⟨⟩
    exact ⟨nofun, fun _ => rfl⟩
  · dsimp only
    split <;>
      exact h.lock (ne_of_free hfree) (by simp [issue, callBack, hfree])
        rfl rfl rfl rfl

theorem enterPush (h : Threads s) (hfree : s.mutex = none)
    (message : Packet.MessageBase) : Threads (s.enterPush message) := by
  unfold TcpClient.enterPush
  split
  · refine h.lock (ne_of_free hfree) ?_ rfl rfl rfl rfl
    rintro _ _ ⟨⟩
    exact ⟨nofun, fun _ => rfl⟩
  · exact h.lock (ne_of_free hfree) (by simp [issue, hfree]) rfl rfl rfl rfl

private theorem connect (h : Threads s) {holder : Holder}
    (hmutex : s.mutex = some (holder, .connect)) :
    Threads (s.proceed holder .connect) := by
  simp only [TcpClient.proceed]
  split
  · exact h.lock (by simp [hmutex]) (by simp) rfl rfl rfl rfl
  · next hthread =>
      have hfalse : s.thread = false := Bool.eq_false_iff.mpr hthread
      constructor
      case alone => exact fun _ _ => ⟨holder, rfl⟩
      case assigning => exact fun _ _ => hfalse
      case senders =>
        rintro _ _ ⟨⟩ hsends
        cases hsends
      case joining => exact h.joining
      case joined =>
        intro session hjoined
        cases hfalse.symm.trans (h.joined session hjoined).1
      case ended =>
        intro session hsession
        have hle := (h.ended session hsession).1
        change session ≤ s.history.sessions + 1 ∧
          (session = s.history.sessions + 1 → _)
        exact ⟨by omega, by omega⟩

private theorem assignThread (h : Threads s) (holder : Holder) :
    Threads (s.proceed holder .assignThread) := by
  constructor
  case alone => exact fun hfalse => absurd hfalse (by simp [TcpClient.proceed])
  case assigning =>
    exact fun _ hassign => absurd hassign (by simp [TcpClient.proceed])
  case senders => rintro _ _ ⟨⟩
  case joining => exact fun _ => rfl
  case joined =>
    exact fun session hjoined => ⟨rfl, (h.joined session hjoined).2⟩
  case ended => exact h.ended

theorem proceed (h : Threads s) {holder : Holder} {next : Section}
    (hmutex : s.mutex = some (holder, next)) :
    Threads (s.proceed holder next) := by
  cases next with
  | connect => exact h.connect hmutex
  | assignThread => exact h.assignThread holder
  | disconnect code shouldReconnect =>
      refine h.lock (by simp [hmutex]) ?_ rfl rfl rfl rfl
      rintro _ _ ⟨⟩
      exact ⟨by simp, by simp [Section.sends]⟩
  | setShouldReconnect shouldReconnect =>
      refine h.lock (by simp [hmutex]) ?_ rfl rfl rfl rfl
      rintro _ _ ⟨⟩
      exact ⟨by simp, by simp [Section.sends]⟩
  | breakReadWrite =>
      refine h.lock (by simp [hmutex]) ?_ rfl rfl rfl rfl
      simp only [TcpClient.proceed]
      intro holder' next hnext
      split at hnext <;> cases hnext <;> exact ⟨by simp, by simp [Section.sends]⟩
  | closeReadWrite =>
      refine h.lock (by simp [hmutex]) ?_ rfl rfl rfl rfl
      rintro _ _ ⟨⟩
      exact ⟨by simp, by simp [Section.sends]⟩
  | flagReadWrite =>
      refine h.lock (by simp [hmutex]) ?_ rfl rfl rfl rfl
      rintro _ _ ⟨⟩
      exact ⟨by simp, by simp [Section.sends]⟩
  | breakConnect =>
      refine h.lock (by simp [hmutex]) ?_ rfl rfl rfl rfl
      simp only [TcpClient.proceed]
      intro holder' next hnext
      split at hnext <;> cases hnext
      exact ⟨by simp, by simp [Section.sends]⟩
  | flagConnect =>
      exact h.lock (by simp [hmutex]) (by simp [TcpClient.proceed]) rfl rfl rfl rfl
  | register call hasCallback sendReq =>
      refine h.lock (by simp [hmutex]) ?_ rfl rfl rfl rfl
      rintro _ _ ⟨⟩
      exact ⟨by simp, fun _ => h.senders holder _ hmutex rfl⟩
  | pushSendReq call sendReq =>
      refine h.lock (by simp [hmutex]) ?_ rfl rfl rfl rfl
      rintro _ _ ⟨⟩
      exact ⟨by simp, fun _ => h.senders holder _ hmutex rfl⟩
  | pushMessage call message =>
      refine h.lock (by simp [hmutex]) ?_ rfl rfl rfl rfl
      rintro _ _ ⟨⟩
      exact ⟨by simp, fun _ => h.senders holder _ hmutex rfl⟩
  | wakeUp =>
      exact h.lock (by simp [hmutex]) (by simp [TcpClient.proceed]) rfl rfl rfl rfl

private theorem io (h : Threads s) (hrunning : s.io ≠ .finished)
    (hthread : t.thread = s.thread) (hmutex : t.mutex = s.mutex)
    (hcallback : t.callback = s.callback)
    (hsessions : t.history.sessions = s.history.sessions) : Threads t := by
  constructor
  case alone =>
    rw [hthread, hmutex]
    exact fun hfalse _ => h.alone hfalse hrunning
  case assigning =>
    rw [hthread, hmutex]
    exact h.assigning
  case senders =>
    rw [hmutex]
    exact h.senders
  case joining =>
    rw [hthread, hcallback]
    exact h.joining
  case joined =>
    rw [hcallback]
    exact fun session hjoined => absurd (h.joined session hjoined).2 hrunning
  case ended =>
    rw [hcallback, hsessions]
    intro session hsession
    obtain ⟨hle, hfinished⟩ := h.ended session hsession
    exact ⟨hle, fun heq => absurd (hfinished heq) hrunning⟩

private theorem queue (h : Threads s) (hthread : t.thread = s.thread)
    (hmutex : t.mutex = s.mutex) (hio : t.io = s.io)
    (hsessions : t.history.sessions = s.history.sessions)
    (hjoin : t.callback = .join → s.thread = true)
    (hjoined : ∀ session, t.callback = .clearThread session →
      s.callback = .join ∧ s.io = .finished ∧ session = s.history.sessions)
    (hsession : ∀ session, t.callback.session? = some session →
      s.callback.session? = some session ∨ t.callback = .clearThread session) :
    Threads t := by
  constructor
  case alone =>
    rw [hthread, hmutex, hio]
    exact h.alone
  case assigning =>
    rw [hthread, hmutex]
    exact h.assigning
  case senders =>
    rw [hmutex]
    exact h.senders
  case joining =>
    rw [hthread]
    exact hjoin
  case joined =>
    rw [hthread, hio]
    intro session hclear
    obtain ⟨hcallback, hfinished, -⟩ := hjoined session hclear
    exact ⟨h.joining hcallback, hfinished⟩
  case ended =>
    rw [hio, hsessions]
    intro session hin
    rcases hsession session hin with hin | hclear
    · exact h.ended session hin
    · obtain ⟨-, hfinished, heq⟩ := hjoined session hclear
      exact ⟨Nat.le_of_eq heq, fun _ => hfinished⟩

private theorem callback (h : Threads s) (callbackMap : Std.TreeMap UInt16 (Option Nat))
    {callback : CallbackPc} (history : History)
    (hsessions : history.sessions = s.history.sessions)
    (hjoin : callback ≠ .join) (hclear : ∀ session, callback ≠ .clearThread session)
    (hsession : ∀ session, callback.session? = some session →
      s.callback.session? = some session) :
    Threads { s with callbackMap, callback, history } :=
  h.queue rfl rfl rfl hsessions (fun hcallback => absurd hcallback hjoin)
    (fun session hcallback => absurd hcallback (hclear session))
    fun session hin => .inl (hsession session hin)

theorem userStep (h : Threads s) {call : UserCall}
    (hs : s.userStep call = some t) : Threads t := by
  cases userStep_cases hs with
  | enterConnect hmutex => exact h.enterConnect hmutex .user
  | enterDisconnect code shouldReconnect hmutex =>
      exact h.enterDisconnect hmutex .user code shouldReconnect
  | enterSend type payload data hasCallback hmutex =>
      exact h.enterSend hmutex type payload data hasCallback
  | enterPush message hmutex => exact h.enterPush hmutex message
  | inside next hcall hmutex => exact h.proceed hmutex

theorem ioStep (h : Threads s) {event : IoEvent}
    (hs : s.ioStep event = some t) : Threads t := by
  cases ioStep_cases hs with
  | move io hmove => exact h.io hmove.running rfl rfl rfl rfl
  | alarm action timers io halarm => exact h.io halarm.running rfl rfl rfl rfl
  | status status io hstatus => exact h.io hstatus.running rfl rfl rfl rfl
  | enter hio hmutex =>
      have henter := h.enterDisconnect hmutex .io .kDisCodeKickout false
      have hrunning : s.io ≠ .finished := by simp [hio]
      exact henter.io hrunning rfl rfl rfl rfl
  | inside next hio hmutex => exact h.proceed hmutex
  | timer u io htimer =>
      obtain ⟨timers, map, pool, created, armed, rfl⟩ := htimer.eq
      exact h.io htimer.running rfl rfl rfl rfl
  | refuse | clear | pingTimeout | encode | pop | noCallback | takeCallback
    | callBack =>
      exact h.io (by simp [*]) rfl rfl rfl rfl

private theorem queueMove (h : Threads s) {callback : CallbackPc}
    (hmove : QueueMove s callback) : Threads { s with callback } := by
  refine h.queue rfl rfl rfl rfl ?_ ?_ ?_
  · rintro rfl
    cases hmove with
    | waitDisconnect _ hthread => exact hthread
  · rintro session rfl
    cases hmove with
    | join hcallback hio => exact ⟨hcallback, hio, rfl⟩
  · intro session hin
    cases hmove <;> simp_all [CallbackPc.session?]

theorem queueStep (h : Threads s) (hs : s.queueStep = some t) : Threads t := by
  cases queueStep_cases hs with
  | move callback hmove => exact h.queueMove hmove
  | loop timers hcallback hstep =>
      refine h.queue rfl rfl rfl rfl ?_ ?_ ?_
      all_goals
        rcases innerCallback_cases timers with hinner | hinner | hinner | hinner |
          ⟨_, _, hinner⟩
      all_goals simp [hinner, CallbackPc.session?]
  | clearThread session hcallback =>
      have hended := h.ended session (by rw [hcallback]; rfl)
      constructor
      case alone =>
        exact fun _ hrunning => absurd (h.joined session hcallback).2 hrunning
      case assigning => exact fun _ _ => rfl
      case senders => exact h.senders
      case joining => nofun
      case joined => nofun
      case ended =>
        rintro _ ⟨⟩
        exact hended
  | timer u callback htimer =>
      have hsession : ∀ session, callback.session? = some session →
          s.callback.session? = some session := by
        cases htimer <;> simp [*, CallbackPc.session?]
      have hjoin : callback ≠ .join := by cases htimer <;> nofun
      have hclear (session : Nat) : callback ≠ .clearThread session := by
        cases htimer <;> nofun
      obtain ⟨timers, map, pool, canceled, rfl⟩ := htimer.eq
      exact h.queue rfl rfl rfl rfl (fun heq => absurd heq hjoin)
        (fun session heq => absurd heq (hclear session))
        fun session hin => .inl (hsession session hin)
  | takeLost session call messageId messageIds hcallback hsome =>
      exact h.callback _ _ rfl nofun nofun fun _ hin => by rw [hcallback]; exact hin
  | callLost session call messageIds hcallback =>
      exact h.callback _ _ rfl nofun nofun fun _ hin => by rw [hcallback]; exact hin
  | reCreate session hcallback =>
      refine h.queue rfl rfl rfl rfl nofun nofun ?_
      rintro _ ⟨⟩
      exact .inl (by rw [hcallback]; rfl)
  | checkReconnect hcallback =>
      refine h.callback _ _ rfl ?_ ?_ ?_
      all_goals split <;> nofun
  | enterDisconnect hcallback hmutex =>
      have henter := h.enterDisconnect hmutex .queue .kDisCodeSendReqTimeout true
      refine henter.queue rfl rfl rfl rfl ?_ ?_ ?_
      all_goals dsimp only; split <;> nofun
  | enterConnect hcallback hmutex =>
      exact (h.enterConnect hmutex .queue).queue rfl rfl rfl rfl nofun nofun nofun
  | inside next hcallback hmutex => exact h.proceed hmutex
  | returned | breakPing | noTimeout | takeTimeout | callTimeout
    | setTimeoutDisconnect | noLost | tearDown | reCreateConn =>
      exact h.queue rfl rfl rfl rfl nofun nofun nofun

theorem step (h : Threads s) {action : Action} (hs : s.step action = some t) :
    Threads t := by
  cases action with
  | user call => exact h.userStep hs
  | io event => exact h.ioStep hs
  | queue => exact h.queueStep hs
  | tick nanoseconds =>
      cases hs
      exact ⟨h.alone, h.assigning, h.senders, h.joining, h.joined, h.ended⟩
  | pipes ok =>
      cases hs
      exact ⟨h.alone, h.assigning, h.senders, h.joining, h.joined, h.ended⟩

theorem of_reachable {ok : TcpClient → Action → Prop}
    (h : Reachable TcpClient.step ok .init s) : Threads s :=
  h.invariant init fun _ _ _ _ hthreads _ hs => hthreads.step hs

end Threads

theorem io_proceed_of_running (hthreads : Threads s) {holder : Holder} {next : Section}
    (hmutex : s.mutex = some (holder, next)) (hio : s.io ≠ .finished) :
    (s.proceed holder next).io = s.io := by
  cases next with
  | connect =>
      simp only [TcpClient.proceed]
      split
      · rfl
      · next hthread =>
          have hnull : s.thread = false := Bool.eq_false_iff.mpr hthread
          exact absurd (hthreads.finished_of_connect hmutex hnull) hio
  | _ => rfl

end TcpClient

end GoSocket.Client
