import GoSocket.Client.Callbacks
import GoSocket.Foundation.Outbox
import Mathlib.Data.List.Nodup

/-!
# Messages are written in order

`_messageQueue` is an outbox: the calls of the user accept into it, and the
I/O thread writes its first message and pops it later.  Every step of the
client is a run of the outbox, so what a session writes is a prefix of what
the same session accepted.
-/

namespace GoSocket.Client

open GoSocket.Common GoSocket.Foundation

/-- The call whose message the holder of `_mutex` is about to push. -/
def Section.message? : Section → Option Nat
  | .register call _ _ => some call
  | .pushSendReq call _ => some call
  | .pushMessage call _ => some call
  | _ => none

/-- The I/O thread has written the first message and not popped it. -/
def IoPc.unpopped : IoPc → Bool
  | .getAlarm _ _ => true
  | .setUserData _ _ _ => true
  | .setCallback _ _ _ => true
  | .startAlarm _ _ _ => true
  | .recordAlarm _ _ _ => true
  | .pop _ => true
  | _ => false

namespace TcpClient

def outbox (self : TcpClient) : Outbox Nat where
  session := self.history.sessions
  waiting := self.messageQueue.map (·.call)
  delivering := self.io.unpopped
  accepted := self.history.accepted
  delivered := self.history.written.map fun frame => (frame.session, frame.call)

def acceptedIn (self : TcpClient) (session : Nat) : List Nat :=
  Outbox.inSession session self.outbox.accepted

def writtenIn (self : TcpClient) (session : Nat) : List Nat :=
  Outbox.inSession session self.outbox.delivered

variable {s t : TcpClient}

/-! ## Calls are numbered -/

/-- A message that is about to be pushed has not been pushed. -/
structure Numbered (s : TcpClient) : Prop where
  accepted : ∀ entry ∈ s.history.accepted, entry.2 < s.history.calls
  pushing : ∀ holder next call, s.mutex = some (holder, next) →
    next.message? = some call →
      call < s.history.calls ∧ call ∉ s.history.accepted.map Prod.snd

namespace Numbered

theorem init : Numbered .init := by
  constructor <;> simp [TcpClient.init]

private theorem lock (h : Numbered s)
    (haccepted : t.history.accepted = s.history.accepted)
    (hcalls : s.history.calls ≤ t.history.calls)
    (hmutex : ∀ holder next call, t.mutex = some (holder, next) →
      next.message? = some call →
        (∃ next', s.mutex = some (holder, next') ∧ next'.message? = some call) ∨
          (call = s.history.calls ∧ call < t.history.calls)) : Numbered t := by
  constructor
  case accepted =>
    rw [haccepted]
    exact fun entry hentry => Nat.lt_of_lt_of_le (h.accepted entry hentry) hcalls
  case pushing =>
    intro holder next call hnext hcall
    rw [haccepted]
    rcases hmutex holder next call hnext hcall with ⟨next', hold, hcall'⟩ | ⟨rfl, hlt⟩
    · obtain ⟨hlt, hnot⟩ := h.pushing holder next' call hold hcall'
      exact ⟨by omega, hnot⟩
    · refine ⟨hlt, fun hmem => ?_⟩
      obtain ⟨entry, hentry, heq⟩ := List.mem_map.mp hmem
      have hlt := h.accepted entry hentry
      omega

private theorem same (h : Numbered s)
    (haccepted : t.history.accepted = s.history.accepted)
    (hcalls : t.history.calls = s.history.calls) (hmutex : t.mutex = s.mutex) :
    Numbered t := by
  refine h.lock haccepted (Nat.le_of_eq hcalls.symm) ?_
  rw [hmutex]
  exact fun holder next call hnext hcall => .inl ⟨next, hnext, hcall⟩

private theorem silent (h : Numbered s)
    (haccepted : t.history.accepted = s.history.accepted)
    (hcalls : s.history.calls ≤ t.history.calls)
    (hmutex : ∀ holder next, t.mutex = some (holder, next) →
      next.message? = none) : Numbered t := by
  refine h.lock haccepted hcalls fun holder next call hnext hcall => ?_
  rw [hmutex holder next hnext] at hcall
  cases hcall

private theorem enterConnect (h : Numbered s) (holder : Holder) :
    Numbered (s.enterConnect holder) := by
  refine h.silent rfl (Nat.le_refl _) ?_
  unfold TcpClient.enterConnect
  intro holder' next hnext
  split at hnext <;> cases hnext
  rfl

private theorem enterDisconnect (h : Numbered s) (holder : Holder)
    (code : DisconnectCode) (shouldReconnect : Bool) :
    Numbered (s.enterDisconnect holder code shouldReconnect) := by
  refine h.silent rfl (Nat.le_refl _) ?_
  unfold TcpClient.enterDisconnect
  intro holder' next hnext
  split at hnext <;> cases hnext
  rfl

private theorem enterSend (h : Numbered s) (hfree : s.mutex = none)
    (type payload : List Packet.Byte) (data : Option (List Packet.Byte))
    (hasCallback : Bool) :
    Numbered (s.enterSend type payload data hasCallback) := by
  unfold TcpClient.enterSend
  split
  · refine h.lock rfl (Nat.le_succ _) ?_
    rintro _ _ call ⟨⟩ ⟨⟩
    exact .inr ⟨rfl, Nat.lt_succ_self _⟩
  · dsimp only
    split <;>
      exact h.silent rfl (Nat.le_succ _) (by simp [issue, callBack, hfree])

private theorem enterPush (h : Numbered s) (hfree : s.mutex = none)
    (message : Packet.MessageBase) : Numbered (s.enterPush message) := by
  unfold TcpClient.enterPush
  split
  · refine h.lock rfl (Nat.le_succ _) ?_
    rintro _ _ call ⟨⟩ ⟨⟩
    exact .inr ⟨rfl, Nat.lt_succ_self _⟩
  · exact h.silent rfl (Nat.le_succ _) (by simp [issue, hfree])

private theorem push (h : Numbered s) {holder : Holder} {next : Section}
    {call : Nat} (hmutex : s.mutex = some (holder, next))
    (hcall : next.message? = some call)
    (haccepted : t.history.accepted =
      (s.history.sessions, call) :: s.history.accepted)
    (hcalls : t.history.calls = s.history.calls)
    (hbehind : t.mutex = some (holder, .wakeUp)) : Numbered t := by
  constructor
  case accepted =>
    rw [haccepted, hcalls]
    intro entry hentry
    rcases List.mem_cons.mp hentry with rfl | hentry
    · exact (h.pushing holder next call hmutex hcall).1
    · exact h.accepted entry hentry
  case pushing =>
    rw [hbehind]
    rintro _ _ _ ⟨⟩ ⟨⟩

private theorem proceed (h : Numbered s) {holder : Holder} {next : Section}
    (hmutex : s.mutex = some (holder, next)) :
    Numbered (s.proceed holder next) := by
  cases next with
  | connect =>
      simp only [TcpClient.proceed]
      split
      · exact h.silent rfl (Nat.le_refl _) (by simp)
      · refine h.silent rfl (Nat.le_refl _) ?_
        rintro _ _ ⟨⟩
        rfl
  | breakReadWrite =>
      refine h.silent rfl (Nat.le_refl _) ?_
      simp only [TcpClient.proceed]
      intro holder' next hnext
      split at hnext <;> cases hnext <;> rfl
  | breakConnect =>
      refine h.silent rfl (Nat.le_refl _) ?_
      simp only [TcpClient.proceed]
      intro holder' next hnext
      split at hnext <;> cases hnext
      rfl
  | register call hasCallback sendReq =>
      refine h.lock rfl (Nat.le_refl _) ?_
      rintro _ _ _ ⟨⟩ ⟨⟩
      exact .inl ⟨_, hmutex, rfl⟩
  | pushSendReq call sendReq => exact h.push hmutex rfl rfl rfl rfl
  | pushMessage call message => exact h.push hmutex rfl rfl rfl rfl
  | disconnect | setShouldReconnect | closeReadWrite | flagReadWrite =>
      refine h.silent rfl (Nat.le_refl _) ?_
      rintro _ _ ⟨⟩
      rfl
  | assignThread | flagConnect | wakeUp =>
      refine h.silent rfl (Nat.le_refl _) ?_
      rintro _ _ ⟨⟩

theorem step (h : Numbered s) {action : Action} (hs : s.step action = some t) :
    Numbered t := by
  cases action with
  | user call =>
      cases userStep_cases hs with
      | enterConnect hfree => exact h.enterConnect .user
      | enterDisconnect code shouldReconnect hfree =>
          exact h.enterDisconnect .user code shouldReconnect
      | enterSend type payload data hasCallback hfree =>
          exact h.enterSend hfree type payload data hasCallback
      | enterPush message hfree => exact h.enterPush hfree message
      | inside next hcall hmutex => exact h.proceed hmutex
  | io event =>
      cases ioStep_cases hs with
      | enter hio hmutex =>
          exact (h.enterDisconnect .io .kDisCodeKickout false).same rfl rfl rfl
      | inside next hio hmutex => exact h.proceed hmutex
      | timer u io htimer =>
          obtain ⟨timers, map, pool, created, armed, rfl⟩ := htimer.eq
          exact h.same rfl rfl rfl
      | _ => exact h.same rfl rfl rfl
  | queue =>
      cases queueStep_cases hs with
      | enterDisconnect hcallback hmutex =>
          exact (h.enterDisconnect .queue .kDisCodeSendReqTimeout true).same
            rfl rfl rfl
      | enterConnect hcallback hmutex =>
          exact (h.enterConnect .queue).same rfl rfl rfl
      | inside next hcallback hmutex => exact h.proceed hmutex
      | timer u callback htimer =>
          obtain ⟨timers, map, pool, canceled, rfl⟩ := htimer.eq
          exact h.same rfl rfl rfl
      | _ => exact h.same rfl rfl rfl
  | tick nanoseconds =>
      cases hs
      exact h.same rfl rfl rfl
  | pipes ok =>
      cases hs
      exact h.same rfl rfl rfl

end Numbered

/-! ## Every step of the client is a run of the outbox -/

theorem IoMove.unpopped {io : IoPc} (h : IoMove s io) :
    io.unpopped = s.io.unpopped := by
  cases h <;> simp [*, IoPc.unpopped]

theorem IoAlarm.unpopped {io next : IoPc} {action : AlarmAction ClientAlarm}
    (h : IoAlarm io action next) : next.unpopped = io.unpopped := by
  cases h <;> rfl

theorem IoStatus.unpopped {io next : IoPc} {status : ConnectStatus}
    (h : IoStatus io status next) : next.unpopped = io.unpopped := by
  cases h <;> rfl

theorem IoTimer.unpopped {u : TcpClient} {io : IoPc} (h : IoTimer s u io) :
    io.unpopped = s.io.unpopped := by
  cases h <;> simp [*, IoPc.unpopped]

abbrev OutboxRun (s t : TcpClient) : Prop :=
  Reachable Outbox.step Outbox.Fresh s.outbox t.outbox

private theorem outbox_same (hqueue : t.messageQueue = s.messageQueue)
    (hio : t.io.unpopped = s.io.unpopped)
    (hsessions : t.history.sessions = s.history.sessions)
    (haccepted : t.history.accepted = s.history.accepted)
    (hwritten : t.history.written = s.history.written) : OutboxRun s t := by
  have heq : t.outbox = s.outbox := by
    unfold outbox
    rw [hqueue, hio, hsessions, haccepted, hwritten]
  unfold OutboxRun
  rw [heq]
  exact .refl

private theorem outbox_connect (h : Threads s) {holder : Holder}
    (hmutex : s.mutex = some (holder, .connect)) :
    OutboxRun s (s.proceed holder .connect) := by
  simp only [TcpClient.proceed]
  split
  · exact outbox_same rfl rfl rfl rfl rfl
  · next hthread =>
      have hio : s.io = .finished :=
        h.finished_of_connect hmutex (Bool.eq_false_iff.mpr hthread)
      have hdelivering : s.outbox.delivering = false := by
        simp [outbox, hio, IoPc.unpopped]
      refine .single .renew trivial ?_
      simp [Outbox.step, hdelivering]
      simp [outbox, hio, IoPc.unpopped]

private theorem outbox_push (h : Numbered s) {holder : Holder} {next : Section}
    {call : Nat} {message : Packet.MessageBase}
    (hmutex : s.mutex = some (holder, next))
    (hcall : next.message? = some call)
    (hqueue : t.messageQueue = s.messageQueue ++ [⟨call, message⟩])
    (hio : t.io = s.io) (hsessions : t.history.sessions = s.history.sessions)
    (haccepted : t.history.accepted =
      (s.history.sessions, call) :: s.history.accepted)
    (hwritten : t.history.written = s.history.written) : OutboxRun s t := by
  refine .single (.accept call) (h.pushing holder next call hmutex hcall).2 ?_
  simp [Outbox.step, outbox, hqueue, hio, hsessions, haccepted, hwritten]

private theorem outbox_proceed (h : Threads s) (hnumbered : Numbered s)
    {holder : Holder} {next : Section} (hmutex : s.mutex = some (holder, next)) :
    OutboxRun s (s.proceed holder next) := by
  cases next with
  | connect => exact outbox_connect h hmutex
  | pushSendReq call sendReq =>
      exact outbox_push hnumbered hmutex rfl rfl rfl rfl rfl rfl
  | pushMessage call message =>
      exact outbox_push hnumbered hmutex rfl rfl rfl rfl rfl rfl
  | _ => exact outbox_same rfl rfl rfl rfl rfl

private theorem outbox_user (h : Threads s) (hnumbered : Numbered s)
    {call : UserCall} (hs : s.userStep call = some t) : OutboxRun s t := by
  cases userStep_cases hs with
  | enterSend type payload data hasCallback hfree =>
      obtain ⟨mutex, calls, invoked, heq⟩ :=
        s.enterSend_eq type payload data hasCallback
      rw [heq]
      exact outbox_same rfl rfl rfl rfl rfl
  | enterPush message hfree =>
      obtain ⟨mutex, calls, heq⟩ := s.enterPush_eq message
      rw [heq]
      exact outbox_same rfl rfl rfl rfl rfl
  | inside next hcall hmutex => exact outbox_proceed h hnumbered hmutex
  | _ => exact outbox_same rfl rfl rfl rfl rfl

private theorem outbox_io (h : Threads s) (hnumbered : Numbered s)
    {event : IoEvent} (hs : s.ioStep event = some t) : OutboxRun s t := by
  cases ioStep_cases hs with
  | move io hmove => exact outbox_same rfl hmove.unpopped rfl rfl rfl
  | alarm action timers io halarm =>
      exact outbox_same rfl halarm.unpopped rfl rfl rfl
  | status status io hstatus => exact outbox_same rfl hstatus.unpopped rfl rfl rfl
  | timer u io htimer =>
      have hunpopped := htimer.unpopped
      obtain ⟨timers, map, pool, created, armed, rfl⟩ := htimer.eq
      exact outbox_same rfl hunpopped rfl rfl rfl
  | encode readable queued rest hio hqueue =>
      have hbehind :
          (behindEncode readable queued.call queued.message).unpopped = true := by
        unfold behindEncode
        split <;> rfl
      have hbefore : (IoPc.encode readable).unpopped = false := rfl
      refine .single .deliver trivial ?_
      simp [Outbox.step, outbox, hqueue, hio, hbefore, hbehind, write]
  | pop readable hio hmutex =>
      refine .single .retire trivial ?_
      simp [Outbox.step, outbox, hio, IoPc.unpopped]
  | inside next hio hmutex => exact outbox_proceed h hnumbered hmutex
  | refuse | clear | pingTimeout | noCallback | takeCallback | callBack
    | enter =>
      exact outbox_same rfl (by simp [*, IoPc.unpopped]) rfl rfl rfl

private theorem outbox_queue (h : Threads s) (hnumbered : Numbered s)
    (hs : s.queueStep = some t) : OutboxRun s t := by
  cases queueStep_cases hs with
  | timer u callback htimer =>
      obtain ⟨timers, map, pool, canceled, rfl⟩ := htimer.eq
      exact outbox_same rfl rfl rfl rfl rfl
  | inside next hcallback hmutex => exact outbox_proceed h hnumbered hmutex
  | _ => exact outbox_same rfl rfl rfl rfl rfl

theorem outbox_run (h : Threads s) (hnumbered : Numbered s) {action : Action}
    (hs : s.step action = some t) : OutboxRun s t := by
  cases action with
  | user call => exact outbox_user h hnumbered hs
  | io event => exact outbox_io h hnumbered hs
  | queue => exact outbox_queue h hnumbered hs
  | tick nanoseconds =>
      cases hs
      exact outbox_same rfl rfl rfl rfl rfl
  | pipes ok =>
      cases hs
      exact outbox_same rfl rfl rfl rfl rfl

theorem Numbered.of_reachable {ok : TcpClient → Action → Prop}
    (h : Reachable TcpClient.step ok .init s) : Numbered s :=
  h.invariant init fun _ _ _ _ hnumbered _ hs => hnumbered.step hs

theorem outbox_sound {ok : TcpClient → Action → Prop}
    (h : Reachable step ok .init s) : s.outbox.Sound := by
  have hrun : OutboxRun .init s := by
    apply h.project outbox
    intro u action t hu _ hs
    exact outbox_run (.of_reachable hu) (.of_reachable hu) hs
  exact Outbox.sound_of_reachable hrun

/-- What a session writes is a prefix of what it accepts, nothing is written
twice, and nothing that one session accepts is written by another. -/
theorem written_in_order (h : Reachable step AnyStep .init s) :
    (∀ session, s.writtenIn session <+: s.acceptedIn session) ∧
      (∀ session, (s.writtenIn session).Nodup) ∧
      ∀ session session' call, call ∈ s.acceptedIn session →
        call ∈ s.writtenIn session' → session = session' := by
  have hsound := outbox_sound h
  refine ⟨hsound.ordered, fun session => ?_, ?_⟩
  · have haccepted := Outbox.nodup_inSession session hsound.unique
    exact haccepted.sublist (hsound.ordered session).sublist
  · intro session session' call haccepted hwritten
    have hmem := Outbox.mem_inSession.mp haccepted
    have hmem' :=
      Outbox.mem_inSession.mp ((hsound.ordered session').subset hwritten)
    exact congrArg Prod.fst (List.inj_on_of_nodup_map hsound.unique hmem hmem' rfl)

theorem written_in_order_twoSends :
    ∃ s : TcpClient, s.writtenIn 1 = [0] ∧ s.acceptedIn 1 = [0, 1] ∧
      s.writtenIn 1 <+: s.acceptedIn 1 := by
  have hrun : (run step init (connecting ++ sending ++ sending ++ writing)).map
      (fun s => (s.writtenIn 1, s.acceptedIn 1)) = some ([0], [0, 1]) := by
    decide +kernel
  obtain ⟨s, hreach, hlogs⟩ := Reachable.of_run_map hrun
  exact ⟨s, congrArg Prod.fst hlogs, congrArg Prod.snd hlogs,
    (written_in_order hreach).1 1⟩

end TcpClient

end GoSocket.Client
