import GoSocket.Client.Delivery

/-!
# What is written down about calls

A callback in `_callbackMap` has been registered, a timer in
`_timeoutAlarmMap` is one of an accepted call, and a call is registered and
accepted in one session.  A step changes these books in one of a few ways.
-/

namespace GoSocket.Client

open Std GoSocket.Common GoSocket.Foundation

def Action.thread? : Action → Option Holder
  | .user _ => some .user
  | .io _ => some .io
  | .queue => some .queue
  | _ => none

def IoPc.written? : IoPc → Option Written
  | .getAlarm _ written => some written
  | .setUserData _ written _ => some written
  | .setCallback _ written _ => some written
  | .startAlarm _ written _ => some written
  | .recordAlarm _ written _ => some written
  | _ => none

namespace TcpClient

variable {s t : TcpClient}

/-! ## The map of the timers -/

theorem getElem?_erase {α : Type} (map : TreeMap UInt16 α)
    (messageId messageId' : UInt16) :
    (map.erase messageId)[messageId']? =
      if messageId' = messageId then none else map[messageId']? := by
  rw [TreeMap.getElem?_erase]
  by_cases h : messageId' = messageId
  · simp [h]
  · rw [if_neg h, if_neg]
    exact fun heq => h (LawfulEqCmp.eq_of_compare heq).symm

theorem getElem?_insert {α : Type} (map : TreeMap UInt16 α)
    (messageId messageId' : UInt16) (a : α) :
    (map.insert messageId a)[messageId']? =
      if messageId' = messageId then some a else map[messageId']? := by
  rw [TreeMap.getElem?_insert]
  by_cases h : messageId' = messageId
  · simp [h]
  · rw [if_neg h, if_neg]
    exact fun heq => h (LawfulEqCmp.eq_of_compare heq).symm

@[simp] theorem timer_release (s : TcpClient) (messageId messageId' : UInt16) :
    (s.release messageId).timeoutAlarmMap[messageId']? =
      if messageId' = messageId then none
      else s.timeoutAlarmMap[messageId']? := by
  unfold release
  split
  · exact getElem?_erase _ _ _
  · next hnone =>
      split
      · next heq =>
          rw [heq]
          exact hnone
      · rfl

@[simp] theorem timer_cancelTimer (s : TcpClient) (messageId messageId' : UInt16) :
    (s.cancelTimer messageId).timeoutAlarmMap[messageId']? =
      if messageId' = messageId then none
      else s.timeoutAlarmMap[messageId']? := by
  unfold cancelTimer
  split
  · rw [timer_release]
  · next hnone =>
      split
      · next heq =>
          rw [heq]
          exact hnone
      · rfl

@[simp] theorem timer_recordAlarm (s : TcpClient) (written : Written) (alarm : Nat)
    (messageId : UInt16) :
    (s.recordAlarm written alarm).timeoutAlarmMap[messageId]? =
      if messageId = written.messageId then some { alarm, call := written.call }
      else s.timeoutAlarmMap[messageId]? := by
  unfold recordAlarm
  rw [getElem?_insert]
  split
  · rfl
  · next h => rw [timer_release, if_neg h]

/-! ## What a step changes in the books -/

/-- The step leaves the books as they are, and takes no message in hand. -/
structure SameBooks (s t : TcpClient) : Prop where
  callbackMap : t.callbackMap = s.callbackMap
  timeoutAlarmMap : t.timeoutAlarmMap = s.timeoutAlarmMap
  currentMsgId : t.currentMsgId = s.currentMsgId
  newBreaker : t.shouldNewBreaker = s.shouldNewBreaker
  newConnBreaker : t.shouldNewConnBreaker = s.shouldNewConnBreaker
  calls : t.history.calls = s.history.calls
  registered : t.history.registered = s.history.registered
  accepted : t.history.accepted = s.history.accepted
  sessions : t.history.sessions = s.history.sessions
  message : ∀ holder next call, t.mutex = some (holder, next) →
    next.message? = some call → s.mutex = some (holder, next)

theorem SameBooks.refl (s : TcpClient) : SameBooks s s where
  callbackMap := rfl
  timeoutAlarmMap := rfl
  currentMsgId := rfl
  newBreaker := rfl
  newConnBreaker := rfl
  calls := rfl
  registered := rfl
  accepted := rfl
  sessions := rfl
  message _ _ _ hnext _ := hnext

inductive BookCases (s : TcpClient) (action : Action) (t : TcpClient) : Prop
  | same (h : SameBooks s t)
  | issue (h : SameBooks { s.issue with mutex := t.mutex } t)
      (hmessage : ∀ holder next call, t.mutex = some (holder, next) →
        next.message? = some call →
          call = s.history.calls ∧ ∀ sendReq, next ≠ .pushSendReq call sendReq)
  | connect (holder : Holder) (hthread : action.thread? = some holder)
      (hmutex : s.mutex = some (holder, .connect)) (hnull : s.thread = false)
      (h : SameBooks
        { s with
          shouldNewBreaker := false
          shouldNewConnBreaker := false
          history := { s.history with sessions := s.history.sessions + 1 } } t)
  | flagReadWrite (holder : Holder) (hthread : action.thread? = some holder)
      (hmutex : s.mutex = some (holder, .flagReadWrite))
      (h : SameBooks { s with shouldNewBreaker := true } t)
  | flagConnect (holder : Holder) (hthread : action.thread? = some holder)
      (hmutex : s.mutex = some (holder, .flagConnect))
      (h : SameBooks { s with shouldNewConnBreaker := true } t)
  | register (holder : Holder) (call : Nat) (hasCallback : Bool)
      (sendReq : Packet.SendReq) (hthread : action.thread? = some holder)
      (hmutex : s.mutex = some (holder, .register call hasCallback sendReq))
      (heq : t = s.proceed holder (.register call hasCallback sendReq))
  | push (holder : Holder) (next : Section) (call : Nat)
      (message : Packet.MessageBase) (currentMsgId : UInt16)
      (hmutex : s.mutex = some (holder, next))
      (hcall : next.message? = some call)
      (h : SameBooks { s.push call message with currentMsgId, mutex := none } t)
  | record (readable : Bool) (written : Written) (alarm : Nat)
      (hthread : action.thread? = some .io)
      (hio : s.io = .recordAlarm readable written alarm)
      (hfree : s.holdsTimers = false)
      (h : SameBooks (s.recordAlarm written alarm) t)
  | erase (messageId : UInt16)
      (hfree : t.callback = s.callback → s.holdsTimers = false)
      (hmap : ∀ messageId', t.timeoutAlarmMap[messageId']? =
        if messageId' = messageId then none
        else s.timeoutAlarmMap[messageId']?)
      (h : SameBooks { s with timeoutAlarmMap := t.timeoutAlarmMap } t)
  | drop (messageId : UInt16) (h : SameBooks (s.dropCallback messageId) t)

namespace BookCases

variable {action : Action}

private theorem enterConnect (s : TcpClient) (holder : Holder) :
    SameBooks s (s.enterConnect holder) := by
  refine { SameBooks.refl _ with message := ?_ }
  unfold TcpClient.enterConnect
  intro holder' next call hnext hcall
  split at hnext <;> cases hnext
  cases hcall

private theorem enterDisconnect (s : TcpClient) (holder : Holder)
    (code : DisconnectCode) (shouldReconnect : Bool) :
    SameBooks s (s.enterDisconnect holder code shouldReconnect) := by
  refine { SameBooks.refl _ with message := ?_ }
  unfold TcpClient.enterDisconnect
  intro holder' next call hnext hcall
  split at hnext <;> cases hnext
  cases hcall

private theorem enterSend (hfree : s.mutex = none)
    (type payload : List Packet.Byte) (data : Option (List Packet.Byte))
    (hasCallback : Bool) :
    BookCases s action (s.enterSend type payload data hasCallback) := by
  unfold TcpClient.enterSend
  split
  · refine .issue { SameBooks.refl _ with } ?_
    rintro _ _ _ ⟨⟩ ⟨⟩
    exact ⟨rfl, nofun⟩
  · dsimp only
    split <;> exact .issue { SameBooks.refl _ with }
      (by simp [TcpClient.issue, callBack, hfree])

private theorem enterPush (hfree : s.mutex = none)
    (message : Packet.MessageBase) : BookCases s action (s.enterPush message) := by
  unfold TcpClient.enterPush
  split
  · refine .issue { SameBooks.refl _ with } ?_
    rintro _ _ _ ⟨⟩ ⟨⟩
    exact ⟨rfl, nofun⟩
  · exact .issue { SameBooks.refl _ with } (by simp [TcpClient.issue, hfree])

private theorem proceed {holder : Holder} {next : Section}
    (hthread : action.thread? = some holder)
    (hmutex : s.mutex = some (holder, next)) :
    BookCases s action (s.proceed holder next) := by
  cases next with
  | connect =>
      simp only [TcpClient.proceed]
      split
      · exact .same { SameBooks.refl _ with message := by rintro _ _ _ ⟨⟩ }
      · next hnull =>
          refine .connect holder hthread hmutex (Bool.eq_false_iff.mpr hnull)
            { SameBooks.refl _ with message := ?_ }
          rintro _ _ _ ⟨⟩ ⟨⟩
  | flagReadWrite =>
      refine .flagReadWrite holder hthread hmutex { SameBooks.refl _ with message := ?_ }
      rintro _ _ _ ⟨⟩ ⟨⟩
  | flagConnect =>
      refine .flagConnect holder hthread hmutex { SameBooks.refl _ with message := ?_ }
      rintro _ _ _ ⟨⟩
  | register call hasCallback sendReq =>
      exact .register holder call hasCallback sendReq hthread hmutex rfl
  | pushSendReq call sendReq =>
      refine .push holder _ call (.sendReq { sendReq with
        messageId := s.currentMsgId }) _ hmutex rfl { SameBooks.refl _ with message := ?_ }
      rintro _ _ _ ⟨⟩ ⟨⟩
  | pushMessage call message =>
      refine .push holder _ call message _ hmutex rfl
        { SameBooks.refl _ with message := ?_ }
      rintro _ _ _ ⟨⟩ ⟨⟩
  | breakReadWrite =>
      refine .same { SameBooks.refl _ with message := ?_ }
      simp only [TcpClient.proceed]
      intro holder' next call hnext hcall
      split at hnext <;> cases hnext <;> cases hcall
  | breakConnect =>
      refine .same { SameBooks.refl _ with message := ?_ }
      simp only [TcpClient.proceed]
      intro holder' next call hnext hcall
      split at hnext <;> cases hnext
      cases hcall
  | disconnect | setShouldReconnect | closeReadWrite =>
      refine .same { SameBooks.refl _ with message := ?_ }
      rintro _ _ _ ⟨⟩ ⟨⟩
  | assignThread | wakeUp =>
      exact .same { SameBooks.refl _ with message := by rintro _ _ _ ⟨⟩ }

private theorem ioTimer {event : IoEvent} {u : TcpClient} {io : IoPc}
    (h : IoTimer s u io) : BookCases s (.io event) { u with io } := by
  cases h with
  | takeAlarm readable written hio =>
      obtain ⟨pool, created, heq⟩ := s.takeAlarm_eq
      rw [heq]
      exact .same { SameBooks.refl _ with }
  | startAlarm readable written alarm hio =>
      obtain ⟨timers, armed, heq⟩ := s.armAlarm_eq written.call alarm
      rw [heq]
      exact .same { SameBooks.refl _ with }
  | recordAlarm readable written alarm hio hfree =>
      exact .record readable written alarm rfl hio hfree { SameBooks.refl _ with }
  | cancelTimer messageId hio hfree =>
      have hmap := s.timer_cancelTimer messageId
      obtain ⟨timers, map, pool, heq⟩ := s.cancelTimer_eq messageId
      rw [heq] at hmap ⊢
      exact .erase messageId (fun _ => hfree) hmap { SameBooks.refl _ with }

private theorem queueTimer {u : TcpClient} {callback : CallbackPc}
    (h : QueueTimer s u callback) : BookCases s action { u with callback } := by
  cases h with
  | eraseTimer messageId start hcallback =>
      have hmap := s.timer_release messageId
      obtain ⟨map, pool, heq⟩ := s.release_eq messageId
      rw [heq] at hmap ⊢
      exact .erase messageId (fun h => by simp [hcallback] at h) hmap
        { SameBooks.refl _ with }
  | cancelTimer session messageIds messageId rest hcallback hkeys =>
      have hmap := (s.loseTimer session messageId).timer_cancelTimer messageId
      obtain ⟨canceled, hlose⟩ := s.loseTimer_eq session messageId
      obtain ⟨timers, map, pool, heq⟩ :=
        (s.loseTimer session messageId).cancelTimer_eq messageId
      rw [heq, hlose] at hmap
      rw [heq, hlose]
      exact .erase messageId (fun h => by simp [hcallback] at h) hmap
        { SameBooks.refl _ with }

theorem of_step (hs : s.step action = some t) : BookCases s action t := by
  cases action with
  | user call =>
      cases userStep_cases hs with
      | enterConnect hfree => exact .same (enterConnect s .user)
      | enterDisconnect code shouldReconnect hfree =>
          exact .same (enterDisconnect s .user code shouldReconnect)
      | enterSend type payload data hasCallback hfree =>
          exact enterSend hfree type payload data hasCallback
      | enterPush message hfree => exact enterPush hfree message
      | inside next hcall hmutex => exact proceed rfl hmutex
  | io event =>
      cases ioStep_cases hs with
      | timer u io htimer => exact ioTimer htimer
      | noCallback messageId hio hnone => exact .drop messageId { SameBooks.refl _ with }
      | takeCallback messageId call hio hsome =>
          exact .drop messageId { SameBooks.refl _ with }
      | enter hio hfree =>
          have h := enterDisconnect s .io .kDisCodeKickout false
          exact .same { SameBooks.refl _ with message := h.message }
      | inside next hio hmutex => exact proceed rfl hmutex
      | _ => exact .same { SameBooks.refl _ with }
  | queue =>
      cases queueStep_cases hs with
      | timer u callback htimer => exact queueTimer htimer
      | noTimeout messageId start hcallback hnone =>
          exact .drop messageId { SameBooks.refl _ with }
      | takeTimeout messageId start call hcallback hsome =>
          exact .drop messageId { SameBooks.refl _ with }
      | noLost session messageId messageIds hcallback hnone =>
          exact .drop messageId { SameBooks.refl _ with }
      | takeLost session call messageId messageIds hcallback hsome =>
          exact .drop messageId { SameBooks.refl _ with }
      | enterDisconnect hcallback hfree =>
          have h := enterDisconnect s .queue .kDisCodeSendReqTimeout true
          exact .same { SameBooks.refl _ with message := h.message }
      | enterConnect hcallback hfree =>
          have h := enterConnect s .queue
          exact .same { SameBooks.refl _ with message := h.message }
      | inside next hcallback hmutex => exact proceed rfl hmutex
      | _ => exact .same { SameBooks.refl _ with }
  | tick nanoseconds =>
      cases hs
      exact .same { SameBooks.refl _ with }
  | pipes ok =>
      cases hs
      exact .same { SameBooks.refl _ with }

theorem accepted (h : BookCases s action t) :
    s.history.accepted ⊆ t.history.accepted := by
  cases h with
  | push holder next call message currentMsgId hmutex hcall h =>
      rw [h.accepted]
      exact List.subset_cons_self _ _
  | register holder call hasCallback sendReq hthread hmutex heq =>
      subst heq
      exact List.Subset.refl _
  | record readable written alarm hthread hio hfree h =>
      obtain ⟨map, pool, heq⟩ := s.recordAlarm_eq written alarm
      rw [heq] at h
      rw [h.accepted]
      exact List.Subset.refl _
  | same h | issue h | connect _ _ _ _ h | flagReadWrite _ _ _ h
    | flagConnect _ _ _ h | erase _ _ _ h | drop _ h =>
      rw [h.accepted]
      exact List.Subset.refl _

theorem registered (h : BookCases s action t) :
    s.history.registered ⊆ t.history.registered := by
  cases h with
  | register holder call hasCallback sendReq hthread hmutex heq =>
      subst heq
      simp only [TcpClient.proceed]
      split
      · exact List.subset_cons_self _ _
      · exact List.Subset.refl _
  | record readable written alarm hthread hio hfree h =>
      obtain ⟨map, pool, heq⟩ := s.recordAlarm_eq written alarm
      rw [heq] at h
      rw [h.registered]
      exact List.Subset.refl _
  | same h | issue h | connect _ _ _ _ h | flagReadWrite _ _ _ h
    | flagConnect _ _ _ h | push _ _ _ _ _ _ _ h | erase _ _ _ h | drop _ h =>
      rw [h.registered]
      exact List.Subset.refl _

theorem registered_cases (h : BookCases s action t) {entry : Nat × Nat}
    (hentry : entry ∈ t.history.registered) : entry ∈ s.history.registered ∨
      entry.2 = s.history.sessions ∧ ∃ holder sendReq,
        action.thread? = some holder ∧
          s.mutex = some (holder, .register entry.1 true sendReq) := by
  cases h with
  | register holder call hasCallback sendReq hthread hmutex heq =>
      subst heq
      simp only [TcpClient.proceed] at hentry
      split at hentry
      · next htrue =>
          subst htrue
          rcases List.mem_cons.mp hentry with rfl | hentry
          · exact .inr ⟨rfl, holder, sendReq, hthread, hmutex⟩
          · exact .inl hentry
      · exact .inl hentry
  | record readable written alarm hthread hio hfree h =>
      obtain ⟨map, pool, heq⟩ := s.recordAlarm_eq written alarm
      rw [heq] at h
      rw [h.registered] at hentry
      exact .inl hentry
  | same h | issue h | connect _ _ _ _ h | flagReadWrite _ _ _ h
    | flagConnect _ _ _ h | push _ _ _ _ _ _ _ h | erase _ _ _ h | drop _ h =>
      rw [h.registered] at hentry
      exact .inl hentry

theorem sessions (h : BookCases s action t) :
    t.history.sessions = s.history.sessions ∨
      t.history.sessions = s.history.sessions + 1 ∧ s.thread = false ∧
        t.shouldNewBreaker = false ∧ t.shouldNewConnBreaker = false ∧
        ∃ holder, action.thread? = some holder ∧
          s.mutex = some (holder, .connect) := by
  cases h with
  | connect holder hthread hmutex hnull h =>
      exact .inr ⟨h.sessions, hnull, h.newBreaker, h.newConnBreaker, holder,
        hthread, hmutex⟩
  | register holder call hasCallback sendReq hthread hmutex heq =>
      subst heq
      exact .inl rfl
  | record readable written alarm hthread hio hfree h =>
      obtain ⟨map, pool, heq⟩ := s.recordAlarm_eq written alarm
      rw [heq] at h
      exact .inl h.sessions
  | same h | issue h | flagReadWrite _ _ _ h | flagConnect _ _ _ h
    | push _ _ _ _ _ _ _ h | erase _ _ _ h | drop _ h => exact .inl h.sessions

theorem timer (h : BookCases s action t) {messageId : UInt16} {timer : Timer}
    (htimer : t.timeoutAlarmMap[messageId]? = some timer) :
    s.timeoutAlarmMap[messageId]? = some timer ∨
      action.thread? = some .io ∧ s.holdsTimers = false ∧
        ∃ readable written alarm, s.io = .recordAlarm readable written alarm := by
  cases h with
  | register holder call hasCallback sendReq hthread hmutex heq =>
      subst heq
      exact .inl htimer
  | record readable written alarm hthread hio hfree h =>
      exact .inr ⟨hthread, hfree, readable, written, alarm, hio⟩
  | erase messageId' hfree hmap h =>
      rw [hmap] at htimer
      split at htimer
      · cases htimer
      · exact .inl htimer
  | same h | issue h | connect _ _ _ _ h | flagReadWrite _ _ _ h
    | flagConnect _ _ _ h | push _ _ _ _ _ _ _ h | drop _ h =>
      rw [h.timeoutAlarmMap] at htimer
      exact .inl htimer

theorem locked (h : BookCases s action t) (hcallback : t.callback = s.callback)
    (hlocked : s.holdsTimers = true) : t.timeoutAlarmMap = s.timeoutAlarmMap := by
  cases h with
  | register holder call hasCallback sendReq hthread hmutex heq =>
      subst heq
      rfl
  | record readable written alarm hthread hio hfree h =>
      cases hfree.symm.trans hlocked
  | erase messageId hfree hmap h => cases (hfree hcallback).symm.trans hlocked
  | same h | issue h | connect _ _ _ _ h | flagReadWrite _ _ _ h
    | flagConnect _ _ _ h | push _ _ _ _ _ _ _ h | drop _ h =>
      exact h.timeoutAlarmMap

theorem callback (h : BookCases s action t) {messageId : UInt16} {call : Nat}
    (hsome : t.callback? messageId = some call) :
    s.callback? messageId = some call ∨
      messageId = s.currentMsgId ∧
        (call, s.history.sessions) ∈ t.history.registered ∧
        ∃ holder sendReq, action.thread? = some holder ∧
          s.mutex = some (holder, .register call true sendReq) := by
  have hmap {u : TcpClient} (h : SameBooks u t) :
      t.callback? messageId = u.callback? messageId := by
    unfold callback?
    rw [h.callbackMap]
  cases h with
  | register holder call' hasCallback sendReq hthread hmutex heq =>
      subst heq
      simp only [callback?, TcpClient.proceed] at hsome
      rw [callback?_insert] at hsome
      split at hsome
      · next heq =>
          cases hasCallback <;> cases hsome
          exact .inr ⟨heq, List.mem_cons_self, holder, sendReq, hthread, hmutex⟩
      · exact .inl hsome
  | record readable written alarm hthread hio hfree h =>
      obtain ⟨map, pool, heq⟩ := s.recordAlarm_eq written alarm
      rw [heq] at h
      exact .inl ((hmap h).symm.trans hsome)
  | drop messageId' h =>
      rw [hmap h, callback?_dropCallback] at hsome
      split at hsome
      · cases hsome
      · exact .inl hsome
  | same h | issue h | connect _ _ _ _ h | flagReadWrite _ _ _ h
    | flagConnect _ _ _ h | push _ _ _ _ _ _ _ h | erase _ _ _ h =>
      exact .inl ((hmap h).symm.trans hsome)

theorem newBreaker (h : BookCases s action t) (hflag : t.shouldNewBreaker = true) :
    s.shouldNewBreaker = true ∨
      ∃ holder, action.thread? = some holder ∧
        s.mutex = some (holder, .flagReadWrite) := by
  cases h with
  | connect holder hthread hmutex hnull h => cases h.newBreaker.symm.trans hflag
  | flagReadWrite holder hthread hmutex h => exact .inr ⟨holder, hthread, hmutex⟩
  | register holder call hasCallback sendReq hthread hmutex heq =>
      subst heq
      exact .inl hflag
  | record readable written alarm hthread hio hfree h =>
      obtain ⟨map, pool, heq⟩ := s.recordAlarm_eq written alarm
      rw [heq] at h
      exact .inl (h.newBreaker.symm.trans hflag)
  | same h | issue h | flagConnect _ _ _ h | push _ _ _ _ _ _ _ h
    | erase _ _ _ h | drop _ h => exact .inl (h.newBreaker.symm.trans hflag)

theorem newConnBreaker (h : BookCases s action t)
    (hflag : t.shouldNewConnBreaker = true) :
    s.shouldNewConnBreaker = true ∨
      ∃ holder, action.thread? = some holder ∧
        s.mutex = some (holder, .flagConnect) := by
  cases h with
  | connect holder hthread hmutex hnull h =>
      cases h.newConnBreaker.symm.trans hflag
  | flagConnect holder hthread hmutex h => exact .inr ⟨holder, hthread, hmutex⟩
  | register holder call hasCallback sendReq hthread hmutex heq =>
      subst heq
      exact .inl hflag
  | record readable written alarm hthread hio hfree h =>
      obtain ⟨map, pool, heq⟩ := s.recordAlarm_eq written alarm
      rw [heq] at h
      exact .inl (h.newConnBreaker.symm.trans hflag)
  | same h | issue h | flagReadWrite _ _ _ h | push _ _ _ _ _ _ _ h
    | erase _ _ _ h | drop _ h => exact .inl (h.newConnBreaker.symm.trans hflag)

end BookCases

/-! ## What every run keeps -/

structure Books (s : TcpClient) : Prop where
  lt_calls : ∀ entry ∈ s.history.registered, entry.1 < s.history.calls
  le_sessions : ∀ entry ∈ s.history.registered, entry.2 ≤ s.history.sessions
  once : ∀ call session session', (call, session) ∈ s.history.registered →
    (session', call) ∈ s.history.accepted → session' = session
  pushing : ∀ holder next call session, s.mutex = some (holder, next) →
    next.message? = some call → (call, session) ∈ s.history.registered →
      session = s.history.sessions ∧ ∃ sendReq, next = .pushSendReq call sendReq
  callbacks : ∀ messageId call, s.callback? messageId = some call →
    ∃ session, (call, session) ∈ s.history.registered
  timers : ∀ (messageId : UInt16) (timer : Timer),
    s.timeoutAlarmMap[messageId]? = some timer →
      ∃ session, (session, timer.call) ∈ s.history.accepted
  written : ∀ written, s.io.written? = some written →
    ∃ session, (session, written.call) ∈ s.history.accepted

namespace Books

theorem init : Books .init := by
  constructor <;> simp [TcpClient.init, callback?, IoPc.written?]

private theorem of_same (h : Books s) (hsame : SameBooks s t)
    (hwritten : ∀ written, t.io.written? = some written →
      ∃ session, (session, written.call) ∈ s.history.accepted) : Books t := by
  have hcallback (messageId : UInt16) : t.callback? messageId = s.callback? messageId := by
    unfold callback?
    rw [hsame.callbackMap]
  constructor
  case lt_calls =>
    rw [hsame.registered, hsame.calls]
    exact h.lt_calls
  case le_sessions =>
    rw [hsame.registered, hsame.sessions]
    exact h.le_sessions
  case once =>
    rw [hsame.registered, hsame.accepted]
    exact h.once
  case pushing =>
    rw [hsame.registered, hsame.sessions]
    intro holder next call session hnext hcall
    exact h.pushing holder next call session
      (hsame.message holder next call hnext hcall) hcall
  case callbacks =>
    rw [hsame.registered]
    intro messageId call hsome
    exact h.callbacks messageId call ((hcallback messageId).symm.trans hsome)
  case timers =>
    rw [hsame.timeoutAlarmMap, hsame.accepted]
    exact h.timers
  case written =>
    rw [hsame.accepted]
    exact hwritten

private theorem issue (h : Books s) {mutex : Option (Holder × Section)}
    (hmessage : ∀ holder next call, mutex = some (holder, next) →
      next.message? = some call → call = s.history.calls) :
    Books { s.issue with mutex } := by
  constructor
  case lt_calls => exact fun entry hentry => Nat.lt_succ_of_lt (h.lt_calls entry hentry)
  case le_sessions => exact h.le_sessions
  case once => exact h.once
  case pushing =>
    intro holder next call session hnext hcall hentry
    have heq := hmessage holder next call hnext hcall
    have hlt := h.lt_calls _ hentry
    dsimp only at hlt
    omega
  case callbacks => exact h.callbacks
  case timers => exact h.timers
  case written => exact h.written

theorem unregistered (h : Books s) {holder : Holder} {call : Nat}
    {hasCallback : Bool} {sendReq : Packet.SendReq}
    (hmutex : s.mutex = some (holder, .register call hasCallback sendReq))
    (session : Nat) : (call, session) ∉ s.history.registered := by
  intro hentry
  obtain ⟨-, _, hnext⟩ := h.pushing holder _ call session hmutex rfl hentry
  cases hnext

private theorem register (h : Books s) (hnumbered : Numbered s) {holder : Holder}
    {call : Nat} {hasCallback : Bool} {sendReq : Packet.SendReq}
    (hmutex : s.mutex = some (holder, .register call hasCallback sendReq)) :
    Books (s.proceed holder (.register call hasCallback sendReq)) := by
  obtain ⟨hlt, hnot⟩ := hnumbered.pushing holder _ call hmutex rfl
  have hfresh := h.unregistered hmutex
  have hregistered {entry : Nat × Nat} (hentry : entry ∈
      (s.proceed holder (.register call hasCallback sendReq)).history.registered) :
      entry = (call, s.history.sessions) ∨ entry ∈ s.history.registered := by
    simp only [TcpClient.proceed] at hentry
    split at hentry
    · exact List.mem_cons.mp hentry
    · exact .inr hentry
  constructor
  case lt_calls =>
    intro entry hentry
    rcases hregistered hentry with rfl | hentry
    · exact hlt
    · exact h.lt_calls entry hentry
  case le_sessions =>
    intro entry hentry
    rcases hregistered hentry with rfl | hentry
    · exact Nat.le_refl _
    · exact h.le_sessions entry hentry
  case once =>
    intro call' session session' hentry haccepted
    rcases hregistered hentry with heq | hentry
    · cases heq
      exact absurd (List.mem_map_of_mem haccepted) hnot
    · exact h.once call' session session' hentry haccepted
  case pushing =>
    rintro _ _ _ session ⟨⟩ ⟨⟩ hentry
    rcases hregistered hentry with heq | hentry
    · cases heq
      exact ⟨rfl, sendReq, rfl⟩
    · exact absurd hentry (hfresh session)
  case callbacks =>
    intro messageId call' hsome
    simp only [callback?, TcpClient.proceed] at hsome ⊢
    rw [callback?_insert] at hsome
    split at hsome
    · cases hasCallback <;> cases hsome
      exact ⟨_, List.mem_cons_self⟩
    · obtain ⟨session, hentry⟩ := h.callbacks messageId call' hsome
      refine ⟨session, ?_⟩
      split
      · exact List.mem_cons_of_mem _ hentry
      · exact hentry
  case timers => exact h.timers
  case written => exact h.written

private theorem push (h : Books s) {holder : Holder} {next : Section} {call : Nat}
    (hmutex : s.mutex = some (holder, next)) (hcall : next.message? = some call)
    (message : Packet.MessageBase) (currentMsgId : UInt16) :
    Books { s.push call message with currentMsgId, mutex := none } := by
  constructor
  case lt_calls => exact h.lt_calls
  case le_sessions => exact h.le_sessions
  case once =>
    intro call' session session' hentry haccepted
    rcases List.mem_cons.mp haccepted with heq | haccepted
    · cases heq
      exact (h.pushing holder next call session hmutex hcall hentry).1.symm
    · exact h.once call' session session' hentry haccepted
  case pushing => rintro _ _ _ _ ⟨⟩
  case callbacks => exact h.callbacks
  case timers =>
    intro messageId timer htimer
    obtain ⟨session, haccepted⟩ := h.timers messageId timer htimer
    exact ⟨session, List.mem_cons_of_mem _ haccepted⟩
  case written =>
    intro written hwritten
    obtain ⟨session, haccepted⟩ := h.written written hwritten
    exact ⟨session, List.mem_cons_of_mem _ haccepted⟩

private theorem of_timers (h : Books s) (timeoutAlarmMap : TreeMap UInt16 Timer)
    (pool : List Nat)
    (htimers : ∀ (messageId : UInt16) (timer : Timer),
      timeoutAlarmMap[messageId]? = some timer →
      ∃ session, (session, timer.call) ∈ s.history.accepted) :
    Books { s with timeoutAlarmMap, pool } :=
  ⟨h.lt_calls, h.le_sessions, h.once, h.pushing, h.callbacks, htimers, h.written⟩

private theorem recordAlarm (h : Books s) {readable : Bool} {written : Written}
    {alarm : Nat} (hio : s.io = .recordAlarm readable written alarm) :
    Books (s.recordAlarm written alarm) := by
  have htimer := s.timer_recordAlarm written alarm
  obtain ⟨map, pool, heq⟩ := s.recordAlarm_eq written alarm
  rw [heq] at htimer ⊢
  refine h.of_timers map pool fun messageId timer hsome => ?_
  rw [show map[messageId]? = _ from htimer messageId] at hsome
  split at hsome
  · cases hsome
    exact h.written written (by rw [hio]; rfl)
  · exact h.timers messageId timer hsome

private theorem erase (h : Books s) {messageId : UInt16}
    {timeoutAlarmMap : TreeMap UInt16 Timer}
    (hmap : ∀ messageId', timeoutAlarmMap[messageId']? =
      if messageId' = messageId then none else s.timeoutAlarmMap[messageId']?) :
    Books { s with timeoutAlarmMap } := by
  refine h.of_timers timeoutAlarmMap s.pool fun messageId' timer hsome => ?_
  rw [hmap messageId'] at hsome
  split at hsome
  · cases hsome
  · exact h.timers messageId' timer hsome

private theorem dropCallback (h : Books s) (messageId : UInt16) :
    Books (s.dropCallback messageId) := by
  refine ⟨h.lt_calls, h.le_sessions, h.once, h.pushing, ?_, h.timers, h.written⟩
  intro messageId' call hsome
  rw [callback?_dropCallback] at hsome
  split at hsome
  · cases hsome
  · exact h.callbacks messageId' call hsome

private theorem connect (h : Books s) {holder : Holder}
    (hmutex : s.mutex = some (holder, .connect))
    (shouldNewBreaker shouldNewConnBreaker : Bool) :
    Books { s with
      shouldNewBreaker, shouldNewConnBreaker
      history := { s.history with sessions := s.history.sessions + 1 } } := by
  refine ⟨h.lt_calls, ?_, h.once, ?_, h.callbacks, h.timers, h.written⟩
  · exact fun entry hentry => Nat.le_succ_of_le (h.le_sessions entry hentry)
  · intro holder' next call session hnext hcall
    cases hmutex.symm.trans hnext
    cases hcall

end Books

theorem IoMove.written {io : IoPc} (h : IoMove s io) : io.written? = none := by
  cases h <;> rfl

theorem IoAlarm.written {io next : IoPc} {action : AlarmAction ClientAlarm}
    (h : IoAlarm io action next) : next.written? = io.written? := by
  cases h <;> rfl

theorem IoStatus.written {io next : IoPc} {status : ConnectStatus}
    (h : IoStatus io status next) : next.written? = none := by
  cases h <;> rfl

theorem IoTimer.written {u : TcpClient} {io : IoPc} (h : IoTimer s u io)
    {written : Written} (hwritten : io.written? = some written) :
    s.io.written? = some written := by
  cases h <;> simp_all [IoPc.written?]

theorem accepted_head (h : s.outbox.Sound) {queued : Queued} {rest : List Queued}
    (hqueue : s.messageQueue = queued :: rest)
    (hunpopped : s.io.unpopped = false) :
    (s.history.sessions, queued.call) ∈ s.history.accepted := by
  have hcurrent := h.current
  have hpending : s.outbox.pending = queued.call :: rest.map (·.call) := by
    simp [Outbox.pending, outbox, hqueue, hunpopped]
  have hmem : queued.call ∈ Outbox.inSession s.outbox.session s.outbox.accepted := by
    rw [hcurrent, hpending]
    simp
  exact Outbox.mem_inSession.mp hmem

namespace Books

private theorem written_proceed (h : Books s) (holder : Holder) (next : Section)
    {written : Written}
    (hwritten : (s.proceed holder next).io.written? = some written) :
    ∃ session, (session, written.call) ∈ s.history.accepted := by
  cases next with
  | connect =>
      simp only [TcpClient.proceed] at hwritten
      split at hwritten
      · exact h.written written hwritten
      · cases hwritten
  | _ => exact h.written written hwritten

private theorem written_io (h : Books s) (hsound : s.outbox.Sound) {event : IoEvent}
    (hs : s.ioStep event = some t) {written : Written}
    (hwritten : t.io.written? = some written) :
    ∃ session, (session, written.call) ∈ s.history.accepted := by
  cases ioStep_cases hs with
  | move io hmove => cases hmove.written.symm.trans hwritten
  | alarm action timers io halarm =>
      exact h.written written (halarm.written.symm.trans hwritten)
  | status status io hstatus => cases hstatus.written.symm.trans hwritten
  | timer u io htimer => exact h.written written (htimer.written hwritten)
  | encode readable queued rest hio hqueue =>
      have hhead := accepted_head hsound hqueue (by simp [hio, IoPc.unpopped])
      simp only [behindEncode] at hwritten
      split at hwritten <;> cases hwritten
      exact ⟨_, hhead⟩
  | inside next hio hmutex => exact h.written_proceed .io next hwritten
  | _ => cases hwritten

private theorem written_step (h : Books s) (hsound : s.outbox.Sound)
    {action : Action} (hs : s.step action = some t) :
    ∀ written, t.io.written? = some written →
      ∃ session, (session, written.call) ∈ s.history.accepted := by
  intro written hwritten
  cases action with
  | user call =>
      cases userStep_cases hs with
      | enterSend type payload data hasCallback hfree =>
          obtain ⟨mutex, calls, invoked, heq⟩ :=
            s.enterSend_eq type payload data hasCallback
          rw [heq] at hwritten
          exact h.written written hwritten
      | enterPush message hfree =>
          obtain ⟨mutex, calls, heq⟩ := s.enterPush_eq message
          rw [heq] at hwritten
          exact h.written written hwritten
      | inside next hcall hmutex => exact h.written_proceed .user next hwritten
      | _ => exact h.written written hwritten
  | io event => exact h.written_io hsound hs hwritten
  | queue =>
      cases queueStep_cases hs with
      | timer u callback htimer =>
          obtain ⟨timers, map, pool, canceled, rfl⟩ := htimer.eq
          exact h.written written hwritten
      | inside next hcallback hmutex => exact h.written_proceed .queue next hwritten
      | _ => exact h.written written hwritten
  | tick nanoseconds =>
      cases hs
      exact h.written written hwritten
  | pipes ok =>
      cases hs
      exact h.written written hwritten

theorem step (h : Books s) (hnumbered : Numbered s) (hsound : s.outbox.Sound)
    {action : Action} (hs : s.step action = some t) : Books t := by
  have hwritten := h.written_step hsound hs
  cases BookCases.of_step hs with
  | same hsame => exact h.of_same hsame hwritten
  | issue hsame hmessage =>
      have hissue := h.issue fun holder next call hnext hcall =>
        (hmessage holder next call hnext hcall).1
      exact hissue.of_same hsame hwritten
  | connect holder hthread hmutex hnull hsame =>
      exact (h.connect hmutex false false).of_same hsame hwritten
  | flagReadWrite holder hthread hmutex hsame =>
      have hflag : Books { s with shouldNewBreaker := true } :=
        ⟨h.lt_calls, h.le_sessions, h.once, h.pushing, h.callbacks, h.timers, h.written⟩
      exact hflag.of_same hsame hwritten
  | flagConnect holder hthread hmutex hsame =>
      have hflag : Books { s with shouldNewConnBreaker := true } :=
        ⟨h.lt_calls, h.le_sessions, h.once, h.pushing, h.callbacks, h.timers, h.written⟩
      exact hflag.of_same hsame hwritten
  | register holder call hasCallback sendReq hthread hmutex heq =>
      rw [heq]
      exact h.register hnumbered hmutex
  | push holder next call message currentMsgId hmutex hcall hsame =>
      refine (h.push hmutex hcall message currentMsgId).of_same hsame ?_
      intro written hsome
      obtain ⟨session, haccepted⟩ := hwritten written hsome
      exact ⟨session, List.mem_cons_of_mem _ haccepted⟩
  | record readable written alarm hthread hio hfree hsame =>
      have hrecord := h.recordAlarm hio
      obtain ⟨map, pool, heq⟩ := s.recordAlarm_eq written alarm
      rw [heq] at hrecord hsame
      exact hrecord.of_same hsame hwritten
  | erase messageId hfree hmap hsame => exact (h.erase hmap).of_same hsame hwritten
  | drop messageId hsame => exact (h.dropCallback messageId).of_same hsame hwritten

theorem of_reachable {ok : TcpClient → Action → Prop}
    (h : Reachable TcpClient.step ok .init s) : Books s :=
  h.invariant init fun _ _ _ hu hbooks _ hs =>
    hbooks.step (.of_reachable hu) (outbox_sound hu) hs

end Books

/-! ## What is registered -/

theorem register_of_call {next : Section} {call : Nat}
    (h : next.call? = some call) : ∃ sendReq, next = .register call true sendReq := by
  unfold Section.call? at h
  split at h <;> cases h
  exact ⟨_, rfl⟩

theorem registered_kept {action : Action}
    (h : ∀ entry ∈ s.history.registered, s.ledger.Kept entry.1)
    (hthreads : Threads s) (hfresh : FreshCallback s action)
    (hs : s.step action = some t) :
    ∀ entry ∈ t.history.registered, t.ledger.Kept entry.1 := by
  intro entry hentry
  have hrun : LedgerRun True s t := ledger_run hthreads hs fun _ => hfresh
  have hkept : s.ledger.Kept entry.1 := by
    rcases (BookCases.of_step hs).registered_cases hentry with
      hentry | ⟨-, holder, sendReq, -, hmutex⟩
    · exact h entry hentry
    · refine .inl ⟨.held .user, ?_⟩
      simp [ledger, place, holding, hmutex, Section.call?]
  exact hkept.of_reachable (hrun.mono fun _ _ hcareful => hcareful trivial)

end TcpClient

end GoSocket.Client
