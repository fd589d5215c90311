import GoSocket.Client.Books

/-!
# The requests behind the callbacks

`Send` enters its callback into `_callbackMap` under the id that it gives to the
message, in one step, and pushes the message in the next one.  What is pushed is
compared with what the map says, for every call that has a callback.
-/

namespace GoSocket.Client

open Std GoSocket.Common GoSocket.Foundation GoSocket.Packet

namespace TcpClient

/-- The request whose callback a step has entered into `_callbackMap`, as `Send`
pushes it next. -/
def entered (before after : TcpClient) : List (Nat × SendReq) :=
  match before.mutex, after.mutex with
  | some (_, .register call true _), some (_, .pushSendReq _ sendReq) =>
      [(call, { sendReq with messageId := before.currentMsgId })]
  | _, _ => []

variable {s t : TcpClient} {action : Action} {requests : List (Nat × SendReq)}

/-- What the queue holds and the map refers to are the requests of the calls. -/
structure Requested (requests : List (Nat × SendReq)) (s : TcpClient) : Prop where
  registered : ∀ entry ∈ requests, ∃ session,
    (entry.1, session) ∈ s.history.registered
  nodup : (requests.map Prod.fst).Nodup
  callbacks : ∀ messageId call, s.callback? messageId = some call →
    ∃ sendReq, (call, sendReq) ∈ requests ∧ sendReq.messageId = messageId
  pushing : ∀ holder call sendReq sendReq',
    s.mutex = some (holder, .pushSendReq call sendReq) → (call, sendReq') ∈ requests →
      sendReq' = { sendReq with messageId := s.currentMsgId }
  queued : ∀ queued ∈ s.messageQueue, ∀ sendReq, (queued.call, sendReq) ∈ requests →
    queued.message = .sendReq sendReq
  accepted : ∀ queued ∈ s.messageQueue, ∃ session,
    (session, queued.call) ∈ s.history.accepted

theorem entered_of_mutex (h : ∀ holder call sendReq,
    t.mutex = some (holder, .pushSendReq call sendReq) → s.mutex = t.mutex) :
    entered s t = [] := by
  unfold entered
  split
  · next _ _ _ _ _ hbefore hafter =>
      have hsame := h _ _ _ hafter
      rw [hbefore, hafter] at hsame
      cases hsame
  · rfl

/-! ## What is in the queue behind a step -/

/-- A message was in the queue, or the holder of `_mutex` has pushed it. -/
inductive QueuedCases (s t : TcpClient) (queued : Queued) : Prop
  | kept (h : queued ∈ s.messageQueue)
  | sendReq (holder : Holder) (sendReq : SendReq)
      (hmutex : s.mutex = some (holder, .pushSendReq queued.call sendReq))
      (heq : queued.message = .sendReq { sendReq with messageId := s.currentMsgId })
      (haccepted : (s.history.sessions, queued.call) ∈ t.history.accepted)
  | message (holder : Holder)
      (hmutex : s.mutex = some (holder, .pushMessage queued.call queued.message))
      (haccepted : (s.history.sessions, queued.call) ∈ t.history.accepted)

private theorem queued_proceed {holder : Holder} {next : Section} {queued : Queued}
    (hmutex : s.mutex = some (holder, next))
    (hqueued : queued ∈ (s.proceed holder next).messageQueue) :
    QueuedCases s (s.proceed holder next) queued := by
  cases next with
  | connect =>
      simp only [TcpClient.proceed] at hqueued
      split at hqueued
      · exact .kept hqueued
      · cases hqueued
  | pushSendReq call sendReq =>
      rcases List.mem_append.mp hqueued with hqueued | hnew
      · exact .kept hqueued
      · cases List.mem_singleton.mp hnew
        exact .sendReq holder sendReq hmutex rfl List.mem_cons_self
  | pushMessage call message =>
      rcases List.mem_append.mp hqueued with hqueued | hnew
      · exact .kept hqueued
      · cases List.mem_singleton.mp hnew
        exact .message holder hmutex List.mem_cons_self
  | _ => exact .kept hqueued

theorem queued_cases (hs : s.step action = some t) {queued : Queued}
    (hqueued : queued ∈ t.messageQueue) : QueuedCases s t queued := by
  cases action with
  | user call =>
      cases userStep_cases hs with
      | enterSend type payload data hasCallback hfree =>
          obtain ⟨mutex, calls, invoked, heq⟩ :=
            s.enterSend_eq type payload data hasCallback
          rw [heq] at hqueued
          exact .kept hqueued
      | enterPush message hfree =>
          obtain ⟨mutex, calls, heq⟩ := s.enterPush_eq message
          rw [heq] at hqueued
          exact .kept hqueued
      | inside next hcall hmutex => exact queued_proceed hmutex hqueued
      | _ => exact .kept hqueued
  | io event =>
      cases ioStep_cases hs with
      | timer u io htimer =>
          obtain ⟨timers, map, pool, created, armed, rfl⟩ := htimer.eq
          exact .kept hqueued
      | pop readable hio hmutex => exact .kept (List.mem_of_mem_tail hqueued)
      | inside next hio hmutex => exact queued_proceed hmutex hqueued
      | _ => exact .kept hqueued
  | queue =>
      cases queueStep_cases hs with
      | timer u callback htimer =>
          obtain ⟨timers, map, pool, canceled, rfl⟩ := htimer.eq
          exact .kept hqueued
      | inside next hcallback hmutex => exact queued_proceed hmutex hqueued
      | _ => exact .kept hqueued
  | tick nanoseconds =>
      cases hs
      exact .kept hqueued
  | pipes ok =>
      cases hs
      exact .kept hqueued

/-! ## What a step keeps -/

namespace Requested

theorem init : Requested [] .init := by
  constructor <;> simp [TcpClient.init, callback?]

private theorem not_mem_of_message (h : Requested requests s) (hbooks : Books s)
    {holder : Holder} {call : Nat} {message : MessageBase}
    (hmutex : s.mutex = some (holder, .pushMessage call message)) (sendReq : SendReq) :
    (call, sendReq) ∉ requests := by
  intro hmem
  obtain ⟨session, hregistered⟩ := h.registered _ hmem
  obtain ⟨-, _, hnext⟩ := hbooks.pushing holder _ call session hmutex rfl hregistered
  cases hnext

private theorem queued_step (h : Requested requests s) (hbooks : Books s)
    (hs : s.step action = some t) :
    ∀ queued ∈ t.messageQueue, ∀ sendReq, (queued.call, sendReq) ∈ requests →
      queued.message = .sendReq sendReq := by
  intro queued hqueued sendReq hmem
  cases queued_cases hs hqueued with
  | kept hqueued => exact h.queued queued hqueued sendReq hmem
  | sendReq holder sendReq' hmutex heq haccepted =>
      rw [heq, h.pushing holder queued.call sendReq' sendReq hmutex hmem]
  | message holder hmutex haccepted =>
      exact absurd hmem (h.not_mem_of_message hbooks hmutex sendReq)

private theorem accepted_step (h : Requested requests s) (hs : s.step action = some t) :
    ∀ queued ∈ t.messageQueue, ∃ session, (session, queued.call) ∈ t.history.accepted := by
  intro queued hqueued
  cases queued_cases hs hqueued with
  | kept hqueued =>
      obtain ⟨session, haccepted⟩ := h.accepted queued hqueued
      exact ⟨session, (BookCases.of_step hs).accepted haccepted⟩
  | sendReq holder sendReq hmutex heq haccepted => exact ⟨_, haccepted⟩
  | message holder hmutex haccepted => exact ⟨_, haccepted⟩

private theorem aside (h : Requested requests s) (hbooks : Books s)
    (hs : s.step action = some t)
    (hmutex : ∀ holder call sendReq, t.mutex = some (holder, .pushSendReq call sendReq) →
      s.mutex = t.mutex ∧ t.currentMsgId = s.currentMsgId)
    (hregistered : t.history.registered = s.history.registered)
    (hcallback : ∀ messageId call, t.callback? messageId = some call →
      s.callback? messageId = some call) : Requested (entered s t ++ requests) t := by
  rw [entered_of_mutex fun holder call sendReq hpushing =>
    (hmutex holder call sendReq hpushing).1, List.nil_append]
  constructor
  case registered =>
    rw [hregistered]
    exact h.registered
  case nodup => exact h.nodup
  case callbacks =>
    exact fun messageId call hsome => h.callbacks messageId call (hcallback _ _ hsome)
  case pushing =>
    intro holder call sendReq sendReq' hpushing hmem
    obtain ⟨hbefore, hid⟩ := hmutex holder call sendReq hpushing
    rw [hid]
    exact h.pushing holder call sendReq sendReq' (hbefore.trans hpushing) hmem
  case queued => exact h.queued_step hbooks hs
  case accepted => exact h.accepted_step hs

private theorem of_same (h : Requested requests s) (hbooks : Books s)
    (hs : s.step action = some t) {u : TcpClient} (hsame : SameBooks u t)
    (hmutex : ∀ holder call sendReq, u.mutex = some (holder, .pushSendReq call sendReq) →
      s.mutex = u.mutex ∧ u.currentMsgId = s.currentMsgId)
    (hregistered : u.history.registered = s.history.registered)
    (hcallback : ∀ messageId call, u.callback? messageId = some call →
      s.callback? messageId = some call) : Requested (entered s t ++ requests) t := by
  refine h.aside hbooks hs ?_ (hsame.registered.trans hregistered) ?_
  · intro holder call sendReq hpushing
    have hbefore := hsame.message holder _ call hpushing rfl
    obtain ⟨hmutex, hid⟩ := hmutex holder call sendReq hbefore
    exact ⟨hmutex.trans (hbefore.trans hpushing.symm), hsame.currentMsgId.trans hid⟩
  · intro messageId call hsome
    refine hcallback messageId call ?_
    unfold callback? at hsome ⊢
    rwa [← hsame.callbackMap]

private theorem register (h : Requested requests s) (hbooks : Books s)
    (hnumbered : Numbered s) {holder : Holder} {call : Nat} {hasCallback : Bool}
    {sendReq : SendReq}
    (hmutex : s.mutex = some (holder, .register call hasCallback sendReq))
    (hs : s.step action = some (s.proceed holder (.register call hasCallback sendReq))) :
    Requested
      (entered s (s.proceed holder (.register call hasCallback sendReq)) ++ requests)
      (s.proceed holder (.register call hasCallback sendReq)) := by
  have hfresh := hbooks.unregistered hmutex
  have hnew (sendReq' : SendReq) : (call, sendReq') ∉ requests := fun hmem => by
    obtain ⟨session, hregistered⟩ := h.registered _ hmem
    exact hfresh session hregistered
  have hentered : entered s (s.proceed holder (.register call hasCallback sendReq)) =
      if hasCallback then [(call, { sendReq with messageId := s.currentMsgId })]
      else [] := by
    unfold entered
    rw [hmutex]
    cases hasCallback <;> rfl
  rw [hentered]
  constructor
  case registered =>
    intro entry hentry
    cases hasCallback with
    | false => exact h.registered entry hentry
    | true =>
        rcases List.mem_cons.mp hentry with rfl | hentry
        · exact ⟨_, List.mem_cons_self⟩
        · obtain ⟨session, hregistered⟩ := h.registered entry hentry
          exact ⟨session, List.mem_cons_of_mem _ hregistered⟩
  case nodup =>
    cases hasCallback with
    | false => exact h.nodup
    | true =>
        refine List.nodup_cons.mpr ⟨fun hmem => ?_, h.nodup⟩
        obtain ⟨⟨call', sendReq'⟩, hentry, rfl⟩ := List.mem_map.mp hmem
        exact hnew sendReq' hentry
  case callbacks =>
    intro messageId call' hsome
    simp only [callback?, TcpClient.proceed] at hsome
    rw [callback?_insert] at hsome
    split at hsome
    · next heq =>
        cases hasCallback with
        | false => cases hsome
        | true =>
            cases hsome
            exact ⟨_, List.mem_cons_self, heq.symm⟩
    · obtain ⟨sendReq', hmem, hid⟩ := h.callbacks messageId call' hsome
      exact ⟨sendReq', List.mem_append_right _ hmem, hid⟩
  case pushing =>
    rintro _ _ _ sendReq' ⟨⟩ hmem
    rcases List.mem_append.mp hmem with hmem | hmem
    · cases hasCallback with
      | false => cases hmem
      | true =>
          cases List.mem_singleton.mp hmem
          rfl
    · exact absurd hmem (hnew sendReq')
  case queued =>
    intro queued hqueued sendReq' hmem
    rcases List.mem_append.mp hmem with hmem | hmem
    · obtain ⟨-, hnot⟩ := hnumbered.pushing holder _ call hmutex rfl
      obtain ⟨session, haccepted⟩ := h.accepted queued hqueued
      have hcall : queued.call = call := by
        cases hasCallback with
        | false => cases hmem
        | true => exact congrArg Prod.fst (List.mem_singleton.mp hmem)
      exact absurd (List.mem_map_of_mem haccepted) (hcall ▸ hnot)
    · exact h.queued_step hbooks hs queued hqueued sendReq' hmem
  case accepted => exact h.accepted_step hs

theorem step (h : Requested requests s) (hbooks : Books s) (hnumbered : Numbered s)
    (hs : s.step action = some t) : Requested (entered s t ++ requests) t := by
  cases BookCases.of_step hs with
  | issue hsame hmessage =>
      refine h.aside hbooks hs (fun holder call sendReq hpushing => ?_)
        hsame.registered ?_
      · exact absurd rfl ((hmessage holder _ call hpushing rfl).2 sendReq)
      · intro messageId call hsome
        unfold callback? at hsome ⊢
        rwa [hsame.callbackMap] at hsome
  | register holder call hasCallback sendReq hthread hmutex heq =>
      subst heq
      exact h.register hbooks hnumbered hmutex hs
  | push holder next call message currentMsgId hmutex hcall hsame =>
      exact h.of_same hbooks hs hsame (by simp) rfl fun _ _ => id
  | record readable written alarm hthread hio hfree hsame =>
      obtain ⟨map, pool, heq⟩ := s.recordAlarm_eq written alarm
      rw [heq] at hsame
      exact h.of_same hbooks hs hsame (fun _ _ _ _ => ⟨rfl, rfl⟩) rfl fun _ _ => id
  | drop messageId hsame =>
      refine h.of_same hbooks hs hsame (fun _ _ _ _ => ⟨rfl, rfl⟩) rfl ?_
      intro messageId' call hsome
      rw [callback?_dropCallback] at hsome
      split at hsome
      · cases hsome
      · exact hsome
  | same hsame | connect _ _ _ _ hsame | flagReadWrite _ _ _ hsame
    | flagConnect _ _ _ hsame | erase _ _ _ hsame =>
      exact h.of_same hbooks hs hsame (fun _ _ _ _ => ⟨rfl, rfl⟩) rfl fun _ _ => id

end Requested

end TcpClient

end GoSocket.Client
