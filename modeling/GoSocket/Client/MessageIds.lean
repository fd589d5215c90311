import GoSocket.Client.Books

/-!
# Message ids

`Send` numbers its requests from 1 on, wraps around below `UINT16_MAX` and never
gives the id 0, which `SendNoReply` puts into all of its requests.
-/

namespace GoSocket.Client

open GoSocket.Common GoSocket.Foundation

namespace TcpClient

variable {s t : TcpClient} {action : Action}

/-- 0 is the id of `SendNoReply`, and of no callback. -/
structure MessageIds (s : TcpClient) : Prop where
  next : s.currentMsgId ≠ 0 ∧ s.currentMsgId ≠ 0xFFFF
  zero : s.callback? 0 = none
  noReply : ∀ holder call sendReq,
    s.mutex = some (holder, .pushMessage call (.sendReq sendReq)) →
      sendReq.messageId = 0

namespace MessageIds

theorem init : MessageIds .init := by
  constructor <;> simp [TcpClient.init, callback?]

private theorem congr (h : MessageIds s) (hid : t.currentMsgId = s.currentMsgId)
    (hmap : t.callbackMap = s.callbackMap)
    (hmutex : ∀ holder call sendReq,
      t.mutex = some (holder, .pushMessage call (.sendReq sendReq)) →
        s.mutex = some (holder, .pushMessage call (.sendReq sendReq)) ∨
          sendReq.messageId = 0) : MessageIds t := by
  refine ⟨by rw [hid]; exact h.next, ?_, ?_⟩
  · unfold callback?
    rw [hmap]
    exact h.zero
  · intro holder call sendReq hnext
    rcases hmutex holder call sendReq hnext with hold | hzero
    · exact h.noReply holder call sendReq hold
    · exact hzero

private theorem dropCallback (h : MessageIds s) (messageId : UInt16) :
    MessageIds (s.dropCallback messageId) := by
  refine ⟨h.next, ?_, h.noReply⟩
  rw [callback?_dropCallback]
  split
  · rfl
  · exact h.zero

private theorem register (h : MessageIds s) (holder : Holder) (call : Nat)
    (hasCallback : Bool) (sendReq : Packet.SendReq) :
    MessageIds (s.proceed holder (.register call hasCallback sendReq)) := by
  refine ⟨h.next, ?_, by rintro _ _ _ ⟨⟩⟩
  simp only [callback?, TcpClient.proceed, callback?_insert]
  rw [if_neg h.next.1.symm]
  exact h.zero

private theorem pushSendReq (h : MessageIds s) (holder : Holder) (call : Nat)
    (sendReq : Packet.SendReq) :
    MessageIds (s.proceed holder (.pushSendReq call sendReq)) := by
  refine ⟨?_, h.zero, by rintro _ _ _ ⟨⟩⟩
  simp only [TcpClient.proceed]
  split
  · decide
  · next hmax =>
      refine ⟨fun hzero => h.next.2 ?_, hmax⟩
      have hlast := congrArg (· - 1) hzero
      simp only [UInt16.add_sub_cancel] at hlast
      exact hlast.trans (by decide)

private theorem proceed (h : MessageIds s) (holder : Holder) (next : Section) :
    MessageIds (s.proceed holder next) := by
  cases next with
  | connect =>
      simp only [TcpClient.proceed]
      split
      · exact h.congr rfl rfl (by rintro _ _ _ ⟨⟩)
      · exact h.congr rfl rfl (by rintro _ _ _ ⟨⟩)
  | breakReadWrite =>
      refine h.congr rfl rfl ?_
      simp only [TcpClient.proceed]
      intro holder' call sendReq hnext
      split at hnext <;> cases hnext
  | breakConnect =>
      refine h.congr rfl rfl ?_
      simp only [TcpClient.proceed]
      intro holder' call sendReq hnext
      split at hnext <;> cases hnext
  | register call hasCallback sendReq => exact h.register holder call hasCallback sendReq
  | pushSendReq call sendReq => exact h.pushSendReq holder call sendReq
  | _ => exact h.congr rfl rfl (by rintro _ _ _ ⟨⟩)

private theorem enterConnect (h : MessageIds s) (holder : Holder) :
    MessageIds (s.enterConnect holder) := by
  refine h.congr rfl rfl ?_
  unfold TcpClient.enterConnect
  intro holder' call sendReq hnext
  split at hnext <;> cases hnext

private theorem enterDisconnect (h : MessageIds s) (holder : Holder)
    (code : DisconnectCode) (shouldReconnect : Bool) :
    MessageIds (s.enterDisconnect holder code shouldReconnect) := by
  refine h.congr rfl rfl ?_
  unfold TcpClient.enterDisconnect
  intro holder' call sendReq hnext
  split at hnext <;> cases hnext

private theorem enterPush (h : MessageIds s) (message : Packet.MessageBase)
    (hzero : ∀ sendReq, message = .sendReq sendReq → sendReq.messageId = 0) :
    MessageIds (s.enterPush message) := by
  unfold TcpClient.enterPush
  split
  · refine h.congr rfl rfl ?_
    rintro _ _ sendReq ⟨⟩
    exact .inr (hzero sendReq rfl)
  · exact h.congr rfl rfl fun _ _ _ => .inl

private theorem enterSend (h : MessageIds s) (type payload : List Packet.Byte)
    (data : Option (List Packet.Byte)) (hasCallback : Bool) :
    MessageIds (s.enterSend type payload data hasCallback) := by
  unfold TcpClient.enterSend
  dsimp only
  split
  · exact h.congr rfl rfl (by rintro _ _ _ ⟨⟩)
  · split <;> exact h.congr rfl rfl fun _ _ _ => .inl

private theorem userStep (h : MessageIds s) {call : UserCall}
    (hs : s.userStep call = some t) : MessageIds t := by
  unfold TcpClient.userStep at hs
  split at hs
  all_goals split at hs
  all_goals try contradiction
  all_goals cases hs
  · exact h.proceed .user _
  · exact h.enterConnect .user
  · exact h.enterDisconnect .user _ _
  · exact h.enterSend _ _ _ _
  · exact h.enterPush _ (by rintro _ ⟨⟩; rfl)
  · exact h.enterPush _ (by rintro _ ⟨⟩)

theorem step (h : MessageIds s) (hs : s.step action = some t) : MessageIds t := by
  cases action with
  | user call => exact h.userStep hs
  | io event =>
      cases ioStep_cases hs with
      | timer u io htimer =>
          obtain ⟨timers, map, pool, created, armed, rfl⟩ := htimer.eq
          exact h.congr rfl rfl fun _ _ _ => .inl
      | noCallback messageId hio hnone =>
          exact (h.dropCallback messageId).congr rfl rfl fun _ _ _ => .inl
      | takeCallback messageId call hio hsome =>
          exact (h.dropCallback messageId).congr rfl rfl fun _ _ _ => .inl
      | enter hio hfree =>
          exact (h.enterDisconnect .io .kDisCodeKickout false).congr rfl rfl
            fun _ _ _ => .inl
      | inside next hio hmutex => exact h.proceed .io next
      | _ => exact h.congr rfl rfl fun _ _ _ => .inl
  | queue =>
      cases queueStep_cases hs with
      | timer u callback htimer =>
          obtain ⟨timers, map, pool, canceled, rfl⟩ := htimer.eq
          exact h.congr rfl rfl fun _ _ _ => .inl
      | noTimeout messageId start hcallback hnone =>
          exact (h.dropCallback messageId).congr rfl rfl fun _ _ _ => .inl
      | takeTimeout messageId start call hcallback hsome =>
          exact (h.dropCallback messageId).congr rfl rfl fun _ _ _ => .inl
      | noLost session messageId messageIds hcallback hnone =>
          exact (h.dropCallback messageId).congr rfl rfl fun _ _ _ => .inl
      | takeLost session call messageId messageIds hcallback hsome =>
          exact (h.dropCallback messageId).congr rfl rfl fun _ _ _ => .inl
      | enterDisconnect hcallback hfree =>
          exact (h.enterDisconnect .queue .kDisCodeSendReqTimeout true).congr rfl
            rfl fun _ _ _ => .inl
      | enterConnect hcallback hfree =>
          exact (h.enterConnect .queue).congr rfl rfl fun _ _ _ => .inl
      | inside next hcallback hmutex => exact h.proceed .queue next
      | _ => exact h.congr rfl rfl fun _ _ _ => .inl
  | tick nanoseconds =>
      cases hs
      exact h.congr rfl rfl fun _ _ _ => .inl
  | pipes ok =>
      cases hs
      exact h.congr rfl rfl fun _ _ _ => .inl

theorem of_reachable {ok : TcpClient → Action → Prop}
    (h : Reachable TcpClient.step ok .init s) : MessageIds s :=
  h.invariant init fun _ _ _ _ hids _ hs => hids.step hs

end MessageIds

end TcpClient

end GoSocket.Client
