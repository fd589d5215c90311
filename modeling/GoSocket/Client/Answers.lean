import GoSocket.Client.Teardowns

/-!
# The callbacks of a session that has ended

`__WaitDisconnect` calls the callbacks of the timers that it finds, so it leaves
behind those of messages that have not been written, and those behind the first
message id without a callback.  Where every callback of the session has its
timer, and none is registered too late, each has been called when
`__WaitDisconnect` returns.
-/

namespace GoSocket.Client

open Std GoSocket.Common GoSocket.Foundation

def CallbackPc.collected? : CallbackPc → Option Nat
  | .clearThread _ => none
  | .lockTimers _ => none
  | callback => callback.session?

namespace TcpClient

def old (self : TcpClient) (session call : Nat) : Bool :=
  self.history.registered.any fun entry => entry.1 = call && entry.2 ≤ session

def outstanding (self : TcpClient) (session : Nat) : List UInt16 :=
  self.callbackMap.keys.filter fun messageId =>
    (self.callback? messageId).any (self.old session)

/-- The I/O thread has taken such a callback and not called it. -/
def inHand (self : TcpClient) (session : Nat) : Bool :=
  self.io.call?.any (self.old session)

/-- `Send` enters its callback where none is, and not behind the teardown. -/
def registersInTime (self : TcpClient) : Bool :=
  match self.mutex with
  | some (_, .register _ hasCallback _) =>
      (self.callback? self.currentMsgId).isNone && (!hasCallback ||
        self.history.tornDown < self.history.sessions &&
          (self.callback.collected? ≠ some self.history.sessions ||
            self.doomed.contains self.currentMsgId))
  | _ => true

/-- The teardown finds a timer for every callback, and returns early where none
is left. -/
def tearsDownAll (self : TcpClient) : Bool :=
  match self.callback with
  | .lockTimers session =>
      (self.outstanding session).all self.timeoutAlarmMap.keys.contains
  | .getLost session (messageId :: messageIds) =>
      (self.callback? messageId).isSome || !self.inHand session &&
        messageIds.all fun messageId =>
          !(self.outstanding session).contains messageId
  | .checkNewConnBreaker session =>
      self.shouldNewConnBreaker || !self.inHand session
  | .reCreateConn session => !self.inHand session
  | _ => true

def AnswersNext (self : TcpClient) (action : Action) : Prop :=
  (action.thread? = some .user → self.registersInTime = true) ∧
    (action.thread? = some .queue → self.tearsDownAll = true)

instance (self : TcpClient) (action : Action) :
    Decidable (self.AnswersNext action) :=
  inferInstanceAs (Decidable (_ ∧ _))

/-- The callbacks of the sessions that have been torn down have been called,
and are in the map no longer. -/
structure Answered (s : TcpClient) : Prop where
  called : ∀ entry ∈ s.history.registered, entry.2 ≤ s.history.tornDown →
    entry.1 ∈ s.history.invoked.map Prod.fst
  dropped : ∀ messageId call session, s.callback? messageId = some call →
    (call, session) ∈ s.history.registered → s.history.tornDown < session

variable {s t : TcpClient} {action : Action}

theorem old_eq_true_iff (s : TcpClient) (session call : Nat) :
    s.old session call = true ↔
      ∃ session' ≤ session, (call, session') ∈ s.history.registered := by
  simp only [old, List.any_eq_true, Bool.and_eq_true, decide_eq_true_eq]
  constructor
  · rintro ⟨⟨call', session'⟩, hentry, rfl, hle⟩
    exact ⟨session', hle, hentry⟩
  · rintro ⟨session', hle, hentry⟩
    exact ⟨_, hentry, rfl, hle⟩

theorem mem_outstanding {session : Nat} {messageId : UInt16} {call : Nat}
    (hsome : s.callback? messageId = some call) (hold : s.old session call = true) :
    messageId ∈ s.outstanding session := by
  refine List.mem_filter.mpr ⟨TreeMap.mem_keys.mpr ?_, by rw [hsome]; exact hold⟩
  by_contra hnot
  rw [callback?, TreeMap.getElem?_eq_none hnot] at hsome
  cases hsome

/-! ## What is left to the teardown -/

/-- What of a session its teardown has still to call, it will; behind the
teardown nothing of the session is left. -/
structure Cleared (s : TcpClient) : Prop where
  collected : ∀ session, s.callback.collected? = some session →
    ∀ messageId call, s.callback? messageId = some call →
      s.old session call = true → messageId ∈ s.doomed
  mapped : ∀ messageId call, s.callback? messageId = some call →
    s.old s.history.tornDown call = false
  heldByIo : ∀ call, s.io.call? = some call →
    s.old s.history.tornDown call = false
  heldByQueue : ∀ call, s.callback.call? = some call →
    s.old s.history.tornDown call = false

namespace Cleared

theorem init : Cleared .init := by
  constructor <;>
    simp [TcpClient.init, CallbackPc.collected?, CallbackPc.session?, callback?,
      IoPc.call?, CallbackPc.call?]

end Cleared

theorem AnswersNext.inTime (h : s.AnswersNext action) (hthreads : Threads s)
    {holder : Holder} {call : Nat} {sendReq : Packet.SendReq}
    (hthread : action.thread? = some holder)
    (hmutex : s.mutex = some (holder, .register call true sendReq)) :
    s.history.tornDown < s.history.sessions ∧
      (s.callback.collected? = some s.history.sessions →
        s.currentMsgId ∈ s.doomed) := by
  obtain rfl := hthreads.senders holder _ hmutex rfl
  have htime := h.1 hthread
  simp only [registersInTime, hmutex, Bool.not_true, Bool.false_or,
    Bool.and_eq_true, decide_eq_true_eq, Bool.or_eq_true, List.contains_iff_mem]
    at htime
  exact ⟨htime.2.1, fun hcollected => htime.2.2.resolve_left (not_not.mpr hcollected)⟩

theorem AnswersNext.fresh (h : s.AnswersNext action) : FreshCallback s action := by
  rintro rfl call hasCallback sendReq hmutex
  have htime := h.1 rfl
  simp only [registersInTime, hmutex, Bool.and_eq_true] at htime
  exact Option.isNone_iff_eq_none.mp htime.1

private theorem old_step (hcases : BookCases s action t) {session call : Nat}
    (hold : t.old session call = true) : s.old session call = true ∨
      s.history.sessions ≤ session ∧ ∃ holder sendReq,
        action.thread? = some holder ∧
          s.mutex = some (holder, .register call true sendReq) := by
  obtain ⟨session', hle, hentry⟩ := (t.old_eq_true_iff session call).mp hold
  rcases hcases.registered_cases hentry with hentry | ⟨heq, hregister⟩
  · exact .inl ((s.old_eq_true_iff session call).mpr ⟨session', hle, hentry⟩)
  · refine .inr ⟨?_, hregister⟩
    dsimp only at heq
    omega

private theorem doomed_eq (hcases : BookCases s action t)
    (hcallback : t.callback = s.callback) {session : Nat}
    (hcollected : s.callback.collected? = some session) : t.doomed = s.doomed := by
  unfold doomed
  rw [hcallback]
  cases hpc : s.callback with
  | lockTimers session' =>
      rw [hpc] at hcollected
      cases hcollected
  | cancelTimers session' messageIds =>
      dsimp only
      rw [hcases.locked hcallback (by rw [holdsTimers, hpc])]
  | _ => rfl

namespace Cleared

private theorem aside (h : Cleared s) (hthreads : Threads s) (hbooks : Books s)
    (hanswers : s.AnswersNext action) (hcases : BookCases s action t)
    (hcallback : t.callback = s.callback)
    (htornDown : t.history.tornDown = s.history.tornDown)
    (hio : ∀ call, t.io.call? = some call →
      s.io.call? = some call ∨ ∃ messageId, s.callback? messageId = some call) :
    Cleared t := by
  -- what is registered now is not of a session torn down
  have hkeep {call : Nat} (hnot : s.old s.history.tornDown call = false) :
      t.old t.history.tornDown call = false := by
    rw [htornDown]
    by_contra hold
    rw [Bool.not_eq_false] at hold
    rcases old_step hcases hold with hold | ⟨hle, holder, sendReq, hthread, hmutex⟩
    · cases hnot.symm.trans hold
    · have hlt := (hanswers.inTime hthreads hthread hmutex).1
      omega
  have hunregistered {holder : Holder} {call session : Nat}
      {sendReq : Packet.SendReq}
      (hmutex : s.mutex = some (holder, .register call true sendReq)) :
      s.old session call = false := by
    by_contra hold
    rw [Bool.not_eq_false] at hold
    obtain ⟨session', -, hentry⟩ := (s.old_eq_true_iff session call).mp hold
    exact hbooks.unregistered hmutex session' hentry
  constructor
  case mapped =>
    intro messageId call hsome
    rcases hcases.callback hsome with hsome | ⟨-, -, holder, sendReq, -, hmutex⟩
    · exact hkeep (h.mapped messageId call hsome)
    · exact hkeep (hunregistered hmutex)
  case heldByIo =>
    intro call hcall
    rcases hio call hcall with hcall | ⟨messageId, hsome⟩
    · exact hkeep (h.heldByIo call hcall)
    · exact hkeep (h.mapped messageId call hsome)
  case heldByQueue =>
    rw [hcallback]
    exact fun call hcall => hkeep (h.heldByQueue call hcall)
  case collected =>
    intro session hcollected messageId call hsome hold
    rw [hcallback] at hcollected
    rw [doomed_eq hcases hcallback hcollected]
    rcases hcases.callback hsome with
      hsome | ⟨rfl, -, holder, sendReq, hthread, hmutex⟩
    · rcases old_step hcases hold with hold | ⟨-, holder, sendReq, -, hmutex⟩
      · exact h.collected session hcollected messageId call hsome hold
      · obtain ⟨session', hentry⟩ := hbooks.callbacks messageId call hsome
        exact absurd hentry (hbooks.unregistered hmutex session')
    · refine (hanswers.inTime hthreads hthread hmutex).2 ?_
      have hsession : s.callback.session? = some session := by
        cases hpc : s.callback <;> simp_all [CallbackPc.collected?]
      have hle := (hthreads.ended session hsession).1
      rcases old_step hcases hold with hold | ⟨hge, -⟩
      · cases (hunregistered hmutex).symm.trans hold
      · rw [hcollected, Nat.le_antisymm hle hge]

/-! ### Steps of the teardown -/

private theorem queue (h : Cleared s)
    (hregistered : t.history.registered = s.history.registered)
    (htornDown : t.history.tornDown = s.history.tornDown) (hio : t.io = s.io)
    (hmap : ∀ messageId call, t.callback? messageId = some call →
      s.callback? messageId = some call)
    (hheld : ∀ call, t.callback.call? = some call →
      s.callback.call? = some call ∨ ∃ messageId, s.callback? messageId = some call)
    (hcollected : ∀ session, t.callback.collected? = some session →
      ∀ messageId call, t.callback? messageId = some call →
        s.old session call = true → messageId ∈ t.doomed) : Cleared t := by
  have hold (session call : Nat) : t.old session call = s.old session call := by
    unfold old
    rw [hregistered]
  constructor
  case collected =>
    intro session hin messageId call hsome hin'
    rw [hold] at hin'
    exact hcollected session hin messageId call hsome hin'
  case mapped =>
    intro messageId call hsome
    rw [htornDown, hold]
    exact h.mapped messageId call (hmap messageId call hsome)
  case heldByIo =>
    intro call hcall
    rw [htornDown, hold]
    rw [hio] at hcall
    exact h.heldByIo call hcall
  case heldByQueue =>
    intro call hcall
    rw [htornDown, hold]
    rcases hheld call hcall with hcall | ⟨messageId, hsome⟩
    · exact h.heldByQueue call hcall
    · exact h.mapped messageId call hsome

private theorem returned (session : Nat)
    (hmap : ∀ messageId call, t.callback? messageId = some call →
      s.callback? messageId = some call)
    (hnone : ∀ messageId call, s.callback? messageId = some call →
      s.old session call = false)
    (hhand : s.inHand session = false) (hio : t.io = s.io)
    (hregistered : t.history.registered = s.history.registered)
    (htornDown : t.history.tornDown = session)
    (hcallback : t.callback = .checkReconnect) : Cleared t := by
  have hold (call : Nat) : t.old t.history.tornDown call = s.old session call := by
    unfold old
    rw [hregistered, htornDown]
  constructor
  case collected =>
    rw [hcallback]
    rintro _ ⟨⟩
  case mapped =>
    intro messageId call hsome
    rw [hold]
    exact hnone messageId call (hmap messageId call hsome)
  case heldByIo =>
    intro call hcall
    rw [hold]
    rw [hio] at hcall
    simpa [inHand, hcall] using hhand
  case heldByQueue =>
    rw [hcallback]
    rintro _ ⟨⟩

private theorem other (h : Cleared s)
    (hregistered : t.history.registered = s.history.registered)
    (htornDown : t.history.tornDown = s.history.tornDown) (hio : t.io = s.io)
    (hmap : ∀ messageId call, t.callback? messageId = some call →
      s.callback? messageId = some call)
    (hheld : ∀ call, t.callback.call? = some call →
      s.callback.call? = some call ∨ ∃ messageId, s.callback? messageId = some call)
    (hnone : t.callback.collected? = none) : Cleared t := by
  refine h.queue hregistered htornDown hio hmap hheld ?_
  intro session hcollected
  cases hnone.symm.trans hcollected

private theorem dropCallback_map (messageId : UInt16) {messageId' : UInt16}
    {call : Nat} (hsome : (s.dropCallback messageId).callback? messageId' = some call) :
    messageId' ≠ messageId ∧ s.callback? messageId' = some call := by
  rw [callback?_dropCallback] at hsome
  split at hsome
  · cases hsome
  · next hne => exact ⟨hne, hsome⟩

private theorem onward (h : Cleared s)
    (hregistered : t.history.registered = s.history.registered)
    (htornDown : t.history.tornDown = s.history.tornDown) (hio : t.io = s.io)
    (hmap : t.callbackMap = s.callbackMap) (hheld : t.callback.call? = none)
    {session : Nat} (hbefore : s.callback.collected? = some session)
    (hbehind : t.callback.collected? = some session)
    (hdoomed : s.doomed ⊆ t.doomed) : Cleared t := by
  have hsame (messageId : UInt16) : t.callback? messageId = s.callback? messageId := by
    unfold callback?
    rw [hmap]
  refine h.queue hregistered htornDown hio ?_ ?_ ?_
  · exact fun messageId call hsome => (hsame messageId).symm.trans hsome
  · exact fun call hcall => by cases hheld.symm.trans hcall
  · intro session' hin messageId call hsome hold
    cases hbehind.symm.trans hin
    exact hdoomed (h.collected session hbefore messageId call
      ((hsame messageId).symm.trans hsome) hold)

private theorem move (h : Cleared s) (htears : s.tearsDownAll = true)
    {callback : CallbackPc} (hmove : QueueMove s callback) :
    Cleared { s with callback } := by
  have hempty := hmove.empty.2
  cases hmove with
  | lockTimers session hcallback =>
      refine h.queue rfl rfl rfl (fun _ _ hsome => hsome) (by rintro _ ⟨⟩) ?_
      rintro _ ⟨⟩ messageId call hsome hold
      simp only [tearsDownAll, hcallback, List.all_eq_true,
        List.contains_iff_mem] at htears
      exact htears messageId (mem_outstanding hsome hold)
  | getLost session messageIds hcallback hnone =>
      exact h.onward rfl rfl rfl rfl hempty (by rw [hcallback]; rfl) rfl
        (by simp [doomed, hcallback, hnone])
  | noMoreLost session hcallback =>
      exact h.onward rfl rfl rfl rfl hempty (by rw [hcallback]; rfl) rfl
        (by simp [doomed, hcallback])
  | checkNewBreaker session hcallback hflag =>
      exact h.onward rfl rfl rfl rfl hempty (by rw [hcallback]; rfl) rfl
        (by simp [doomed, hcallback])
  | skipNewBreaker session hcallback =>
      exact h.onward rfl rfl rfl rfl hempty (by rw [hcallback]; rfl) rfl
        (by simp [doomed, hcallback])
  | checkNewConnBreaker session hcallback hflag =>
      exact h.onward rfl rfl rfl rfl hempty (by rw [hcallback]; rfl) rfl
        (by simp [doomed, hcallback])
  | _ =>
      refine h.other rfl rfl rfl (fun _ _ hsome => hsome) ?_ rfl
      exact fun call hcall => by cases hempty.symm.trans hcall

private theorem cancelTimer (h : Cleared s) {session : Nat}
    {messageIds : List UInt16} (messageId : UInt16)
    (hcallback : s.callback = .cancelTimers session messageIds) :
    Cleared { (s.loseTimer session messageId).cancelTimer messageId with
      callback := .cancelTimers session (messageIds ++ [messageId]) } := by
  have hmap := (s.loseTimer session messageId).timer_cancelTimer messageId
  obtain ⟨canceled, hlose⟩ := s.loseTimer_eq session messageId
  obtain ⟨timers, map, pool, heq⟩ :=
    (s.loseTimer session messageId).cancelTimer_eq messageId
  rw [heq, hlose] at hmap
  rw [heq, hlose]
  refine h.onward rfl rfl rfl rfl rfl (by rw [hcallback]; rfl) rfl ?_
  intro messageId' hmem
  simp only [doomed, hcallback, List.append_assoc, List.mem_append] at hmem ⊢
  rcases hmem with hmem | hmem
  · exact .inl hmem
  · by_cases heq : messageId' = messageId
    · exact .inr (.inl (List.mem_singleton.mpr heq))
    · obtain ⟨timer, htimer⟩ := Option.isSome_iff_exists.mp
        (TreeMap.isSome_getElem?_iff_mem.mpr (TreeMap.mem_keys.mp hmem))
      have hbehind := hmap messageId'
      rw [if_neg heq] at hbehind
      refine .inr (.inr (TreeMap.mem_keys.mpr
        (TreeMap.isSome_getElem?_iff_mem.mp ?_)))
      rw [show map[messageId']? = _ from hbehind, show _ = _ from htimer]
      rfl

private theorem takeLost (h : Cleared s) {session call : Nat} {messageId : UInt16}
    {messageIds : List UInt16}
    (hcallback : s.callback = .getLost session (messageId :: messageIds))
    (hsome : s.callback? messageId = some call) :
    Cleared { s.dropCallback messageId with
      callback := .callLost session call messageIds } := by
  refine h.queue rfl rfl rfl (fun _ _ hin => (dropCallback_map messageId hin).2)
    ?_ ?_
  · rintro _ ⟨⟩
    exact .inr ⟨messageId, hsome⟩
  · rintro _ ⟨⟩ messageId' call' hin hold
    obtain ⟨hne, hin⟩ := dropCallback_map messageId hin
    have hmem := h.collected session (by rw [hcallback]; rfl) messageId' call' hin hold
    simp only [doomed, hcallback, List.mem_cons] at hmem
    exact hmem.resolve_left hne

private theorem noLost (h : Cleared s) (htears : s.tearsDownAll = true)
    {session : Nat} {messageId : UInt16} {messageIds : List UInt16}
    (hcallback : s.callback = .getLost session (messageId :: messageIds))
    (hnone : s.callback? messageId = none) :
    Cleared ((s.dropCallback messageId).tearDown session) := by
  simp only [tearsDownAll, hcallback, hnone, Option.isSome_none, Bool.false_or,
    Bool.and_eq_true, List.all_eq_true, Bool.not_eq_eq_eq_not, Bool.not_true]
    at htears
  refine returned (s := s) session
    (fun _ _ hin => (dropCallback_map messageId hin).2) ?_ htears.1 rfl rfl rfl rfl
  intro messageId' call hsome
  by_contra hold
  rw [Bool.not_eq_false] at hold
  have hmem := h.collected session (by rw [hcallback]; rfl) messageId' call hsome hold
  simp only [doomed, hcallback, List.mem_cons] at hmem
  rcases hmem with rfl | hmem
  · cases hnone.symm.trans hsome
  · have hnot := htears.2 messageId' hmem
    simp [mem_outstanding hsome hold] at hnot

private theorem tearDown (h : Cleared s) {session : Nat}
    (hcollected : s.callback.collected? = some session) (hdoomed : s.doomed = [])
    (hhand : s.inHand session = false)
    (hmap : t.callbackMap = s.callbackMap) (hio : t.io = s.io)
    (hregistered : t.history.registered = s.history.registered)
    (htornDown : t.history.tornDown = session)
    (hcallback : t.callback = .checkReconnect) : Cleared t := by
  refine returned session ?_ ?_ hhand hio hregistered htornDown hcallback
  · intro messageId call hsome
    unfold callback? at hsome ⊢
    rwa [hmap] at hsome
  · intro messageId call hsome
    by_contra hold
    rw [Bool.not_eq_false] at hold
    have hmem := h.collected session hcollected messageId call hsome hold
    rw [hdoomed] at hmem
    cases hmem

private theorem queueStep (h : Cleared s) (htears : s.tearsDownAll = true)
    (hs : s.queueStep = some t)
    (haside : ∀ next, t = s.proceed .queue next → Cleared t) : Cleared t := by
  cases queueStep_cases hs with
  | move callback hmove => exact h.move htears hmove
  | loop timers hcallback hstep =>
      refine h.other rfl rfl rfl (fun _ _ hsome => hsome) ?_ ?_
      all_goals
        rcases innerCallback_cases timers with hinner | hinner | hinner | hinner |
          ⟨_, _, hinner⟩
      all_goals
        simp [hinner, CallbackPc.call?, CallbackPc.collected?, CallbackPc.session?]
  | timer u callback htimer =>
      cases htimer with
      | eraseTimer messageId start hcallback =>
          obtain ⟨map, pool, heq⟩ := s.release_eq messageId
          rw [heq]
          exact h.other rfl rfl rfl (fun _ _ hsome => hsome) (by rintro _ ⟨⟩) rfl
      | cancelTimer session messageIds messageId rest hcallback hkeys =>
          exact h.cancelTimer messageId hcallback
  | noTimeout messageId start hcallback hnone =>
      exact h.other rfl rfl rfl (fun _ _ hin => (dropCallback_map messageId hin).2)
        (by rintro _ ⟨⟩) rfl
  | takeTimeout messageId start call hcallback hsome =>
      refine h.other rfl rfl rfl
        (fun _ _ hin => (dropCallback_map messageId hin).2) ?_ rfl
      rintro _ ⟨⟩
      exact .inr ⟨messageId, hsome⟩
  | noLost session messageId messageIds hcallback hnone =>
      exact h.noLost htears hcallback hnone
  | takeLost session call messageId messageIds hcallback hsome =>
      exact h.takeLost hcallback hsome
  | callLost session call messageIds hcallback =>
      exact h.onward rfl rfl rfl rfl rfl (by rw [hcallback]; rfl) rfl
        (by simp [doomed, hcallback])
  | reCreate session hcallback =>
      exact h.onward rfl rfl rfl rfl rfl (by rw [hcallback]; rfl) rfl
        (by simp [doomed, hcallback])
  | tearDown session hcallback hflag =>
      have hcollected : s.callback.collected? = some session := by
        rw [hcallback]
        rfl
      refine h.tearDown hcollected (by simp [doomed, hcallback]) ?_
        rfl rfl rfl rfl rfl
      simpa [tearsDownAll, hcallback, hflag] using htears
  | reCreateConn session hcallback =>
      have hcollected : s.callback.collected? = some session := by
        rw [hcallback]
        rfl
      refine h.tearDown hcollected (by simp [doomed, hcallback]) ?_
        rfl rfl rfl rfl rfl
      simpa [tearsDownAll, hcallback] using htears
  | checkReconnect hcallback =>
      refine h.other rfl rfl rfl (fun _ _ hsome => hsome) ?_ ?_
      all_goals
        dsimp only
        split
      all_goals simp [CallbackPc.call?, CallbackPc.collected?, CallbackPc.session?]
  | enterDisconnect hcallback hfree =>
      refine h.other rfl rfl rfl (fun _ _ hsome => hsome) ?_ ?_
      all_goals
        dsimp only
        split
      all_goals simp [CallbackPc.call?, CallbackPc.collected?, CallbackPc.session?]
  | inside next hcallback hmutex => exact haside next rfl
  | returned | breakPing | callTimeout | setTimeoutDisconnect | clearThread
    | enterConnect =>
      exact h.other rfl rfl rfl (fun _ _ hsome => hsome) (by rintro _ ⟨⟩) rfl

private theorem proceed_call (holder : Holder) (next : Section) {call : Nat}
    (hcall : (s.proceed holder next).io.call? = some call) :
    s.io.call? = some call := by
  cases next with
  | connect =>
      simp only [TcpClient.proceed] at hcall
      split at hcall
      · exact hcall
      · cases hcall
  | _ => exact hcall

private theorem user_call {event : UserCall} (hs : s.userStep event = some t)
    {call : Nat} (hcall : t.io.call? = some call) : s.io.call? = some call := by
  cases userStep_cases hs with
  | enterSend type payload data hasCallback hfree =>
      obtain ⟨mutex, calls, invoked, heq⟩ :=
        s.enterSend_eq type payload data hasCallback
      rw [heq] at hcall
      exact hcall
  | enterPush message hfree =>
      obtain ⟨mutex, calls, heq⟩ := s.enterPush_eq message
      rw [heq] at hcall
      exact hcall
  | inside next hevent hmutex => exact proceed_call .user next hcall
  | _ => exact hcall

private theorem io_call {event : IoEvent} (hs : s.ioStep event = some t)
    {call : Nat} (hcall : t.io.call? = some call) : s.io.call? = some call ∨
      ∃ messageId, s.callback? messageId = some call := by
  cases ioStep_cases hs with
  | move io hmove => cases hmove.empty.2.symm.trans hcall
  | alarm action timers io halarm => cases halarm.empty.2.symm.trans hcall
  | status status io hstatus => cases hstatus.empty.2.symm.trans hcall
  | timer u io htimer => cases htimer.empty.2.symm.trans hcall
  | encode readable queued rest hio =>
      simp only [behindEncode] at hcall
      split at hcall <;> cases hcall
  | takeCallback messageId call' hio hsome =>
      cases hcall
      exact .inr ⟨messageId, hsome⟩
  | inside next hio hmutex => exact .inl (proceed_call .io next hcall)
  | _ => cases hcall

theorem step (h : Cleared s) (hthreads : Threads s) (hbooks : Books s)
    (hanswers : s.AnswersNext action) (hs : s.step action = some t) :
    Cleared t := by
  have hcases := BookCases.of_step hs
  cases action with
  | user event =>
      have haside := Aside.userStep hs
      exact h.aside hthreads hbooks hanswers hcases haside.callback haside.tornDown
        fun call hcall => .inl (user_call hs hcall)
  | io event =>
      have haside := Aside.ioStep hs
      exact h.aside hthreads hbooks hanswers hcases haside.callback haside.tornDown
        fun call hcall => io_call hs hcall
  | queue =>
      refine h.queueStep (hanswers.2 rfl) hs fun next heq => ?_
      subst heq
      have haside := Aside.proceed s .queue next
      exact h.aside hthreads hbooks hanswers hcases haside.callback haside.tornDown
        fun call hcall => .inl (proceed_call .queue next hcall)
  | tick nanoseconds =>
      cases hs
      exact h.aside hthreads hbooks hanswers hcases rfl rfl fun _ => .inl
  | pipes ok =>
      cases hs
      exact h.aside hthreads hbooks hanswers hcases rfl rfl fun _ => .inl

theorem of_reachable (h : Reachable TcpClient.step AnswersNext .init s) :
    Cleared s :=
  h.invariant init fun _ _ _ hu hcleared hanswers hs =>
    hcleared.step (.of_reachable hu) (.of_reachable hu) hanswers hs

end Cleared

/-! ## Every callback is called -/

theorem kept_of_reachable (h : Reachable step AnswersNext .init s) :
    ∀ entry ∈ s.history.registered, s.ledger.Kept entry.1 := by
  induction h with
  | refl => simp [TcpClient.init]
  | tail action hu hanswers hs ih =>
      exact registered_kept ih (.of_reachable hu) hanswers.fresh hs

/-- Behind the teardown of a session every callback of the session has been
called, where nothing keeps it from that. -/
theorem teardown_answers (h : Reachable step AnswersNext .init s) : s.Answered := by
  have hcleared := Cleared.of_reachable h
  have hbooks : Books s := .of_reachable h
  have hnew {call : Nat} (hnot : s.old s.history.tornDown call = false) {session : Nat}
      (hentry : (call, session) ∈ s.history.registered) :
      s.history.tornDown < session := by
    by_contra hle
    have hold := (s.old_eq_true_iff s.history.tornDown call).mpr
      ⟨session, Nat.le_of_not_lt hle, hentry⟩
    cases hnot.symm.trans hold
  constructor
  case dropped =>
    intro messageId call session hsome
    exact hnew (hcleared.mapped messageId call hsome)
  case called =>
    intro entry hentry hle
    rcases kept_of_reachable h entry hentry with ⟨place, hplace⟩ | hused
    · exfalso
      refine absurd hle (Nat.not_le.mpr ?_)
      cases place with
      | map messageId => exact hnew (hcleared.mapped messageId _ hplace) hentry
      | held holder =>
          cases holder with
          | io => exact hnew (hcleared.heldByIo _ hplace) hentry
          | queue => exact hnew (hcleared.heldByQueue _ hplace) hentry
          | user =>
              obtain ⟨⟨holder, next⟩, hmutex, hcall⟩ :=
                Option.bind_eq_some_iff.mp hplace
              obtain ⟨sendReq, rfl⟩ := register_of_call hcall
              exact absurd hentry (hbooks.unregistered hmutex entry.2)
    · exact hused

/-- A request that has been written is called when its session ends. -/
theorem teardown_answers_written :
    ∃ s : TcpClient, s.history.tornDown = 1 ∧ s.history.registered = [(0, 1)] ∧
      s.history.invoked = [(0, .kErrorCodeLoseConnect)] ∧ s.Answered := by
  let actions := connecting ++ sending ++ writingOnly ++ disconnecting ++
    ending ++ joining ++ List.replicate 8 .queue
  have hmap : (run step init actions).map (fun s =>
      (s.history.tornDown, s.history.registered, s.history.invoked)) =
        some (1, [(0, 1)], [(0, .kErrorCodeLoseConnect)]) := by
    decide +kernel
  obtain ⟨s, hrun, hstate⟩ := Option.map_eq_some_iff.mp hmap
  simp only [Prod.mk.injEq] at hstate
  have hreach : Reachable step AnswersNext init s :=
    .of_meets (by decide +kernel) hrun
  exact ⟨s, hstate.1, hstate.2.1, hstate.2.2, teardown_answers hreach⟩

def unwritten : List Action :=
  connecting ++ sending ++ disconnecting ++ ending ++ joining ++
    List.replicate 5 .queue

theorem unwritten_unanswered :
    ¬ ∀ s : TcpClient, Reachable step AnyStep init s → s.Answered := by
  intro hall
  have hmap : (run step init unwritten).map (fun s =>
      (s.history.tornDown, s.history.registered, s.history.invoked)) =
        some (1, [(0, 1)], []) := by
    decide +kernel
  obtain ⟨s, hreach, hstate⟩ := Reachable.of_run_map hmap
  simp only [Prod.mk.injEq] at hstate
  obtain ⟨htornDown, hregistered, hinvoked⟩ := hstate
  have hcalled := (hall s hreach).called (0, 1) (by simp [hregistered])
    (by simp [htornDown])
  simp [hinvoked] at hcalled

end TcpClient

end GoSocket.Client
