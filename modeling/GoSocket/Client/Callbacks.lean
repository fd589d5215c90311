import GoSocket.Client.Threads
import GoSocket.Foundation.Ledger

/-!
# Callbacks are called once

A callback is a token of a ledger: it lies in `_callbackMap` under its message
id, or one of the threads has it in hand.  Every step of the client is a run of
the ledger, so what holds of tokens holds of callbacks, in all interleavings.
-/

namespace GoSocket.Client

open Std GoSocket.Common GoSocket.Foundation

/-- Where a callback can be. -/
inductive Place where
  | map (messageId : UInt16)
  | held (holder : Holder)
  deriving DecidableEq, Repr

namespace TcpClient

def holding (self : TcpClient) : Holder → Option Nat
  | .user => self.mutex.bind fun held => held.2.call?
  | .io => self.io.call?
  | .queue => self.callback.call?

def place (self : TcpClient) : Place → Option Nat
  | .map messageId => self.callback? messageId
  | .held holder => self.holding holder

def ledger (self : TcpClient) : Ledger Place ErrorCode where
  place := self.place
  issued := self.history.calls
  used := self.history.invoked

variable {s t : TcpClient}

/-! ## The map -/

@[simp] theorem callback?_insert (s : TcpClient) (messageId : UInt16)
    (callback : Option Nat) (messageId' : UInt16) :
    ((s.callbackMap.insert messageId callback)[messageId']?).join =
      if messageId' = messageId then callback else s.callback? messageId' := by
  rw [TreeMap.getElem?_insert]
  by_cases h : messageId' = messageId
  · subst h
    simp
  · rw [if_neg h, if_neg]
    · rfl
    · exact fun heq => h (LawfulEqCmp.eq_of_compare heq).symm

@[simp] theorem callback?_dropCallback (s : TcpClient) (messageId messageId' : UInt16) :
    (s.dropCallback messageId).callback? messageId' =
      if messageId' = messageId then none else s.callback? messageId' := by
  unfold callback? dropCallback
  rw [TreeMap.getElem?_erase]
  by_cases h : messageId' = messageId
  · subst h
    simp
  · rw [if_neg h, if_neg]
    exact fun heq => h (LawfulEqCmp.eq_of_compare heq).symm

/-! ## Steps of the ledger -/

theorem ledger_congr (hmap : ∀ messageId, t.callback? messageId = s.callback? messageId)
    (hholding : ∀ holder, t.holding holder = s.holding holder)
    (hcalls : t.history.calls = s.history.calls)
    (hinvoked : t.history.invoked = s.history.invoked) : t.ledger = s.ledger := by
  unfold ledger
  rw [hcalls, hinvoked]
  congr 1
  funext place
  cases place with
  | map messageId => exact hmap messageId
  | held holder => exact hholding holder

theorem ledger_take {holder : Holder} {messageId : UInt16} {call : Nat}
    (hsome : s.callback? messageId = some call)
    (hmap : ∀ messageId', t.callback? messageId' =
      (s.dropCallback messageId).callback? messageId')
    (hholding : t.holding = Function.update s.holding holder (some call))
    (hcalls : t.history.calls = s.history.calls)
    (hinvoked : t.history.invoked = s.history.invoked) :
    s.ledger.step (.move (.map messageId) (.held holder)) = some t.ledger := by
  simp only [Ledger.step, ledger, Option.some.injEq]
  ext1
  · funext place
    cases place with
    | map messageId' =>
        simp only [TcpClient.place, hmap, callback?_dropCallback]
        by_cases h : messageId' = messageId
        · subst h
          simp
        · simp [h, TcpClient.place]
    | held holder' =>
        simp only [TcpClient.place, hholding]
        by_cases h : holder' = holder
        · subst h
          simp [hsome]
        · simp [h, TcpClient.place]
  · exact hcalls.symm
  · exact hinvoked.symm

theorem ledger_call {holder : Holder} {call : Nat} {code : ErrorCode}
    (hheld : s.holding holder = some call)
    (hmap : ∀ messageId, t.callback? messageId = s.callback? messageId)
    (hholding : t.holding = Function.update s.holding holder none)
    (hcalls : t.history.calls = s.history.calls)
    (hinvoked : t.history.invoked = (call, code) :: s.history.invoked) :
    s.ledger.step (.use (.held holder) code) = some t.ledger := by
  have hplace : s.ledger.place (.held holder) = some call := hheld
  simp only [Ledger.step, hplace, Option.map_some, Option.some.injEq]
  ext1
  · funext place
    cases place with
    | map messageId =>
        simp [ledger, TcpClient.place, hmap]
    | held holder' =>
        simp only [ledger, TcpClient.place, hholding]
        by_cases h : holder' = holder
        · subst h
          simp
        · simp [h, TcpClient.place]
  · exact hcalls.symm
  · exact hinvoked.symm

/-! ## Every step of the client is a run of the ledger -/

/-- A `Send` that registers its callback finds none under its id. -/
def FreshCallback (s : TcpClient) (action : Action) : Prop :=
  action = .user .proceed → ∀ call hasCallback sendReq,
    s.mutex = some (.user, .register call hasCallback sendReq) →
      s.callback? s.currentMsgId = none

variable {P : Prop}

/-- A run of the ledger that is careful if `P`. -/
abbrev LedgerRun (P : Prop) (s t : TcpClient) : Prop :=
  Reachable Ledger.step (fun L action => P → L.Careful action) s.ledger t.ledger

private theorem run_of_eq (h : t.ledger = s.ledger) : LedgerRun P s t := by
  unfold LedgerRun
  rw [h]
  exact .refl

private theorem run_skip (hmap : t.callbackMap = s.callbackMap)
    (hholding : t.holding = s.holding)
    (hcalls : t.history.calls = s.history.calls + 1)
    (hinvoked : t.history.invoked = s.history.invoked) : LedgerRun P s t := by
  refine .single .skip (fun _ => trivial) ?_
  simp only [Ledger.step, ledger, hcalls, hinvoked, Option.some.injEq]
  congr 1
  funext place
  cases place with
  | map messageId => simp [TcpClient.place, callback?, hmap]
  | held holder => simp [TcpClient.place, hholding]

private theorem issue_step (hfree : s.mutex = none)
    (hmap : t.callbackMap = s.callbackMap)
    (hholding : t.holding =
      Function.update s.holding .user (some s.history.calls))
    (hcalls : t.history.calls = s.history.calls + 1)
    (hinvoked : t.history.invoked = s.history.invoked) : LedgerRun P s t := by
  refine .single (.issue (.held .user)) (fun _ => ?_) ?_
  · change s.holding .user = none
    simp [holding, hfree]
  · simp only [Ledger.step, ledger, hcalls, hinvoked, Option.some.injEq]
    congr 1
    funext place
    cases place with
    | map messageId => simp [TcpClient.place, callback?, hmap]
    | held holder =>
        simp only [TcpClient.place, hholding]
        by_cases h : holder = .user
        · subst h
          simp
        · simp [h, TcpClient.place]

private theorem holding_ext {f g : Holder → Option Nat}
    (huser : f .user = g .user) (hio : f .io = g .io)
    (hqueue : f .queue = g .queue) : f = g := by
  funext holder
  cases holder with
  | user => exact huser
  | io => exact hio
  | queue => exact hqueue

private theorem enterSend_run (hfree : s.mutex = none)
    (type payload : List Packet.Byte) (data : Option (List Packet.Byte))
    (hasCallback : Bool) :
    LedgerRun P s (s.enterSend type payload data hasCallback) := by
  -- the callback in the hand of `Send`, which registers or calls it
  have hissue (sendReq : Packet.SendReq) : LedgerRun P s
      { s.issue with
        mutex := some (.user, .register s.history.calls true sendReq) } :=
    issue_step hfree rfl (holding_ext rfl rfl rfl) rfl rfl
  unfold enterSend
  cases hasCallback with
  | false =>
      split
      · exact run_skip rfl (holding_ext (by simp [holding, hfree, Section.call?])
          rfl rfl) rfl rfl
      · exact run_skip rfl rfl rfl rfl
  | true =>
      split
      · exact hissue _
      · refine (hissue {}).tail (.use (.held .user) .kErrorCodeNotConnect)
          (fun _ => trivial) (ledger_call rfl (fun _ => rfl) ?_ rfl rfl)
        exact holding_ext (by simp [holding, issue, TcpClient.callBack, hfree])
          rfl rfl

private theorem enterPush_run (hfree : s.mutex = none)
    (message : Packet.MessageBase) : LedgerRun P s (s.enterPush message) := by
  unfold enterPush
  split
  · exact run_skip rfl (holding_ext (by simp [holding, hfree, Section.call?])
      rfl rfl) rfl rfl
  · exact run_skip rfl rfl rfl rfl

private theorem register_run {call : Nat} {hasCallback : Bool}
    {sendReq : Packet.SendReq}
    (hmutex : s.mutex = some (.user, .register call hasCallback sendReq))
    (hfresh : P → s.callback? s.currentMsgId = none) :
    LedgerRun P s (s.proceed .user (.register call hasCallback sendReq)) := by
  have hheld : s.holding .user = if hasCallback then some call else none := by
    simp only [holding, hmutex, Option.bind_some]
    cases hasCallback <;> rfl
  refine .single (.move (.held .user) (.map s.currentMsgId)) hfresh ?_
  simp only [Ledger.step, ledger, Option.some.injEq]
  ext1
  · funext place
    cases place with
    | map messageId =>
        simp only [TcpClient.place, callback?, TcpClient.proceed,
          callback?_insert]
        by_cases h : messageId = s.currentMsgId
        · subst h
          simp [hheld]
        · simp [h, TcpClient.place, callback?]
    | held holder => cases holder <;> rfl
  · rfl
  · rfl

private theorem run_of_same (hmap : t.callbackMap = s.callbackMap)
    (hholding : t.holding = s.holding)
    (hcalls : t.history.calls = s.history.calls)
    (hinvoked : t.history.invoked = s.history.invoked) : LedgerRun P s t :=
  run_of_eq (ledger_congr (fun messageId => by rw [callback?, hmap]; rfl)
    (fun holder => by rw [hholding]) hcalls hinvoked)

private theorem run_of_missing {messageId : UInt16}
    (hnone : s.callback? messageId = none)
    (hmap : t.callbackMap = (s.dropCallback messageId).callbackMap)
    (hholding : t.holding = s.holding)
    (hcalls : t.history.calls = s.history.calls)
    (hinvoked : t.history.invoked = s.history.invoked) : LedgerRun P s t := by
  refine run_of_eq (ledger_congr ?_ (fun holder => by rw [hholding]) hcalls
    hinvoked)
  intro messageId'
  have hdrop := s.callback?_dropCallback messageId messageId'
  rw [callback?, hmap]
  by_cases h : messageId' = messageId
  · subst h
    rw [if_pos rfl] at hdrop
    exact hdrop.trans hnone.symm
  · rw [if_neg h] at hdrop
    exact hdrop

private theorem proceed_run (h : Threads s) {holder : Holder} {next : Section}
    (hmutex : s.mutex = some (holder, next))
    (hfresh : P → ∀ call hasCallback sendReq,
      next = .register call hasCallback sendReq →
        s.callback? s.currentMsgId = none) :
    LedgerRun P s (s.proceed holder next) := by
  -- a section that does not register has no callback in hand
  have hheld (h : next.call? = none) : s.holding .user = none := by
    simp [holding, hmutex, h]
  cases next with
  | connect =>
      simp only [TcpClient.proceed]
      split
      · exact run_of_same rfl (holding_ext (hheld rfl).symm rfl rfl) rfl rfl
      · next hthread =>
          have hio : s.io = .finished :=
            h.finished_of_connect hmutex (Bool.eq_false_iff.mpr hthread)
          refine run_of_same rfl (holding_ext (hheld rfl).symm ?_ rfl) rfl rfl
          simp [holding, hio, IoPc.call?]
  | assignThread => exact run_of_same rfl (holding_ext (hheld rfl).symm rfl rfl) rfl rfl
  | disconnect code shouldReconnect =>
      exact run_of_same rfl (holding_ext (hheld rfl).symm rfl rfl) rfl rfl
  | setShouldReconnect shouldReconnect =>
      exact run_of_same rfl (holding_ext (hheld rfl).symm rfl rfl) rfl rfl
  | breakReadWrite =>
      refine run_of_same rfl (holding_ext ?_ rfl rfl) rfl rfl
      rw [hheld rfl]
      simp only [holding, TcpClient.proceed, Option.bind_some]
      split <;> rfl
  | closeReadWrite =>
      exact run_of_same rfl (holding_ext (hheld rfl).symm rfl rfl) rfl rfl
  | flagReadWrite =>
      exact run_of_same rfl (holding_ext (hheld rfl).symm rfl rfl) rfl rfl
  | breakConnect =>
      refine run_of_same rfl (holding_ext ?_ rfl rfl) rfl rfl
      rw [hheld rfl]
      simp only [holding, TcpClient.proceed]
      split <;> rfl
  | flagConnect =>
      exact run_of_same rfl (holding_ext (hheld rfl).symm rfl rfl) rfl rfl
  | wakeUp =>
      exact run_of_same rfl (holding_ext (hheld rfl).symm rfl rfl) rfl rfl
  | register call hasCallback sendReq =>
      obtain rfl := h.senders holder _ hmutex rfl
      exact register_run hmutex fun hP => hfresh hP call hasCallback sendReq rfl
  | pushSendReq call sendReq =>
      exact run_of_same rfl (holding_ext (hheld rfl).symm rfl rfl) rfl rfl
  | pushMessage call message =>
      exact run_of_same rfl (holding_ext (hheld rfl).symm rfl rfl) rfl rfl

private theorem enter_run (hfree : s.mutex = none) {holder : Holder}
    {next : Section} (hnext : next.call? = none)
    (hmutex : t.mutex = none ∨ t.mutex = some (holder, next))
    (hmap : t.callbackMap = s.callbackMap) (hio : t.io.call? = s.io.call?)
    (hcallback : t.callback.call? = s.callback.call?)
    (hcalls : t.history.calls = s.history.calls)
    (hinvoked : t.history.invoked = s.history.invoked) : LedgerRun P s t := by
  refine run_of_same hmap (holding_ext ?_ hio hcallback) hcalls hinvoked
  rcases hmutex with hmutex | hmutex
  · simp [holding, hmutex, hfree]
  · simp [holding, hmutex, hfree, hnext]

private theorem enterConnect_mutex (s : TcpClient) (holder : Holder) :
    (s.enterConnect holder).mutex = none ∨
      (s.enterConnect holder).mutex = some (holder, .connect) := by
  unfold enterConnect
  dsimp only
  split
  · exact .inl rfl
  · exact .inr rfl

private theorem enterDisconnect_mutex (s : TcpClient) (holder : Holder)
    (code : DisconnectCode) (shouldReconnect : Bool) :
    (s.enterDisconnect holder code shouldReconnect).mutex = none ∨
      (s.enterDisconnect holder code shouldReconnect).mutex =
        some (holder, .disconnect code shouldReconnect) := by
  unfold enterDisconnect
  dsimp only
  split
  · exact .inr rfl
  · exact .inl rfl

private theorem userStep_run (h : Threads s) {call : UserCall}
    (hs : s.userStep call = some t) (hfresh : P → FreshCallback s (.user call)) :
    LedgerRun P s t := by
  cases userStep_cases hs with
  | enterConnect hfree =>
      exact enter_run hfree rfl (s.enterConnect_mutex .user) rfl rfl rfl rfl rfl
  | enterDisconnect code shouldReconnect hfree =>
      exact enter_run hfree rfl
        (s.enterDisconnect_mutex .user code shouldReconnect) rfl rfl rfl rfl rfl
  | enterSend type payload data hasCallback hfree =>
      exact enterSend_run hfree type payload data hasCallback
  | enterPush message hfree => exact enterPush_run hfree message
  | inside next hcall hmutex =>
      refine proceed_run h hmutex ?_
      rintro hP call' hasCallback sendReq rfl
      exact hfresh hP (by rw [hcall]) call' hasCallback sendReq hmutex

private theorem take_run (holder : Holder) {messageId : UInt16} {call : Nat}
    (hsome : s.callback? messageId = some call) (hempty : s.holding holder = none)
    (hmap : t.callbackMap = (s.dropCallback messageId).callbackMap)
    (hholding : t.holding = Function.update s.holding holder (some call))
    (hcalls : t.history.calls = s.history.calls)
    (hinvoked : t.history.invoked = s.history.invoked) : LedgerRun P s t := by
  refine .single (.move (.map messageId) (.held holder)) (fun _ => hempty)
    (ledger_take hsome ?_ hholding hcalls hinvoked)
  intro messageId'
  rw [callback?, hmap]
  rfl

private theorem call_run (holder : Holder) {call : Nat} {code : ErrorCode}
    (hheld : s.holding holder = some call)
    (hmap : t.callbackMap = s.callbackMap)
    (hholding : t.holding = Function.update s.holding holder none)
    (hcalls : t.history.calls = s.history.calls)
    (hinvoked : t.history.invoked = (call, code) :: s.history.invoked) :
    LedgerRun P s t := by
  refine .single (.use (.held holder) code) (fun _ => trivial)
    (ledger_call hheld ?_ hholding hcalls hinvoked)
  intro messageId
  rw [callback?, hmap]
  rfl

private theorem run_of_idle (hmap : t.callbackMap = s.callbackMap)
    (hmutex : t.mutex = s.mutex) (hio : t.io.call? = s.io.call?)
    (hcallback : t.callback.call? = s.callback.call?)
    (hcalls : t.history.calls = s.history.calls)
    (hinvoked : t.history.invoked = s.history.invoked) : LedgerRun P s t := by
  refine run_of_same hmap (holding_ext ?_ hio hcallback) hcalls hinvoked
  simp [holding, hmutex]

private theorem ioStep_run (h : Threads s) {event : IoEvent}
    (hs : s.ioStep event = some t) : LedgerRun P s t := by
  cases ioStep_cases hs with
  | move io hmove =>
      obtain ⟨hbefore, hbehind⟩ := hmove.empty
      exact run_of_idle rfl rfl (hbehind.trans hbefore.symm) rfl rfl rfl
  | alarm action timers io halarm =>
      obtain ⟨hbefore, hbehind⟩ := halarm.empty
      exact run_of_idle rfl rfl (hbehind.trans hbefore.symm) rfl rfl rfl
  | status status io hstatus =>
      obtain ⟨hbefore, hbehind⟩ := hstatus.empty
      exact run_of_idle rfl rfl (hbehind.trans hbefore.symm) rfl rfl rfl
  | encode readable queued rest hio =>
      refine run_of_idle rfl rfl ?_ rfl rfl rfl
      rw [hio]
      unfold behindEncode
      split <;> rfl
  | timer u io htimer =>
      obtain ⟨hbefore, hbehind⟩ := htimer.empty
      obtain ⟨timers, map, pool, created, armed, rfl⟩ := htimer.eq
      exact run_of_idle rfl rfl (hbehind.trans hbefore.symm) rfl rfl rfl
  | noCallback messageId hio hnone =>
      exact run_of_missing hnone rfl
        (holding_ext rfl (by simp [holding, hio, IoPc.call?]) rfl) rfl rfl
  | takeCallback messageId call hio hsome =>
      exact take_run .io hsome (by simp [holding, hio, IoPc.call?]) rfl
        (holding_ext rfl rfl rfl) rfl rfl
  | callBack call hio =>
      exact call_run .io (by simp [holding, hio, IoPc.call?]) rfl
        (holding_ext rfl rfl rfl) rfl rfl
  | enter hio hfree =>
      exact enter_run hfree rfl
        (s.enterDisconnect_mutex .io .kDisCodeKickout false) rfl
        (by simp [hio, IoPc.call?]) rfl rfl rfl
  | inside next hio hmutex =>
      refine proceed_run h hmutex ?_
      rintro - call hasCallback sendReq rfl
      cases h.senders .io _ hmutex rfl
  | refuse | clear | pingTimeout | pop =>
      exact run_of_idle rfl rfl (by simp [*, IoPc.call?]) rfl rfl rfl

private theorem queueStep_run (h : Threads s) (hs : s.queueStep = some t) :
    LedgerRun P s t := by
  cases queueStep_cases hs with
  | move callback hmove =>
      obtain ⟨hbefore, hbehind⟩ := hmove.empty
      exact run_of_idle rfl rfl rfl (hbehind.trans hbefore.symm) rfl rfl
  | loop timers hcallback hstep =>
      refine run_of_idle rfl rfl rfl ?_ rfl rfl
      rw [hcallback]
      rcases innerCallback_cases timers with hinner | hinner | hinner | hinner |
        ⟨_, _, hinner⟩
      all_goals simp [hinner, CallbackPc.call?]
  | timer u callback htimer =>
      obtain ⟨hbefore, hbehind⟩ := htimer.empty
      obtain ⟨timers, map, pool, canceled, rfl⟩ := htimer.eq
      exact run_of_idle rfl rfl rfl (hbehind.trans hbefore.symm) rfl rfl
  | noTimeout messageId start hcallback hnone =>
      exact run_of_missing hnone rfl (holding_ext rfl rfl
        (by simp [holding, hcallback, CallbackPc.call?])) rfl rfl
  | takeTimeout messageId start call hcallback hsome =>
      exact take_run .queue hsome (by simp [holding, hcallback, CallbackPc.call?]) rfl
        (holding_ext rfl rfl rfl) rfl rfl
  | callTimeout call start hcallback =>
      exact call_run .queue (by simp [holding, hcallback, CallbackPc.call?]) rfl
        (holding_ext rfl rfl rfl) rfl rfl
  | noLost session messageId messageIds hcallback hnone =>
      exact run_of_missing hnone rfl (holding_ext rfl rfl
        (by simp [holding, hcallback, tearDown, CallbackPc.call?])) rfl rfl
  | takeLost session call messageId messageIds hcallback hsome =>
      exact take_run .queue hsome (by simp [holding, hcallback, CallbackPc.call?]) rfl
        (holding_ext rfl rfl rfl) rfl rfl
  | callLost session call messageIds hcallback =>
      exact call_run .queue (by simp [holding, hcallback, CallbackPc.call?]) rfl
        (holding_ext rfl rfl rfl) rfl rfl
  | checkReconnect hcallback =>
      refine run_of_idle rfl rfl rfl ?_ rfl rfl
      rw [hcallback]
      split <;> rfl
  | enterDisconnect hcallback hfree =>
      refine enter_run hfree rfl
        (s.enterDisconnect_mutex .queue .kDisCodeSendReqTimeout true) rfl rfl ?_
        rfl rfl
      simp only [hcallback]
      split <;> rfl
  | enterConnect hcallback hfree =>
      exact enter_run hfree rfl (s.enterConnect_mutex .queue) rfl rfl
        (by simp [hcallback, CallbackPc.call?]) rfl rfl
  | inside next hcallback hmutex =>
      refine proceed_run h hmutex ?_
      rintro - call hasCallback sendReq rfl
      cases h.senders .queue _ hmutex rfl
  | returned | breakPing | setTimeoutDisconnect | clearThread | reCreate
    | tearDown | reCreateConn =>
      exact run_of_idle rfl rfl rfl
        (by simp [*, TcpClient.tearDown, CallbackPc.call?]) rfl rfl

theorem ledger_run (h : Threads s) {action : Action} (hs : s.step action = some t)
    (hfresh : P → FreshCallback s action) : LedgerRun P s t := by
  cases action with
  | user call => exact userStep_run h hs hfresh
  | io event => exact ioStep_run h hs
  | queue => exact queueStep_run h hs
  | tick nanoseconds =>
      cases hs
      exact run_of_same rfl rfl rfl rfl
  | pipes ok =>
      cases hs
      exact run_of_same rfl rfl rfl rfl

/-! ## At most once -/

theorem ledger_init : TcpClient.init.ledger.Linear := by
  have hplace : TcpClient.init.place = fun _ => none := by
    funext place
    cases place with
    | map messageId => simp [TcpClient.place, callback?, init]
    | held holder => cases holder <;> rfl
  unfold ledger
  rw [hplace]
  exact .empty

theorem ledger_linear {ok : TcpClient → Action → Prop}
    (h : Reachable step ok .init s) : s.ledger.Linear := by
  have hrun : Reachable Ledger.step AnyStep TcpClient.init.ledger s.ledger := by
    apply h.project ledger
    intro u action t hu _ hs
    exact (ledger_run (P := False) (.of_reachable hu) hs nofun).mono
      fun _ _ _ => trivial
  exact ledger_init.of_reachable hrun

/-- Whatever the order of replies, timeouts, teardowns and refusals, a `Send`'s
callback is called once at most. -/
theorem callback_at_most_once (h : Reachable step AnyStep .init s) (call : Nat) :
    (s.history.invoked.map Prod.fst).count call ≤ 1 :=
  List.nodup_iff_count.mp (ledger_linear h).nodup call

def connecting : List Action :=
  [.user .makeSureConnected, .user .proceed, .user .proceed, .io .none,
    .io (.connected .kRetConnSuccess), .io .none]

def sending : List Action :=
  [.user (.send [] [] none true), .user .proceed, .user .proceed, .user .proceed]

def writing : List Action :=
  [.io .none, .io .none, .io (.selected true true), .io .none, .io .none,
    .io .none, .io .none, .io (.encoded true)] ++ List.replicate 8 (.io .none)

def replied : List Action :=
  [.io (.received (some (.sendResp { messageId := 1 })))] ++
    List.replicate 3 (.io .none)

theorem callback_at_most_once_replied :
    ∃ s : TcpClient, s.history.invoked = [(0, .kErrorCodeNone)] ∧
      (s.history.invoked.map Prod.fst).count 0 ≤ 1 := by
  have hrun : (run step init (connecting ++ sending ++ writing ++ replied)).map
      (·.history.invoked) = some [(0, .kErrorCodeNone)] := by
    decide +kernel
  obtain ⟨s, hreach, hinvoked⟩ := Reachable.of_run_map hrun
  exact ⟨s, hinvoked, callback_at_most_once hreach 0⟩

end TcpClient

end GoSocket.Client
