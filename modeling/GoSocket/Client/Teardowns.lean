import GoSocket.Client.Books
import GoSocket.Client.Requests

/-!
# The teardown of a session

`__WaitDisconnect` takes `_thread` away before it collects the timers, calls
the callbacks and makes the breakers anew, and takes no `_mutex` for it: the
next session can begin in between.  Where what that session writes does not
meet what the teardown has still to do, the teardown touches only its own
session.
-/

namespace GoSocket.Client

open Std GoSocket.Common GoSocket.Foundation

namespace CallbackPc

def sweeps? : CallbackPc → Option Nat
  | .lockTimers session => some session
  | .cancelTimers session _ => some session
  | _ => none

/-- `_shouldNewBreaker` is still to be checked. -/
def mayReCreate : CallbackPc → Bool
  | .clearThread _ => true
  | .lockTimers _ => true
  | .cancelTimers _ _ => true
  | .getLost _ _ => true
  | .callLost _ _ _ => true
  | .checkNewBreaker _ => true
  | _ => false

def mayReCreateConn : CallbackPc → Bool
  | .reCreate _ => true
  | .checkNewConnBreaker _ => true
  | callback => callback.mayReCreate

def reCreates : CallbackPc → Bool
  | .reCreate _ => true
  | .reCreateConn _ => true
  | _ => false

end CallbackPc

namespace TcpClient

def doomed (self : TcpClient) : List UInt16 :=
  match self.callback with
  | .lockTimers _ => self.timeoutAlarmMap.keys
  | .cancelTimers _ messageIds => messageIds ++ self.timeoutAlarmMap.keys
  | .getLost _ messageIds => messageIds
  | .callLost _ _ messageIds => messageIds
  | _ => []

def overlaps (self : TcpClient) : Bool :=
  self.callback.session?.any (· < self.history.sessions)

def meets (self : TcpClient) : Section → Bool
  | .connect => !self.thread && self.callback.reCreates
  | .register _ hasCallback _ =>
      hasCallback && self.overlaps && self.doomed.contains self.currentMsgId
  | .flagReadWrite => self.overlaps && self.callback.mayReCreate
  | .flagConnect => self.overlaps && self.callback.mayReCreateConn
  | _ => false

def recordsLate (self : TcpClient) : Bool :=
  match self.io, self.callback with
  | .recordAlarm _ _ _, .lockTimers _ => true
  | _, _ => false

/-- What a thread writes does not meet a teardown. -/
def SparesNext (self : TcpClient) (action : Action) : Prop :=
  (∀ holder ∈ action.thread?,
    self.mutex.all fun held => held.1 ≠ holder || !self.meets held.2) ∧
    (action.thread? = some .io → self.recordsLate = false)

instance (self : TcpClient) (action : Action) :
    Decidable (self.SparesNext action) :=
  inferInstanceAs (Decidable (_ ∧ _))

/-- The teardown of a session touches no request of a later one, and no breaker
once the next one has begun. -/
structure Spared (s : TcpClient) : Prop where
  canceled : ∀ entry ∈ s.history.canceled, ∀ session,
    (session, entry.2) ∈ s.history.accepted → session ≤ entry.1
  lost : ∀ entry ∈ s.history.lost, ∀ session,
    (session, entry.2) ∈ s.history.accepted → session ≤ entry.1
  recreated : ∀ entry ∈ s.history.recreated, entry.sessions ≤ entry.session

variable {s t : TcpClient} {action : Action}

theorem SparesNext.section {holder : Holder} {next : Section}
    (h : s.SparesNext action) (hthread : action.thread? = some holder)
    (hmutex : s.mutex = some (holder, next)) : s.meets next = false := by
  have hall := h.1 holder hthread
  simpa [hmutex] using hall

/-! ## Steps beside the teardown -/

/-- The step is not one of the queue's thread. -/
structure Aside (s t : TcpClient) : Prop where
  callback : t.callback = s.callback
  tornDown : t.history.tornDown = s.history.tornDown
  canceled : t.history.canceled = s.history.canceled
  lost : t.history.lost = s.history.lost
  recreated : t.history.recreated = s.history.recreated

namespace Aside

theorem proceed (s : TcpClient) (holder : Holder) (next : Section) :
    Aside s (s.proceed holder next) := by
  cases next with
  | connect =>
      simp only [TcpClient.proceed]
      split <;> exact ⟨rfl, rfl, rfl, rfl, rfl⟩
  | _ => exact ⟨rfl, rfl, rfl, rfl, rfl⟩

theorem userStep {call : UserCall} (hs : s.userStep call = some t) :
    Aside s t := by
  cases userStep_cases hs with
  | enterSend type payload data hasCallback hfree =>
      obtain ⟨mutex, calls, invoked, heq⟩ :=
        s.enterSend_eq type payload data hasCallback
      rw [heq]
      exact ⟨rfl, rfl, rfl, rfl, rfl⟩
  | enterPush message hfree =>
      obtain ⟨mutex, calls, heq⟩ := s.enterPush_eq message
      rw [heq]
      exact ⟨rfl, rfl, rfl, rfl, rfl⟩
  | inside next hcall hmutex => exact proceed s .user next
  | _ => exact ⟨rfl, rfl, rfl, rfl, rfl⟩

theorem ioStep {event : IoEvent} (hs : s.ioStep event = some t) : Aside s t := by
  cases ioStep_cases hs with
  | timer u io htimer =>
      obtain ⟨timers, map, pool, created, armed, rfl⟩ := htimer.eq
      exact ⟨rfl, rfl, rfl, rfl, rfl⟩
  | inside next hio hmutex => exact proceed s .io next
  | _ => exact ⟨rfl, rfl, rfl, rfl, rfl⟩

end Aside

/-! ## What a teardown meets -/

/-- What a teardown has still to do, it does to its own session. -/
structure Apart (s : TcpClient) : Prop where
  clearing : ∀ session, s.callback = .clearThread session →
    s.history.sessions = session
  timers : ∀ session, s.callback.sweeps? = some session →
    ∀ (messageId : UInt16) (timer : Timer),
      s.timeoutAlarmMap[messageId]? = some timer →
        ∃ session' ≤ session, (session', timer.call) ∈ s.history.accepted
  callbacks : ∀ session, s.callback.session? = some session →
    ∀ messageId ∈ s.doomed, ∀ call, s.callback? messageId = some call →
      ∃ session' ≤ session, (call, session') ∈ s.history.registered
  calling : ∀ session call messageIds,
    s.callback = .callLost session call messageIds →
      ∃ session' ≤ session, (call, session') ∈ s.history.registered
  newBreaker : s.overlaps = true → s.callback.mayReCreate = true →
    s.shouldNewBreaker = false
  newConnBreaker : s.overlaps = true → s.callback.mayReCreateConn = true →
    s.shouldNewConnBreaker = false
  reCreating : ∀ session, s.callback.session? = some session →
    s.callback.reCreates = true → s.history.sessions ≤ session

theorem overlaps_eq_true_iff (s : TcpClient) : s.overlaps = true ↔
    ∃ session, s.callback.session? = some session ∧
      session < s.history.sessions := by
  unfold overlaps
  cases s.callback.session? <;> simp

theorem sessions_le_of_not_overlaps (hnot : s.overlaps = false) {session : Nat}
    (hsession : s.callback.session? = some session) :
    s.history.sessions ≤ session := by
  by_contra hlt
  have hoverlaps := s.overlaps_eq_true_iff.mpr
    ⟨session, hsession, Nat.lt_of_not_le hlt⟩
  cases hnot.symm.trans hoverlaps

namespace Apart

theorem init : Apart .init := by
  constructor <;>
    simp [TcpClient.init, CallbackPc.session?, CallbackPc.sweeps?, overlaps]

private theorem idle (h : s.callback.session? = none) : Apart s := by
  have hpc (session : Nat) : s.callback.session? ≠ some session := by
    rw [h]
    simp
  have hsweeps (session : Nat) : s.callback.sweeps? ≠ some session := by
    intro hsweeps
    cases hcallback : s.callback <;>
      simp_all [CallbackPc.sweeps?, CallbackPc.session?]
  have hoverlaps : s.overlaps = false := by
    unfold overlaps
    rw [h]
    rfl
  constructor
  case clearing =>
    intro session hclear
    rw [hclear] at h
    cases h
  case timers => exact fun session hin => absurd hin (hsweeps session)
  case callbacks => exact fun session hin => absurd hin (hpc session)
  case calling =>
    intro session call messageIds hcall
    rw [hcall] at h
    cases h
  case newBreaker => exact fun htrue => absurd (hoverlaps.symm.trans htrue) (by simp)
  case newConnBreaker => exact fun htrue => absurd (hoverlaps.symm.trans htrue) (by simp)
  case reCreating => exact fun session hin => absurd hin (hpc session)

private theorem timer_aside (hspares : s.SparesNext action)
    (hcases : BookCases s action t) {session : Nat}
    (hsweeps : s.callback.sweeps? = some session) {messageId : UInt16}
    {timer : Timer} (htimer : t.timeoutAlarmMap[messageId]? = some timer) :
    s.timeoutAlarmMap[messageId]? = some timer := by
  rcases hcases.timer htimer with hold | ⟨hio, hfree, readable, written, alarm, hpc⟩
  · exact hold
  · have hlate := hspares.2 hio
    cases hcallback : s.callback <;>
      simp_all [CallbackPc.sweeps?, holdsTimers, recordsLate]

private theorem doomed_aside (hspares : s.SparesNext action)
    (hcases : BookCases s action t) (hcallback : t.callback = s.callback) :
    t.doomed ⊆ s.doomed := by
  have hkeys (session : Nat) (hsweeps : s.callback.sweeps? = some session) :
      t.timeoutAlarmMap.keys ⊆ s.timeoutAlarmMap.keys := by
    intro messageId hmem
    obtain ⟨timer, htimer⟩ := Option.isSome_iff_exists.mp
      (TreeMap.isSome_getElem?_iff_mem.mpr (TreeMap.mem_keys.mp hmem))
    have hold := timer_aside hspares hcases hsweeps htimer
    refine TreeMap.mem_keys.mpr (TreeMap.isSome_getElem?_iff_mem.mp ?_)
    rw [hold]
    rfl
  unfold doomed
  rw [hcallback]
  split
  · next session hpc => exact hkeys session (by rw [hpc]; rfl)
  · next session messageIds hpc =>
      have hsubset := hkeys session (by rw [hpc]; rfl)
      intro messageId hmem
      rcases List.mem_append.mp hmem with hmem | hmem
      · exact List.mem_append_left _ hmem
      · exact List.mem_append_right _ (hsubset hmem)
  all_goals exact List.Subset.refl _

theorem aside (h : Apart s) (hthreads : Threads s) (hspares : s.SparesNext action)
    (hcases : BookCases s action t) (hcallback : t.callback = s.callback) :
    Apart t := by
  constructor
  case clearing =>
    intro session hclear
    rw [hcallback] at hclear
    rcases hcases.sessions with hsame | ⟨-, hnull, -⟩
    · rw [hsame]
      exact h.clearing session hclear
    · cases hnull.symm.trans (hthreads.joined session hclear).1
  case timers =>
    intro session hsweeps messageId timer htimer
    rw [hcallback] at hsweeps
    obtain ⟨session', hle, haccepted⟩ := h.timers session hsweeps messageId timer
      (timer_aside hspares hcases hsweeps htimer)
    exact ⟨session', hle, hcases.accepted haccepted⟩
  case callbacks =>
    intro session hsession messageId hmem call hsome
    rw [hcallback] at hsession
    have hdoomed := doomed_aside hspares hcases hcallback hmem
    rcases hcases.callback hsome with
      hold | ⟨rfl, hregistered, holder, sendReq, hthread, hmutex⟩
    · obtain ⟨session', hle, hregistered⟩ :=
        h.callbacks session hsession messageId hdoomed call hold
      exact ⟨session', hle, hcases.registered hregistered⟩
    · have hmeets := hspares.section hthread hmutex
      have hnot : s.overlaps = false := by simpa [meets, hdoomed] using hmeets
      exact ⟨_, sessions_le_of_not_overlaps hnot hsession, hregistered⟩
  case calling =>
    intro session call messageIds hcall
    rw [hcallback] at hcall
    obtain ⟨session', hle, hregistered⟩ := h.calling session call messageIds hcall
    exact ⟨session', hle, hcases.registered hregistered⟩
  case newBreaker =>
    intro hoverlaps hmay
    rw [hcallback] at hmay
    by_contra hflag
    rw [Bool.not_eq_false] at hflag
    rcases hcases.sessions with hsame | ⟨-, -, hclear, -⟩
    · have hbefore : s.overlaps = true := by
        unfold overlaps at hoverlaps ⊢
        rwa [hcallback, hsame] at hoverlaps
      rcases hcases.newBreaker hflag with hset | ⟨holder, hthread, hmutex⟩
      · cases (h.newBreaker hbefore hmay).symm.trans hset
      · simpa [meets, hbefore, hmay] using hspares.section hthread hmutex
    · cases hclear.symm.trans hflag
  case newConnBreaker =>
    intro hoverlaps hmay
    rw [hcallback] at hmay
    by_contra hflag
    rw [Bool.not_eq_false] at hflag
    rcases hcases.sessions with hsame | ⟨-, -, -, hclear, -⟩
    · have hbefore : s.overlaps = true := by
        unfold overlaps at hoverlaps ⊢
        rwa [hcallback, hsame] at hoverlaps
      rcases hcases.newConnBreaker hflag with hset | ⟨holder, hthread, hmutex⟩
      · cases (h.newConnBreaker hbefore hmay).symm.trans hset
      · simpa [meets, hbefore, hmay] using hspares.section hthread hmutex
    · cases hclear.symm.trans hflag
  case reCreating =>
    intro session hsession hreCreates
    rw [hcallback] at hsession hreCreates
    rcases hcases.sessions with hsame | ⟨-, hnull, -, -, holder, hthread, hmutex⟩
    · rw [hsame]
      exact h.reCreating session hsession hreCreates
    · simpa [meets, hnull, hreCreates] using hspares.section hthread hmutex

/-! ### Steps of the teardown -/

private theorem onward (h : Apart s)
    (haccepted : t.history.accepted = s.history.accepted)
    (hregistered : t.history.registered = s.history.registered)
    (hsessions : t.history.sessions = s.history.sessions)
    (hnew : t.shouldNewBreaker = s.shouldNewBreaker)
    (hnewConn : t.shouldNewConnBreaker = s.shouldNewConnBreaker)
    (htimers : ∀ (messageId : UInt16) (timer : Timer),
      t.timeoutAlarmMap[messageId]? = some timer →
        s.timeoutAlarmMap[messageId]? = some timer)
    (hcallbacks : ∀ messageId call, t.callback? messageId = some call →
      s.callback? messageId = some call)
    (hclear : ∀ session, t.callback ≠ .clearThread session)
    (hsession : ∀ session, t.callback.session? = some session →
      s.callback.session? = some session)
    (hsweeps : ∀ session, t.callback.sweeps? = some session →
      s.callback.sweeps? = some session)
    (hdoomed : t.doomed ⊆ s.doomed)
    (hmay : t.callback.mayReCreate = true → s.callback.mayReCreate = true)
    (hmayConn : t.callback.mayReCreateConn = true →
      s.callback.mayReCreateConn = true)
    (hcalling : ∀ session call messageIds,
      t.callback = .callLost session call messageIds →
        ∃ session' ≤ session, (call, session') ∈ s.history.registered)
    (hreCreating : ∀ session, t.callback.session? = some session →
      t.callback.reCreates = true → s.history.sessions ≤ session) : Apart t := by
  have hoverlaps (ht : t.overlaps = true) : s.overlaps = true := by
    obtain ⟨session, hin, hlt⟩ := t.overlaps_eq_true_iff.mp ht
    rw [hsessions] at hlt
    exact s.overlaps_eq_true_iff.mpr ⟨session, hsession session hin, hlt⟩
  constructor
  case clearing => exact fun session hcallback => absurd hcallback (hclear session)
  case timers =>
    rw [haccepted]
    exact fun session hin messageId timer htimer =>
      h.timers session (hsweeps session hin) messageId timer
        (htimers messageId timer htimer)
  case callbacks =>
    rw [hregistered]
    exact fun session hin messageId hmem call hsome =>
      h.callbacks session (hsession session hin) messageId (hdoomed hmem) call
        (hcallbacks messageId call hsome)
  case calling =>
    rw [hregistered]
    exact hcalling
  case newBreaker =>
    rw [hnew]
    exact fun ht hin => h.newBreaker (hoverlaps ht) (hmay hin)
  case newConnBreaker =>
    rw [hnewConn]
    exact fun ht hin => h.newConnBreaker (hoverlaps ht) (hmayConn hin)
  case reCreating =>
    rw [hsessions]
    exact hreCreating

private theorem join (s : TcpClient) :
    Apart { s with callback := .clearThread s.history.sessions } := by
  have hnot : overlaps { s with callback := .clearThread s.history.sessions } =
      false := by
    simp [overlaps, CallbackPc.session?]
  constructor
  case clearing =>
    rintro _ ⟨⟩
    rfl
  case timers => rintro _ ⟨⟩
  case callbacks => exact fun _ _ _ hmem => absurd hmem List.not_mem_nil
  case calling => simp
  case newBreaker => exact fun htrue => absurd (hnot.symm.trans htrue) (by simp)
  case newConnBreaker => exact fun htrue => absurd (hnot.symm.trans htrue) (by simp)
  case reCreating => rintro _ - ⟨⟩

private theorem clearThread (h : Apart s) (hbooks : Books s)
    (hsound : s.outbox.Sound) {session : Nat}
    (hcallback : s.callback = .clearThread session) :
    Apart { s with thread := false, callback := .lockTimers session } := by
  obtain rfl := h.clearing session hcallback
  have hnot : overlaps
      { s with thread := false, callback := .lockTimers s.history.sessions } =
        false := by
    simp [overlaps, CallbackPc.session?]
  constructor
  case clearing => simp
  case timers =>
    rintro _ ⟨⟩ messageId timer htimer
    obtain ⟨session, haccepted⟩ := hbooks.timers messageId timer htimer
    exact ⟨session, hsound.accepted_le _ haccepted, haccepted⟩
  case callbacks =>
    rintro _ ⟨⟩ messageId - call hsome
    obtain ⟨session, hregistered⟩ := hbooks.callbacks messageId call hsome
    exact ⟨session, hbooks.le_sessions _ hregistered, hregistered⟩
  case calling => simp
  case newBreaker => exact fun htrue => absurd (hnot.symm.trans htrue) (by simp)
  case newConnBreaker => exact fun htrue => absurd (hnot.symm.trans htrue) (by simp)
  case reCreating => rintro _ - ⟨⟩

private theorem move (h : Apart s) {callback : CallbackPc}
    (hmove : QueueMove s callback) : Apart { s with callback } := by
  cases hmove with
  | join hcallback hio => exact join s
  | lockTimers session hcallback =>
      refine h.onward rfl rfl rfl rfl rfl (fun _ _ htimer => htimer)
        (fun _ _ hsome => hsome) ?_ ?_ ?_ ?_ ?_ ?_ ?_ ?_
      all_goals simp [hcallback, CallbackPc.session?, CallbackPc.sweeps?, doomed,
        CallbackPc.mayReCreate, CallbackPc.mayReCreateConn, CallbackPc.reCreates]
  | getLost session messageIds hcallback hnone =>
      refine h.onward rfl rfl rfl rfl rfl (fun _ _ htimer => htimer)
        (fun _ _ hsome => hsome) ?_ ?_ ?_ ?_ ?_ ?_ ?_ ?_
      all_goals simp [hcallback, CallbackPc.session?, CallbackPc.sweeps?, doomed,
        CallbackPc.mayReCreate, CallbackPc.mayReCreateConn, CallbackPc.reCreates]
  | noMoreLost session hcallback =>
      refine h.onward rfl rfl rfl rfl rfl (fun _ _ htimer => htimer)
        (fun _ _ hsome => hsome) ?_ ?_ ?_ ?_ ?_ ?_ ?_ ?_
      all_goals simp [hcallback, CallbackPc.session?, CallbackPc.sweeps?, doomed,
        CallbackPc.mayReCreate, CallbackPc.mayReCreateConn, CallbackPc.reCreates]
  | checkNewBreaker session hcallback hflag =>
      refine h.onward rfl rfl rfl rfl rfl (fun _ _ htimer => htimer)
        (fun _ _ hsome => hsome) ?_ ?_ ?_ ?_ ?_ ?_ ?_ ?reCreating
      case reCreating =>
        rintro _ ⟨⟩ -
        refine sessions_le_of_not_overlaps ?_ (by rw [hcallback]; rfl)
        by_contra hoverlaps
        rw [Bool.not_eq_false] at hoverlaps
        have hclear := h.newBreaker hoverlaps (by rw [hcallback]; rfl)
        cases hclear.symm.trans hflag
      all_goals simp [hcallback, CallbackPc.session?, CallbackPc.sweeps?, doomed,
        CallbackPc.mayReCreate, CallbackPc.mayReCreateConn]
  | skipNewBreaker session hcallback =>
      refine h.onward rfl rfl rfl rfl rfl (fun _ _ htimer => htimer)
        (fun _ _ hsome => hsome) ?_ ?_ ?_ ?_ ?_ ?_ ?_ ?_
      all_goals simp [hcallback, CallbackPc.session?, CallbackPc.sweeps?, doomed,
        CallbackPc.mayReCreate, CallbackPc.mayReCreateConn, CallbackPc.reCreates]
  | checkNewConnBreaker session hcallback hflag =>
      refine h.onward rfl rfl rfl rfl rfl (fun _ _ htimer => htimer)
        (fun _ _ hsome => hsome) ?_ ?_ ?_ ?_ ?_ ?_ ?_ ?reCreating
      case reCreating =>
        rintro _ ⟨⟩ -
        refine sessions_le_of_not_overlaps ?_ (by rw [hcallback]; rfl)
        by_contra hoverlaps
        rw [Bool.not_eq_false] at hoverlaps
        have hclear := h.newConnBreaker hoverlaps (by rw [hcallback]; rfl)
        cases hclear.symm.trans hflag
      all_goals simp [hcallback, CallbackPc.session?, CallbackPc.sweeps?, doomed,
        CallbackPc.mayReCreate, CallbackPc.mayReCreateConn]
  | _ => exact idle rfl

private theorem cancelTimer (h : Apart s) {session : Nat}
    {messageIds : List UInt16} {messageId : UInt16} {rest : List UInt16}
    (hcallback : s.callback = .cancelTimers session messageIds)
    (hkeys : s.timeoutAlarmMap.keys = messageId :: rest) :
    Apart { (s.loseTimer session messageId).cancelTimer messageId with
      callback := .cancelTimers session (messageIds ++ [messageId]) } := by
  have hmap := (s.loseTimer session messageId).timer_cancelTimer messageId
  obtain ⟨canceled, hlose⟩ := s.loseTimer_eq session messageId
  obtain ⟨timers, map, pool, heq⟩ :=
    (s.loseTimer session messageId).cancelTimer_eq messageId
  rw [heq, hlose] at hmap
  rw [heq, hlose]
  have hsome {messageId' : UInt16} {timer : Timer}
      (htimer : map[messageId']? = some timer) :
      s.timeoutAlarmMap[messageId']? = some timer := by
    rw [show map[messageId']? = _ from hmap messageId'] at htimer
    split at htimer
    · cases htimer
    · exact htimer
  refine h.onward rfl rfl rfl rfl rfl (fun _ _ htimer => hsome htimer)
    (fun _ _ hsome => hsome) (by simp) ?_ ?_ ?_ ?_ ?_ (by simp) (by rintro _ - ⟨⟩)
  · simp [hcallback, CallbackPc.session?]
  · simp [hcallback, CallbackPc.sweeps?]
  · intro messageId' hmem
    simp only [doomed, hcallback, List.append_assoc, List.mem_append] at hmem ⊢
    rcases hmem with hmem | hmem | hmem
    · exact .inl hmem
    · obtain rfl := List.mem_singleton.mp hmem
      exact .inr (by rw [hkeys]; exact List.mem_cons_self)
    · obtain ⟨timer, htimer⟩ := Option.isSome_iff_exists.mp
        (TreeMap.isSome_getElem?_iff_mem.mpr (TreeMap.mem_keys.mp hmem))
      refine .inr (TreeMap.mem_keys.mpr (TreeMap.isSome_getElem?_iff_mem.mp ?_))
      rw [hsome htimer]
      rfl
  · simp [hcallback, CallbackPc.mayReCreate]
  · simp [hcallback, CallbackPc.mayReCreateConn, CallbackPc.mayReCreate]

private theorem takeLost (h : Apart s) {session call : Nat} {messageId : UInt16}
    {messageIds : List UInt16}
    (hcallback : s.callback = .getLost session (messageId :: messageIds))
    (hsome : s.callback? messageId = some call) :
    Apart { s.dropCallback messageId with
      callback := .callLost session call messageIds } := by
  refine h.onward rfl rfl rfl rfl rfl (fun _ _ htimer => htimer) ?_ (by simp)
    ?_ (by rintro _ ⟨⟩) ?_ ?_ ?_ ?_ (by rintro _ - ⟨⟩)
  · intro messageId' call' hsome'
    have hdrop := s.callback?_dropCallback messageId messageId'
    rw [show s.callback? messageId' = _ from rfl]
    split at hdrop
    · cases hdrop.symm.trans hsome'
    · exact hdrop.symm.trans hsome'
  · simp [hcallback, CallbackPc.session?]
  · simp [hcallback, doomed]
  · simp [hcallback, CallbackPc.mayReCreate]
  · simp [hcallback, CallbackPc.mayReCreateConn, CallbackPc.mayReCreate]
  · rintro _ _ _ ⟨⟩
    refine h.callbacks session (by rw [hcallback]; rfl) messageId ?_ call hsome
    simp [doomed, hcallback]

private theorem queueStep (h : Apart s) (hbooks : Books s)
    (hsound : s.outbox.Sound) (hs : s.queueStep = some t)
    (haside : t.callback = s.callback → Apart t) : Apart t := by
  cases queueStep_cases hs with
  | move callback hmove => exact h.move hmove
  | loop timers hcallback hstep =>
      refine idle ?_
      rcases innerCallback_cases timers with hinner | hinner | hinner | hinner |
        ⟨_, _, hinner⟩
      all_goals simp [hinner, CallbackPc.session?]
  | timer u callback htimer =>
      cases htimer with
      | eraseTimer messageId start hcallback => exact idle rfl
      | cancelTimer session messageIds messageId rest hcallback hkeys =>
          exact h.cancelTimer hcallback hkeys
  | clearThread session hcallback => exact h.clearThread hbooks hsound hcallback
  | takeLost session call messageId messageIds hcallback hsome =>
      exact h.takeLost hcallback hsome
  | callLost session call messageIds hcallback =>
      refine h.onward rfl rfl rfl rfl rfl (fun _ _ htimer => htimer)
        (fun _ _ hsome => hsome) ?_ ?_ ?_ ?_ ?_ ?_ ?_ ?_
      all_goals simp [hcallback, CallbackPc.session?, CallbackPc.sweeps?, doomed,
        CallbackPc.mayReCreate, CallbackPc.mayReCreateConn, CallbackPc.reCreates]
  | reCreate session hcallback =>
      refine h.onward rfl rfl rfl rfl rfl (fun _ _ htimer => htimer)
        (fun _ _ hsome => hsome) ?_ ?_ ?_ ?_ ?_ ?_ ?_ ?_
      all_goals simp [hcallback, CallbackPc.session?, CallbackPc.sweeps?, doomed,
        CallbackPc.mayReCreate, CallbackPc.mayReCreateConn, CallbackPc.reCreates]
  | checkReconnect hcallback =>
      refine idle ?_
      dsimp only
      split <;> rfl
  | enterDisconnect hcallback hfree =>
      refine idle ?_
      dsimp only
      split <;> rfl
  | inside next hcallback hmutex => exact haside (Aside.proceed s .queue next).callback
  | _ => exact idle rfl

theorem step (h : Apart s) (hthreads : Threads s) (hbooks : Books s)
    (hsound : s.outbox.Sound) (hspares : s.SparesNext action)
    (hs : s.step action = some t) : Apart t := by
  have hcases := BookCases.of_step hs
  cases action with
  | user call => exact h.aside hthreads hspares hcases (Aside.userStep hs).callback
  | io event => exact h.aside hthreads hspares hcases (Aside.ioStep hs).callback
  | queue => exact h.queueStep hbooks hsound hs (h.aside hthreads hspares hcases)
  | tick nanoseconds =>
      cases hs
      exact h.aside hthreads hspares hcases rfl
  | pipes ok =>
      cases hs
      exact h.aside hthreads hspares hcases rfl

theorem of_reachable (h : Reachable TcpClient.step SparesNext .init s) : Apart s :=
  h.invariant init fun _ _ _ hu hapart hspares hs =>
    hapart.step (.of_reachable hu) (.of_reachable hu) (outbox_sound hu) hspares hs

end Apart

/-! ## What the teardowns have done -/

/-- What a teardown has touched is of its session or of an earlier one. -/
structure Records (s : TcpClient) : Prop where
  canceled : ∀ entry ∈ s.history.canceled,
    ∃ session ≤ entry.1, (session, entry.2) ∈ s.history.accepted
  lost : ∀ entry ∈ s.history.lost,
    ∃ session ≤ entry.1, (entry.2, session) ∈ s.history.registered
  recreated : ∀ entry ∈ s.history.recreated, entry.sessions ≤ entry.session

namespace Records

theorem init : Records .init := by
  constructor <;> simp [TcpClient.init]

private theorem of_lists (h : Records s) (hcases : BookCases s action t)
    (hcanceled : ∀ entry ∈ t.history.canceled, entry ∈ s.history.canceled ∨
      ∃ session ≤ entry.1, (session, entry.2) ∈ s.history.accepted)
    (hlost : ∀ entry ∈ t.history.lost, entry ∈ s.history.lost ∨
      ∃ session ≤ entry.1, (entry.2, session) ∈ s.history.registered)
    (hrecreated : ∀ entry ∈ t.history.recreated,
      entry ∈ s.history.recreated ∨ entry.sessions ≤ entry.session) : Records t := by
  constructor
  case canceled =>
    intro entry hentry
    have hbefore := (hcanceled entry hentry).elim (h.canceled entry) id
    obtain ⟨session, hle, haccepted⟩ := hbefore
    exact ⟨session, hle, hcases.accepted haccepted⟩
  case lost =>
    intro entry hentry
    have hbefore := (hlost entry hentry).elim (h.lost entry) id
    obtain ⟨session, hle, hregistered⟩ := hbefore
    exact ⟨session, hle, hcases.registered hregistered⟩
  case recreated =>
    exact fun entry hentry => (hrecreated entry hentry).elim (h.recreated entry) id

private theorem same (h : Records s) (hcases : BookCases s action t)
    (hcanceled : t.history.canceled = s.history.canceled)
    (hlost : t.history.lost = s.history.lost)
    (hrecreated : t.history.recreated = s.history.recreated) : Records t := by
  refine h.of_lists hcases ?_ ?_ ?_
  · rw [hcanceled]
    exact fun _ => .inl
  · rw [hlost]
    exact fun _ => .inl
  · rw [hrecreated]
    exact fun _ => .inl

private theorem cancelTimer (h : Records s) (hapart : Apart s) {session : Nat}
    {messageIds : List UInt16} {messageId : UInt16}
    (hcallback : s.callback = .cancelTimers session messageIds)
    {callback : CallbackPc}
    (hcases : BookCases s action
      { (s.loseTimer session messageId).cancelTimer messageId with callback }) :
    Records
      { (s.loseTimer session messageId).cancelTimer messageId with callback } := by
  obtain ⟨timers, map, pool, heq⟩ :=
    (s.loseTimer session messageId).cancelTimer_eq messageId
  rw [heq] at hcases ⊢
  unfold loseTimer at hcases ⊢
  split at hcases
  · next timer htimer =>
      refine h.of_lists hcases ?_ (fun _ => .inl) (fun _ => .inl)
      intro entry hentry
      rcases List.mem_cons.mp hentry with rfl | hentry
      · exact .inr (hapart.timers session (by rw [hcallback]; rfl) messageId
          timer htimer)
      · exact .inl hentry
  · exact h.same hcases rfl rfl rfl

private theorem queueStep (h : Records s) (hapart : Apart s)
    (hs : s.queueStep = some t) : Records t := by
  have hcases : BookCases s .queue t := .of_step hs
  cases queueStep_cases hs with
  | timer u callback htimer =>
      cases htimer with
      | eraseTimer messageId start hcallback =>
          obtain ⟨map, pool, heq⟩ := s.release_eq messageId
          rw [heq] at hcases ⊢
          exact h.same hcases rfl rfl rfl
      | cancelTimer session messageIds messageId rest hcallback hkeys =>
          exact h.cancelTimer hapart hcallback hcases
  | callLost session call messageIds hcallback =>
      refine h.of_lists hcases (fun _ => .inl) ?_ (fun _ => .inl)
      intro entry hentry
      rcases List.mem_cons.mp hentry with rfl | hentry
      · exact .inr (hapart.calling session call messageIds hcallback)
      · exact .inl hentry
  | reCreate session hcallback =>
      refine h.of_lists hcases (fun _ => .inl) (fun _ => .inl) ?_
      intro entry hentry
      rcases List.mem_cons.mp hentry with rfl | hentry
      · exact .inr (hapart.reCreating session (by rw [hcallback]; rfl)
          (by rw [hcallback]; rfl))
      · exact .inl hentry
  | reCreateConn session hcallback =>
      refine h.of_lists hcases (fun _ => .inl) (fun _ => .inl) ?_
      intro entry hentry
      rcases List.mem_cons.mp hentry with rfl | hentry
      · exact .inr (hapart.reCreating session (by rw [hcallback]; rfl)
          (by rw [hcallback]; rfl))
      · exact .inl hentry
  | inside next hcallback hmutex =>
      have haside := Aside.proceed s .queue next
      exact h.same hcases haside.canceled haside.lost haside.recreated
  | _ => exact h.same hcases rfl rfl rfl

theorem step (h : Records s) (hapart : Apart s) (hs : s.step action = some t) :
    Records t := by
  have hcases := BookCases.of_step hs
  cases action with
  | user call =>
      have haside := Aside.userStep hs
      exact h.same hcases haside.canceled haside.lost haside.recreated
  | io event =>
      have haside := Aside.ioStep hs
      exact h.same hcases haside.canceled haside.lost haside.recreated
  | queue => exact h.queueStep hapart hs
  | tick nanoseconds =>
      cases hs
      exact h.same hcases rfl rfl rfl
  | pipes ok =>
      cases hs
      exact h.same hcases rfl rfl rfl

theorem of_reachable (h : Reachable TcpClient.step SparesNext .init s) :
    Records s :=
  h.invariant init fun _ _ _ hu hrecords _ hs =>
    hrecords.step (.of_reachable hu) hs

theorem spared (h : Records s) (hbooks : Books s) (hsound : s.outbox.Sound) :
    s.Spared := by
  constructor
  case canceled =>
    intro entry hentry session haccepted
    obtain ⟨session', hle, haccepted'⟩ := h.canceled entry hentry
    cases List.inj_on_of_nodup_map hsound.unique haccepted haccepted' rfl
    exact hle
  case lost =>
    intro entry hentry session haccepted
    obtain ⟨session', hle, hregistered⟩ := h.lost entry hentry
    rw [hbooks.once entry.2 session' session hregistered haccepted]
    exact hle
  case recreated => exact h.recreated

end Records

/-- The teardown of a session never touches the next one, where what the
threads write does not meet it. -/
theorem teardown_spares (h : Reachable step SparesNext .init s) : s.Spared :=
  (Records.of_reachable h).spared (.of_reachable h) (outbox_sound h)

def disconnecting : List Action :=
  .user (.disconnectAsync .kDisCodeNetChange true) ::
    List.replicate 4 (.user .proceed)

def writingOnly : List Action :=
  [.io .none, .io .none, .io (.selected false true), .io .none, .io .none,
    .io .none, .io .none, .io (.encoded true)] ++ List.replicate 10 (.io .none)

/-- The next session begins while the teardown waits for the lock. -/
theorem teardown_spares_overlapping :
    ∃ s : TcpClient, s.history.canceled = [(1, 0)] ∧
      s.history.lost = [(1, 0)] ∧ s.history.accepted = [(2, 1), (1, 0)] ∧
      s.Spared := by
  let actions := connecting ++ sending ++ writingOnly ++ disconnecting ++
    ending ++ joining ++ connecting ++ List.replicate 7 .queue ++ sending
  have hmap : (run step init actions).map (fun s =>
      (s.history.canceled, s.history.lost, s.history.accepted)) =
        some ([(1, 0)], [(1, 0)], [(2, 1), (1, 0)]) := by
    decide +kernel
  obtain ⟨s, hrun, hstate⟩ := Option.map_eq_some_iff.mp hmap
  simp only [Prod.mk.injEq] at hstate
  have hreach : Reachable step SparesNext init s :=
    .of_meets (by decide +kernel) hrun
  exact ⟨s, hstate.1, hstate.2.1, hstate.2.2, teardown_spares hreach⟩

def overtaken : List Action :=
  connecting ++ disconnecting ++ ending ++ joining ++ connecting ++ sending ++
    writing ++ List.replicate 5 .queue

theorem overtaken_touched :
    ¬ ∀ s : TcpClient, Reachable step AnyStep init s → s.Spared := by
  intro hall
  have hmap : (run step init overtaken).map (fun s =>
      (s.history.canceled, s.history.lost, s.history.accepted)) =
        some ([(1, 0)], [(1, 0)], [(2, 0)]) := by
    decide +kernel
  obtain ⟨s, hreach, hstate⟩ := Reachable.of_run_map hmap
  simp only [Prod.mk.injEq] at hstate
  have hle := (hall s hreach).lost (1, 0) (by simp [hstate]) 2 (by simp [hstate])
  omega

end TcpClient

end GoSocket.Client
