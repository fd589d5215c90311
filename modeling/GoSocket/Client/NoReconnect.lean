import GoSocket.Client.Requests

/-!
# A client that is not to reconnect

A kick-out, and the user who logs out, clear `_shouldReconnect`.  Every other
`DisconnectAsync` sets it anew, also the one of a request's timeout, and the
reconnect alarm's callback can read it between the check of `_thread` and the
write.  Where neither happens, no session begins before the user wants one.
-/

namespace GoSocket.Client

open GoSocket.Common GoSocket.Foundation

/-- `DisconnectAsync` with `shouldReconnect` true. -/
def Section.asks : Section → Bool
  | .disconnect _ shouldReconnect => shouldReconnect
  | .setShouldReconnect shouldReconnect => shouldReconnect
  | _ => false

/-- The callback is on its way into `MakeSureConnected`, or in it. -/
def CallbackPc.inConnect : CallbackPc → Bool
  | .makeSureConnected => true
  | .connecting => true
  | _ => false

namespace TcpClient

/-- `DisconnectAsync(_, false)` has checked `_thread` and not yet written. -/
def Forgetting (self : TcpClient) : Prop :=
  ∃ holder next, self.mutex = some (holder, next) ∧ next.forgets = true

instance (self : TcpClient) : Decidable self.Forgetting :=
  match hmutex : self.mutex with
  | none => .isFalse fun ⟨_, _, hnext, _⟩ => by cases hmutex.symm.trans hnext
  | some (holder, next) =>
      decidable_of_iff (next.forgets = true)
        ⟨fun h => ⟨holder, next, hmutex, h⟩,
          fun ⟨_, _, hnext, h⟩ => by cases hmutex.symm.trans hnext; exact h⟩

/-- No request's timeout disconnects a client that is not to reconnect, and the
reconnect alarm's callback does not read what is about to be cleared. -/
def KeepsMark (self : TcpClient) : Action → Prop
  | .queue =>
      (self.history.marked = true → self.callback ≠ .disconnectAsync) ∧
        (self.callback = .checkReconnect → self.thread = false →
          self.shouldReconnect = true → ¬ self.Forgetting)
  | _ => True

instance (self : TcpClient) :
    (action : Action) → Decidable (self.KeepsMark action)
  | .queue => inferInstanceAs (Decidable (_ ∧ _))
  | .user _ => inferInstanceAs (Decidable True)
  | .io _ => inferInstanceAs (Decidable True)
  | .tick _ => inferInstanceAs (Decidable True)
  | .pipes _ => inferInstanceAs (Decidable True)

/-- What the reconnect alarm sees, and what a session begins with. -/
structure Obeyed (s : TcpClient) : Prop where
  reads : ∀ entry ∈ s.history.reads, entry.1 = true → entry.2 = false
  begun : ∀ marked ∈ s.history.begun, marked = false

variable {s t : TcpClient}

structure Marks (s : TcpClient) : Prop where
  obeyed : s.Obeyed
  cleared : s.history.marked = true → s.shouldReconnect = false
  asking : ∀ holder next, s.mutex = some (holder, next) → next.asks = true →
    s.history.marked = false
  connecting : ∀ holder, s.mutex = some (holder, .connect) →
    s.history.marked = false ∨ holder = .queue ∧ s.callback = .connecting
  forgetting : s.Forgetting → s.callback.inConnect = true → s.thread = true
  marked : s.history.marked = true → s.callback.inConnect = true →
    s.thread = true

namespace Marks

theorem init : Marks .init := by
  constructor
  case obeyed => constructor <;> simp [TcpClient.init]
  all_goals simp [TcpClient.init, Forgetting]

private theorem same (h : Marks s) (hobeyed : t.Obeyed)
    (hmarked : t.history.marked = s.history.marked)
    (hshould : t.shouldReconnect = true → s.shouldReconnect = true)
    (hmutex : t.mutex = s.mutex) (hthread : t.thread = s.thread)
    (hcallback : t.callback = s.callback) : Marks t := by
  have hforgetting : t.Forgetting ↔ s.Forgetting := by
    unfold Forgetting
    rw [hmutex]
  constructor
  case obeyed => exact hobeyed
  case cleared =>
    rw [hmarked]
    intro hold
    by_contra hset
    rw [Bool.not_eq_false] at hset
    cases (h.cleared hold).symm.trans (hshould hset)
  case asking =>
    rw [hmarked, hmutex]
    exact h.asking
  case connecting =>
    rw [hmarked, hmutex, hcallback]
    exact h.connecting
  case forgetting =>
    rw [hforgetting, hcallback, hthread]
    exact h.forgetting
  case marked =>
    rw [hmarked, hcallback, hthread]
    exact h.marked

private theorem queue (h : Marks s) (hobeyed : t.Obeyed)
    (hmarked : t.history.marked = s.history.marked)
    (hshould : t.shouldReconnect = s.shouldReconnect)
    (hmutex : t.mutex = s.mutex) (hcallback : t.callback.inConnect = false)
    (hleave : s.callback = .connecting → s.mutex ≠ some (.queue, .connect)) :
    Marks t := by
  refine ⟨hobeyed, ?_, ?_, ?_, ?_, ?_⟩
  · rw [hmarked, hshould]
    exact h.cleared
  · rw [hmarked, hmutex]
    exact h.asking
  · rw [hmarked, hmutex]
    intro holder hconnect
    rcases h.connecting holder hconnect with hnot | ⟨rfl, hin⟩
    · exact .inl hnot
    · exact absurd hconnect (hleave hin)
  · exact fun _ hin => absurd hin (by simp [hcallback])
  · exact fun _ hin => absurd hin (by simp [hcallback])

private theorem not_forgetting (hmutex : ∀ holder next,
    t.mutex = some (holder, next) → next.forgets = false) : ¬ t.Forgetting := by
  rintro ⟨holder, next, hnext, hforgets⟩
  cases (hmutex holder next hnext).symm.trans hforgets

private theorem enter (h : Marks s) (hobeyed : t.Obeyed)
    (hmarked : t.history.marked = s.history.marked)
    (hshould : t.shouldReconnect = s.shouldReconnect)
    (hthread : t.thread = s.thread) (hcallback : t.callback = s.callback)
    (hmutex : ∀ holder next, t.mutex = some (holder, next) →
      next.forgets = false ∧ next.asks = false ∧ next ≠ .connect) : Marks t := by
  refine ⟨hobeyed, ?_, ?_, ?_, ?_, ?_⟩
  · rw [hmarked, hshould]
    exact h.cleared
  · intro holder next hnext hasks
    cases (hmutex holder next hnext).2.1.symm.trans hasks
  · exact fun holder hconnect => absurd rfl (hmutex holder _ hconnect).2.2
  · exact fun hforgetting => absurd hforgetting
      (not_forgetting fun holder next hnext => (hmutex holder next hnext).1)
  · rw [hmarked, hcallback, hthread]
    exact h.marked

private theorem userConnect (h : Marks s) : Marks (s.enterConnect .user) := by
  have hunmarked : (s.enterConnect .user).history.marked = false := by
    simp [TcpClient.enterConnect]
  refine ⟨⟨h.obeyed.reads, h.obeyed.begun⟩, ?_, fun _ _ _ _ => hunmarked,
    fun _ _ => .inl hunmarked, ?_, ?_⟩
  · exact fun hmarked => absurd hmarked (by simp [hunmarked])
  · refine fun hforgetting => absurd hforgetting (not_forgetting ?_)
    unfold TcpClient.enterConnect
    intro holder next hnext
    split at hnext <;> cases hnext
    rfl
  · exact fun hmarked => absurd hmarked (by simp [hunmarked])

private theorem queueConnect (h : Marks s)
    (hcallback : s.callback = .makeSureConnected) :
    Marks { s.enterConnect .queue with callback := .connecting } := by
  have hmarked : (s.enterConnect .queue).history.marked = s.history.marked := by
    simp [TcpClient.enterConnect]
  refine ⟨⟨h.obeyed.reads, h.obeyed.begun⟩, ?_, ?_, ?_, ?_, ?_⟩
  · rw [show _ = _ from hmarked]
    exact h.cleared
  · unfold TcpClient.enterConnect
    intro holder next hnext hasks
    split at hnext <;> cases hnext
    cases hasks
  · unfold TcpClient.enterConnect
    intro holder hnext
    split at hnext <;> cases hnext
    exact .inr ⟨rfl, rfl⟩
  · refine fun hforgetting => absurd hforgetting (not_forgetting ?_)
    unfold TcpClient.enterConnect
    intro holder next hnext
    split at hnext <;> cases hnext
    rfl
  · intro hold _
    exact h.marked (hmarked.symm.trans hold) (by rw [hcallback]; rfl)

private theorem enterDisconnect (h : Marks s) {holder : Holder}
    (code : DisconnectCode) {shouldReconnect : Bool}
    (hasks : shouldReconnect = true → holder = .user ∨ s.history.marked = false) :
    Marks (s.enterDisconnect holder code shouldReconnect) := by
  have hmarked : (s.enterDisconnect holder code shouldReconnect).history.marked =
      true → s.history.marked = true := by
    simp only [TcpClient.enterDisconnect, Bool.and_eq_true]
    exact And.left
  refine ⟨⟨h.obeyed.reads, h.obeyed.begun⟩, ?_, ?_, ?_, ?_, ?_⟩
  · exact fun hold => h.cleared (hmarked hold)
  · unfold TcpClient.enterDisconnect
    intro holder' next hnext hasks'
    split at hnext <;> cases hnext
    have htrue : shouldReconnect = true := hasks'
    rcases hasks htrue with rfl | hnot
    · simp [htrue]
    · simp [hnot]
  · unfold TcpClient.enterDisconnect
    intro holder' hnext
    split at hnext <;> cases hnext
  · rintro ⟨holder', next, hnext, -⟩ -
    simp only [TcpClient.enterDisconnect] at hnext ⊢
    split at hnext
    · assumption
    · cases hnext
  · exact fun hold hin => h.marked (hmarked hold) hin

private theorem connect (h : Marks s) {holder : Holder}
    (hmutex : s.mutex = some (holder, .connect)) :
    Marks (s.proceed holder .connect) := by
  simp only [TcpClient.proceed]
  split
  · exact h.enter ⟨h.obeyed.reads, h.obeyed.begun⟩ rfl rfl rfl rfl (by simp)
  · next hthread =>
      have hunmarked : s.history.marked = false := by
        rcases h.connecting holder hmutex with hnot | ⟨-, hin⟩
        · exact hnot
        · by_contra hold
          rw [Bool.not_eq_false] at hold
          exact hthread (h.marked hold (by rw [hin]; rfl))
      refine ⟨⟨h.obeyed.reads, ?_⟩, ?_, fun _ _ _ _ => hunmarked,
        fun _ _ => .inl hunmarked, ?_, ?_⟩
      · intro marked hmem
        rcases List.mem_cons.mp hmem with rfl | hmem
        · exact hunmarked
        · exact h.obeyed.begun marked hmem
      · exact fun hold => absurd (hunmarked.symm.trans hold) Bool.false_ne_true
      · refine fun hforgetting => absurd hforgetting (not_forgetting ?_)
        rintro _ _ ⟨⟩
        rfl
      · exact fun hold => absurd (hunmarked.symm.trans hold) Bool.false_ne_true

private theorem disconnect (h : Marks s) {holder : Holder} (code : DisconnectCode)
    {shouldReconnect : Bool}
    (hmutex : s.mutex = some (holder, .disconnect code shouldReconnect)) :
    Marks (s.proceed holder (.disconnect code shouldReconnect)) := by
  refine ⟨⟨h.obeyed.reads, h.obeyed.begun⟩, h.cleared, ?_, ?_, ?_, h.marked⟩
  · rintro _ _ ⟨⟩ hasks
    exact h.asking holder _ hmutex hasks
  · rintro _ ⟨⟩
  · rintro ⟨_, _, ⟨⟩, hforgets⟩
    exact h.forgetting ⟨holder, _, hmutex, hforgets⟩

private theorem setShouldReconnect (h : Marks s) {holder : Holder}
    {shouldReconnect : Bool}
    (hmutex : s.mutex = some (holder, .setShouldReconnect shouldReconnect)) :
    Marks (s.proceed holder (.setShouldReconnect shouldReconnect)) := by
  have hnot : ¬ (s.proceed holder (.setShouldReconnect shouldReconnect)).Forgetting := by
    refine not_forgetting ?_
    rintro _ _ ⟨⟩
    rfl
  cases shouldReconnect with
  | false =>
      refine ⟨⟨h.obeyed.reads, h.obeyed.begun⟩, fun _ => rfl, ?_, ?_,
        fun hforgetting => absurd hforgetting hnot, ?_⟩
      · rintro _ _ ⟨⟩ hasks
        cases hasks
      · rintro _ ⟨⟩
      · exact fun _ => h.forgetting ⟨holder, _, hmutex, rfl⟩
  | true =>
      have hunmarked : s.history.marked = false := h.asking holder _ hmutex rfl
      have hbehind : (s.proceed holder
          (.setShouldReconnect true)).history.marked = false := by
        simp [TcpClient.proceed, hunmarked]
      exact ⟨⟨h.obeyed.reads, h.obeyed.begun⟩,
        fun hold => absurd (hbehind.symm.trans hold) Bool.false_ne_true,
        fun _ _ _ _ => hbehind, fun _ _ => .inl hbehind,
        fun hforgetting => absurd hforgetting hnot,
        fun hold => absurd (hbehind.symm.trans hold) Bool.false_ne_true⟩

private theorem proceed (h : Marks s) {holder : Holder} {next : Section}
    (hmutex : s.mutex = some (holder, next)) : Marks (s.proceed holder next) := by
  have hobeyed : s.Obeyed := h.obeyed
  cases next with
  | connect => exact h.connect hmutex
  | assignThread =>
      refine ⟨⟨hobeyed.reads, hobeyed.begun⟩, h.cleared, ?_, ?_, fun _ _ => rfl,
        fun _ _ => rfl⟩
      · rintro _ _ ⟨⟩
      · rintro _ ⟨⟩
  | disconnect code shouldReconnect => exact h.disconnect code hmutex
  | setShouldReconnect shouldReconnect => exact h.setShouldReconnect hmutex
  | breakReadWrite =>
      refine h.enter ⟨hobeyed.reads, hobeyed.begun⟩ rfl rfl rfl rfl ?_
      simp only [TcpClient.proceed]
      intro holder' next hnext
      split at hnext <;> cases hnext <;> exact ⟨rfl, rfl, (by simp)⟩
  | breakConnect =>
      refine h.enter ⟨hobeyed.reads, hobeyed.begun⟩ rfl rfl rfl rfl ?_
      simp only [TcpClient.proceed]
      intro holder' next hnext
      split at hnext <;> cases hnext
      exact ⟨rfl, rfl, (by simp)⟩
  | closeReadWrite | flagReadWrite | register | pushSendReq | pushMessage =>
      refine h.enter ⟨hobeyed.reads, hobeyed.begun⟩ rfl rfl rfl rfl ?_
      rintro _ _ ⟨⟩
      exact ⟨rfl, rfl, (by simp)⟩
  | flagConnect | wakeUp =>
      refine h.enter ⟨hobeyed.reads, hobeyed.begun⟩ rfl rfl rfl rfl ?_
      rintro _ _ ⟨⟩

private theorem userStep (h : Marks s) {call : UserCall}
    (hs : s.userStep call = some t) : Marks t := by
  have hobeyed : s.Obeyed := h.obeyed
  cases userStep_cases hs with
  | enterConnect hfree hcall => exact h.userConnect
  | enterDisconnect code shouldReconnect hfree =>
      exact h.enterDisconnect code fun _ => .inl rfl
  | enterSend type payload data hasCallback hfree =>
      unfold enterSend
      dsimp only
      split
      · refine h.enter ⟨hobeyed.reads, hobeyed.begun⟩ rfl rfl rfl rfl ?_
        rintro _ _ ⟨⟩
        exact ⟨rfl, rfl, (by simp)⟩
      · split <;>
          exact h.enter ⟨hobeyed.reads, hobeyed.begun⟩ rfl rfl rfl rfl
            (by simp [issue, callBack, hfree])
  | enterPush message hfree =>
      unfold enterPush
      split
      · refine h.enter ⟨hobeyed.reads, hobeyed.begun⟩ rfl rfl rfl rfl ?_
        rintro _ _ ⟨⟩
        exact ⟨rfl, rfl, (by simp)⟩
      · exact h.enter ⟨hobeyed.reads, hobeyed.begun⟩ rfl rfl rfl rfl
          (by simp [issue, hfree])
  | inside next hcall hmutex => exact h.proceed hmutex

private theorem ioStep (h : Marks s) {event : IoEvent}
    (hs : s.ioStep event = some t) : Marks t := by
  have hobeyed : s.Obeyed := h.obeyed
  cases ioStep_cases hs with
  | timer u io htimer =>
      obtain ⟨timers, map, pool, created, armed, rfl⟩ := htimer.eq
      exact h.same ⟨hobeyed.reads, hobeyed.begun⟩ rfl id rfl rfl rfl
  | enter hio hfree =>
      have hentered : Marks (s.enterDisconnect .io .kDisCodeKickout false) :=
        h.enterDisconnect _ (by simp)
      exact hentered.same ⟨hobeyed.reads, hobeyed.begun⟩ rfl id rfl rfl rfl
  | inside next hio hmutex => exact h.proceed hmutex
  | refuse => exact h.same ⟨hobeyed.reads, hobeyed.begun⟩ rfl (by rintro ⟨⟩) rfl rfl rfl
  | _ => exact h.same ⟨hobeyed.reads, hobeyed.begun⟩ rfl id rfl rfl rfl

private theorem checkReconnect (h : Marks s)
    (hcallback : s.callback = .checkReconnect) (hkeeps : s.KeepsMark .queue) :
    Marks { s with
      callback := if s.shouldReconnect then .makeSureConnected else .returned
      history := { s.history with
        reads := (s.history.marked, s.shouldReconnect) :: s.history.reads } } := by
  refine ⟨⟨?_, h.obeyed.begun⟩, h.cleared, h.asking, ?_, ?_, ?_⟩
  · intro entry hentry
    rcases List.mem_cons.mp hentry with rfl | hentry
    · exact h.cleared
    · exact h.obeyed.reads entry hentry
  · intro holder hconnect
    rcases h.connecting holder hconnect with hnot | ⟨-, hin⟩
    · exact .inl hnot
    · cases hcallback.symm.trans hin
  · intro hforgetting hin
    by_contra hthread
    refine hkeeps.2 hcallback (Bool.not_eq_true _ ▸ hthread) ?_ hforgetting
    by_contra hshould
    simp [hshould, CallbackPc.inConnect] at hin
  · intro hold hin
    simp [h.cleared hold, CallbackPc.inConnect] at hin

private theorem queueStep (h : Marks s) (hkeeps : s.KeepsMark .queue)
    (hs : s.queueStep = some t) : Marks t := by
  have hobeyed : s.Obeyed := h.obeyed
  cases queueStep_cases hs with
  | move callback hmove =>
      refine h.queue ⟨hobeyed.reads, hobeyed.begun⟩ rfl rfl rfl ?_ ?_
      · cases hmove <;> rfl
      · cases hmove with
        | connected _ hmutex => exact fun _ => hmutex _
        | _ => simp_all
  | loop timers hcallback hstep =>
      refine h.queue ⟨hobeyed.reads, hobeyed.begun⟩ rfl rfl rfl ?_
        (by simp [hcallback])
      rcases innerCallback_cases timers with hinner | hinner | hinner | hinner |
        ⟨_, _, hinner⟩
      all_goals simp [hinner, CallbackPc.inConnect]
  | timer u callback htimer =>
      have hin : callback.inConnect = false ∧ s.callback ≠ .connecting := by
        cases htimer <;> simp [*, CallbackPc.inConnect]
      obtain ⟨timers, map, pool, canceled, rfl⟩ := htimer.eq
      exact h.queue ⟨hobeyed.reads, hobeyed.begun⟩ rfl rfl rfl hin.1
        fun heq => absurd heq hin.2
  | enterDisconnect hcallback hfree =>
      have hunmarked : s.history.marked = false := by
        by_contra hold
        exact hkeeps.1 (by simpa using hold) hcallback
      have hbehind : (s.enterDisconnect .queue .kDisCodeSendReqTimeout
          true).history.marked = false := by
        simp [TcpClient.enterDisconnect, hunmarked]
      have hentered : Marks (s.enterDisconnect .queue .kDisCodeSendReqTimeout true) :=
        h.enterDisconnect _ fun _ => .inr hunmarked
      refine ⟨⟨hobeyed.reads, hobeyed.begun⟩, hentered.cleared, hentered.asking,
        fun _ _ => .inl hbehind, ?_, ?_⟩
      · refine fun hforgetting => absurd hforgetting (not_forgetting ?_)
        simp only [TcpClient.enterDisconnect]
        intro holder next hnext
        split at hnext <;> cases hnext
        rfl
      · exact fun hold => absurd (hbehind.symm.trans hold) Bool.false_ne_true
  | enterConnect hcallback hfree => exact h.queueConnect hcallback
  | inside next hcallback hmutex => exact h.proceed hmutex
  | checkReconnect hcallback => exact h.checkReconnect hcallback hkeeps
  | clearThread session hcallback =>
      exact h.queue ⟨hobeyed.reads, hobeyed.begun⟩ rfl rfl rfl rfl
        (by simp [hcallback])
  | returned | breakPing | noTimeout | takeTimeout | callTimeout
    | setTimeoutDisconnect | noLost | takeLost | callLost | reCreate | tearDown
    | reCreateConn =>
      exact h.queue ⟨hobeyed.reads, hobeyed.begun⟩ rfl rfl rfl rfl (by simp [*])

theorem step (h : Marks s) {action : Action} (hkeeps : s.KeepsMark action)
    (hs : s.step action = some t) : Marks t := by
  cases action with
  | user call => exact h.userStep hs
  | io event => exact h.ioStep hs
  | queue => exact h.queueStep hkeeps hs
  | tick nanoseconds =>
      cases hs
      exact h.same ⟨h.obeyed.reads, h.obeyed.begun⟩ rfl id rfl rfl rfl
  | pipes ok =>
      cases hs
      exact h.same ⟨h.obeyed.reads, h.obeyed.begun⟩ rfl id rfl rfl rfl

end Marks

/-- A client that is not to reconnect begins no session, and its reconnect
alarm sees so, until the user wants one. -/
theorem mark_obeyed (h : Reachable step KeepsMark .init s) : s.Obeyed :=
  (h.invariant Marks.init fun _ _ _ _ hmarks hkeeps hs =>
    hmarks.step hkeeps hs).obeyed

theorem mark_obeyed_logout :
    ∃ s : TcpClient, s.history.reads = [(true, false)] ∧ s.Obeyed := by
  let actions := connecting ++
    [.user (.disconnectAsync .kDisCodeLogout false), .user .proceed,
      .user .proceed, .user .proceed, .user .proceed] ++ ending ++ joining ++
    List.replicate 7 .queue
  have hmap : (run step init actions).map (·.history.reads) =
      some [(true, false)] := by
    decide +kernel
  obtain ⟨s, hrun, hreads⟩ := Option.map_eq_some_iff.mp hmap
  have hreach : Reachable step KeepsMark init s :=
    .of_meets (by decide +kernel) hrun
  exact ⟨s, hreads, mark_obeyed hreach⟩

def kickingOut : List Action :=
  connecting ++ sending ++ writing ++
    [.io (.received (some (.disconnect { type := Packet.DiscTypeKickout }))),
      .io .none, .io .none, .io .none, .io .none, .io .none, .io .none]

/-- The request's timeout disconnects once more, as one who wants to reconnect,
before the I/O thread has ended. -/
def kickedOut : List Action :=
  kickingOut ++ [.tick 10000000000] ++ List.replicate 17 .queue ++
    [.io .none] ++ ending ++ List.replicate 15 .queue

theorem kickedOut_reconnects :
    ¬ ∀ s : TcpClient, Reachable step AnyStep init s → s.Obeyed := by
  intro hall
  have hmap : (run step init kickedOut).map
      (fun s => (s.history.reads, s.history.begun)) =
        some ([(true, true)], [true, false]) := by
    decide +kernel
  obtain ⟨s, hreach, hstate⟩ := Reachable.of_run_map hmap
  simp only [Prod.mk.injEq] at hstate
  have hbegun := (hall s hreach).begun true (by simp [hstate.2])
  cases hbegun

end TcpClient

end GoSocket.Client
