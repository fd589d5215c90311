import GoSocket.Client.AlarmCount
import GoSocket.Client.Timeouts

/-!
# The two halves of `ObjectPool::Get`

`Get` holds the lock of the pool, but the deleter that it hands out takes none.
Behind `_pool.back().release()` the back of the vector is an empty slot; what the
queue's thread pushes before `pop_back` is destroyed there, and the slot stays.
Where no deleter runs in between, `Get` is the one step that it is in the client's
model.
-/

namespace GoSocket.Client

open Std GoSocket.Common GoSocket.Foundation

structure PooledClient where
  -- its `pool` has the alarms of `_pool`, and the one that `Get` takes
  client : TcpClient := .init
  -- `_pool`, its back first; `none` is a slot that `release` has emptied
  slots : List (Option Nat) := []
  -- what `release` has returned, until `pop_back`; `none` is a null pointer
  taken : Option (Option Nat) := none

namespace PooledClient

def runs (self : PooledClient) (action : Action) : Option PooledClient :=
  (self.client.step action).map fun client =>
    let pushed := client.pool.take (client.pool.length - self.client.pool.length)
    { self with client, slots := pushed.map some ++ self.slots }

/-- `ObjectPool::Get`.  With a null pointer the thread does not go on. -/
def get (self : PooledClient) (readable : Bool) (written : Written) :
    Option PooledClient :=
  match self.taken, self.slots with
  | none, [] => self.runs (.io .none)
  | none, back :: slots => some { self with slots := none :: slots, taken := some back }
  | some (some alarm), _ :: slots =>
      some
        { client := { self.client with
            pool := slots.reduceOption, io := .setUserData readable written alarm }
          slots
          taken := none }
  | some _, _ => none

def step (self : PooledClient) : Action → Option PooledClient
  | .io .none =>
      match self.client.io with
      | .getAlarm readable written => self.get readable written
      | _ => self.runs (.io .none)
  | action => self.runs action

end PooledClient

def TcpClient.deletes (self : TcpClient) : Bool :=
  match self.callback with
  | .eraseTimer messageId _ => (self.timeoutAlarmMap[messageId]?).isSome
  | .cancelTimers _ _ => !self.timeoutAlarmMap.keys.isEmpty
  | _ => false

namespace PooledClient

/-- No deleter runs between the two halves of `Get`. -/
def GetsAlone (self : PooledClient) (action : Action) : Prop :=
  self.taken = none ∨ action ≠ .queue ∨ self.client.deletes = false

instance (self : PooledClient) (action : Action) : Decidable (self.GetsAlone action) :=
  inferInstanceAs (Decidable (_ ∨ _ ∨ _))

/-! ## What a step does to the pool -/

end PooledClient

namespace TcpClient

variable {s t : TcpClient}

theorem pool_userStep {call : UserCall} (hs : s.userStep call = some t) :
    t.pool = s.pool := by
  cases userStep_cases hs with
  | enterSend type payload data hasCallback hfree =>
      obtain ⟨mutex, calls, invoked, heq⟩ :=
        s.enterSend_eq type payload data hasCallback
      rw [heq]
  | enterPush message hfree =>
      obtain ⟨mutex, calls, heq⟩ := s.enterPush_eq message
      rw [heq]
  | inside next hcall hmutex => exact s.proceed_pool .user next
  | _ => rfl

theorem pool_release (s : TcpClient) (messageId : UInt16) :
    s.pool <:+ (s.release messageId).pool := by
  unfold release
  split
  · exact List.suffix_cons _ _
  · exact List.suffix_refl _

theorem pool_cancelTimer (s : TcpClient) (messageId : UInt16) :
    s.pool <:+ (s.cancelTimer messageId).pool := by
  unfold cancelTimer
  split
  · next timer _ =>
      exact pool_release
        { s with timers := (s.timers.cancel (.request timer.alarm)).1 } messageId
  · exact List.suffix_refl _

theorem pool_ioStep {event : IoEvent} (hs : s.ioStep event = some t)
    (hget : s.pool = [] ∨ ∀ readable written, s.io ≠ .getAlarm readable written) :
    s.pool <:+ t.pool := by
  cases ioStep_cases hs with
  | timer u io htimer =>
      cases htimer with
      | takeAlarm readable written hio =>
          rcases hget with hnil | hne
          · rw [hnil]
            exact List.nil_suffix
          · exact absurd hio (hne readable written)
      | startAlarm readable written alarm hio =>
          obtain ⟨timers, armed, heq⟩ := s.armAlarm_eq written.call alarm
          rw [heq]
      | recordAlarm readable written alarm hio hfree => exact s.pool_release written.messageId
      | cancelTimer messageId hio hfree => exact s.pool_cancelTimer messageId
  | inside next hio hmutex =>
      rw [s.proceed_pool .io next]
  | _ => exact List.suffix_refl _

theorem pool_queueStep (hs : s.queueStep = some t) : s.pool <:+ t.pool := by
  cases queueStep_cases hs with
  | timer u callback htimer =>
      cases htimer with
      | eraseTimer messageId start hcallback => exact s.pool_release messageId
      | cancelTimer session messageIds messageId rest hcallback hkeys =>
          obtain ⟨canceled, heq⟩ := s.loseTimer_eq session messageId
          rw [heq]
          exact pool_cancelTimer
            { s with history := { s.history with canceled } } messageId
  | inside next hcallback hmutex => rw [s.proceed_pool .queue next]
  | _ => exact List.suffix_refl _

theorem pool_step {action : Action} (hs : s.step action = some t)
    (hget : ∀ event, action = .io event →
      s.pool = [] ∨ ∀ readable written, s.io ≠ .getAlarm readable written) :
    s.pool <:+ t.pool := by
  cases action with
  | user call => rw [pool_userStep hs]
  | io event => exact pool_ioStep hs (hget event rfl)
  | queue => exact pool_queueStep hs
  | tick nanoseconds =>
      cases hs
      exact List.suffix_refl _
  | pipes ok =>
      cases hs
      exact List.suffix_refl _

theorem pool_queueStep_of_not_deletes (hs : s.queueStep = some t)
    (hdeletes : s.deletes = false) : t.pool = s.pool := by
  cases queueStep_cases hs with
  | timer u callback htimer =>
      cases htimer with
      | eraseTimer messageId start hcallback =>
          have hnone : s.timeoutAlarmMap[messageId]? = none := by
            simpa only [deletes, hcallback, Option.isSome_eq_false_iff,
              Option.isNone_iff_eq_none] using hdeletes
          simp [release, hnone]
      | cancelTimer session messageIds messageId rest hcallback hkeys =>
          simp [deletes, hcallback, hkeys] at hdeletes
  | inside next hcallback hmutex => exact s.proceed_pool .queue next
  | _ => rfl

theorem takeAlarm_step {readable : Bool} {written : Written} {alarm : Nat}
    {pool : List Nat} (hio : s.io = .getAlarm readable written)
    (hpool : s.pool = alarm :: pool) :
    s.step (.io .none) = some { s with pool, io := .setUserData readable written alarm } := by
  show s.ioStep .none = _
  unfold ioStep
  rw [hio]
  dsimp only
  rw [takeAlarm, hpool]

theorem event_of_getAlarm {event : IoEvent} {readable : Bool} {written : Written}
    (hio : s.io = .getAlarm readable written) (hs : s.ioStep event = some t) :
    event = .none := by
  unfold ioStep at hs
  rw [hio] at hs
  cases event with
  | none => rfl
  | _ => cases hs

theorem io_userStep {call : UserCall} (hthreads : Threads s) (hrunning : s.io ≠ .finished)
    (hs : s.userStep call = some t) : t.io = s.io := by
  cases userStep_cases hs with
  | enterSend type payload data hasCallback hfree =>
      obtain ⟨mutex, calls, invoked, heq⟩ :=
        s.enterSend_eq type payload data hasCallback
      rw [heq]
  | enterPush message hfree =>
      obtain ⟨mutex, calls, heq⟩ := s.enterPush_eq message
      rw [heq]
  | inside next hcall hmutex => exact io_proceed_of_running hthreads hmutex hrunning
  | _ => rfl

theorem io_queueStep (hthreads : Threads s) (hrunning : s.io ≠ .finished)
    (hs : s.queueStep = some t) : t.io = s.io := by
  cases queueStep_cases hs with
  | timer u callback htimer =>
      obtain ⟨timers, map, pool, canceled, rfl⟩ := htimer.eq
      rfl
  | inside next hcallback hmutex => exact io_proceed_of_running hthreads hmutex hrunning
  | _ => rfl

end TcpClient

namespace PooledClient

variable {ok : TcpClient → Action → Prop} {s t : PooledClient} {action : Action}

/-! ## `Get` in one step -/

/-- Nobody has come between the halves of `Get`: the client's run is one of the model
where it is a single step, with the first half still in front of that step. -/
structure InOneStep (ok : TcpClient → Action → Prop) (s : PooledClient) : Prop where
  client : Reachable TcpClient.step ok .init s.client
  slots : s.taken = none → s.slots = s.client.pool.map some
  taken : ∀ back, s.taken = some back → ∃ alarm pool readable written,
    back = some alarm ∧ s.client.pool = alarm :: pool ∧ s.slots = none :: pool.map some ∧
      s.client.io = .getAlarm readable written

namespace InOneStep

theorem init : InOneStep ok {} where
  client := .refl
  slots _ := rfl
  taken := nofun

private theorem runs_free (h : InOneStep ok s) (htaken : s.taken = none)
    (hok : ok s.client action) (hs : s.runs action = some t)
    (hget : ∀ event, action = .io event → s.client.pool = [] ∨
      ∀ readable written, s.client.io ≠ .getAlarm readable written) : InOneStep ok t := by
  obtain ⟨client, hclient, rfl⟩ := Option.map_eq_some_iff.mp hs
  refine ⟨h.client.tail action hok hclient, fun _ => ?_, fun back hback => ?_⟩
  · have hpushed := List.suffix_iff_eq_append.mp (TcpClient.pool_step hclient hget)
    dsimp only
    rw [h.slots htaken, ← List.map_append, hpushed]
  · cases htaken.symm.trans hback

private theorem runs_between (h : InOneStep ok s) {back : Option Nat}
    (htaken : s.taken = some back) (hok : ok s.client action)
    (halone : s.GetsAlone action) (hio : ∀ event, action ≠ .io event)
    (hs : s.runs action = some t) : InOneStep ok t := by
  obtain ⟨client, hclient, rfl⟩ := Option.map_eq_some_iff.mp hs
  obtain ⟨alarm, pool, readable, written, rfl, hpool, hslots, hget⟩ := h.taken back htaken
  have hthreads := TcpClient.Threads.of_reachable h.client
  have hrunning : s.client.io ≠ .finished := by simp [hget]
  have hsame : client.pool = s.client.pool ∧ client.io = s.client.io := by
    cases action with
    | user call =>
        exact ⟨TcpClient.pool_userStep hclient,
          TcpClient.io_userStep hthreads hrunning hclient⟩
    | io event => exact absurd rfl (hio event)
    | queue =>
        have hdeletes : s.client.deletes = false := by
          rcases halone with hnone | hne | hfalse
          · cases htaken.symm.trans hnone
          · exact absurd rfl hne
          · exact hfalse
        exact ⟨TcpClient.pool_queueStep_of_not_deletes hclient hdeletes,
          TcpClient.io_queueStep hthreads hrunning hclient⟩
    | tick nanoseconds =>
        cases hclient
        exact ⟨rfl, rfl⟩
    | pipes ok =>
        cases hclient
        exact ⟨rfl, rfl⟩
  obtain ⟨hpool', hio'⟩ := hsame
  refine ⟨h.client.tail action hok hclient, fun hnone => ?_, fun back' hback => ?_⟩
  · cases htaken.symm.trans hnone
  · cases htaken.symm.trans hback
    refine ⟨alarm, pool, readable, written, rfl, hpool'.trans hpool, ?_, hio'.trans hget⟩
    simp [hpool', hslots]

private theorem get (h : InOneStep ok s) {readable : Bool} {written : Written}
    (hio : s.client.io = .getAlarm readable written) (hok : ok s.client (.io .none))
    (hs : s.get readable written = some t) : InOneStep ok t := by
  unfold PooledClient.get at hs
  split at hs
  · next htaken hslots =>
      have hnil : s.client.pool = [] := by simpa [hslots] using (h.slots htaken).symm
      exact h.runs_free htaken hok hs fun _ _ => .inl hnil
  -- the first half: the client's model is still in front of `Get`
  · next back slots htaken hslots =>
      cases hs
      have hmap := h.slots htaken
      refine ⟨h.client, fun hnone => absurd hnone (Option.some_ne_none _),
        fun _ hback => ?_⟩
      cases hback
      rw [hslots] at hmap
      obtain ⟨alarm, pool, hpool, rfl, rfl⟩ := List.map_eq_cons_iff.mp hmap.symm
      exact ⟨alarm, pool, readable, written, rfl, hpool, rfl, hio⟩
  -- the second half, which is `Get` there
  · next alarm slot slots htaken hslots =>
      cases hs
      obtain ⟨alarm', pool, readable', written', heq, hpool, hslots', -⟩ :=
        h.taken (some alarm) htaken
      cases heq
      simp only [hslots, List.cons.injEq] at hslots'
      obtain ⟨-, rfl⟩ := hslots'
      have hstep := TcpClient.takeAlarm_step hio hpool
      have hpool' : (pool.map some).reduceOption = pool := by
        show (pool.map some).filterMap id = pool
        rw [List.filterMap_map]
        exact List.filterMap_some
      dsimp only
      rw [hpool']
      exact ⟨h.client.tail (.io .none) hok hstep, fun _ => rfl,
        fun back hback => absurd hback.symm (Option.some_ne_none back)⟩
  · cases hs

theorem step (h : InOneStep ok s) (hok : ok s.client action) (halone : s.GetsAlone action)
    (hs : s.step action = some t) : InOneStep ok t := by
  have aside (hio : ∀ event, action ≠ .io event) (hs : s.runs action = some t) :
      InOneStep ok t := by
    cases htaken : s.taken with
    | none => exact h.runs_free htaken hok hs fun event heq => absurd heq (hio event)
    | some back => exact h.runs_between htaken hok halone hio hs
  have elsewhere (hne : ∀ readable written, s.client.io ≠ .getAlarm readable written)
      (hs : s.runs action = some t) : InOneStep ok t := by
    cases htaken : s.taken with
    | none => exact h.runs_free htaken hok hs fun _ _ => .inr hne
    | some back =>
        obtain ⟨alarm, pool, readable, written, -, -, -, hget⟩ := h.taken back htaken
        exact absurd hget (hne readable written)
  unfold PooledClient.step at hs
  split at hs
  · split at hs
    · next readable written hio => exact h.get hio hok hs
    · next hne => exact elsewhere hne hs
  · next hnone =>
      cases action with
      | io event =>
          refine elsewhere (fun readable written hio => hnone ?_) hs
          obtain ⟨client, hclient, -⟩ := Option.map_eq_some_iff.mp hs
          rw [TcpClient.event_of_getAlarm hio hclient]
      | _ => exact aside (by simp) hs

theorem not_null (h : InOneStep ok s) : s.taken ≠ some none := by
  intro htaken
  obtain ⟨alarm, pool, readable, written, heq, -⟩ := h.taken none htaken
  cases heq

theorem of_reachable
    (h : Reachable PooledClient.step (fun s action => ok s.client action ∧
      s.GetsAlone action) {} s) : InOneStep ok s :=
  h.invariant init fun _ _ _ _ hone hok hs => hone.step hok.1 hok.2 hs

end InOneStep

/-! ## The timeouts of requests -/

open TcpClient (connecting sending writing writingOnly replied sendingNoReply timingOut)

/-- The condition of the client's model, and that no deleter runs inside of `Get`. -/
def TimesNext (self : PooledClient) (action : Action) : Prop :=
  self.client.TimesNext action ∧ self.GetsAlone action

instance (self : PooledClient) (action : Action) : Decidable (self.TimesNext action) :=
  inferInstanceAs (Decidable (_ ∧ _))

/-- `Get` never returns a null pointer, no alarm that waits comes back to the pool, and
no request times out before its time. -/
theorem times_properly (h : Reachable step TimesNext {} s) :
    s.taken ≠ some none ∧ s.client.TimesProperly := by
  have hone : InOneStep TcpClient.TimesNext s := .of_reachable h
  exact ⟨hone.not_null, .of_reachable hone.client⟩

def reusing : List Action :=
  connecting ++ sending ++ writing ++ replied ++ [.io .none, .tick 5000000000] ++
    sending ++ writing ++ [.io .none]

theorem times_properly_timedOut : ∃ s : PooledClient,
    s.client.history.timedOut = [(1, 3, 15000000000)] ∧ s.client.created = 1 ∧
      s.taken ≠ some none ∧ s.client.TimesProperly := by
  let actions := reusing ++ [.tick 10000000000] ++ timingOut
  have hmap : (run step {} actions).map (fun s =>
      (s.client.history.timedOut, s.client.created)) = some ([(1, 3, 15000000000)], 1) := by
    decide +kernel
  obtain ⟨s, hrun, hstate⟩ := Option.map_eq_some_iff.mp hmap
  obtain ⟨htimedOut, hcreated⟩ := Prod.mk.inj hstate
  have hreach : Reachable step TimesNext {} s := .of_meets (by decide +kernel) hrun
  exact ⟨s, htimedOut, hcreated, times_properly hreach⟩

/-- The second `SendNoReply` puts the alarm of the first into the pool, where a
`Send` finds it. -/
def reused : List Action :=
  connecting ++ sendingNoReply ++ writingOnly ++ sendingNoReply ++ writingOnly ++
    [.tick 5000000000] ++ sending ++ writingOnly ++ [.io .none, .tick 5000000000] ++
    timingOut

theorem reused_early : ¬ ∀ s : PooledClient, Reachable step AnyStep {} s →
    s.client.TimesProperly := by
  intro hall
  have hmap : (run step {} reused).map
      (fun s => (s.client.history.timedOut, s.client.history.written.head?)) =
        some ([(2, 1, 10000000000)],
          some { session := 1, call := 2, time := 5000000000 }) := by
    decide +kernel
  obtain ⟨s, hreach, hstate⟩ := Reachable.of_run_map hmap
  simp only [Prod.mk.injEq] at hstate
  have hlate := (hall s hreach).late (2, 1, 10000000000) (by simp [hstate]) _
    (List.mem_of_mem_head? hstate.2) rfl
  simp [kSendReqTimeout] at hlate

/-- A timeout's deleter pushes the alarm of the second request between the halves of
the third one's `Get`, and the fourth one gets the empty slot. -/
example : (run step {} (connecting ++ sending ++ writingOnly ++ sending ++ writing ++
    replied ++ [.io .none, .tick 10000000000] ++ List.replicate 4 .queue ++ sending ++
    writingOnly.take 9 ++ [.queue] ++ List.replicate 10 (.io .none) ++ sending ++
    writingOnly.take 9)).map (fun s => (s.slots, s.taken)) = some ([none], some none) := by
  decide +kernel

/-! ## Where the alarms are -/

/-- The alarm in that place; the I/O thread has one in hand from `release` on. -/
def alarmAt (self : PooledClient) : AlarmPlace → Option Nat
  | .pool alarm => if some alarm ∈ self.slots then some alarm else none
  | .map messageId => self.client.alarmAt (.map messageId)
  | .io =>
      match self.taken with
      | some back => back
      | none => self.client.io.alarm?

theorem InOneStep.alarmAt_eq (h : InOneStep ok s) : ∃ moved : AlarmPlace ≃ AlarmPlace,
    ∀ place, s.alarmAt place = s.client.alarmAt (moved place) := by
  cases htaken : s.taken with
  | none =>
      refine ⟨.refl _, fun place => ?_⟩
      cases place <;> simp [alarmAt, TcpClient.alarmAt, htaken, h.slots htaken]
  | some back =>
      obtain ⟨alarm, pool, readable, written, rfl, hpool, hslots, hio⟩ := h.taken back htaken
      have hnodup := (TcpClient.Pooled.of_reachable h.client).nodup
      rw [hpool, List.nodup_cons] at hnodup
      refine ⟨.swap (.pool alarm) .io, fun place => ?_⟩
      cases place with
      | pool alarm' =>
          by_cases heq : alarm' = alarm
          · simp [alarmAt, TcpClient.alarmAt, heq, hslots, hnodup.1, hio, IoPc.alarm?]
          · rw [Equiv.swap_apply_of_ne_of_ne (by simpa using heq) (by simp)]
            simp [alarmAt, TcpClient.alarmAt, hslots, hpool, heq]
      | map messageId =>
          rw [Equiv.swap_apply_of_ne_of_ne (by simp) (by simp)]
          rfl
      | io => simp [alarmAt, TcpClient.alarmAt, htaken, hpool]

/-- Whatever is sent, answered, timed out and torn down, every alarm that the pool
has created is in one place, and there are never more of them than there are ids
of messages and one, as long as no deleter runs inside of `Get`. -/
theorem alarms_accounted (h : Reachable step GetsAlone {} s) :
    (∀ n < s.client.created, ∃! place, s.alarmAt place = some n) ∧
      s.client.created ≤ 65537 ∧ s.taken ≠ some none := by
  have hone : InOneStep AnyStep s :=
    .of_reachable (h.mono fun _ _ halone => ⟨trivial, halone⟩)
  obtain ⟨moved, hmoved⟩ := hone.alarmAt_eq
  refine ⟨fun n hn => ?_, (TcpClient.Accounted.of_reachable hone.client).bounded,
    hone.not_null⟩
  have hiff (place : AlarmPlace) :
      s.alarmAt place = some n ↔ s.client.alarmAt (moved place) = some n := by
    rw [hmoved place]
  exact (moved.existsUnique_congr hiff).mpr (TcpClient.alarmAt_unique hone.client hn)

theorem alarms_accounted_reused : ∃ s : PooledClient,
    s.client.history.written.length = 2 ∧ s.client.created = 1 ∧
      ∃! place, s.alarmAt place = some 0 := by
  have hmap : (run step {} reusing).map (fun s =>
      (s.client.history.written.length, s.client.created)) = some (2, 1) := by
    decide +kernel
  obtain ⟨s, hrun, hstate⟩ := Option.map_eq_some_iff.mp hmap
  obtain ⟨hwritten, hcreated⟩ := Prod.mk.inj hstate
  have hreach : Reachable step GetsAlone {} s := .of_meets (by decide +kernel) hrun
  exact ⟨s, hwritten, hcreated, (alarms_accounted hreach).1 0 (by omega)⟩

end PooledClient

end GoSocket.Client
