import GoSocket.Common.QueueRuns
import GoSocket.Foundation.Deadlines

/-!
# The order of the callbacks

The list of the queue is in the order of the deadlines.  A pass of the loop puts
what is due into a map from ids and calls it in the order of the ids, which is
the order of the posts.
-/

namespace GoSocket.Common

open GoSocket.Foundation

/-- A run of the queue, and its trace of jobs: the posts with a callback.  The
callbacks of the run carry their deadlines. -/
structure JobRun (κ : Type) where
  run : QueueRun (Int × κ) := {}
  jobs : List (JobEvent UInt32 Int) := []

variable {κ : Type}

def QueueAction.stamped : QueueAction κ → QueueAction (Int × κ)
  | .post now afterSec callback =>
      .post now afterSec (callback.map (now + afterSec * 1000000000, ·))
  | .cancel messageId => .cancel messageId
  | .drain now => .drain now
  | .checkCanceled => .checkCanceled
  | .returned => .returned
  | .rest => .rest
  | .wake => .wake

namespace JobRun

def seen (self : JobRun κ) (next : QueueRun (Int × κ)) :
    QueueAction κ → List (JobEvent UInt32 Int)
  | .post now afterSec (some _) =>
      [.posted {
        number := self.run.posts
        key := self.run.queue.currentMsgId
        deadline := now + afterSec * 1000000000 }]
  | .cancel messageId => [.canceled messageId]
  | .checkCanceled =>
      match next.queue.loop with
      | .calling key (number, deadline, _) _ => [.called { number, key, deadline }]
      | _ => []
  | _ => []

def step (self : JobRun κ) (action : QueueAction κ) : Option (JobRun κ) :=
  (self.run.step action.stamped).map fun next =>
    { run := next, jobs := self.seen next action ++ self.jobs }

end JobRun

/-- The due messages of a pass, of which the map keeps every callback and has them
in the order of their deadlines. -/
structure InTurn (due : List (Message κ)) : Prop where
  distinct : ((due.filter (·.callback.isSome)).map (·.messageId)).Nodup
  ordered : ∀ m ∈ due, ∀ m' ∈ due, m.callback.isSome → m'.callback.isSome →
    m.when < m'.when → m.messageId < m'.messageId

instance (due : List (Message κ)) : Decidable (InTurn due) :=
  decidable_of_iff
    (((due.filter (·.callback.isSome)).map (·.messageId)).Nodup ∧
      ∀ m ∈ due, ∀ m' ∈ due, m.callback.isSome → m'.callback.isSome →
        m.when < m'.when → m.messageId < m'.messageId)
    ⟨fun h => ⟨h.1, h.2⟩, fun h => ⟨h.distinct, h.ordered⟩⟩

theorem InTurn.mem_callbackMap {due : List (Message κ)} (h : InTurn due)
    {m : Message κ} (hm : m ∈ due) {callback : κ}
    (hcallback : m.callback = some callback) :
    (m.messageId, callback) ∈ (MessageQueue.callbackMap due).toList := by
  rw [← MessageQueue.callbackMap_filter]
  refine MessageQueue.mem_callbackMap h.distinct ?_ hcallback
  rw [List.mem_filter]
  exact ⟨hm, by simp [hcallback]⟩

theorem InTurn.pairwise {due : List (Message (Nat × Int × κ))} (h : InTurn due)
    (hstamped : ∀ m ∈ due, ∀ callback, m.callback = some callback →
      callback.2.1 = m.when) :
    (MessageQueue.callbackMap due).toList.Pairwise (·.2.2.1 ≤ ·.2.2.1) := by
  refine List.Pairwise.imp_of_mem ?_ Std.TreeMap.ordered_keys_toList
  intro kv kv' hkv hkv' hlt
  obtain ⟨m, hm, hid, hcallback⟩ := MessageQueue.of_mem_callbackMap hkv
  obtain ⟨m', hm', hid', hcallback'⟩ := MessageQueue.of_mem_callbackMap hkv'
  rw [hstamped m hm _ hcallback, hstamped m' hm' _ hcallback']
  by_contra hnot
  have hback := h.ordered m' hm' m hm (by simp [hcallback']) (by simp [hcallback])
    (Int.not_le.mp hnot)
  rw [hid, hid'] at hback
  have hforth : kv.1 < kv'.1 := Std.compare_eq_lt.mp hlt
  exact absurd hback (UInt32.lt_asymm hforth)

namespace JobRun

/-- A pass takes messages in turn, and nothing is posted in front of what a pass has
still to call. -/
def Fits (s : JobRun κ) : QueueAction κ → Prop
  | .drain now => InTurn (s.run.queue.messages.takeWhile (MessageQueue.isDue now))
  | .post now afterSec (some _) =>
      ∀ kv ∈ s.run.queue.loop.todo, kv.1 ∉ s.run.queue.canceledMessageIds →
        kv.2.2.1 ≤ now + afterSec * 1000000000
  | _ => True

instance (s : JobRun κ) (action : QueueAction κ) : Decidable (Fits s action) := by
  unfold Fits
  split <;> infer_instance

variable {s t : JobRun κ}

/-! ## The invariant -/

/-- A pending job lies in the list, or the pass has still to call it. -/
inductive Waits (s : JobRun κ) (job : Job UInt32 Int) : Prop
  | listed (m : Message (Nat × Int × κ)) (hm : m ∈ s.run.queue.messages)
      (hid : m.messageId = job.key) (callback : κ)
      (hcallback : m.callback = some (job.number, job.deadline, callback))
  | taken (callback : κ)
      (htodo : (job.key, job.number, job.deadline, callback) ∈ s.run.queue.loop.todo)
      (hnot : job.key ∉ s.run.queue.canceledMessageIds)

theorem Waits.of_le {job : Job UInt32 Int} (h : s.Waits job)
    (hmessages : ∀ m ∈ s.run.queue.messages, m.messageId = job.key →
      m ∈ t.run.queue.messages)
    (htodo : ∀ kv ∈ s.run.queue.loop.todo, kv ∈ t.run.queue.loop.todo)
    (hcanceled : job.key ∈ t.run.queue.canceledMessageIds →
      job.key ∈ s.run.queue.canceledMessageIds) : t.Waits job := by
  cases h with
  | listed m hm hid callback hcallback =>
      exact .listed m (hmessages m hm hid) hid callback hcallback
  | taken callback hmem hnot =>
      exact .taken callback (htodo _ hmem) fun hin => hnot (hcanceled hin)

/-- The pass has its callbacks in order, and in front of those in the list. -/
structure Punctual (s : JobRun κ) : Prop where
  sorted : s.run.queue.messages.Pairwise (·.when ≤ ·.when)
  stamped : ∀ m ∈ s.run.queue.messages, ∀ callback, m.callback = some callback →
    callback.2.1 = m.when
  waits : ∀ job ∈ JobEvent.pending s.jobs, s.Waits job
  todo : s.run.queue.loop.todo.Pairwise (·.2.2.1 ≤ ·.2.2.1)
  behind : ∀ kv ∈ s.run.queue.loop.todo, kv.1 ∉ s.run.queue.canceledMessageIds →
    ∀ m ∈ s.run.queue.messages, m.callback.isSome → kv.2.2.1 ≤ m.when
  inOrder : JobEvent.InOrder s.jobs

theorem punctual_init : Punctual ({} : JobRun κ) := by
  constructor <;> simp [LoopPc.todo, JobEvent.pending, JobEvent.InOrder]

namespace Punctual

theorem post (h : Punctual s) {now afterSec : Int} {callback : Option κ}
    (hfits : Fits s (.post now afterSec callback))
    (hs : s.step (.post now afterSec callback) = some t) : Punctual t := by
  cases hs
  constructor
  case sorted => exact MessageQueue.sorted_insertMessage h.sorted
  case stamped =>
    intro m hm tagged htagged
    rcases MessageQueue.mem_insertMessage.mp hm with rfl | hm
    · obtain ⟨stamped, hstamped, rfl⟩ := Option.map_eq_some_iff.mp htagged
      obtain ⟨c, -, rfl⟩ := Option.map_eq_some_iff.mp hstamped
      rfl
    · exact h.stamped m hm tagged htagged
  case waits =>
    have hkept {new : Message (Nat × Int × κ)} :
        ∀ m ∈ s.run.queue.messages,
          m ∈ MessageQueue.insertMessage new s.run.queue.messages :=
      fun m hm => MessageQueue.mem_insertMessage.mpr (.inr hm)
    intro job hjob
    cases callback with
    | none =>
        exact (h.waits job hjob).of_le (fun m hm _ => hkept m hm) (fun _ hkv => hkv) id
    | some c =>
        rcases List.mem_cons.mp hjob with rfl | hjob
        · exact .listed _ (MessageQueue.mem_insertMessage.mpr (.inl rfl)) rfl c rfl
        · exact (h.waits job hjob).of_le (fun m hm _ => hkept m hm) (fun _ hkv => hkv) id
  case todo => exact h.todo
  case behind =>
    intro kv hkv hnot m hm hsome
    rcases MessageQueue.mem_insertMessage.mp hm with rfl | hm
    · cases callback with
      | none => cases hsome
      | some c => exact hfits kv hkv hnot
    · exact h.behind kv hkv hnot m hm hsome
  case inOrder => cases callback <;> exact h.inOrder

theorem cancel (h : Punctual s) {messageId : UInt32}
    (hs : s.step (.cancel messageId) = some t) : Punctual t := by
  cases hs
  have hsub := MessageQueue.removeMessage_sublist messageId s.run.queue.messages
  have hkept {id : UInt32}
      (hnot : id ∉ s.run.queue.canceledMessageIds.insert messageId true) :
      id ∉ s.run.queue.canceledMessageIds :=
    fun hmem => hnot (Std.TreeMap.mem_insert.mpr (.inr hmem))
  constructor
  case sorted => exact h.sorted.sublist hsub
  case stamped => exact fun m hm => h.stamped m (hsub.subset hm)
  case waits =>
    intro job hjob
    obtain ⟨hjob, hne⟩ := JobEvent.mem_pending_canceled.mp hjob
    refine (h.waits job hjob).of_le (fun m hm hid => ?_) (fun _ hkv => hkv) fun hmem => ?_
    · exact MessageQueue.mem_removeMessage_of_ne hm (hid ▸ hne)
    · rcases Std.TreeMap.mem_insert.mp hmem with heq | hmem
      · exact absurd (Std.LawfulEqCmp.eq_of_compare heq).symm hne
      · exact hmem
  case todo => exact h.todo
  case behind =>
    exact fun kv hkv hnot m hm => h.behind kv hkv (hkept hnot) m (hsub.subset hm)
  case inOrder => exact h.inOrder

theorem drain (h : Punctual s) {now : Int} (hfits : Fits s (.drain now))
    (hs : s.step (.drain now) = some t) : Punctual t := by
  obtain ⟨next, hnext, rfl⟩ := Option.map_eq_some_iff.mp hs
  obtain ⟨queue, hdrain, rfl⟩ := Option.map_eq_some_iff.mp hnext
  unfold MessageQueue.drain at hdrain
  split at hdrain
  case h_2 => cases hdrain
  next hloop =>
  cases hdrain
  have hsplit := List.takeWhile_append_dropWhile
    (p := MessageQueue.isDue now) (l := s.run.queue.messages)
  have hdue {m : Message (Nat × Int × κ)}
      (hm : m ∈ s.run.queue.messages.takeWhile (MessageQueue.isDue now)) :
      m ∈ s.run.queue.messages :=
    List.takeWhile_sublist _ |>.subset hm
  have hrest {m : Message (Nat × Int × κ)}
      (hm : m ∈ s.run.queue.messages.dropWhile (MessageQueue.isDue now)) :
      m ∈ s.run.queue.messages :=
    List.dropWhile_sublist _ |>.subset hm
  constructor
  case sorted => exact h.sorted.sublist (List.dropWhile_sublist _)
  case stamped => exact fun m hm => h.stamped m (hrest hm)
  case waits =>
    intro job hjob
    cases h.waits job hjob with
    | listed m hm hid c hcallback =>
        rw [← hsplit] at hm
        rcases List.mem_append.mp hm with hm | hm
        · refine .taken c ?_ (by simp)
          rw [← hid]
          exact hfits.mem_callbackMap hm hcallback
        · exact .listed m hm hid c hcallback
    | taken c htodo =>
        rw [hloop] at htodo
        cases htodo
  case todo => exact hfits.pairwise fun m hm => h.stamped m (hdue hm)
  case behind =>
    intro kv hkv _ m hm _
    obtain ⟨m', hm', -, hcallback⟩ := MessageQueue.of_mem_callbackMap hkv
    rw [h.stamped m' (hdue hm') _ hcallback]
    have hsorted := h.sorted
    rw [← hsplit, List.pairwise_append] at hsorted
    exact hsorted.2.2 m' hm' m hm
  case inOrder => exact h.inOrder

theorem checkCanceled (h : Punctual s) (hs : s.step .checkCanceled = some t) :
    Punctual t := by
  obtain ⟨next, hnext, rfl⟩ := Option.map_eq_some_iff.mp hs
  simp only [QueueAction.stamped, QueueRun.step] at hnext
  split at hnext
  case h_2 => cases hnext
  next messageId n c todo queue htodo hcheck =>
  cases hnext
  unfold MessageQueue.checkCanceled at hcheck
  split at hcheck
  case h_2 => cases hcheck
  next key tagged pass now duration hloop =>
  obtain ⟨number, deadline, callback⟩ := tagged
  have htaken := h.todo
  have hbehind := h.behind
  rw [hloop] at htaken hbehind
  obtain ⟨hfirst, htail⟩ := List.pairwise_cons.mp htaken
  have hlater (kv : UInt32 × Nat × Int × κ) (hkv : kv ∈ pass) :=
    hbehind kv (List.mem_cons_of_mem _ hkv)
  split at hcheck
  · next hmem =>
      cases hcheck
      refine ⟨h.sorted, h.stamped, fun job hjob => ?_, htail, hlater, h.inOrder⟩
      cases h.waits job hjob with
      | listed m hm hid c hcallback => exact .listed m hm hid c hcallback
      | taken c htodo hnot =>
          rw [hloop] at htodo
          rcases List.mem_cons.mp htodo with heq | htodo
          · cases heq
            exact absurd hmem hnot
          · exact .taken c htodo hnot
  · next hmem =>
      cases hcheck
      refine ⟨h.sorted, h.stamped, fun job hjob => ?_, htail, hlater, h.inOrder,
        fun job hjob => ?_⟩
      · obtain ⟨hjob, hne⟩ := JobEvent.mem_pending_called.mp hjob
        cases h.waits job hjob with
        | listed m hm hid c hcallback => exact .listed m hm hid c hcallback
        | taken c htodo hnot =>
            rw [hloop] at htodo
            rcases List.mem_cons.mp htodo with heq | htodo
            · cases heq
              exact absurd rfl hne
            · exact .taken c htodo hnot
      · cases h.waits job hjob with
        | listed m hm hid c hcallback =>
            have hle := hbehind _ List.mem_cons_self hmem m hm (by simp [hcallback])
            have hstamp : job.deadline = m.when := h.stamped m hm _ hcallback
            rw [hstamp]
            exact hle
        | taken c htodo =>
            rw [hloop] at htodo
            rcases List.mem_cons.mp htodo with heq | htodo
            · cases heq
              exact Int.le_refl _
            · exact hfirst _ htodo

private theorem idle (h : Punctual s) {queue : MessageQueue (Nat × Int × κ)}
    (hidles : s.run.queue.Idles queue) (notified : Bool) :
    Punctual { s with run := { s.run with queue, notified } } := by
  constructor
  case sorted => exact hidles.messages ▸ h.sorted
  case stamped => exact hidles.messages ▸ h.stamped
  case waits =>
    exact fun job hjob => (h.waits job hjob).of_le (fun m hm _ => hidles.messages ▸ hm)
      (fun _ hkv => hidles.todo ▸ hkv) (hidles.canceledMessageIds ▸ id)
  case todo => exact hidles.todo ▸ h.todo
  case behind =>
    dsimp only
    rw [hidles.messages, hidles.todo, hidles.canceledMessageIds]
    exact h.behind
  case inOrder => exact h.inOrder

theorem step (h : Punctual s) {action : QueueAction κ} (hfits : Fits s action)
    (hs : s.step action = some t) : Punctual t := by
  cases action with
  | post now afterSec callback => exact h.post hfits hs
  | cancel messageId => exact h.cancel hs
  | drain now => exact h.drain hfits hs
  | checkCanceled => exact h.checkCanceled hs
  | returned =>
      obtain ⟨next, hnext, rfl⟩ := Option.map_eq_some_iff.mp hs
      obtain ⟨queue, hreturned, rfl⟩ := Option.map_eq_some_iff.mp hnext
      exact h.idle (MessageQueue.idles_returned hreturned) s.run.notified
  | rest =>
      obtain ⟨next, hnext, rfl⟩ := Option.map_eq_some_iff.mp hs
      obtain ⟨queue, hrest, rfl⟩ := Option.map_eq_some_iff.mp hnext
      exact h.idle (MessageQueue.idles_rest hrest) s.run.notified
  | wake =>
      obtain ⟨next, hnext, rfl⟩ := Option.map_eq_some_iff.mp hs
      obtain ⟨queue, hwake, rfl⟩ := Option.map_eq_some_iff.mp hnext
      exact h.idle (MessageQueue.idles_wake hwake) false

end Punctual

end JobRun

/-- Where each pass takes messages in turn, the callbacks are called in the order
of their deadlines. -/
theorem called_in_order {s : JobRun κ}
    (h : Reachable JobRun.step JobRun.Fits ({} : JobRun κ) s) :
    JobEvent.InOrder s.jobs :=
  (h.invariant JobRun.punctual_init
    fun _ _ _ _ hinv hok hs => hinv.step hok hs).inOrder

/-- Two messages, posted in the order of their deadlines and taken in one pass. -/
theorem called_in_order_two :
    ∃ s : JobRun Unit, JobEvent.InOrder s.jobs ∧ s.jobs.take 2 =
      [.called { number := 1, key := 2, deadline := 10000000000 },
        .called { number := 0, key := 1, deadline := 5000000000 }] := by
  let actions : List (QueueAction Unit) :=
    [.post 0 5 (some ()), .post 0 10 (some ()), .drain 10000000000, .checkCanceled,
      .returned, .checkCanceled]
  have hmap : (run JobRun.step ({} : JobRun Unit) actions).map (·.jobs.take 2) =
      some [.called { number := 1, key := 2, deadline := 10000000000 },
        .called { number := 0, key := 1, deadline := 5000000000 }] := by
    decide +kernel
  obtain ⟨s, hrun, hjobs⟩ := Option.map_eq_some_iff.mp hmap
  have hreach : Reachable JobRun.step JobRun.Fits {} s :=
    .of_meets (by decide +kernel) hrun
  exact ⟨s, called_in_order hreach, hjobs⟩

/-- Posted the other way round, they are called the other way round: the pass is
in the order of the posts. -/
theorem not_called_in_order :
    ¬ ∀ s : JobRun Unit, Reachable JobRun.step AnyStep {} s →
      JobEvent.InOrder s.jobs := by
  intro hall
  have hmap : (run JobRun.step ({} : JobRun Unit)
      [.post 0 10 (some ()), .post 0 5 (some ()), .drain 10000000000,
        .checkCanceled]).map (·.jobs) =
      some [.called { number := 0, key := 1, deadline := 10000000000 },
        .posted { number := 1, key := 2, deadline := 5000000000 },
        .posted { number := 0, key := 1, deadline := 10000000000 }] := by
    decide +kernel
  obtain ⟨s, hreach, hjobs⟩ := Reachable.of_run_map hmap
  have hinOrder := hall s hreach
  rw [hjobs] at hinOrder
  exact JobEvent.not_inOrder_called List.mem_cons_self (by decide) hinOrder

end GoSocket.Common
