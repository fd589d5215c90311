import GoSocket.Common.MessageQueue

/-!
# Runs of the message queue

Any thread posts and cancels between any two steps of `__RunLoop`.  The posts of
a run are numbered, and a callback carries the number of its post, so that a
message can be told from a later one with the same id.
-/

namespace GoSocket.Common

open GoSocket.Foundation

inductive QueueEvent where
  | posted (n : Nat) (messageId : UInt32)
  | canceled (messageId : UInt32)
  | drained (n : Nat)
  | skipped (n : Nat)
  | called (n : Nat)
  deriving DecidableEq, Repr

inductive QueueAction (κ : Type) where
  | post (now afterSec : Int) (callback : Option κ)
  | cancel (messageId : UInt32)
  | drain (now : Int)
  | checkCanceled
  | returned
  | rest
  | wake

/-- `notified` is a notification that the waiting loop has not acted on; the log
is newest first. -/
structure QueueRun (κ : Type) where
  queue : MessageQueue (Nat × κ) := {}
  posts : Nat := 0
  notified : Bool := false
  log : List QueueEvent := []

namespace QueueRun

variable {κ : Type}

def drainedEvents (due : List (Message (Nat × κ))) : List QueueEvent :=
  due.filterMap fun m => m.callback.map fun (n, _) => .drained n

def step (self : QueueRun κ) : QueueAction κ → Option (QueueRun κ)
  | .post now afterSec callback =>
      let (queue, messageId) :=
        self.queue.postMessage now afterSec (callback.map (self.posts, ·))
      some {
        queue
        posts := self.posts + 1
        notified := self.notified || self.queue.loop.isWaiting
        log := .posted self.posts messageId :: self.log }
  | .cancel messageId =>
      some { self with
        queue := (self.queue.cancelMessage messageId).1
        log := .canceled messageId :: self.log }
  | .drain now =>
      (self.queue.drain now).map fun queue => { self with
        queue
        log := drainedEvents
          (self.queue.messages.takeWhile (MessageQueue.isDue now)) ++ self.log }
  | .checkCanceled =>
      match self.queue.loop.todo, self.queue.checkCanceled with
      | (_, n, _) :: _, some queue =>
          some { self with
            queue
            log := (if queue.loop.isCalling then .called n else .skipped n) ::
              self.log }
      | _, _ => none
  | .returned => self.queue.returned.map ({ self with queue := · })
  | .rest => self.queue.rest.map ({ self with queue := · })
  | .wake => self.queue.wake.map ({ self with queue := ·, notified := false })

/-! ## What a run says -/

/-- What has happened since post number `n`. -/
def since (n : Nat) (log : List QueueEvent) : List QueueEvent :=
  log.takeWhile fun
    | .posted m _ => m ≠ n
    | _ => true

/-- Message `n` was canceled at that point of the log. -/
def Canceled (n : Nat) (log : List QueueEvent) : Prop :=
  ∃ messageId, .posted n messageId ∈ log ∧ .canceled messageId ∈ since n log

/-- The loop has called message `n`, or has found it canceled. -/
def Settled (n : Nat) (log : List QueueEvent) : Prop :=
  .called n ∈ log ∨
    ∃ after before, log = after ++ .skipped n :: before ∧ Canceled n before

/-- No canceled message is called, and every drained one is called once, unless
it still waits for that or was canceled in time. -/
structure CalledOnce (s : QueueRun κ) : Prop where
  notCanceled : ∀ n after before, s.log = after ++ .called n :: before →
    ¬ Canceled n before
  once : ∀ n, s.log.count (.called n) ≤ 1
  drained : ∀ n, .drained n ∈ s.log →
    (∃ messageId callback, (messageId, n, callback) ∈ s.queue.loop.todo) ∨
      Settled n s.log

/-- The loop can go through its callbacks to the end. -/
def CanFinish (s : QueueRun κ) : Prop :=
  ∃ actions t, (∀ a ∈ actions, a = .checkCanceled ∨ a = .returned) ∧
    run step s actions = some t ∧ t.queue.loop.todo = []

def living (s : QueueRun κ) : List UInt32 :=
  s.queue.messages.map (·.messageId) ++ s.queue.loop.todo.map Prod.fst

def lastPost (messageId : UInt32) : List QueueEvent → Nat
  | [] => 0
  | .posted n messageId' :: older =>
      if messageId' = messageId then n else lastPost messageId older
  | _ :: older => lastPost messageId older

def FewPosts (s : QueueRun κ) : QueueAction κ → Prop
  | .post _ _ _ =>
      ∀ messageId ∈ s.living, s.posts < lastPost messageId s.log + 4294967294
  | _ => True

/-! ## The log grows -/

private theorem of_append_eq {es log after before : List QueueEvent}
    {e : QueueEvent} (hnot : e ∉ es) (h : es ++ log = after ++ e :: before) :
    ∃ after', log = after' ++ e :: before := by
  rcases List.append_eq_append_iff.mp h with ⟨after', -, hlog⟩ | ⟨front, hes, hlog⟩
  · exact ⟨after', hlog⟩
  · cases front with
    | nil => exact ⟨[], hlog.symm⟩
    | cons e' front =>
        injection hlog with heq _
        exact absurd (by simp [hes, heq]) hnot

theorem Settled.append {n : Nat} {log : List QueueEvent} (h : Settled n log)
    (es : List QueueEvent) : Settled n (es ++ log) := by
  rcases h with hcalled | ⟨after, before, rfl, hcanceled⟩
  · exact .inl (List.mem_append_right es hcalled)
  · exact .inr ⟨es ++ after, before, by simp, hcanceled⟩

variable {s t : QueueRun κ}

theorem CalledOnce.append (h : CalledOnce s) {l : List QueueEvent}
    (hlog : t.log = l ++ s.log) (hcalled : ∀ n, .called n ∉ l)
    (hdrained : ∀ n, .drained n ∈ l →
      ∃ messageId callback, (messageId, n, callback) ∈ t.queue.loop.todo)
    (htodo : ∀ kv ∈ s.queue.loop.todo, kv ∈ t.queue.loop.todo) :
    CalledOnce t where
  notCanceled n after before heq := by
    rw [hlog] at heq
    obtain ⟨after', hs⟩ := of_append_eq (hcalled n) heq
    exact h.notCanceled n after' before hs
  once n := by
    rw [hlog, List.count_append, List.count_eq_zero_of_not_mem (hcalled n)]
    simpa using h.once n
  drained n hn := by
    rw [hlog] at hn ⊢
    rcases List.mem_append.mp hn with hn | hn
    · exact .inl (hdrained n hn)
    · rcases h.drained n hn with ⟨messageId, callback, hmem⟩ | hsettled
      · exact .inl ⟨messageId, callback, htodo _ hmem⟩
      · exact .inr (hsettled.append l)

/-! ## The invariant -/

/-- A callback in the list is that of its post, which was not canceled. -/
def Waits (s : QueueRun κ) (m : Message (Nat × κ)) (n : Nat) : Prop :=
  .posted n m.messageId ∈ s.log ∧
    ∀ callback, m.callback = some callback → callback.1 = n ∧
      .canceled m.messageId ∉ since n s.log ∧ .drained n ∉ s.log

/-- The post numbers give the ids, ids of living messages differ, and the set of
canceled ids says of the messages of a pass whether they were canceled. -/
structure Tracked (s : QueueRun κ) : Prop where
  currentMsgId : s.queue.currentMsgId.toNat = 1 + s.posts % 4294967294
  posted : ∀ n messageId, .posted n messageId ∈ s.log →
    n < s.posts ∧ messageId.toNat = 1 + n % 4294967294
  nodup : s.living.Nodup
  waiting : ∀ m ∈ s.queue.messages, ∃ n, s.Waits m n
  todo : ∀ messageId n callback,
    (messageId, n, callback) ∈ s.queue.loop.todo →
      .posted n messageId ∈ s.log ∧
        (.canceled messageId ∈ since n s.log ↔
          messageId ∈ s.queue.canceledMessageIds) ∧
        .drained n ∈ s.log ∧ .called n ∉ s.log
  drained : ∀ n, .drained n ∈ s.log → n < s.posts
  called : ∀ n, .called n ∈ s.log → .drained n ∈ s.log
  calledOnce : CalledOnce s

theorem tracked_init : Tracked ({} : QueueRun κ) where
  currentMsgId := rfl
  posted := by simp
  nodup := by simp [living, LoopPc.todo]
  waiting := by simp
  todo := by simp [LoopPc.todo]
  drained := by simp
  called := by simp
  calledOnce := by constructor <;> simp

namespace Tracked

theorem posted_unique (h : Tracked s) {n : Nat} {messageId messageId' : UInt32}
    (hposted : .posted n messageId ∈ s.log)
    (hposted' : .posted n messageId' ∈ s.log) : messageId = messageId' := by
  apply UInt32.toNat_inj.mp
  rw [(h.posted n _ hposted).2, (h.posted n _ hposted').2]

theorem lastPost_posted {log : List QueueEvent} {n : Nat} {messageId : UInt32}
    (h : .posted n messageId ∈ log) :
    .posted (lastPost messageId log) messageId ∈ log := by
  induction log with
  | nil => cases h
  | cons e older ih =>
      rcases List.mem_cons.mp h with rfl | hmem
      · simp [lastPost]
      · have hlast := List.mem_cons_of_mem e (ih hmem)
        cases e with
        | posted m messageId' =>
            rw [lastPost]
            split
            · next heq => simp [heq]
            · exact hlast
        | _ => exact hlast

theorem posted_of_living (h : Tracked s) {messageId : UInt32}
    (hliving : messageId ∈ s.living) : ∃ n, .posted n messageId ∈ s.log := by
  rcases List.mem_append.mp hliving with hmem | hmem
  · obtain ⟨m, hm, rfl⟩ := List.mem_map.mp hmem
    obtain ⟨n, hposted, -⟩ := h.waiting m hm
    exact ⟨n, hposted⟩
  · obtain ⟨⟨_, n, callback⟩, hm, rfl⟩ := List.mem_map.mp hmem
    exact ⟨n, (h.todo _ n callback hm).1⟩

theorem fresh (h : Tracked s) {now afterSec : Int} {callback : Option κ}
    (hok : FewPosts s (.post now afterSec callback)) :
    s.queue.currentMsgId ∉ s.living := by
  intro hliving
  obtain ⟨n, hposted⟩ := h.posted_of_living hliving
  have hfew := hok _ hliving
  obtain ⟨hlt, hid⟩ := h.posted _ _ (lastPost_posted hposted)
  have hcurrent := h.currentMsgId
  omega

theorem post (h : Tracked s) (now afterSec : Int) (callback : Option κ)
    (hok : FewPosts s (.post now afterSec callback))
    (hstep : s.step (.post now afterSec callback) = some t) : Tracked t := by
  have hfresh := h.fresh hok
  have hcurrent := h.currentMsgId
  rw [living, List.mem_append, not_or] at hfresh
  simp only [step, MessageQueue.postMessage, Option.some.injEq] at hstep
  subst hstep
  have hsince (n : Nat) (hn : n < s.posts) : since n
      (.posted s.posts s.queue.currentMsgId :: s.log) =
        .posted s.posts s.queue.currentMsgId :: since n s.log := by
    simp [since, Nat.ne_of_gt hn]
  constructor
  case currentMsgId => exact MessageQueue.toNat_nextMsgId hcurrent
  case posted =>
    intro n messageId hposted
    rcases List.mem_cons.mp hposted with heq | hposted
    · cases heq
      exact ⟨Nat.lt_succ_self _, hcurrent⟩
    · have hold := h.posted n messageId hposted
      exact ⟨Nat.lt_succ_of_lt hold.1, hold.2⟩
  case nodup =>
    have hnodup := List.nodup_append.mp h.nodup
    refine List.nodup_append.mpr ⟨?_, hnodup.2.1, ?_⟩
    · apply MessageQueue.nodup_insertMessage _ hnodup.1
      intro m hm heq
      exact hfresh.1 (List.mem_map.mpr ⟨m, hm, heq⟩)
    · intro messageId hmem messageId' hmem' heq
      obtain ⟨m, hm, rfl⟩ := List.mem_map.mp hmem
      rcases MessageQueue.mem_insertMessage.mp hm with rfl | hm
      · subst heq
        exact hfresh.2 hmem'
      · exact hnodup.2.2 _ (List.mem_map.mpr ⟨m, hm, rfl⟩) _ hmem' heq
  case waiting =>
    intro m hm
    rcases MessageQueue.mem_insertMessage.mp hm with rfl | hm
    · refine ⟨s.posts, by simp, ?_⟩
      intro tagged htagged
      obtain ⟨c, -, rfl⟩ := Option.map_eq_some_iff.mp htagged
      refine ⟨rfl, by simp [since], ?_⟩
      intro hdrained
      have hlt := h.drained s.posts (by simpa using hdrained)
      exact Nat.lt_irrefl _ hlt
    · obtain ⟨n, hposted, hwaits⟩ := h.waiting m hm
      refine ⟨n, List.mem_cons_of_mem _ hposted, ?_⟩
      intro tagged htagged
      obtain ⟨hn, hcanceled, hdrained⟩ := hwaits tagged htagged
      refine ⟨hn, ?_, by simpa using hdrained⟩
      rw [hsince n (h.posted n _ hposted).1]
      simpa using hcanceled
  case todo =>
    intro messageId n c hmem
    obtain ⟨hposted, hcanceled, hdrained, hcalled⟩ := h.todo messageId n c hmem
    refine ⟨List.mem_cons_of_mem _ hposted, ?_, by simpa using hdrained,
      by simpa using hcalled⟩
    rw [hsince n (h.posted n _ hposted).1]
    simpa using hcanceled
  case drained =>
    intro n hdrained
    exact Nat.lt_succ_of_lt (h.drained n (by simpa using hdrained))
  case called => simpa using h.called
  case calledOnce =>
    exact h.calledOnce.append (l := [_]) rfl (by simp) (by simp)
      (fun _ hkv => hkv)

theorem cancel (h : Tracked s) (messageId : UInt32)
    (hstep : s.step (.cancel messageId) = some t) : Tracked t := by
  simp only [step, MessageQueue.cancelMessage, Option.some.injEq] at hstep
  subst hstep
  have hsince (n : Nat) : since n (.canceled messageId :: s.log) =
      .canceled messageId :: since n s.log := by
    simp [since]
  have hsub := MessageQueue.removeMessage_sublist messageId s.queue.messages
  have hnodup := List.nodup_append.mp h.nodup
  constructor
  case currentMsgId => exact h.currentMsgId
  case posted => simpa using h.posted
  case nodup => exact h.nodup.sublist ((hsub.map _).append_right _)
  case waiting =>
    intro m hm
    obtain ⟨n, hposted, hwaits⟩ := h.waiting m (hsub.subset hm)
    refine ⟨n, List.mem_cons_of_mem _ hposted, ?_⟩
    intro tagged htagged
    obtain ⟨hn, hcanceled, hdrained⟩ := hwaits tagged htagged
    have hne := MessageQueue.messageId_ne_of_mem_removeMessage hnodup.1 hm
    refine ⟨hn, ?_, by simpa using hdrained⟩
    rw [hsince]
    simpa [hne] using hcanceled
  case todo =>
    intro messageId' n c hmem
    obtain ⟨hposted, hcanceled, hdrained, hcalled⟩ := h.todo messageId' n c hmem
    refine ⟨List.mem_cons_of_mem _ hposted, ?_, by simpa using hdrained,
      by simpa using hcalled⟩
    rw [hsince, Std.TreeMap.mem_insert]
    simp only [List.mem_cons, QueueEvent.canceled.injEq, hcanceled]
    refine or_congr_left ?_
    rw [Std.LawfulEqCmp.compare_eq_iff_eq]
    exact eq_comm
  case drained => simpa using h.drained
  case called => simpa using h.called
  case calledOnce =>
    exact h.calledOnce.append (l := [_]) rfl (by simp) (by simp)
      (fun _ hkv => hkv)

theorem mem_drainedEvents {due : List (Message (Nat × κ))} {e : QueueEvent} :
    e ∈ drainedEvents due ↔
      ∃ m ∈ due, ∃ n c, m.callback = some (n, c) ∧ e = .drained n := by
  simp only [drainedEvents, List.mem_filterMap, Option.map_eq_some_iff]
  constructor
  · rintro ⟨m, hm, ⟨n, c⟩, hcallback, rfl⟩
    exact ⟨m, hm, n, c, hcallback, rfl⟩
  · rintro ⟨m, hm, n, c, hcallback, rfl⟩
    exact ⟨m, hm, (n, c), hcallback, rfl⟩

@[simp] theorem since_drainedEvents (n : Nat) (due : List (Message (Nat × κ))) :
    since n (drainedEvents due ++ s.log) = drainedEvents due ++ since n s.log := by
  unfold since
  rw [List.takeWhile_append_of_pos]
  intro e he
  obtain ⟨_, _, _, _, _, rfl⟩ := mem_drainedEvents.mp he
  rfl

theorem drain (h : Tracked s) (now : Int)
    (hstep : s.step (.drain now) = some t) : Tracked t := by
  obtain ⟨queue, hdrain, rfl⟩ := Option.map_eq_some_iff.mp hstep
  unfold MessageQueue.drain at hdrain
  split at hdrain
  case h_2 => cases hdrain
  next hloop =>
  cases hdrain
  have hsplit := List.takeWhile_append_dropWhile
    (p := MessageQueue.isDue now) (l := s.queue.messages)
  generalize hdue : s.queue.messages.takeWhile (MessageQueue.isDue now) = due at *
  generalize s.queue.messages.dropWhile (MessageQueue.isDue now) = later at *
  have hnodup : ((due ++ later).map (·.messageId)).Nodup := by
    rw [hsplit]
    exact (List.nodup_append.mp h.nodup).1
  rw [List.map_append] at hnodup
  have hids := List.nodup_append.mp hnodup
  have hwaiting (m : Message (Nat × κ)) (hm : m ∈ due ++ later) :
      ∃ n, s.Waits m n := h.waiting m (hsplit ▸ hm)
  have hdrained (n : Nat) (hn : .drained n ∈ drainedEvents due) :
      ∃ m ∈ due, ∃ c, m.callback = some (n, c) ∧ s.Waits m n := by
    obtain ⟨m, hm, _, c, hcallback, heq⟩ := mem_drainedEvents.mp hn
    cases heq
    obtain ⟨n', hwaits⟩ := hwaiting m (List.mem_append_left _ hm)
    obtain ⟨rfl, -⟩ := hwaits.2 _ hcallback
    exact ⟨m, hm, c, hcallback, hwaits⟩
  have hposted (n : Nat) (messageId : UInt32) :
      .posted n messageId ∈ drainedEvents due ++ s.log ↔
        .posted n messageId ∈ s.log := by
    simp [mem_drainedEvents]
  have hcalled (n : Nat) : .called n ∈ drainedEvents due ++ s.log ↔
      .called n ∈ s.log := by
    simp [mem_drainedEvents]
  constructor
  case currentMsgId => exact h.currentMsgId
  case posted =>
    intro n messageId hmem
    exact h.posted n messageId ((hposted n messageId).mp hmem)
  case nodup =>
    refine List.nodup_append.mpr
      ⟨hids.2.1, MessageQueue.nodup_callbackMap due, ?_⟩
    intro messageId hmem messageId' hmem' heq
    obtain ⟨⟨_, callback⟩, hkv, rfl⟩ := List.mem_map.mp hmem'
    obtain ⟨m, hm, hid, -⟩ := MessageQueue.of_mem_callbackMap hkv
    exact hids.2.2 _ (List.mem_map.mpr ⟨m, hm, hid⟩) _ hmem heq.symm
  case waiting =>
    intro m hm
    obtain ⟨n, hpost, hwaits⟩ := hwaiting m (List.mem_append_right _ hm)
    refine ⟨n, (hposted n _).mpr hpost, ?_⟩
    intro tagged htagged
    obtain ⟨hn, hcanceled, hold⟩ := hwaits tagged htagged
    refine ⟨hn, ?_, ?_⟩
    · simp [since_drainedEvents, mem_drainedEvents, hcanceled]
    · intro hmem
      rcases List.mem_append.mp hmem with hnew | hmem
      · obtain ⟨m', hm', _, _, hpost', -⟩ := hdrained n hnew
        have hid := h.posted_unique hpost' hpost
        exact hids.2.2 _ (List.mem_map.mpr ⟨m', hm', hid⟩) _
          (List.mem_map.mpr ⟨m, hm, rfl⟩) rfl
      · exact hold hmem
  case todo =>
    intro messageId n c hkv
    obtain ⟨m, hm, rfl, hcallback⟩ := MessageQueue.of_mem_callbackMap hkv
    obtain ⟨n', hpost, hwaits⟩ := hwaiting m (List.mem_append_left _ hm)
    obtain ⟨rfl, hcanceled, hold⟩ := hwaits _ hcallback
    refine ⟨(hposted _ _).mpr hpost, ?_, ?_, ?_⟩
    · simp [since_drainedEvents, mem_drainedEvents, hcanceled]
    · exact List.mem_append_left _
        (mem_drainedEvents.mpr ⟨m, hm, _, c, hcallback, rfl⟩)
    · rw [hcalled]
      exact fun hmem => hold (h.called _ hmem)
  case drained =>
    intro n hmem
    rcases List.mem_append.mp hmem with hnew | hmem
    · obtain ⟨_, _, _, _, hpost, -⟩ := hdrained n hnew
      exact (h.posted n _ hpost).1
    · exact h.drained n hmem
  case called =>
    intro n hmem
    exact List.mem_append_right _ (h.called n ((hcalled n).mp hmem))
  case calledOnce =>
    refine h.calledOnce.append rfl ?_ ?_ ?_
    · simp [mem_drainedEvents]
    · intro n hn
      obtain ⟨m, hm, c, hcallback, -⟩ := hdrained n hn
      exact ⟨m.messageId, c, MessageQueue.mem_callbackMap hids.1 hm hcallback⟩
    · simp [hloop, LoopPc.todo]

theorem checkCanceled (h : Tracked s)
    (hstep : s.step .checkCanceled = some t) : Tracked t := by
  simp only [step] at hstep
  split at hstep
  case h_2 => cases hstep
  next messageId n c todo queue htodo hcheck =>
  cases hstep
  obtain ⟨hqueue, htail, hcalls⟩ := MessageQueue.checkCanceled_eq hcheck htodo
  rw [hqueue]
  have hhead := h.todo messageId n c (by simp [htodo])
  have hsubset : ∀ kv ∈ queue.loop.todo, kv ∈ s.queue.loop.todo := by
    intro kv hkv
    rw [htodo, ← htail]
    exact List.mem_cons_of_mem _ hkv
  have hids := (List.nodup_append.mp h.nodup).2.1
  rw [htodo, List.map_cons, List.nodup_cons, ← htail] at hids
  have hother (messageId' : UInt32) (n' : Nat) (c' : κ)
      (hkv : (messageId', n', c') ∈ queue.loop.todo) : n' ≠ n := by
    rintro rfl
    have hid := h.posted_unique (h.todo _ _ _ (hsubset _ hkv)).1 hhead.1
    exact hids.1 (List.mem_map.mpr ⟨_, hkv, hid⟩)
  generalize he : (if queue.loop.isCalling then QueueEvent.called n
    else .skipped n) = e
  have hevent : messageId ∉ s.queue.canceledMessageIds ∧ e = .called n ∨
      messageId ∈ s.queue.canceledMessageIds ∧ e = .skipped n := by
    rw [← he, hcalls]
    by_cases hmem : messageId ∈ s.queue.canceledMessageIds <;> simp [hmem]
  have hsince (n' : Nat) : since n' (e :: s.log) = e :: since n' s.log := by
    rcases hevent with ⟨-, rfl⟩ | ⟨-, rfl⟩ <;> rfl
  have hcanceledIff (id : UInt32) (n' : Nat) :
      .canceled id ∈ since n' (e :: s.log) ↔ .canceled id ∈ since n' s.log := by
    rw [hsince]
    rcases hevent with ⟨-, rfl⟩ | ⟨-, rfl⟩ <;> simp
  have hposted (n' : Nat) (id : UInt32) :
      .posted n' id ∈ e :: s.log ↔ .posted n' id ∈ s.log := by
    rcases hevent with ⟨-, rfl⟩ | ⟨-, rfl⟩ <;> simp
  have hdrained (n' : Nat) : .drained n' ∈ e :: s.log ↔ .drained n' ∈ s.log := by
    rcases hevent with ⟨-, rfl⟩ | ⟨-, rfl⟩ <;> simp
  have hcalled (n' : Nat) (hne : n' ≠ n) :
      .called n' ∈ e :: s.log ↔ .called n' ∈ s.log := by
    rcases hevent with ⟨-, rfl⟩ | ⟨-, rfl⟩ <;> simp [hne]
  constructor
  case currentMsgId => exact h.currentMsgId
  case posted => simpa only [hposted] using h.posted
  case nodup =>
    refine h.nodup.sublist (List.Sublist.append_left ?_ _)
    rw [htodo, ← htail]
    exact List.sublist_cons_self _ _
  case waiting =>
    intro m hm
    obtain ⟨n', hwaits⟩ := h.waiting m hm
    refine ⟨n', ?_⟩
    simpa only [Waits, hposted, hcanceledIff, hdrained] using hwaits
  case todo =>
    intro messageId' n' c' hkv
    have hold := h.todo messageId' n' c' (hsubset _ hkv)
    rw [hcalled n' (hother _ _ _ hkv)]
    simpa only [hposted, hcanceledIff, hdrained] using hold
  case drained => simpa only [hdrained] using h.drained
  case called =>
    intro n' hn'
    rw [hdrained]
    by_cases hne : n' = n
    · exact hne ▸ hhead.2.2.1
    · exact h.called n' ((hcalled n' hne).mp hn')
  case calledOnce =>
    constructor
    case notCanceled =>
      intro n' after before heq
      rcases List.cons_eq_append_iff.mp heq with ⟨-, hfront⟩ | ⟨after', -, hlog⟩
      · injection hfront with hcall hbefore
        rw [hbefore]
        rintro ⟨id, hpost, hcancel⟩
        rcases hevent with ⟨hnot, rfl⟩ | ⟨-, rfl⟩
        · cases hcall
          cases h.posted_unique hpost hhead.1
          exact hnot (hhead.2.1.mp hcancel)
        · cases hcall
      · exact h.calledOnce.notCanceled n' after' before hlog
    case once =>
      intro n'
      by_cases hne : n' = n
      · rw [hne]
        have hzero := List.count_eq_zero_of_not_mem hhead.2.2.2
        rcases hevent with ⟨-, rfl⟩ | ⟨-, rfl⟩ <;> simp [hzero]
      · have hle := h.calledOnce.once n'
        rcases hevent with ⟨-, rfl⟩ | ⟨-, rfl⟩ <;>
          simpa [List.count_cons, Ne.symm hne] using hle
    case drained =>
      intro n' hn'
      rcases h.calledOnce.drained n' ((hdrained n').mp hn') with
        ⟨id, c', hkv⟩ | hsettled
      · rw [htodo, ← htail] at hkv
        rcases List.mem_cons.mp hkv with heq | hkv
        · cases heq
          refine .inr ?_
          rcases hevent with ⟨-, rfl⟩ | ⟨hmem, rfl⟩
          · exact .inl List.mem_cons_self
          · exact .inr ⟨[], s.log, rfl, _, hhead.1, hhead.2.1.mpr hmem⟩
        · exact .inl ⟨id, c', hkv⟩
      · exact .inr (hsettled.append [e])

theorem of_idles (h : Tracked s) {queue : MessageQueue (Nat × κ)}
    {notified : Bool} (hidles : s.queue.Idles queue) :
    Tracked { s with queue, notified } where
  currentMsgId := hidles.currentMsgId ▸ h.currentMsgId
  posted := h.posted
  nodup := by
    simpa only [living, hidles.messages, hidles.todo] using h.nodup
  waiting m hm := h.waiting m (hidles.messages ▸ hm)
  todo := by
    simpa only [hidles.canceledMessageIds, hidles.todo] using h.todo
  drained := h.drained
  called := h.called
  calledOnce := h.calledOnce.append (l := []) rfl (by simp) (by simp)
    (by simp [hidles.todo])

theorem step (h : Tracked s) (action : QueueAction κ) (hok : FewPosts s action)
    (hstep : s.step action = some t) : Tracked t := by
  cases action with
  | post now afterSec callback => exact h.post now afterSec callback hok hstep
  | cancel messageId => exact h.cancel messageId hstep
  | drain now => exact h.drain now hstep
  | checkCanceled => exact h.checkCanceled hstep
  | returned =>
      obtain ⟨queue, hreturned, rfl⟩ := Option.map_eq_some_iff.mp hstep
      exact h.of_idles (MessageQueue.idles_returned hreturned)
  | rest =>
      obtain ⟨queue, hrest, rfl⟩ := Option.map_eq_some_iff.mp hstep
      exact h.of_idles (MessageQueue.idles_rest hrest)
  | wake =>
      obtain ⟨queue, hwake, rfl⟩ := Option.map_eq_some_iff.mp hstep
      exact h.of_idles (MessageQueue.idles_wake hwake)

end Tracked

/-! ## Every callback is called once -/

theorem CanFinish.cons {action : QueueAction κ}
    (haction : action = .checkCanceled ∨ action = .returned)
    (hstep : s.step action = some t) (h : CanFinish t) : CanFinish s := by
  obtain ⟨actions, u, hactions, hrun, htodo⟩ := h
  refine ⟨action :: actions, u, ?_, ?_, htodo⟩
  · simpa [haction] using hactions
  · rw [run, hstep]
    exact hrun

theorem canFinish_next (todo : List (UInt32 × Nat × κ)) {now duration : Int}
    (hloop : s.queue.loop = .next { todo, now, duration }) : CanFinish s := by
  induction todo generalizing s with
  | nil => exact ⟨[], s, by simp, rfl, by simp [hloop, LoopPc.todo]⟩
  | cons kv todo ih =>
      obtain ⟨messageId, n, callback⟩ := kv
      by_cases hmem : messageId ∈ s.queue.canceledMessageIds
      · refine CanFinish.cons (.inl rfl) (t := { s with
          queue := { s.queue with loop := .next { todo, now, duration } }
          log := .skipped n :: s.log }) ?_ (ih rfl)
        simp [step, MessageQueue.checkCanceled, hloop, hmem, LoopPc.todo,
          LoopPc.isCalling]
      · refine CanFinish.cons (.inl rfl) (t := { s with
          queue := { s.queue with
            loop := .calling messageId (n, callback) { todo, now, duration } }
          log := .called n :: s.log }) ?_ (.cons (.inr rfl) rfl (ih rfl))
        simp [step, MessageQueue.checkCanceled, hloop, hmem, LoopPc.todo,
          LoopPc.isCalling]

theorem canFinish (s : QueueRun κ) : CanFinish s := by
  cases hloop : s.queue.loop with
  | next pass => exact canFinish_next pass.todo hloop
  | calling messageId callback pass =>
      refine CanFinish.cons (.inr rfl)
        (t := { s with queue := { s.queue with loop := .next pass } }) ?_
        (canFinish_next pass.todo rfl)
      simp [step, MessageQueue.returned, hloop]
  | _ => exact ⟨[], s, by simp, rfl, by simp [hloop, LoopPc.todo]⟩

/-- While fewer than 2^32 - 2 posts are made in the life of a message, the
canceled messages are not called and the others are, once. -/
theorem calledOnce_of_fewPosts (h : Reachable step FewPosts {} s) :
    CalledOnce s ∧ CanFinish s := by
  have htracked : Tracked s := h.invariant tracked_init
    fun _ action _ _ ht hok hstep => ht.step action hok hstep
  exact ⟨htracked.calledOnce, canFinish s⟩

theorem calledOnce_canceled : ∃ s : QueueRun Unit,
    s.log = [.called 1, .skipped 0, .canceled 1, .drained 1, .drained 0,
      .posted 1 2, .posted 0 1] ∧ CalledOnce s ∧ CanFinish s := by
  have hpass : Reachable step FewPosts ({} : QueueRun Unit) _ :=
    .tail .checkCanceled (.tail .checkCanceled (.tail (.cancel 1)
      (.tail (.drain 3000000000) (.tail (.post 0 2 (some ())) (.tail
        (.post 0 3 (some ())) .refl ?_ rfl) ?_ rfl) trivial rfl) trivial rfl)
      trivial rfl) trivial rfl
  · exact ⟨_, rfl, calledOnce_of_fewPosts hpass⟩
  · intro messageId hliving
    cases hliving
  · intro messageId _
    exact Nat.lt_of_lt_of_le (by decide : 1 < 4294967294) (Nat.le_add_left _ _)

/-! ## No wake-up is lost -/

/-- A blocked loop that was not notified wakes when its first message is due,
and the duration that stands for no message is that of no message. -/
structure NoLostWakeup (s : QueueRun κ) : Prop where
  wakes : ∀ until?, s.queue.loop = .waiting until? → s.notified = false →
    ∀ m rest, s.queue.messages = m :: rest → ∃ time, until? = some time ∧
      time ≤ m.when
  duration : ∀ now queue pass, s.queue.drain now = some queue →
    queue.loop = .next pass → (pass.duration = 0 ↔ queue.messages = [])

/-- The pass waits no longer than until this message is due. -/
def InTime (pass : Pass (Nat × κ)) (m : Message (Nat × κ)) : Prop :=
  pass.duration ≠ 0 ∧ pass.now + pass.duration * 1000000 ≤ m.when

/-- Without a post since the drain, the pass waits for none too long. -/
structure Timed (s : QueueRun κ) : Prop where
  sorted : s.queue.messages.Pairwise (·.when ≤ ·.when)
  next : ∀ pass, s.queue.loop = .next pass → s.queue.hasPost = false →
    ∀ m ∈ s.queue.messages, InTime pass m
  calling : ∀ messageId callback pass,
    s.queue.loop = .calling messageId callback pass → s.queue.hasPost = false →
      ∀ m ∈ s.queue.messages, InTime pass m
  waiting : ∀ until?, s.queue.loop = .waiting until? → s.notified = false →
    ∀ m ∈ s.queue.messages, ∃ time, until? = some time ∧ time ≤ m.when

theorem durationToMs_of_not_isDue {now : Int} {m : Message κ}
    (h : ¬ MessageQueue.isDue now m = true) :
    0 < durationToMs (m.when - now) ∧
      now + durationToMs (m.when - now) * 1000000 ≤ m.when := by
  have hneg : (now - m.when).tdiv 1000000 < 0 :=
    Int.not_le.mp fun hle => h (decide_eq_true hle)
  have hlt : now < m.when := by
    by_contra hle
    have hnonneg : 0 ≤ (now - m.when).tdiv 1000000 :=
      Int.tdiv_nonneg (by omega) (by omega)
    omega
  have hswap : now - m.when = -(m.when - now) := by omega
  rw [hswap, Int.neg_tdiv, Int.tdiv_eq_ediv_of_nonneg (by omega)] at hneg
  rw [durationToMs, Int.tdiv_eq_ediv_of_nonneg (by omega)]
  omega

theorem inTime_of_dropWhile {now : Int} {messages : List (Message (Nat × κ))}
    (hsorted : messages.Pairwise (·.when ≤ ·.when))
    {m : Message (Nat × κ)} {rest : List (Message (Nat × κ))}
    (hdrop : messages.dropWhile (MessageQueue.isDue now) = m :: rest)
    (todo : List (UInt32 × Nat × κ)) :
    ∀ m' ∈ m :: rest,
      InTime { todo, now, duration := durationToMs (m.when - now) } m' := by
  have hnot : ¬ MessageQueue.isDue now m = true := by
    have hhead := List.head_dropWhile_not (MessageQueue.isDue now)
      (l := messages) (by simp [hdrop])
    simpa [hdrop] using hhead
  obtain ⟨hpos, hle⟩ := durationToMs_of_not_isDue hnot
  have hsub : (m :: rest).Sublist messages :=
    hdrop ▸ List.dropWhile_sublist (MessageQueue.isDue now)
  have hrest := List.pairwise_cons.mp (hsorted.sublist hsub)
  intro m' hm'
  refine ⟨Int.ne_of_gt hpos, Int.le_trans hle ?_⟩
  rcases List.mem_cons.mp hm' with rfl | hm'
  · exact Int.le_refl _
  · exact hrest.1 m' hm'

theorem timed_init : Timed ({} : QueueRun κ) := by
  constructor <;> simp

namespace Timed

theorem post (h : Timed s) (now afterSec : Int) (callback : Option κ)
    (hstep : s.step (.post now afterSec callback) = some t) : Timed t := by
  cases hstep
  constructor
  case sorted => exact MessageQueue.sorted_insertMessage h.sorted
  case next => nofun
  case calling => nofun
  case waiting =>
    intro until? hloop hnotified
    have hwaiting : s.queue.loop.isWaiting = true := by
      rw [show s.queue.loop = .waiting until? from hloop]
      rfl
    simp [hwaiting] at hnotified

theorem cancel (h : Timed s) (messageId : UInt32)
    (hstep : s.step (.cancel messageId) = some t) : Timed t := by
  cases hstep
  have hsub := MessageQueue.removeMessage_sublist messageId s.queue.messages
  constructor
  case sorted => exact h.sorted.sublist hsub
  case next =>
    intro pass hloop hpost m hm
    exact h.next pass hloop hpost m (hsub.subset hm)
  case calling =>
    intro id callback pass hloop hpost m hm
    exact h.calling id callback pass hloop hpost m (hsub.subset hm)
  case waiting =>
    intro until? hloop hnotified m hm
    exact h.waiting until? hloop hnotified m (hsub.subset hm)

theorem drain (h : Timed s) (now : Int)
    (hstep : s.step (.drain now) = some t) : Timed t := by
  obtain ⟨queue, hdrain, rfl⟩ := Option.map_eq_some_iff.mp hstep
  unfold MessageQueue.drain at hdrain
  split at hdrain
  case h_2 => cases hdrain
  next hloop =>
  cases hdrain
  constructor
  case sorted => exact h.sorted.sublist (List.dropWhile_sublist _)
  case next =>
    rintro pass ⟨⟩ - m hm
    dsimp only at hm ⊢
    cases hrest : s.queue.messages.dropWhile (MessageQueue.isDue now) with
    | nil =>
        rw [hrest] at hm
        cases hm
    | cons m' rest =>
        exact inTime_of_dropWhile h.sorted hrest _ m (hrest ▸ hm)
  case calling => nofun
  case waiting => nofun

theorem checkCanceled (h : Timed s)
    (hstep : s.step .checkCanceled = some t) : Timed t := by
  simp only [step] at hstep
  split at hstep
  case h_2 => cases hstep
  next messageId n c todo queue htodo hcheck =>
  cases hstep
  unfold MessageQueue.checkCanceled at hcheck
  split at hcheck
  case h_2 => cases hcheck
  next hloop =>
  have hnext := h.next _ hloop
  split at hcheck
  · cases hcheck
    exact ⟨h.sorted, by rintro pass ⟨⟩; exact hnext, nofun, nofun⟩
  · cases hcheck
    exact ⟨h.sorted, nofun, by rintro _ _ pass ⟨⟩; exact hnext, nofun⟩

theorem rest (h : Timed s) (hstep : s.step .rest = some t) : Timed t := by
  obtain ⟨queue, hrest, rfl⟩ := Option.map_eq_some_iff.mp hstep
  unfold MessageQueue.rest at hrest
  split at hrest
  case h_2 => cases hrest
  next now duration hloop =>
  split at hrest
  · cases hrest
    exact ⟨h.sorted, nofun, nofun, nofun⟩
  · next hpost =>
      have hnext := h.next _ hloop (by simpa using hpost)
      split at hrest
      · next hzero =>
          cases hrest
          refine ⟨h.sorted, nofun, nofun, ?_⟩
          intro _ _ _ m hm
          exact absurd hzero (hnext m hm).1
      · cases hrest
        refine ⟨h.sorted, nofun, nofun, ?_⟩
        rintro until? ⟨⟩ _ m hm
        exact ⟨_, rfl, (hnext m hm).2⟩

theorem step (h : Timed s) (action : QueueAction κ)
    (hstep : s.step action = some t) : Timed t := by
  cases action with
  | post now afterSec callback => exact h.post now afterSec callback hstep
  | cancel messageId => exact h.cancel messageId hstep
  | drain now => exact h.drain now hstep
  | checkCanceled => exact h.checkCanceled hstep
  | rest => exact h.rest hstep
  | returned =>
      obtain ⟨queue, hreturned, rfl⟩ := Option.map_eq_some_iff.mp hstep
      unfold MessageQueue.returned at hreturned
      split at hreturned <;> cases hreturned
      next hloop =>
      refine ⟨h.sorted, ?_, nofun, nofun⟩
      rintro pass ⟨⟩
      exact h.calling _ _ _ hloop
  | wake =>
      obtain ⟨queue, hwake, rfl⟩ := Option.map_eq_some_iff.mp hstep
      unfold MessageQueue.wake at hwake
      split at hwake <;> cases hwake
      exact ⟨h.sorted, nofun, nofun, nofun⟩

theorem duration_eq_zero_iff (h : Timed s) {now : Int}
    {queue : MessageQueue (Nat × κ)} {pass : Pass (Nat × κ)}
    (hdrain : s.queue.drain now = some queue) (hloop : queue.loop = .next pass) :
    pass.duration = 0 ↔ queue.messages = [] := by
  unfold MessageQueue.drain at hdrain
  split at hdrain
  case h_2 => cases hdrain
  cases hdrain
  cases hloop
  dsimp only
  cases hrest : s.queue.messages.dropWhile (MessageQueue.isDue now) with
  | nil => simp
  | cons m rest =>
      have hpos := inTime_of_dropWhile h.sorted hrest [] m List.mem_cons_self
      simpa using hpos.1

end Timed

theorem noLostWakeup (h : Reachable step AnyStep {} s) : NoLostWakeup s := by
  have htimed : Timed s := h.invariant timed_init
    fun _ action _ _ ht _ hstep => ht.step action hstep
  constructor
  case wakes =>
    intro until? hloop hnotified m rest hmessages
    exact htimed.waiting until? hloop hnotified m (by simp [hmessages])
  case duration =>
    intro now queue pass hdrain hloop
    exact htimed.duration_eq_zero_iff hdrain hloop

theorem noLostWakeup_postInCall : ∃ s : QueueRun Unit,
    s.queue.loop = .waiting (some 4999000001) ∧ s.queue.messages.length = 1 ∧
      NoLostWakeup s := by
  have hblocked : Reachable step AnyStep ({} : QueueRun Unit) _ :=
    .tail .rest (.tail (.drain 1000000001) (.tail .rest (.tail .returned (.tail
      (.post 1000000000 4 (some ())) (.tail .checkCanceled (.tail
        (.drain 1000000000) (.tail (.post 0 1 (some ())) .refl trivial rfl)
        trivial rfl) trivial rfl) trivial rfl) trivial rfl) trivial rfl)
      trivial rfl) trivial rfl
  exact ⟨_, rfl, rfl, noLostWakeup hblocked⟩

end QueueRun

end GoSocket.Common
