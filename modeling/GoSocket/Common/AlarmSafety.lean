import GoSocket.Common.AlarmFields

/-!
# When an alarm fires

`FiresProperly` reads the log of a run: every firing belongs to a `Start` of
its own, which is not canceled and is due.  The code does not guarantee it: the
closure only looks whether `_messageId` is zero, so after the queue's check a
`Cancel` and a new `Start` bring a canceled firing back to life.  In runs
without such a `Start` it holds, and the invariant `Good` says why: an alarm has
at most one live copy of its closure, in the list, in the pass of the loop or
in the call.
-/

namespace GoSocket.Common

open GoSocket.Foundation

variable {α : Type} [DecidableEq α]

/-! ## What a log says -/

/-- The firing is the only one of its `Start`, which comes before it, was not
canceled since and whose deadline has passed. -/
def FiredFor (a : α) (start : Nat) (time : Int) (older : List (AlarmEvent α)) :
    Prop :=
  (∀ time', .fired a start time' ∉ older) ∧
    ∃ deadline later earlier,
      older = later ++ .started a start deadline :: earlier ∧
        .canceled a ∉ later ∧ deadline ≤ time

def FiresProperly (a : α) : List (AlarmEvent α) → Prop
  | [] => True
  | .fired b start time :: older =>
      (b = a → FiredFor a start time older) ∧ FiresProperly a older
  | .started _ _ _ :: older => FiresProperly a older
  | .canceled _ :: older => FiresProperly a older

/-- The `Start` of an alarm that neither a `Cancel` nor a firing has followed. -/
def latest (a : α) : List (AlarmEvent α) → Option (Nat × Int)
  | [] => none
  | .started b start deadline :: older =>
      if b = a then some (start, deadline) else latest a older
  | .canceled b :: older => if b = a then none else latest a older
  | .fired b _ _ :: older => if b = a then none else latest a older

private theorem of_latest_eq_some {a : α} {log : List (AlarmEvent α)}
    {start : Nat} {deadline : Int} (h : latest a log = some (start, deadline)) :
    ∃ later earlier, log = later ++ .started a start deadline :: earlier ∧
      .canceled a ∉ later := by
  induction log with
  | nil => simp [latest] at h
  | cons e older ih =>
      cases e with
      | started b k d =>
          by_cases hb : b = a
          · simp only [latest, hb, if_true, Option.some.injEq, Prod.mk.injEq] at h
            obtain ⟨rfl, rfl⟩ := h
            exact ⟨[], older, by rw [hb]; rfl, by simp⟩
          · simp only [latest, hb, if_false] at h
            obtain ⟨later, earlier, rfl, hcanceled⟩ := ih h
            exact ⟨.started b k d :: later, earlier, rfl, by simp [hcanceled]⟩
      | canceled b =>
          by_cases hb : b = a
          · simp [latest, hb] at h
          · simp only [latest, hb, if_false] at h
            obtain ⟨later, earlier, rfl, hcanceled⟩ := ih h
            exact ⟨.canceled b :: later, earlier, rfl,
              by simp [hcanceled, Ne.symm hb]⟩
      | fired b k t =>
          by_cases hb : b = a
          · simp [latest, hb] at h
          · simp only [latest, hb, if_false] at h
            obtain ⟨later, earlier, rfl, hcanceled⟩ := ih h
            exact ⟨.fired b k t :: later, earlier, rfl, by simp [hcanceled]⟩

/-! ## The condition -/

namespace Alarms

/-- A firing of the alarm is between the queue's check and the alarm's own. -/
def Taken (s : Alarms α) (a : α) : Prop :=
  s.firing = false ∧
    ∃ messageId start pass,
      s.queue.loop = .calling messageId { alarm := a, start } pass

/-- The next message id belongs to no pending message. -/
def FreshId (s : Alarms α) : Prop :=
  ∀ m ∈ s.queue.messages, m.messageId ≠ s.queue.currentMsgId

/-- Taking the messages that are due takes none of the alarm's before its time,
as the rounding to milliseconds can. -/
def OnTime (s : Alarms α) (a : α) : Prop :=
  ∀ m ∈ s.queue.messages.takeWhile (MessageQueue.isDue s.now), ∀ start,
    m.callback = some { alarm := a, start } → m.when ≤ s.now

/-- The steps that leave the alarm `a` undisturbed: no `Start` meets a taken
firing of `a`, no message id comes back into use, no drain is early. -/
def Undisturbed (a : α) (s : Alarms α) : AlarmAction α → Prop
  | .start b _ => s.canStart b → s.FreshId ∧ (b = a → ¬ s.Taken a)
  | .drain => s.OnTime a
  | _ => True

/-- The alarm is started with this message, and neither canceled nor fired. -/
def Armed (s : Alarms α) (a : α) (messageId : UInt32) (start : Nat)
    (deadline : Int) : Prop :=
  (s.alarms a).messageId = messageId ∧
    (s.alarms a).status = .kStatusStart ∧
    latest a s.log = some (start, deadline)

def NoPending (s : Alarms α) (a : α) : Prop :=
  ∀ m ∈ s.queue.messages, ∀ start, m.callback ≠ some { alarm := a, start }

/-- The live copy of the closure is armed, and the only one: one in the list,
one that was taken and not canceled, or one that is being called. -/
structure Good (a : α) (s : Alarms α) : Prop where
  nextId : s.queue.currentMsgId ≠ 0 ∧ s.queue.currentMsgId ≠ 0xFFFFFFFF
  waiting : (s.alarms a).status = .kStatusStart → (s.alarms a).messageId ≠ 0
  nodup : (s.queue.messages.map (·.messageId)).Nodup
  keys : (s.queue.loop.todo.map Prod.fst).Nodup
  pending : ∀ m ∈ s.queue.messages, ∀ start,
    m.callback = some { alarm := a, start } →
      s.Armed a m.messageId start m.when
  todo : ∀ messageId start,
    (messageId, { alarm := a, start }) ∈ s.queue.loop.todo →
      messageId ∉ s.queue.canceledMessageIds →
        (∃ deadline, s.Armed a messageId start deadline ∧ deadline ≤ s.now) ∧
          s.NoPending a
  calling : ∀ messageId start pass,
    s.queue.loop = .calling messageId { alarm := a, start } pass →
      s.firing = false → (s.alarms a).messageId ≠ 0 →
        (∃ deadline, s.Armed a messageId start deadline ∧ deadline ≤ s.now) ∧
          s.NoPending a ∧
          ∀ messageId' start', (messageId', { alarm := a, start := start' }) ∈
            pass.todo → messageId' ∈ s.queue.canceledMessageIds
  latestStart : ∀ start deadline, latest a s.log = some (start, deadline) →
    start < s.starts
  firedStart : ∀ start time, .fired a start time ∈ s.log →
    start < s.starts ∧ ∀ deadline, latest a s.log ≠ some (start, deadline)
  log : FiresProperly a s.log

namespace Good

theorem init (a : α) : Good a ({} : Alarms α) where
  nextId := ⟨show (1 : UInt32) ≠ 0 by decide,
    show (1 : UInt32) ≠ 0xFFFFFFFF by decide⟩
  waiting := by simp
  nodup := by simp
  keys := by simp [LoopPc.todo]
  pending := by simp
  todo := by simp [LoopPc.todo]
  calling := by simp
  latestStart := by simp [latest]
  firedStart := by simp
  log := trivial

variable {a b : α} {s t : Alarms α}

theorem idle (h : Good a s) (hstart : s.canStart a) : s.NoPending a ∧
    ∀ messageId start,
      (messageId, { alarm := a, start }) ∈ s.queue.loop.todo →
        messageId ∈ s.queue.canceledMessageIds := by
  have hstatus : (s.alarms a).status ≠ .kStatusStart := by
    intro hstatus
    simp [canStart, Alarm.isWaiting, hstatus] at hstart
  constructor
  · intro m hm start hcallback
    exact hstatus (h.pending m hm start hcallback).2.1
  · intro messageId start hmem
    by_contra hlive
    obtain ⟨⟨deadline, harmed, -⟩, -⟩ := h.todo messageId start hmem hlive
    exact hstatus harmed.2.1

private theorem set_other {c : α} (hc : c ≠ b) (alarm : Alarm) :
    (s.set b alarm).alarms c = s.alarms c := by
  simp [set, Function.update_of_ne hc]

private theorem set_self (alarm : Alarm) : (s.set b alarm).alarms b = alarm := by
  simp [set]

private theorem of_set {alarm : Alarm} (h : Good a s)
    (hid : alarm.messageId = (s.alarms b).messageId)
    (hstatus : alarm.status = (s.alarms b).status) : Good a (s.set b alarm) := by
  have hids (c : α) : ((s.set b alarm).alarms c).messageId =
      (s.alarms c).messageId := by
    by_cases hc : c = b
    · rw [hc, set_self, hid]
    · rw [set_other hc]
  have hstatuses (c : α) : ((s.set b alarm).alarms c).status =
      (s.alarms c).status := by
    by_cases hc : c = b
    · rw [hc, set_self, hstatus]
    · rw [set_other hc]
  constructor
  case waiting =>
    rw [hstatuses, hids]
    exact h.waiting
  case pending =>
    intro m hm start hcallback
    rw [Armed, hids, hstatuses]
    exact h.pending m hm start hcallback
  case todo =>
    intro messageId start hmem hlive
    simp only [Armed, hids, hstatuses]
    exact h.todo messageId start hmem hlive
  case calling =>
    intro messageId start pass hloop hfiring
    simp only [Armed, hids, hstatuses]
    exact h.calling messageId start pass hloop hfiring
  case nextId => exact h.nextId
  case nodup => exact h.nodup
  case keys => exact h.keys
  case latestStart => exact h.latestStart
  case firedStart => exact h.firedStart
  case log => exact h.log

theorem start_eq (hcan : s.canStart b) (afterSec : Int) :
    (s.start b afterSec).1 =
      { s with
        alarms := Function.update s.alarms b { s.alarms b with
          messageId := s.queue.currentMsgId, status := .kStatusStart }
        queue := (s.queue.postMessage s.now afterSec
          (some { alarm := b, start := s.starts })).1
        starts := s.starts + 1
        log := .started b s.starts (s.now + afterSec * 1000000000) :: s.log } := by
  simp [start, hcan, set, MessageQueue.postMessage]

private theorem start_self (h : Good a s) (hcan : s.canStart a)
    (hfresh : s.FreshId) (htaken : ¬ s.Taken a) (afterSec : Int) :
    Good a (s.start a afterSec).1 := by
  obtain ⟨hpending, htodo⟩ := h.idle hcan
  rw [start_eq hcan]
  constructor
  case nextId => exact nextId_postMessage _ h.nextId _ _ _
  case waiting =>
    intro _
    simp only [Function.update_self]
    exact h.nextId.1
  case nodup => exact MessageQueue.nodup_insertMessage hfresh h.nodup
  case keys => exact h.keys
  case pending =>
    intro m hm start hcallback
    rcases MessageQueue.mem_insertMessage.mp hm with rfl | hm
    · cases hcallback
      simp [Armed, latest]
    · exact absurd hcallback (hpending m hm start)
  case todo =>
    intro messageId start hmem hlive
    exact absurd (htodo messageId start hmem) hlive
  case calling =>
    intro messageId start pass hloop hfiring
    exact absurd ⟨hfiring, messageId, start, pass, hloop⟩ htaken
  case latestStart =>
    intro start deadline hlatest
    simp only [latest, if_true, Option.some.injEq, Prod.mk.injEq] at hlatest
    change start < s.starts + 1
    omega
  case firedStart =>
    intro start time hmem
    have hlt := (h.firedStart start time (by simpa using hmem)).1
    refine ⟨Nat.lt_succ_of_lt hlt, fun deadline hlatest => ?_⟩
    simp only [latest, if_true, Option.some.injEq, Prod.mk.injEq] at hlatest
    omega
  case log => exact h.log

private theorem start_other (h : Good a s) (hb : b ≠ a) (hcan : s.canStart b)
    (hfresh : s.FreshId) (afterSec : Int) : Good a (s.start b afterSec).1 := by
  rw [start_eq hcan]
  have halarm (x : Alarm) : Function.update s.alarms b x a = s.alarms a :=
    Function.update_of_ne hb.symm _ _
  have hlatest (start : Nat) (deadline : Int) :
      latest a (.started b start deadline :: s.log) = latest a s.log := by
    simp [latest, hb]
  have hpending {m : Message (Posted α)} {ms : List (Message (Posted α))}
      {id : UInt32} {w : Int} {k start : Nat}
      (hm : m ∈ MessageQueue.insertMessage
        { callback := some { alarm := b, start := k }, messageId := id, when := w }
        ms)
      (hcallback : m.callback = some { alarm := a, start }) : m ∈ ms := by
    rcases MessageQueue.mem_insertMessage.mp hm with rfl | hm
    · cases hcallback
      exact absurd rfl hb
    · exact hm
  constructor
  case nextId => exact nextId_postMessage _ h.nextId _ _ _
  case waiting =>
    simp only [halarm]
    exact h.waiting
  case nodup => exact MessageQueue.nodup_insertMessage hfresh h.nodup
  case keys => exact h.keys
  case pending =>
    intro m hm start hcallback
    simp only [Armed, halarm, hlatest]
    exact h.pending m (hpending hm hcallback) start hcallback
  case todo =>
    intro messageId start hmem hlive
    obtain ⟨harmed, hnone⟩ := h.todo messageId start hmem hlive
    simp only [Armed, halarm, hlatest]
    exact ⟨harmed, fun m hm k hcallback =>
      hnone m (hpending hm hcallback) k hcallback⟩
  case calling =>
    intro messageId start pass hloop hfiring hne
    simp only [halarm] at hne
    obtain ⟨harmed, hnone, htodo⟩ :=
      h.calling messageId start pass hloop hfiring hne
    simp only [Armed, halarm, hlatest]
    exact ⟨harmed, fun m hm k hcallback =>
      hnone m (hpending hm hcallback) k hcallback, htodo⟩
  case latestStart =>
    intro start deadline
    rw [hlatest]
    exact fun hl => Nat.lt_succ_of_lt (h.latestStart start deadline hl)
  case firedStart =>
    intro start time hmem
    obtain ⟨hlt, hne⟩ := h.firedStart start time (by simpa using hmem)
    refine ⟨Nat.lt_succ_of_lt hlt, ?_⟩
    rw [hlatest]
    exact hne
  case log => exact h.log

theorem start (h : Good a s) (afterSec : Int)
    (hok : s.canStart b → s.FreshId ∧ (b = a → ¬ s.Taken a)) :
    Good a (s.start b afterSec).1 := by
  cases hcan : s.canStart b with
  | false =>
      simp only [Alarms.start, hcan]
      exact h
  | true =>
      obtain ⟨hfresh, htaken⟩ := hok hcan
      by_cases hb : b = a
      · subst hb
        exact h.start_self hcan hfresh (htaken rfl) afterSec
      · exact h.start_other hb hcan hfresh afterSec

theorem cancel_eq (hne : (s.alarms b).messageId ≠ 0) :
    (s.cancel b).1 =
      { s with
        alarms := Function.update s.alarms b { s.alarms b with
          messageId := 0, status := .kStatusCancel }
        queue := (s.queue.cancelMessage (s.alarms b).messageId).1
        log := .canceled b :: s.log } := by
  simp [cancel, hne, set]

private theorem cancel_self (h : Good a s) (hne : (s.alarms a).messageId ≠ 0) :
    Good a (s.cancel a).1 := by
  have hnone {m : Message (Posted α)} {start : Nat}
      (hm : m ∈ MessageQueue.removeMessage (s.alarms a).messageId
        s.queue.messages)
      (hcallback : m.callback = some { alarm := a, start }) : False := by
    have hmem := (MessageQueue.removeMessage_sublist _ _).subset hm
    exact MessageQueue.messageId_ne_of_mem_removeMessage h.nodup hm
      (h.pending m hmem start hcallback).1.symm
  rw [cancel_eq hne]
  constructor
  case nextId => exact h.nextId
  case waiting => simp
  case nodup =>
    exact ((MessageQueue.removeMessage_sublist _ _).map _).nodup h.nodup
  case keys => exact h.keys
  case pending => exact fun m hm start hcallback => (hnone hm hcallback).elim
  case todo =>
    intro messageId start hmem hlive
    simp only [MessageQueue.cancelMessage, Std.TreeMap.mem_insert, not_or]
      at hlive
    obtain ⟨⟨deadline, harmed, -⟩, -⟩ := h.todo messageId start hmem hlive.2
    exact absurd (by rw [harmed.1]; exact Std.ReflCmp.compare_self) hlive.1
  case calling => simp
  case latestStart => simp [latest]
  case firedStart =>
    intro start time hmem
    refine ⟨(h.firedStart start time (by simpa using hmem)).1, by simp [latest]⟩
  case log => exact h.log

private theorem cancel_other (h : Good a s) (hb : b ≠ a)
    (hne : (s.alarms b).messageId ≠ 0) : Good a (s.cancel b).1 := by
  rw [cancel_eq hne]
  have halarm (x : Alarm) : Function.update s.alarms b x a = s.alarms a :=
    Function.update_of_ne hb.symm _ _
  have hlatest : latest a (.canceled b :: s.log) = latest a s.log := by
    simp [latest, hb]
  have hsub := MessageQueue.removeMessage_sublist (s.alarms b).messageId
    s.queue.messages
  constructor
  case nextId => exact h.nextId
  case waiting =>
    simp only [halarm]
    exact h.waiting
  case nodup => exact (hsub.map _).nodup h.nodup
  case keys => exact h.keys
  case pending =>
    intro m hm start hcallback
    simp only [Armed, halarm, hlatest]
    exact h.pending m (hsub.subset hm) start hcallback
  case todo =>
    intro messageId start hmem hlive
    simp only [MessageQueue.cancelMessage, Std.TreeMap.mem_insert, not_or]
      at hlive
    obtain ⟨harmed, hnone⟩ := h.todo messageId start hmem hlive.2
    simp only [Armed, halarm, hlatest]
    exact ⟨harmed, fun m hm => hnone m (hsub.subset hm)⟩
  case calling =>
    intro messageId start pass hloop hfiring hne'
    simp only [halarm] at hne'
    obtain ⟨harmed, hnone, htodo⟩ :=
      h.calling messageId start pass hloop hfiring hne'
    simp only [Armed, halarm, hlatest]
    refine ⟨harmed, fun m hm => hnone m (hsub.subset hm), ?_⟩
    intro messageId' start' hmem
    exact Std.TreeMap.mem_insert.mpr (.inr (htodo messageId' start' hmem))
  case latestStart =>
    rw [hlatest]
    exact h.latestStart
  case firedStart =>
    intro start time hmem
    rw [hlatest]
    exact h.firedStart start time (by simpa using hmem)
  case log => exact h.log

theorem cancel (h : Good a s) (b : α) : Good a (s.cancel b).1 := by
  by_cases hne : (s.alarms b).messageId = 0
  · simp only [Alarms.cancel, hne, if_true]
    exact h
  · by_cases hb : b = a
    · subst hb
      exact h.cancel_self hne
    · exact h.cancel_other hb hne

/-! The loop.  Steps that only move it along leave the alarms alone. -/

theorem drain (h : Good a s) (hok : s.OnTime a) {queue : MessageQueue (Posted α)}
    (hdrain : s.queue.drain s.now = some queue) : Good a { s with queue } := by
  unfold MessageQueue.drain at hdrain
  split at hdrain
  · next hloop =>
      cases hdrain
      have hsplit := List.takeWhile_append_dropWhile (p := MessageQueue.isDue s.now)
        (l := s.queue.messages)
      have hnodup := h.nodup
      rw [← hsplit, List.map_append, List.nodup_append] at hnodup
      obtain ⟨hdue, hrest, happart⟩ := hnodup
      have hsub := (List.dropWhile_suffix (l := s.queue.messages)
        (MessageQueue.isDue s.now)).subset
      have hsub' := (List.takeWhile_prefix (l := s.queue.messages)
        (MessageQueue.isDue s.now)).subset
      constructor
      case nextId => exact h.nextId
      case waiting => exact h.waiting
      case nodup => exact hrest
      case keys => exact MessageQueue.nodup_callbackMap _
      case pending => exact fun m hm => h.pending m (hsub hm)
      case todo =>
        intro messageId start hmem _
        obtain ⟨m, hm, rfl, hcallback⟩ := MessageQueue.of_mem_callbackMap hmem
        have harmed := h.pending m (hsub' hm) start hcallback
        refine ⟨⟨m.when, harmed, hok m hm start hcallback⟩, ?_⟩
        intro m' hm' start' hcallback'
        have harmed' := h.pending m' (hsub hm') start' hcallback'
        exact happart _ (List.mem_map_of_mem hm) _ (List.mem_map_of_mem hm')
          (harmed.1.symm.trans harmed'.1)
      case calling => simp
      case latestStart => exact h.latestStart
      case firedStart => exact h.firedStart
      case log => exact h.log
  · cases hdrain

private theorem move (h : Good a s) {loop : LoopPc (Posted α)}
    (hasPost firing : Bool) (htodo : loop.todo.Sublist s.queue.loop.todo)
    (hcalling : ∀ messageId callback pass,
      loop ≠ .calling messageId callback pass) :
    Good a { s with queue := { s.queue with loop, hasPost }, firing } := by
  constructor
  case nextId => exact h.nextId
  case waiting => exact h.waiting
  case nodup => exact h.nodup
  case keys => exact (htodo.map _).nodup h.keys
  case pending => exact h.pending
  case todo =>
    exact fun messageId start hmem => h.todo messageId start (htodo.subset hmem)
  case calling =>
    exact fun messageId start pass hloop =>
      absurd hloop (hcalling messageId _ pass)
  case latestStart => exact h.latestStart
  case firedStart => exact h.firedStart
  case log => exact h.log

theorem checkCanceled (h : Good a s) {queue : MessageQueue (Posted α)}
    (hcheck : s.queue.checkCanceled = some queue) : Good a { s with queue } := by
  unfold MessageQueue.checkCanceled at hcheck
  split at hcheck
  · next messageId callback todo now duration hloop =>
      have htodo : s.queue.loop.todo = (messageId, callback) :: todo := by
        rw [hloop]
        rfl
      have hkeys := h.keys
      rw [htodo, List.map_cons, List.nodup_cons] at hkeys
      simp only at hcheck
      split at hcheck
      · cases hcheck
        refine h.move s.queue.hasPost s.firing ?_ (by simp)
        rw [htodo]
        exact List.sublist_cons_self _ _
      · next hlive =>
          cases hcheck
          constructor
          case nextId => exact h.nextId
          case waiting => exact h.waiting
          case nodup => exact h.nodup
          case keys => exact hkeys.2
          case pending => exact h.pending
          case todo =>
            intro messageId' start hmem
            refine h.todo messageId' start ?_
            rw [htodo]
            exact List.mem_cons_of_mem _ hmem
          case calling =>
            intro messageId' start pass hcalling _ _
            cases hcalling
            obtain ⟨⟨deadline, harmed, hdue⟩, hnone⟩ :=
              h.todo messageId start (by simp [htodo]) hlive
            refine ⟨⟨deadline, harmed, hdue⟩, hnone, ?_⟩
            -- another live entry would have the same message id
            intro messageId' start' hmem
            by_contra hlive'
            obtain ⟨⟨_, harmed', -⟩, -⟩ := h.todo messageId' start'
              (by rw [htodo]; exact List.mem_cons_of_mem _ hmem) hlive'
            have hsame : messageId' = messageId :=
              harmed'.1.symm.trans harmed.1
            exact hkeys.1 (List.mem_map.mpr ⟨_, hmem, hsame⟩)
          case latestStart => exact h.latestStart
          case firedStart => exact h.firedStart
          case log => exact h.log
  · cases hcheck

private theorem firedFor (h : Good a s) {messageId : UInt32} {start : Nat}
    {deadline : Int} (harmed : s.Armed a messageId start deadline)
    (hdue : deadline ≤ s.now) : FiredFor a start s.now s.log := by
  constructor
  · intro time hmem
    exact (h.firedStart start time hmem).2 deadline harmed.2.2
  · obtain ⟨later, earlier, hlog, hcanceled⟩ := of_latest_eq_some harmed.2.2
    exact ⟨deadline, later, earlier, hlog, hcanceled, hdue⟩

private def fired (s : Alarms α) (b : α) (start : Nat) : Alarms α :=
  { s with
    alarms := Function.update s.alarms b
      { s.alarms b with status := .kStatusAlarm }
    firing := true
    log := .fired b start s.now :: s.log }

private theorem fire_self (h : Good a s) {messageId : UInt32} {start : Nat}
    {deadline : Int} (harmed : s.Armed a messageId start deadline)
    (hdue : deadline ≤ s.now) (hnone : s.NoPending a)
    (htodo : ∀ messageId start,
      (messageId, { alarm := a, start }) ∈ s.queue.loop.todo →
        messageId ∈ s.queue.canceledMessageIds) :
    Good a (fired s a start) := by
  constructor
  case nextId => exact h.nextId
  case waiting => simp [fired]
  case nodup => exact h.nodup
  case keys => exact h.keys
  case pending =>
    exact fun m hm start' hcallback => absurd hcallback (hnone m hm start')
  case todo =>
    exact fun messageId' start' hmem hlive =>
      absurd (htodo messageId' start' hmem) hlive
  case calling => simp [fired]
  case latestStart => simp [fired, latest]
  case firedStart =>
    intro start' time hmem
    refine ⟨?_, by simp [fired, latest]⟩
    rcases List.mem_cons.mp hmem with hnew | hold
    · cases hnew
      exact h.latestStart start deadline harmed.2.2
    · exact (h.firedStart start' time hold).1
  case log => exact ⟨fun _ => h.firedFor harmed hdue, h.log⟩

private theorem fire_other (h : Good a s) (hb : b ≠ a) (start : Nat) :
    Good a (fired s b start) := by
  have halarm (x : Alarm) : Function.update s.alarms b x a = s.alarms a :=
    Function.update_of_ne hb.symm _ _
  have hlatest : latest a (.fired b start s.now :: s.log) = latest a s.log := by
    simp [latest, hb]
  constructor
  case nextId => exact h.nextId
  case waiting =>
    simp only [fired, halarm]
    exact h.waiting
  case nodup => exact h.nodup
  case keys => exact h.keys
  case pending =>
    simp only [fired, Armed, halarm, hlatest]
    exact h.pending
  case todo =>
    simp only [fired, Armed, halarm, hlatest]
    exact h.todo
  case calling => simp [fired]
  case latestStart =>
    simp only [fired, hlatest]
    exact h.latestStart
  case firedStart =>
    intro start' time hmem
    simp only [fired, hlatest]
    refine h.firedStart start' time ?_
    rcases List.mem_cons.mp hmem with hnew | hold
    · cases hnew
      exact absurd rfl hb
    · exact hold
  case log => exact ⟨fun heq => absurd heq hb, h.log⟩

theorem fire (h : Good a s) (hfire : s.fire = some t) : Good a t := by
  unfold Alarms.fire at hfire
  split at hfire
  · next messageId posted pass hloop hfiring =>
      have htodo : s.queue.loop.todo = pass.todo := by
        rw [hloop]
        rfl
      simp only at hfire
      split at hfire
      · cases hfire
        refine h.move s.queue.hasPost s.firing ?_ (by simp)
        rw [htodo]
        exact List.Sublist.refl _
      · next hne =>
          cases hfire
          obtain ⟨b, k⟩ := posted
          by_cases hb : b = a
          · subst hb
            obtain ⟨⟨deadline, harmed, hdue⟩, hnone, hcanceled⟩ :=
              h.calling messageId k pass hloop hfiring hne
            rw [← htodo] at hcanceled
            exact h.fire_self harmed hdue hnone hcanceled
          · exact h.fire_other hb k
  · cases hfire

theorem returned (h : Good a s) (hreturned : s.returned = some t) :
    Good a t := by
  unfold Alarms.returned at hreturned
  split at hreturned
  · obtain ⟨queue, hqueue, rfl⟩ := Option.map_eq_some_iff.mp hreturned
    unfold MessageQueue.returned at hqueue
    split at hqueue
    · next hloop =>
        cases hqueue
        refine h.move s.queue.hasPost false ?_ (by simp)
        rw [hloop]
        exact List.Sublist.refl _
    · cases hqueue
  · cases hreturned

theorem rest (h : Good a s) {queue : MessageQueue (Posted α)}
    (hrest : s.queue.rest = some queue) : Good a { s with queue } := by
  unfold MessageQueue.rest at hrest
  split at hrest
  · split at hrest
    · cases hrest
      exact h.move false s.firing (List.nil_sublist _) (by simp)
    · split at hrest <;> cases hrest <;>
        exact h.move s.queue.hasPost s.firing (List.nil_sublist _) (by simp)
  · cases hrest

theorem wake (h : Good a s) {queue : MessageQueue (Posted α)}
    (hwake : s.queue.wake = some queue) : Good a { s with queue } := by
  unfold MessageQueue.wake at hwake
  split at hwake
  · cases hwake
    exact h.move s.queue.hasPost s.firing (List.nil_sublist _) (by simp)
  · cases hwake

theorem tick (h : Good a s) (nanoseconds : Nat) :
    Good a { s with now := s.now + nanoseconds } := by
  have hlater {deadline : Int} (hdue : deadline ≤ s.now) :
      deadline ≤ s.now + nanoseconds := by omega
  constructor
  case nextId => exact h.nextId
  case waiting => exact h.waiting
  case nodup => exact h.nodup
  case keys => exact h.keys
  case pending => exact h.pending
  case todo =>
    intro messageId start hmem hlive
    obtain ⟨⟨deadline, harmed, hdue⟩, hnone⟩ :=
      h.todo messageId start hmem hlive
    exact ⟨⟨deadline, harmed, hlater hdue⟩, hnone⟩
  case calling =>
    intro messageId start pass hloop hfiring hne
    obtain ⟨⟨deadline, harmed, hdue⟩, hnone⟩ :=
      h.calling messageId start pass hloop hfiring hne
    exact ⟨⟨deadline, harmed, hlater hdue⟩, hnone⟩
  case latestStart => exact h.latestStart
  case firedStart => exact h.firedStart
  case log => exact h.log

theorem step (h : Good a s) {action : AlarmAction α}
    (hok : Undisturbed a s action) (hstep : s.step action = some t) :
    Good a t := by
  cases action with
  | setCallback b =>
      cases hstep
      exact h.of_set rfl rfl
  | setUserData b userData =>
      cases hstep
      exact h.of_set rfl rfl
  | start b afterSec =>
      cases hstep
      exact h.start afterSec hok
  | cancel b =>
      cases hstep
      exact h.cancel b
  | drain =>
      obtain ⟨queue, hdrain, rfl⟩ := Option.map_eq_some_iff.mp hstep
      exact h.drain hok hdrain
  | checkCanceled =>
      obtain ⟨queue, hcheck, rfl⟩ := Option.map_eq_some_iff.mp hstep
      exact h.checkCanceled hcheck
  | fire => exact h.fire hstep
  | returned => exact h.returned hstep
  | rest =>
      obtain ⟨queue, hrest, rfl⟩ := Option.map_eq_some_iff.mp hstep
      exact h.rest hrest
  | wake =>
      obtain ⟨queue, hwake, rfl⟩ := Option.map_eq_some_iff.mp hstep
      exact h.wake hwake
  | tick nanoseconds =>
      cases hstep
      exact h.tick nanoseconds

theorem of_reachable {s₀ : Alarms α} (h₀ : Good a s₀)
    (h : Reachable Alarms.step (Undisturbed a) s₀ s) : Good a s :=
  h.invariant h₀ fun _ _ _ _ hgood hok hstep => hgood.step hok hstep

end Good

/-! ## What an alarm waits for -/

private theorem latest_step {s t : Alarms α} {action : AlarmAction α}
    (hs : s.step action = some t) (a : α) :
    latest a t.log = latest a s.log ∨
      (∃ afterSec, action = .start a afterSec ∧ s.canStart a = true ∧
        latest a t.log = some (s.starts, s.now + afterSec * 1000000000)) ∨
      (t.alarms a).isWaiting = false := by
  have queue {next : Option (MessageQueue (Posted α))}
      (hmap : next.map (fun queue => { s with queue }) = some t) :
      latest a t.log = latest a s.log := by
    obtain ⟨queue, -, rfl⟩ := Option.map_eq_some_iff.mp hmap
    rfl
  cases action with
  | start b afterSec =>
      cases hs
      unfold Alarms.start
      split
      · next hcan =>
          by_cases hb : b = a
          · subst hb
            exact .inr (.inl ⟨afterSec, rfl, hcan, by simp [latest]⟩)
          · exact .inl (by simp [latest, hb])
      · exact .inl rfl
  | cancel b =>
      cases hs
      unfold Alarms.cancel
      split
      · exact .inl rfl
      · by_cases hb : b = a
        · subst hb
          exact .inr (.inr (by simp [set, Alarm.isWaiting]))
        · exact .inl (by simp [latest, hb])
  | fire =>
      simp only [step, fire] at hs
      split at hs
      · next messageId posted pass hloop hfiring =>
          split at hs <;> cases hs
          · exact .inl rfl
          · by_cases hb : posted.alarm = a
            · subst hb
              exact .inr (.inr (by simp [set, Alarm.isWaiting]))
            · exact .inl (by simp [latest, hb])
      · cases hs
  | returned =>
      simp only [step, returned] at hs
      split at hs
      · obtain ⟨queue, -, rfl⟩ := Option.map_eq_some_iff.mp hs
        exact .inl rfl
      · cases hs
  | drain => exact .inl (queue hs)
  | checkCanceled => exact .inl (queue hs)
  | rest => exact .inl (queue hs)
  | wake => exact .inl (queue hs)
  | setCallback | setUserData | tick =>
      cases hs
      exact .inl rfl

/-- Behind a step an alarm waits for the `Start` it has waited for, or for the
one that the step is. -/
theorem waiting_step {s t : Alarms α} {action : AlarmAction α}
    (hs : s.step action = some t) {a : α} (hw : (t.alarms a).isWaiting = true) :
    (s.alarms a).isWaiting = true ∧ latest a t.log = latest a s.log ∨
      ∃ afterSec, action = .start a afterSec ∧ s.canStart a = true ∧
        latest a t.log = some (s.starts, s.now + afterSec * 1000000000) := by
  rcases latest_step hs a with heq | hstart | hnot
  · cases step_alarm hs a with
    | same halarm => exact .inl ⟨halarm ▸ hw, heq⟩
    | setCallback halarm => exact .inl ⟨by rwa [halarm] at hw, heq⟩
    | setUserData userData halarm => exact .inl ⟨by rwa [halarm] at hw, heq⟩
    | start afterSec hcan halarm =>
        cases hs
        exact .inr ⟨afterSec, rfl, hcan, by simp [Alarms.start, hcan, latest]⟩
    | cancel hne halarm => simp [halarm, Alarm.isWaiting] at hw
    | fire messageId start pass hne hfiring hloop halarm =>
        simp [halarm, Alarm.isWaiting] at hw
  · exact .inr hstart
  · cases hnot.symm.trans hw

/-! ## What the alarm is for -/

def pendingMessages (s : Alarms α) (a : α) : List (Message (Posted α)) :=
  s.queue.messages.filter fun m => m.callback.map (·.alarm) = some a

/-- One firing for each `Start` at most, never of a canceled `Start`, never
early, and one pending message at most. -/
def FiresSafely (a : α) (s : Alarms α) : Prop :=
  FiresProperly a s.log ∧ (s.pendingMessages a).length ≤ 1

theorem Good.pendingMessages_le {a : α} {s : Alarms α} (h : Good a s) :
    (s.pendingMessages a).length ≤ 1 := by
  have hids : ∀ id ∈ (s.pendingMessages a).map (·.messageId),
      id = (s.alarms a).messageId := by
    intro id hid
    obtain ⟨m, hpending, rfl⟩ := List.mem_map.mp hid
    obtain ⟨hm, halarm⟩ := List.mem_filter.mp hpending
    obtain ⟨posted, hcallback, hposted⟩ :=
      Option.map_eq_some_iff.mp (of_decide_eq_true halarm)
    refine (h.pending m hm posted.start ?_).1.symm
    rw [hcallback, ← hposted]
  have hnodup : ((s.pendingMessages a).map (·.messageId)).Nodup :=
    h.nodup.sublist (List.filter_sublist.map _)
  rw [List.eq_replicate_of_mem hids, List.nodup_replicate] at hnodup
  simpa using hnodup

theorem Good.pendingMessages_eq_nil {a : α} {s : Alarms α} (h : Good a s)
    (hnot : (s.alarms a).isWaiting = false) : s.pendingMessages a = [] := by
  refine List.filter_eq_nil_iff.mpr fun m hm halarm => ?_
  obtain ⟨posted, hcallback, hposted⟩ :=
    Option.map_eq_some_iff.mp (of_decide_eq_true halarm)
  have harmed := h.pending m hm posted.start (by rw [hcallback, ← hposted])
  simp [Alarm.isWaiting, harmed.2.1] at hnot

/-- After its check the closure of an alarm runs for the `Start` that the alarm
waited for, and that is due. -/
theorem Good.due_of_fire {a : α} {s t : Alarms α} (h : Good a s)
    (hfire : s.fire = some t) (hfiring : t.firing = true)
    {messageId : UInt32} {start : Nat} {pass : Pass (Posted α)}
    (hloop : t.queue.loop = .calling messageId { alarm := a, start } pass) :
    (s.alarms a).isWaiting = true ∧ ∃ deadline,
      latest a s.log = some (start, deadline) ∧ deadline ≤ s.now := by
  unfold Alarms.fire at hfire
  split at hfire
  · next messageId' posted pass' hbefore hnot =>
      dsimp only at hfire
      split at hfire
      · cases hfire
        cases hloop
      · next hne =>
          cases hfire
          cases hbefore.symm.trans hloop
          obtain ⟨⟨deadline, harmed, hdue⟩, -⟩ :=
            h.calling _ _ _ hbefore hnot hne
          exact ⟨by simp [Alarm.isWaiting, harmed.2.1], deadline, harmed.2.2, hdue⟩
  · cases hfire

theorem firesSafely_of_undisturbed {a : α} {s : Alarms α}
    (h : Reachable Alarms.step (Undisturbed a) {} s) : FiresSafely a s := by
  have hgood : Good a s := .of_reachable (.init a) h
  exact ⟨hgood.log, hgood.pendingMessages_le⟩

def restarted : List (AlarmAction Unit) :=
  [.setCallback (), .start () 100, .cancel (), .start () 1, .tick 1000000000, .drain,
    .checkCanceled, .fire]

theorem firesSafely_restarted :
    ∃ s : Alarms Unit, s.log.length = 4 ∧ FiresSafely () s := by
  have hfresh {s : Alarms Unit} (hmessages : s.queue.messages = [])
      (hloop : s.queue.loop = .top) : s.FreshId ∧ (() = () → ¬ s.Taken ()) := by
    refine ⟨fun m hm => ?_, ?_⟩
    · rw [hmessages] at hm
      exact absurd hm List.not_mem_nil
    · rintro - ⟨-, messageId, start, pass, hcalling⟩
      cases hloop.symm.trans hcalling
  refine ⟨_, ?_, firesSafely_of_undisturbed
    (.tail .fire (.tail .checkCanceled (.tail .drain (.tail (.tick 1000000000)
      (.tail (.start () 1) (.tail (.cancel ()) (.tail (.start () 100)
        (.tail (.setCallback ()) .refl trivial rfl) ?_ rfl) trivial rfl) ?_ rfl)
          trivial rfl) ?_ rfl) trivial rfl) trivial rfl)⟩
  · rfl
  · exact fun _ => hfresh rfl rfl
  · exact fun _ => hfresh rfl rfl
  · intro m hm start _
    have hmem := List.takeWhile_subset _ hm
    cases List.mem_singleton.mp hmem
    decide

/-- A canceled and drained alarm that is started again before its old firing
takes the lock. -/
def restartedWhileTaken : List (AlarmAction Unit) :=
  [.setCallback (), .start () 1, .tick 1000000000, .drain, .checkCanceled,
    .cancel (), .start () 100, .fire]

theorem restartedWhileTaken_fires_canceled :
    ¬ ∀ s : Alarms Unit, Reachable Alarms.step AnyStep {} s →
      FiresSafely () s := by
  intro hall
  have hrun : run Alarms.step {} restartedWhileTaken = some _ := rfl
  obtain ⟨⟨hfired, -⟩, -⟩ := hall _ (.of_run hrun)
  obtain ⟨-, deadline, later, earlier, hlog, hcanceled, -⟩ := hfired rfl
  rcases later with _ | ⟨e, _ | ⟨e', later⟩⟩
  · cases hlog
  · cases hlog
  · injection hlog with _ hrest
    injection hrest with hcancel _
    exact hcanceled (hcancel ▸ by simp)

end Alarms

end GoSocket.Common
