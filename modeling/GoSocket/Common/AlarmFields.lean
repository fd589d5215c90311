import GoSocket.Common.Alarm

/-!
# What a step does to one alarm

Only the actions on an alarm change it, and the closure that the loop calls.
-/

namespace GoSocket.Common

namespace Alarms

variable {α : Type} [DecidableEq α] {s t : Alarms α}

/-- The alarm `a` behind a step. -/
inductive StepAlarm (s t : Alarms α) (a : α) : AlarmAction α → Prop
  | same {action : AlarmAction α} (h : t.alarms a = s.alarms a) :
      StepAlarm s t a action
  | setCallback
      (h : t.alarms a = { s.alarms a with hasCallback := true }) :
      StepAlarm s t a (.setCallback a)
  | setUserData (userData : Int32)
      (h : t.alarms a = { s.alarms a with userData }) :
      StepAlarm s t a (.setUserData a userData)
  | start (afterSec : Int) (hcan : s.canStart a = true)
      (h : t.alarms a = { s.alarms a with
        messageId := s.queue.currentMsgId, status := .kStatusStart }) :
      StepAlarm s t a (.start a afterSec)
  | cancel (hid : (s.alarms a).messageId ≠ 0)
      (h : t.alarms a = { s.alarms a with
        messageId := 0, status := .kStatusCancel }) :
      StepAlarm s t a (.cancel a)
  | fire (messageId : UInt32) (start : Nat) (pass : Pass (Posted α))
      (hid : (s.alarms a).messageId ≠ 0) (hfiring : t.firing = true)
      (hloop : t.queue.loop = .calling messageId { alarm := a, start } pass)
      (h : t.alarms a = { s.alarms a with status := .kStatusAlarm }) :
      StepAlarm s t a .fire

private theorem set_alarms (a b : α) (alarm : Alarm) :
    (s.set b alarm).alarms a = if a = b then alarm else s.alarms a := by
  simp [set, Function.update_apply]

private theorem fire_alarm (a : α) (hs : s.fire = some t) :
    StepAlarm s t a .fire := by
  unfold fire at hs
  split at hs
  · next messageId posted pass hloop hfiring =>
      dsimp only at hs
      split at hs
      · cases hs
        exact .same rfl
      · next hid =>
          cases hs
          by_cases ha : a = posted.alarm
          · subst ha
            exact .fire messageId posted.start pass hid rfl hloop (by simp [set])
          · exact .same (by simp [set_alarms, ha])
  · cases hs

theorem step_alarm {action : AlarmAction α} (hs : s.step action = some t)
    (a : α) : StepAlarm s t a action := by
  have queue {next : Option (MessageQueue (Posted α))}
      (hmap : next.map (fun queue => { s with queue }) = some t) :
      t.alarms a = s.alarms a := by
    obtain ⟨queue, -, rfl⟩ := Option.map_eq_some_iff.mp hmap
    rfl
  cases action with
  | setCallback b =>
      cases hs
      by_cases ha : a = b
      · subst ha
        exact .setCallback (by simp [Alarms.setCallback, set])
      · exact .same (by simp [Alarms.setCallback, set_alarms, ha])
  | setUserData b userData =>
      cases hs
      by_cases ha : a = b
      · subst ha
        exact .setUserData userData (by simp [Alarms.setUserData, set])
      · exact .same (by simp [Alarms.setUserData, set_alarms, ha])
  | start b afterSec =>
      cases hs
      unfold Alarms.start
      split
      · next hcan =>
          by_cases ha : a = b
          · subst ha
            exact .start afterSec hcan (by simp [set, MessageQueue.postMessage])
          · exact .same (by simp [set_alarms, ha])
      · exact .same rfl
  | cancel b =>
      cases hs
      unfold Alarms.cancel
      split
      · exact .same rfl
      · next hid =>
          by_cases ha : a = b
          · subst ha
            exact .cancel hid (by simp [set])
          · exact .same (by simp [set_alarms, ha])
  | fire => exact fire_alarm a hs
  | returned =>
      refine .same ?_
      simp only [step, returned] at hs
      split at hs
      · obtain ⟨queue, -, rfl⟩ := Option.map_eq_some_iff.mp hs
        rfl
      · cases hs
  | drain => exact .same (queue hs)
  | checkCanceled => exact .same (queue hs)
  | rest => exact .same (queue hs)
  | wake => exact .same (queue hs)
  | tick nanoseconds =>
      cases hs
      exact .same rfl

/-! ## The closure that the loop calls -/

theorem start_loop (s : Alarms α) (a : α) (afterSec : Int) :
    (s.start a afterSec).1.firing = s.firing ∧
      (s.start a afterSec).1.queue.loop = s.queue.loop := by
  unfold start
  split <;> exact ⟨rfl, rfl⟩

theorem cancel_loop (s : Alarms α) (a : α) :
    (s.cancel a).1.firing = s.firing ∧
      (s.cancel a).1.queue.loop = s.queue.loop := by
  unfold cancel
  split <;> exact ⟨rfl, rfl⟩

omit [DecidableEq α] in
theorem firing_returned (hs : s.returned = some t) : t.firing = false := by
  unfold returned at hs
  split at hs
  · obtain ⟨queue, -, rfl⟩ := Option.map_eq_some_iff.mp hs
    rfl
  · cases hs

/-! ## Identities -/

/-- An alarm with a message has its identity, which is never 0. -/
structure Identified (s : Alarms α) (a : α) : Prop where
  nextId : s.queue.currentMsgId ≠ 0 ∧ s.queue.currentMsgId ≠ 0xFFFFFFFF
  alarm : (s.alarms a).messageId = 0 →
    (s.alarms a).isAlarm = false ∧ (s.alarms a).isWaiting = false

omit [DecidableEq α] in
theorem identified_init (a : α) : Identified ({} : Alarms α) a where
  nextId := ⟨show (1 : UInt32) ≠ 0 by decide,
    show (1 : UInt32) ≠ 0xFFFFFFFF by decide⟩
  alarm _ := ⟨rfl, rfl⟩

theorem nextId_postMessage {κ : Type} (q : MessageQueue κ)
    (h : q.currentMsgId ≠ 0 ∧ q.currentMsgId ≠ 0xFFFFFFFF) (now afterSec : Int)
    (callback : Option κ) :
    (q.postMessage now afterSec callback).1.currentMsgId ≠ 0 ∧
      (q.postMessage now afterSec callback).1.currentMsgId ≠ 0xFFFFFFFF := by
  simp only [MessageQueue.postMessage]
  split
  · decide
  · next hmax =>
      refine ⟨?_, hmax⟩
      intro hzero
      have hlast : q.currentMsgId = -1 := by
        have hsub := congrArg (· - 1) hzero
        simpa using hsub
      exact h.2 (hlast.trans (by decide))

theorem step_nextId {action : AlarmAction α} (hs : s.step action = some t)
    (h : s.queue.currentMsgId ≠ 0 ∧ s.queue.currentMsgId ≠ 0xFFFFFFFF) :
    t.queue.currentMsgId ≠ 0 ∧ t.queue.currentMsgId ≠ 0xFFFFFFFF := by
  cases action with
  | start b afterSec =>
      cases hs
      unfold Alarms.start
      split
      · exact nextId_postMessage _ h _ _ _
      · exact h
  | cancel b =>
      cases hs
      unfold Alarms.cancel
      split <;> exact h
  | fire =>
      simp only [step, fire] at hs
      split at hs
      · split at hs <;> cases hs <;> exact h
      · cases hs
  | returned =>
      simp only [step, returned] at hs
      split at hs
      · obtain ⟨queue, hqueue, rfl⟩ := Option.map_eq_some_iff.mp hs
        unfold MessageQueue.returned at hqueue
        split at hqueue <;> cases hqueue
        exact h
      · cases hs
  | drain =>
      obtain ⟨queue, hqueue, rfl⟩ := Option.map_eq_some_iff.mp hs
      unfold MessageQueue.drain at hqueue
      split at hqueue <;> cases hqueue
      exact h
  | checkCanceled =>
      obtain ⟨queue, hqueue, rfl⟩ := Option.map_eq_some_iff.mp hs
      unfold MessageQueue.checkCanceled at hqueue
      split at hqueue
      · dsimp only at hqueue
        split at hqueue <;> cases hqueue <;> exact h
      · cases hqueue
  | rest =>
      obtain ⟨queue, hqueue, rfl⟩ := Option.map_eq_some_iff.mp hs
      unfold MessageQueue.rest at hqueue
      split at hqueue
      · split at hqueue
        · cases hqueue
          exact h
        · split at hqueue <;> cases hqueue <;> exact h
      · cases hqueue
  | wake =>
      obtain ⟨queue, hqueue, rfl⟩ := Option.map_eq_some_iff.mp hs
      unfold MessageQueue.wake at hqueue
      split at hqueue <;> cases hqueue
      exact h
  | setCallback | setUserData | tick =>
      cases hs
      exact h

theorem Identified.step {a : α} (h : Identified s a) {action : AlarmAction α}
    (hs : s.step action = some t) : Identified t a := by
  refine ⟨step_nextId hs h.nextId, fun hid => ?_⟩
  cases step_alarm hs a with
  | same heq =>
      rw [heq] at hid ⊢
      exact h.alarm hid
  | setCallback heq =>
      rw [heq] at hid ⊢
      exact h.alarm hid
  | setUserData userData heq =>
      rw [heq] at hid ⊢
      exact h.alarm hid
  | start afterSec hcan heq =>
      rw [heq] at hid
      exact absurd hid h.nextId.1
  | cancel hne heq =>
      rw [heq]
      exact ⟨rfl, rfl⟩
  | fire messageId start pass hne hfiring hloop heq =>
      rw [heq] at hid
      exact absurd hid hne

theorem kept_step {action : AlarmAction α} (hs : s.step action = some t) {a : α}
    (h : (s.alarms a).messageId ≠ 0 →
      (s.alarms a).isWaiting = true ∨ (s.alarms a).isAlarm = true)
    (hid : (t.alarms a).messageId ≠ 0) :
    (t.alarms a).isWaiting = true ∨ (t.alarms a).isAlarm = true := by
  cases step_alarm hs a with
  | same heq =>
      rw [heq] at hid ⊢
      exact h hid
  | setCallback heq =>
      rw [heq] at hid ⊢
      exact h hid
  | setUserData userData heq =>
      rw [heq] at hid ⊢
      exact h hid
  | start afterSec hcan heq => exact .inl (by simp [heq, Alarm.isWaiting])
  | cancel hne heq => exact absurd (by rw [heq]) hid
  | fire messageId start pass hne hfiring hloop heq =>
      exact .inr (by simp [heq, Alarm.isAlarm])

theorem Identified.setCallback {a : α} (h : Identified s a) (b : α) :
    Identified (s.setCallback b) a := by
  have hs : s.step (.setCallback b) = some (s.setCallback b) := rfl
  exact h.step hs

theorem messageId_step {action : AlarmAction α} (hs : s.step action = some t)
    {a : α} (haction : ∀ afterSec, action ≠ .start a afterSec)
    (h : (s.alarms a).messageId = 0) : (t.alarms a).messageId = 0 := by
  cases step_alarm hs a with
  | same heq => rwa [heq]
  | setCallback heq => rwa [heq]
  | setUserData userData heq => rwa [heq]
  | start afterSec => exact absurd rfl (haction afterSec)
  | cancel hne heq => rw [heq]
  | fire messageId start pass hne => exact absurd h hne

theorem isAlarm_step {action : AlarmAction α} (hs : s.step action = some t)
    (haction : action ≠ .fire) {a : α} (h : (t.alarms a).isAlarm = true) :
    (s.alarms a).isAlarm = true := by
  cases step_alarm hs a with
  | same heq => rwa [heq] at h
  | setCallback heq => rwa [heq] at h
  | setUserData userData heq => rwa [heq] at h
  | start afterSec hcan heq => simp [heq, Alarm.isAlarm] at h
  | cancel hne heq => simp [heq, Alarm.isAlarm] at h
  | fire => exact absurd rfl haction

/-! ## User data, the clock -/

theorem userData_step {action : AlarmAction α} (hs : s.step action = some t)
    {a : α} (haction : ∀ userData, action ≠ .setUserData a userData) :
    (t.alarms a).userData = (s.alarms a).userData := by
  cases step_alarm hs a with
  | same heq => rw [heq]
  | setCallback heq => rw [heq]
  | setUserData userData => exact absurd rfl (haction userData)
  | start afterSec hcan heq => rw [heq]
  | cancel hne heq => rw [heq]
  | fire messageId start pass hne hfiring hloop heq => rw [heq]

theorem now_step {action : AlarmAction α} (hs : s.step action = some t) :
    s.now ≤ t.now := by
  have queue {next : Option (MessageQueue (Posted α))}
      (hmap : next.map (fun queue => { s with queue }) = some t) :
      s.now ≤ t.now := by
    obtain ⟨queue, -, rfl⟩ := Option.map_eq_some_iff.mp hmap
    exact Int.le_refl _
  cases action with
  | start b afterSec =>
      cases hs
      unfold Alarms.start
      split <;> exact Int.le_refl _
  | cancel b =>
      cases hs
      unfold Alarms.cancel
      split <;> exact Int.le_refl _
  | fire =>
      simp only [step, fire] at hs
      split at hs
      · split at hs <;> cases hs <;> exact Int.le_refl _
      · cases hs
  | returned =>
      simp only [step, returned] at hs
      split at hs
      · obtain ⟨queue, -, rfl⟩ := Option.map_eq_some_iff.mp hs
        exact Int.le_refl _
      · cases hs
  | drain => exact queue hs
  | checkCanceled => exact queue hs
  | rest => exact queue hs
  | wake => exact queue hs
  | tick nanoseconds =>
      cases hs
      exact Int.le_add_of_nonneg_right (Int.natCast_nonneg nanoseconds)
  | setCallback | setUserData =>
      cases hs
      exact Int.le_refl _

theorem starts_step_of_ne {action : AlarmAction α}
    (hne : ∀ a afterSec, action ≠ .start a afterSec) (hs : s.step action = some t) :
    t.starts = s.starts := by
  have queue {next : Option (MessageQueue (Posted α))}
      (hmap : next.map (fun queue => { s with queue }) = some t) :
      t.starts = s.starts := by
    obtain ⟨queue, -, rfl⟩ := Option.map_eq_some_iff.mp hmap
    rfl
  cases action with
  | start b afterSec => exact absurd rfl (hne b afterSec)
  | cancel b =>
      cases hs
      unfold Alarms.cancel
      split <;> rfl
  | fire =>
      simp only [step, fire] at hs
      split at hs
      · split at hs <;> cases hs <;> rfl
      · cases hs
  | returned =>
      simp only [step, returned] at hs
      split at hs
      · obtain ⟨queue, -, rfl⟩ := Option.map_eq_some_iff.mp hs
        rfl
      · cases hs
  | drain => exact queue hs
  | checkCanceled => exact queue hs
  | rest => exact queue hs
  | wake => exact queue hs
  | tick | setCallback | setUserData =>
      cases hs
      rfl

theorem starts_step_le {action : AlarmAction α} (hs : s.step action = some t) :
    t.starts ≤ s.starts + 1 := by
  by_cases hstart : ∃ a afterSec, action = .start a afterSec
  · obtain ⟨a, afterSec, rfl⟩ := hstart
    cases hs
    unfold Alarms.start
    split
    · exact Nat.le_refl _
    · exact Nat.le_succ _
  · simp only [not_exists] at hstart
    exact Nat.le_succ_of_le (Nat.le_of_eq (starts_step_of_ne hstart hs))

/-! ## Callbacks stay -/

theorem hasCallback_step {a : α} (h : (s.alarms a).hasCallback = true)
    {action : AlarmAction α} (hs : s.step action = some t) :
    (t.alarms a).hasCallback = true := by
  cases step_alarm hs a with
  | same heq => rwa [heq]
  | setCallback heq => rw [heq]
  | setUserData userData heq => rwa [heq]
  | start afterSec hcan heq => rwa [heq]
  | cancel hne heq => rwa [heq]
  | fire messageId start pass hne hfiring hloop heq => rwa [heq]

@[simp] theorem isWaiting_start {a : α} (h : (s.alarms a).hasCallback = true)
    (afterSec : Int) : ((s.start a afterSec).1.alarms a).isWaiting = true := by
  unfold start
  split
  · simp [set, Alarm.isWaiting]
  · next hcan => simpa [canStart, h] using hcan

@[simp] theorem messageId_cancel (s : Alarms α) (a : α) :
    ((s.cancel a).1.alarms a).messageId = 0 := by
  unfold cancel
  split
  · assumption
  · simp [set]

end Alarms

namespace Alarm

theorem isAlarm_of_isWaiting {alarm : Alarm} (h : alarm.isWaiting = true) :
    alarm.isAlarm = false := by
  have hstatus : alarm.status = .kStatusStart := of_decide_eq_true h
  simp [isAlarm, hstatus]

end Alarm

end GoSocket.Common
