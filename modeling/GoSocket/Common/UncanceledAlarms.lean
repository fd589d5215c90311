import GoSocket.Common.AlarmSafety

/-!
# Alarms that nobody cancels

As long as an alarm is not canceled, it has a closure only while it waits, and then
one: it runs its callback at most once for each `Start`.
-/

namespace GoSocket.Common

open GoSocket.Foundation

variable {α : Type}

/-- The message has a closure of the alarm. -/
def Message.IsFor (a : α) (m : Message (Posted α)) : Prop :=
  ∃ start, m.callback = some { alarm := a, start }

namespace MessageQueue

/-- At most one message has a closure of the alarm. -/
def OneFor (a : α) (ms : List (Message (Posted α))) : Prop :=
  ms.Pairwise fun m m' => ¬(m.IsFor a ∧ m'.IsFor a)

variable {a : α} {ms : List (Message (Posted α))}

theorem OneFor.insertMessage {new : Message (Posted α)} (h : OneFor a ms)
    (hnew : new.IsFor a → ∀ m ∈ ms, ¬m.IsFor a) : OneFor a (insertMessage new ms) := by
  induction ms with
  | nil => exact List.pairwise_singleton _ _
  | cons m rest ih =>
      obtain ⟨hm, hrest⟩ := List.pairwise_cons.mp h
      rw [MessageQueue.insertMessage]
      split
      · refine List.pairwise_cons.mpr ⟨fun m' hm' => ?_,
          ih hrest fun hfor m' hm' => hnew hfor m' (List.mem_cons_of_mem _ hm')⟩
        rcases mem_insertMessage.mp hm' with rfl | hm'
        · exact fun hboth => hnew hboth.2 m List.mem_cons_self hboth.1
        · exact hm m' hm'
      · exact List.pairwise_cons.mpr
          ⟨fun m' hm' hboth => hnew hboth.1 m' hm' hboth.2, h⟩

theorem OneFor.eq (h : OneFor a ms) {m m' : Message (Posted α)} (hm : m ∈ ms)
    (hm' : m' ∈ ms) (hfor : m.IsFor a) (hfor' : m'.IsFor a) : m = m' := by
  induction ms with
  | nil => cases hm
  | cons n rest ih =>
      obtain ⟨hn, hrest⟩ := List.pairwise_cons.mp h
      rcases List.mem_cons.mp hm with rfl | hin
      · rcases List.mem_cons.mp hm' with rfl | hin'
        · rfl
        · exact absurd ⟨hfor, hfor'⟩ (hn m' hin')
      · rcases List.mem_cons.mp hm' with rfl | hin'
        · exact absurd ⟨hfor', hfor⟩ (hn m hin)
        · exact ih hrest hin hin'

end MessageQueue

namespace Alarms

/-- The closure of the alarm in the list, in the pass or in the call is the only one,
and the alarm waits for it. -/
structure Single (a : α) (s : Alarms α) : Prop where
  pending : ∀ m ∈ s.queue.messages, m.IsFor a → (s.alarms a).isWaiting = true
  onePending : MessageQueue.OneFor a s.queue.messages
  todo : ∀ kv ∈ s.queue.loop.todo, kv.2.alarm = a →
    (s.alarms a).isWaiting = true ∧ s.NoPending a
  oneTodo : s.queue.loop.todo.Pairwise fun kv kv' =>
    ¬(kv.2.alarm = a ∧ kv'.2.alarm = a)
  calling : ∀ messageId start pass,
    s.queue.loop = .calling messageId { alarm := a, start } pass →
      s.firing = false →
        (s.alarms a).isWaiting = true ∧ s.NoPending a ∧
          ∀ kv ∈ pass.todo, kv.2.alarm ≠ a

namespace Single

variable {a : α} {s t : Alarms α}

theorem init : Single a ({} : Alarms α) where
  pending := by simp
  onePending := .nil
  todo := by simp [LoopPc.todo]
  oneTodo := .nil
  calling := by simp

private theorem aside (h : Single a s)
    (hwaiting : (t.alarms a).isWaiting = (s.alarms a).isWaiting)
    (hmessages : ∀ m ∈ t.queue.messages, m.IsFor a → m ∈ s.queue.messages)
    (hone : MessageQueue.OneFor a t.queue.messages)
    (hloop : t.queue.loop = s.queue.loop) (hfiring : t.firing = s.firing) :
    Single a t := by
  have hnoPending (hnot : s.NoPending a) : t.NoPending a :=
    fun m hm start hcallback =>
      hnot m (hmessages m hm ⟨start, hcallback⟩) start hcallback
  refine ⟨?_, hone, ?_, by rw [hloop]; exact h.oneTodo, ?_⟩
  · intro m hm hfor
    rw [hwaiting]
    exact h.pending m (hmessages m hm hfor) hfor
  · intro kv hmem hkv
    rw [hloop] at hmem
    obtain ⟨hwaits, hnot⟩ := h.todo kv hmem hkv
    rw [hwaiting]
    exact ⟨hwaits, hnoPending hnot⟩
  · intro messageId start pass hcalling hnot
    rw [hloop] at hcalling
    rw [hfiring] at hnot
    obtain ⟨hwaits, hnotPending, htodo⟩ := h.calling messageId start pass hcalling hnot
    rw [hwaiting]
    exact ⟨hwaits, hnoPending hnotPending, htodo⟩

private theorem none (h : Single a s) (hwaiting : (s.alarms a).isWaiting = false) :
    (∀ m ∈ s.queue.messages, ¬m.IsFor a) ∧
      (∀ kv ∈ s.queue.loop.todo, kv.2.alarm ≠ a) ∧
      ∀ messageId start pass,
        s.queue.loop = .calling messageId { alarm := a, start } pass →
          s.firing = true := by
  refine ⟨fun m hm hfor => ?_, fun kv hmem hkv => ?_,
    fun messageId start pass hcalling => ?_⟩
  · rw [h.pending m hm hfor] at hwaiting
    cases hwaiting
  · rw [(h.todo kv hmem hkv).1] at hwaiting
    cases hwaiting
  · by_contra hnot
    rw [Bool.not_eq_true] at hnot
    rw [(h.calling messageId start pass hcalling hnot).1] at hwaiting
    cases hwaiting

variable [DecidableEq α] {b : α}

private theorem start (h : Single a s) (b : α) (afterSec : Int) :
    Single a (s.start b afterSec).1 := by
  cases hcan : s.canStart b with
  | false =>
      simp only [Alarms.start, hcan]
      exact h
  | true =>
      rw [Good.start_eq hcan]
      by_cases hb : b = a
      · subst hb
        have hwaiting : (s.alarms b).isWaiting = false := by
          simpa [canStart] using (Bool.and_eq_true_iff.mp hcan).2
        obtain ⟨hpending, htodo, hcalling⟩ := h.none hwaiting
        refine ⟨fun m hm hfor => ?_, ?_, ?_, h.oneTodo, ?_⟩
        · simp [Alarm.isWaiting]
        · exact h.onePending.insertMessage fun _ => hpending
        · exact fun kv hmem hkv => absurd hkv (htodo kv hmem)
        · intro messageId start pass hloop hnot
          rw [hcalling messageId start pass hloop] at hnot
          cases hnot
      · have halarm (x : Alarm) : Function.update s.alarms b x a = s.alarms a :=
          Function.update_of_ne (Ne.symm hb) _ _
        have hother (m : Message (Posted α)) (hm : m.callback =
            some { alarm := b, start := s.starts }) : ¬m.IsFor a := by
          rintro ⟨start, hfor⟩
          rw [hm] at hfor
          cases hfor
          exact hb rfl
        refine h.aside (congrArg Alarm.isWaiting (halarm _)) ?_
          (h.onePending.insertMessage fun hfor => absurd hfor (hother _ rfl)) rfl rfl
        intro m hm hfor
        rcases MessageQueue.mem_insertMessage.mp hm with rfl | hm
        · exact absurd hfor (hother _ rfl)
        · exact hm

private theorem cancel (h : Single a s) (hb : b ≠ a) : Single a (s.cancel b).1 := by
  by_cases hne : (s.alarms b).messageId = 0
  · simp only [Alarms.cancel, hne, if_true]
    exact h
  · rw [Good.cancel_eq hne]
    have hsublist := MessageQueue.removeMessage_sublist (s.alarms b).messageId
      s.queue.messages
    refine h.aside (congrArg Alarm.isWaiting ?_) (fun m hm _ => hsublist.subset hm)
      (List.Pairwise.sublist hsublist h.onePending) rfl rfl
    exact Function.update_of_ne (Ne.symm hb) _ _

omit [DecidableEq α] in
private theorem move (h : Single a s) {loop : LoopPc (Posted α)} {hasPost firing : Bool}
    (htodo : loop.todo.Sublist s.queue.loop.todo)
    (hcalling : loop.isCalling = false) :
    Single a { s with queue := { s.queue with loop, hasPost }, firing } where
  pending := h.pending
  onePending := h.onePending
  todo kv hmem := h.todo kv (htodo.subset hmem)
  oneTodo := h.oneTodo.sublist htodo
  calling messageId start pass hloop _ := by
    dsimp only at hloop
    rw [hloop] at hcalling
    cases hcalling

omit [DecidableEq α] in
private theorem drain (h : Single a s) {queue : MessageQueue (Posted α)}
    (hdrain : s.queue.drain s.now = some queue) : Single a { s with queue } := by
  unfold MessageQueue.drain at hdrain
  split at hdrain
  · cases hdrain
    have hone := h.onePending
    unfold MessageQueue.OneFor at hone
    rw [← List.takeWhile_append_dropWhile (p := MessageQueue.isDue s.now)
      (l := s.queue.messages), List.pairwise_append] at hone
    obtain ⟨hdueOne, hrestOne, happart⟩ := hone
    have hdue := (List.takeWhile_prefix (l := s.queue.messages)
      (MessageQueue.isDue s.now)).subset
    have hrest := (List.dropWhile_suffix (l := s.queue.messages)
      (MessageQueue.isDue s.now)).subset
    refine ⟨fun m hm => h.pending m (hrest hm), hrestOne, ?_, ?_, by simp⟩
    · rintro ⟨messageId, b, start⟩ hmem rfl
      obtain ⟨m, hm, -, hcallback⟩ := MessageQueue.of_mem_callbackMap hmem
      refine ⟨h.pending m (hdue hm) ⟨start, hcallback⟩,
        fun m' hm' start' hcallback' => ?_⟩
      exact happart m hm m' hm' ⟨⟨start, hcallback⟩, start', hcallback'⟩
    · -- the entries of a map have different ids, and one message has one id
      refine List.Pairwise.imp_of_mem ?_
        (List.pairwise_map.mp (MessageQueue.nodup_callbackMap _))
      rintro ⟨messageId, b, start⟩ ⟨messageId', b', start'⟩ hmem hmem' hne ⟨rfl, rfl⟩
      obtain ⟨m, hm, rfl, hcallback⟩ := MessageQueue.of_mem_callbackMap hmem
      obtain ⟨m', hm', rfl, hcallback'⟩ := MessageQueue.of_mem_callbackMap hmem'
      exact hne (congrArg Message.messageId (MessageQueue.OneFor.eq hdueOne hm hm'
        ⟨start, hcallback⟩ ⟨start', hcallback'⟩))
  · cases hdrain

omit [DecidableEq α] in
private theorem checkCanceled (h : Single a s) {queue : MessageQueue (Posted α)}
    (hcheck : s.queue.checkCanceled = some queue) : Single a { s with queue } := by
  unfold MessageQueue.checkCanceled at hcheck
  split at hcheck
  · next messageId callback todo now duration hloop =>
      have htodo : s.queue.loop.todo = (messageId, callback) :: todo := by
        rw [hloop]
        rfl
      have hone := h.oneTodo
      rw [htodo] at hone
      obtain ⟨hhead, htail⟩ := List.pairwise_cons.mp hone
      dsimp only at hcheck
      split at hcheck
      · cases hcheck
        refine h.move ?_ rfl
        rw [htodo]
        exact List.sublist_cons_self _ _
      · cases hcheck
        refine ⟨h.pending, h.onePending, ?_, htail, ?_⟩
        · intro kv hmem
          refine h.todo kv ?_
          rw [htodo]
          exact List.mem_cons_of_mem _ hmem
        · rintro _ start pass ⟨⟩ _
          obtain ⟨hwaiting, hnot⟩ := h.todo (messageId, { alarm := a, start })
            (by rw [htodo]; exact List.mem_cons_self) rfl
          exact ⟨hwaiting, hnot, fun kv hmem hkv => hhead kv hmem ⟨rfl, hkv⟩⟩
  · cases hcheck

private theorem fire (h : Single a s) (hfire : s.fire = some t) : Single a t := by
  unfold Alarms.fire at hfire
  split at hfire
  · next messageId posted pass hloop hidle =>
      have htodo : s.queue.loop.todo = pass.todo := by
        rw [hloop]
        rfl
      dsimp only at hfire
      split at hfire
      · cases hfire
        refine h.move ?_ rfl
        rw [htodo]
        exact List.Sublist.refl _
      · cases hfire
        by_cases hb : posted.alarm = a
        · obtain ⟨b, k⟩ := posted
          subst hb
          obtain ⟨-, hnot, hnoTodo⟩ := h.calling messageId k pass hloop hidle
          refine ⟨?_, h.onePending, ?_, h.oneTodo, by simp⟩
          · rintro m hm ⟨start, hcallback⟩
            exact absurd hcallback (hnot m hm start)
          · intro kv hmem hkv
            change kv ∈ s.queue.loop.todo at hmem
            rw [htodo] at hmem
            exact absurd hkv (hnoTodo kv hmem)
        · have halarm (x : Alarm) :
              Function.update s.alarms posted.alarm x a = s.alarms a :=
            Function.update_of_ne (Ne.symm hb) _ _
          refine ⟨?_, h.onePending, ?_, h.oneTodo, by simp⟩
          · intro m hm hfor
            simp only [set, halarm]
            exact h.pending m hm hfor
          · intro kv hmem hkv
            simp only [set, halarm]
            exact h.todo kv hmem hkv
  · cases hfire

theorem step (h : Single a s) {action : AlarmAction α} (haction : action ≠ .cancel a)
    (hs : s.step action = some t) : Single a t := by
  have of_set {b : α} {alarm : Alarm} (hstatus : alarm.status = (s.alarms b).status) :
      Single a (s.set b alarm) := by
    refine h.aside ?_ (fun m hm _ => hm) h.onePending rfl rfl
    by_cases ha : a = b
    · simp [set, ha, Alarm.isWaiting, hstatus]
    · simp [set, Function.update_of_ne ha]
  cases action with
  | setCallback b =>
      cases hs
      exact of_set rfl
  | setUserData b userData =>
      cases hs
      exact of_set rfl
  | start b afterSec =>
      cases hs
      exact h.start b afterSec
  | cancel b =>
      cases hs
      exact h.cancel fun heq => haction (by rw [heq])
  | drain =>
      obtain ⟨queue, hdrain, rfl⟩ := Option.map_eq_some_iff.mp hs
      exact h.drain hdrain
  | checkCanceled =>
      obtain ⟨queue, hcheck, rfl⟩ := Option.map_eq_some_iff.mp hs
      exact h.checkCanceled hcheck
  | fire => exact h.fire hs
  | returned =>
      simp only [Alarms.step, Alarms.returned] at hs
      split at hs
      · obtain ⟨queue, hqueue, rfl⟩ := Option.map_eq_some_iff.mp hs
        unfold MessageQueue.returned at hqueue
        split at hqueue
        · next hloop =>
            cases hqueue
            refine h.move ?_ rfl
            rw [hloop]
            exact List.Sublist.refl _
        · cases hqueue
      · cases hs
  | rest =>
      obtain ⟨queue, hqueue, rfl⟩ := Option.map_eq_some_iff.mp hs
      unfold MessageQueue.rest at hqueue
      split at hqueue
      · split at hqueue
        · cases hqueue
          exact h.move (List.nil_sublist _) rfl
        · split at hqueue <;> cases hqueue <;>
            exact h.move (List.nil_sublist _) rfl
      · cases hqueue
  | wake =>
      obtain ⟨queue, hqueue, rfl⟩ := Option.map_eq_some_iff.mp hs
      unfold MessageQueue.wake at hqueue
      split at hqueue
      · cases hqueue
        exact h.move (List.nil_sublist _) rfl
      · cases hqueue
  | tick nanoseconds =>
      cases hs
      exact h.aside rfl (fun m hm _ => hm) h.onePending rfl rfl

end Single

end Alarms

end GoSocket.Common
