import GoSocket.Common.AlarmSafety

/-!
# No alarm is lost

An alarm that is started, and neither canceled nor fired, has the closure of its
last `Start` on the way: in the list with its deadline, taken by the loop and not
canceled, or called.  The other alarms' calls do not take it away, for as long as
the 32-bit ids have not all been given out.
-/

namespace GoSocket.Common

open GoSocket.Foundation

variable {α : Type} [DecidableEq α]

namespace Alarms

/-- Where the closure of the alarm's last `Start` is. -/
inductive HasClosure (s : Alarms α) (a : α) (start : Nat) (deadline : Int) : Prop
  | pending (hmem : { callback := some { alarm := a, start }
                      messageId := (s.alarms a).messageId
                      when := deadline } ∈ s.queue.messages)
  | taken (hmem : ((s.alarms a).messageId, { alarm := a, start }) ∈ s.queue.loop.todo)
      (hlive : (s.alarms a).messageId ∉ s.queue.canceledMessageIds)
  | called (pass : Pass (Posted α))
      (hloop : s.queue.loop =
        .calling (s.alarms a).messageId { alarm := a, start } pass)
      (hfiring : s.firing = false)

/-- The alarm waits for its last `Start`, and that `Start`'s closure is there. -/
def OnTheWay (s : Alarms α) (a : α) : Prop :=
  ∃ start deadline, latest a s.log = some (start, deadline) ∧
    s.HasClosure a start deadline

/-- The ids count the `Start`s, no two alarms have the same one, and an alarm that
waits has its closure on the way. -/
structure NoneLost (s : Alarms α) : Prop where
  nextId : s.queue.currentMsgId.toNat = 1 + s.starts
  alarms : ∀ a, (s.alarms a).messageId.toNat ≤ s.starts
  apart : ∀ a b, (s.alarms a).messageId = (s.alarms b).messageId →
    (s.alarms a).messageId = 0 ∨ a = b
  messages : ∀ m ∈ s.queue.messages, m.messageId.toNat ≤ s.starts
  nodup : (s.queue.messages.map (·.messageId)).Nodup
  firing : s.firing = true → s.queue.loop.isCalling = true
  waiting : ∀ a, (s.alarms a).isWaiting = true →
    (s.alarms a).messageId ≠ 0 ∧ s.OnTheWay a

omit [DecidableEq α] in
/-- A step that does not move the loop, and leaves the closure its message and its
id uncanceled. -/
theorem HasClosure.aside {s t : Alarms α} {a : α} {start : Nat} {deadline : Int}
    (h : s.HasClosure a start deadline)
    (hid : (t.alarms a).messageId = (s.alarms a).messageId)
    (hmessages : ∀ m ∈ s.queue.messages, m.messageId = (s.alarms a).messageId →
      m ∈ t.queue.messages)
    (hcanceled : (s.alarms a).messageId ∉ s.queue.canceledMessageIds →
      (s.alarms a).messageId ∉ t.queue.canceledMessageIds)
    (hloop : t.queue.loop = s.queue.loop) (hfiring : t.firing = s.firing) :
    t.HasClosure a start deadline := by
  cases h with
  | pending hmem =>
      refine .pending ?_
      rw [hid]
      exact hmessages _ hmem rfl
  | taken hmem hlive =>
      refine .taken ?_ ?_
      · rwa [hid, hloop]
      · rw [hid]
        exact hcanceled hlive
  | called pass hcalling hnot =>
      exact .called pass (by rw [hid, hloop, hcalling]) (by rw [hfiring, hnot])

namespace NoneLost

variable {s t : Alarms α} {a b : α}

theorem init : NoneLost ({} : Alarms α) where
  nextId := rfl
  alarms _ := Nat.le_refl _
  apart _ _ _ := .inl rfl
  messages := by simp
  nodup := by simp
  firing := by simp
  waiting a h := by simp [Alarm.isWaiting] at h

/-! What a step leaves of a closure. -/

private theorem of_set {alarm : Alarm} (h : NoneLost s)
    (hid : alarm.messageId = (s.alarms b).messageId)
    (hstatus : alarm.status = (s.alarms b).status) : NoneLost (s.set b alarm) := by
  have halarm (a : α) : ((s.set b alarm).alarms a).messageId = (s.alarms a).messageId ∧
      ((s.set b alarm).alarms a).status = (s.alarms a).status := by
    by_cases ha : a = b
    · simp [set, ha, hid, hstatus]
    · simp [set, Function.update_of_ne ha]
  refine ⟨h.nextId, fun a => ?_, fun a b => ?_, h.messages, h.nodup, h.firing,
    fun a ha => ?_⟩
  · rw [(halarm a).1]
    exact h.alarms a
  · rw [(halarm a).1, (halarm b).1]
    exact h.apart a b
  · have hwaiting : (s.alarms a).isWaiting = true := by
      simpa [Alarm.isWaiting, (halarm a).2] using ha
    obtain ⟨hne, start, deadline, hlatest, hclosure⟩ := h.waiting a hwaiting
    exact ⟨by rwa [(halarm a).1], start, deadline, hlatest,
      hclosure.aside (halarm a).1 (fun m hm _ => hm) id rfl rfl⟩

theorem start (h : NoneLost s) (b : α) (afterSec : Int)
    (hfew : (s.start b afterSec).1.starts < 4294967294) :
    NoneLost (s.start b afterSec).1 := by
  cases hcan : s.canStart b with
  | false =>
      simp only [Alarms.start, hcan]
      exact h
  | true =>
      rw [Good.start_eq hcan] at hfew ⊢
      have hstarts : s.starts + 1 < 4294967294 := hfew
      have hnext := h.nextId
      have hself (x : Alarm) : Function.update s.alarms b x b = x :=
        Function.update_self ..
      have hother {a : α} (ha : a ≠ b) (x : Alarm) :
          Function.update s.alarms b x a = s.alarms a :=
        Function.update_of_ne ha _ _
      have happart {a : α} (heq : (s.alarms a).messageId = s.queue.currentMsgId) :
          False := by
        have hle := h.alarms a
        rw [heq] at hle
        omega
      constructor
      case nextId =>
        have hposts : s.queue.currentMsgId.toNat = 1 + s.starts % 4294967294 := by
          omega
        have hcount := MessageQueue.toNat_nextMsgId hposts
        rw [Nat.mod_eq_of_lt hstarts] at hcount
        exact hcount
      case alarms =>
        intro a
        dsimp only
        by_cases ha : a = b
        · rw [ha, hself]
          change s.queue.currentMsgId.toNat ≤ s.starts + 1
          omega
        · rw [hother ha]
          exact Nat.le_succ_of_le (h.alarms a)
      case apart =>
        intro a c heq
        dsimp only at heq ⊢
        by_cases ha : a = b <;> by_cases hc : c = b
        · exact .inr (ha.trans hc.symm)
        · rw [ha, hself, hother hc] at heq
          exact (happart heq.symm).elim
        · rw [hc, hself, hother ha] at heq
          exact (happart heq).elim
        · rw [hother ha, hother hc] at heq
          rw [hother ha]
          exact h.apart a c heq
      case messages =>
        intro m hm
        rcases MessageQueue.mem_insertMessage.mp hm with rfl | hm
        · exact Nat.le_of_eq (by simp only; omega)
        · exact Nat.le_succ_of_le (h.messages m hm)
      case nodup =>
        refine MessageQueue.nodup_insertMessage (fun m hm heq => ?_) h.nodup
        have hle := h.messages m hm
        rw [heq] at hle
        simp only at hle
        omega
      case firing => exact h.firing
      case waiting =>
        intro a hwaiting
        dsimp only at hwaiting ⊢
        by_cases ha : a = b
        · subst ha
          refine ⟨?_, s.starts, _, if_pos rfl, .pending ?_⟩
          · rw [hself]
            intro hzero
            have hcount := congrArg UInt32.toNat hzero
            rw [hnext] at hcount
            simp at hcount
          · dsimp only
            rw [hself]
            exact MessageQueue.mem_insertMessage.mpr (.inl rfl)
        · rw [hother ha] at hwaiting ⊢
          obtain ⟨hne, start, deadline, hlatest, hclosure⟩ := h.waiting a hwaiting
          refine ⟨hne, start, deadline, ?_,
            hclosure.aside (congrArg Alarm.messageId (hother ha _)) ?_ id rfl rfl⟩
          · simpa [latest, Ne.symm ha] using hlatest
          · exact fun m hm _ => MessageQueue.mem_insertMessage.mpr (.inr hm)

theorem cancel (h : NoneLost s) (b : α) : NoneLost (s.cancel b).1 := by
  by_cases hne : (s.alarms b).messageId = 0
  · simp only [Alarms.cancel, hne, if_true]
    exact h
  rw [Good.cancel_eq hne]
  have hself (x : Alarm) : Function.update s.alarms b x b = x := Function.update_self ..
  have hother {a : α} (ha : a ≠ b) (x : Alarm) :
      Function.update s.alarms b x a = s.alarms a :=
    Function.update_of_ne ha _ _
  have hsub := MessageQueue.removeMessage_sublist (s.alarms b).messageId s.queue.messages
  constructor
  case nextId => exact h.nextId
  case alarms =>
    intro a
    dsimp only
    by_cases ha : a = b
    · rw [ha, hself]
      exact Nat.zero_le _
    · rw [hother ha]
      exact h.alarms a
  case apart =>
    intro a c heq
    dsimp only at heq ⊢
    by_cases ha : a = b
    · rw [ha, hself]
      exact .inl rfl
    · rw [hother ha] at heq ⊢
      by_cases hc : c = b
      · rw [hc, hself] at heq
        exact .inl heq
      · rw [hother hc] at heq
        exact h.apart a c heq
  case messages => exact fun m hm => h.messages m (hsub.subset hm)
  case nodup => exact (hsub.map _).nodup h.nodup
  case firing => exact h.firing
  case waiting =>
    intro a hwaiting
    dsimp only at hwaiting ⊢
    by_cases ha : a = b
    · rw [ha, hself] at hwaiting
      cases hwaiting
    · rw [hother ha] at hwaiting ⊢
      obtain ⟨hid, start, deadline, hlatest, hclosure⟩ := h.waiting a hwaiting
      -- the id that is canceled is not this alarm's
      have hids : (s.alarms a).messageId ≠ (s.alarms b).messageId := fun heq =>
        (h.apart a b heq).elim hid ha
      refine ⟨hid, start, deadline, by simpa [latest, Ne.symm ha] using hlatest,
        hclosure.aside (congrArg Alarm.messageId (hother ha _)) ?_ ?_ rfl rfl⟩
      · intro m hm heq
        exact MessageQueue.mem_removeMessage_of_ne hm (by rwa [heq])
      · intro hlive hmem
        rcases Std.TreeMap.mem_insert.mp hmem with heq | hmem
        · exact hids (Std.LawfulEqCmp.eq_of_compare heq).symm
        · exact hlive hmem

/-! The loop. -/

private theorem move (h : NoneLost s) {queue : MessageQueue (Posted α)} {firing : Bool}
    (hnext : queue.currentMsgId = s.queue.currentMsgId)
    (hsub : queue.messages.Sublist s.queue.messages)
    (hfiring : firing = true → queue.loop.isCalling = true)
    (hclosure : ∀ a start deadline, (s.alarms a).messageId ≠ 0 →
      s.HasClosure a start deadline →
        HasClosure { s with queue, firing } a start deadline) :
    NoneLost { s with queue, firing } where
  nextId := by rw [hnext, h.nextId]
  alarms := h.alarms
  apart := h.apart
  messages m hm := h.messages m (hsub.subset hm)
  nodup := (hsub.map _).nodup h.nodup
  firing := hfiring
  waiting a ha := by
    obtain ⟨hne, start, deadline, hlatest, hbefore⟩ := h.waiting a ha
    exact ⟨hne, start, deadline, hlatest, hclosure a start deadline hne hbefore⟩

omit [DecidableEq α] in
private theorem in_list {start : Nat} {deadline : Int}
    (hclosure : s.HasClosure a start deadline) (hcalling : s.queue.loop.isCalling = false)
    (htodo : s.queue.loop.todo = []) :
    { callback := some { alarm := a, start }
      messageId := (s.alarms a).messageId
      when := deadline } ∈ s.queue.messages := by
  cases hclosure with
  | pending hmem => exact hmem
  | taken hmem hlive =>
      rw [htodo] at hmem
      cases hmem
  | called pass hloop hnot =>
      rw [hloop] at hcalling
      cases hcalling

private theorem idle (h : NoneLost s) (hcalling : s.queue.loop.isCalling = false) :
    s.firing = false := by
  by_contra hfiring
  rw [Bool.not_eq_false] at hfiring
  rw [h.firing hfiring] at hcalling
  cases hcalling

theorem drain (h : NoneLost s) {queue : MessageQueue (Posted α)}
    (hdrain : s.queue.drain s.now = some queue) : NoneLost { s with queue } := by
  unfold MessageQueue.drain at hdrain
  split at hdrain
  · next hloop =>
      cases hdrain
      have hcalling : s.queue.loop.isCalling = false := by rw [hloop]; rfl
      refine h.move rfl (List.dropWhile_suffix _).sublist (by simp [h.idle hcalling]) ?_
      intro a start deadline hne hclosure
      have hmem := in_list hclosure hcalling (by rw [hloop]; rfl)
      rw [← List.takeWhile_append_dropWhile (p := MessageQueue.isDue s.now)
        (l := s.queue.messages), List.mem_append] at hmem
      rcases hmem with hdue | hrest
      · refine .taken ?_ (by simp)
        refine MessageQueue.mem_callbackMap ?_ hdue rfl
        exact ((List.takeWhile_prefix _).sublist.map _).nodup h.nodup
      · exact .pending hrest
  · cases hdrain

theorem checkCanceled (h : NoneLost s) {queue : MessageQueue (Posted α)}
    (hcheck : s.queue.checkCanceled = some queue) : NoneLost { s with queue } := by
  unfold MessageQueue.checkCanceled at hcheck
  split at hcheck
  · next messageId callback todo now duration hloop =>
      have hidle := h.idle (by rw [hloop]; rfl)
      -- a closure that the loop has taken is the first one, or behind it
      have htaken {a : α} {start : Nat}
          (hmem : ((s.alarms a).messageId, { alarm := a, start }) ∈ s.queue.loop.todo) :
          ((s.alarms a).messageId = messageId ∧ { alarm := a, start } = callback) ∨
            ((s.alarms a).messageId, { alarm := a, start }) ∈ todo := by
        rw [hloop] at hmem
        rcases List.mem_cons.mp hmem with heq | hmem
        · exact .inl (Prod.mk.inj heq)
        · exact .inr hmem
      dsimp only at hcheck
      split at hcheck
      · next hcanceled =>
          cases hcheck
          refine h.move rfl (List.Sublist.refl _) (by simp [hidle]) ?_
          intro a start deadline hne hclosure
          cases hclosure with
          | pending hmem => exact .pending hmem
          | taken hmem hlive =>
              rcases htaken hmem with ⟨rfl, -⟩ | hmem
              · exact absurd hcanceled hlive
              · exact .taken hmem hlive
          | called pass hcalling hnot =>
              rw [hloop] at hcalling
              cases hcalling
      · cases hcheck
        refine h.move rfl (List.Sublist.refl _) (by simp [hidle]) ?_
        intro a start deadline hne hclosure
        cases hclosure with
        | pending hmem => exact .pending hmem
        | taken hmem hlive =>
            rcases htaken hmem with ⟨rfl, rfl⟩ | hmem
            · exact .called _ rfl hidle
            · exact .taken hmem hlive
        | called pass hcalling hnot =>
            rw [hloop] at hcalling
            cases hcalling
  · cases hcheck

private theorem moveFrom (h : NoneLost s) (hcalling : s.queue.loop.isCalling = false)
    (htodo : s.queue.loop.todo = []) (loop : LoopPc (Posted α)) (hasPost : Bool) :
    NoneLost { s with queue := { s.queue with loop, hasPost } } := by
  refine h.move rfl (List.Sublist.refl _) (by simp [h.idle hcalling]) ?_
  intro a start deadline _ hclosure
  have hmem := in_list hclosure hcalling htodo
  exact .pending hmem

theorem rest (h : NoneLost s) {queue : MessageQueue (Posted α)}
    (hrest : s.queue.rest = some queue) : NoneLost { s with queue } := by
  unfold MessageQueue.rest at hrest
  split at hrest
  · next now duration hloop =>
      have hcalling : s.queue.loop.isCalling = false := by rw [hloop]; rfl
      have htodo : s.queue.loop.todo = [] := by rw [hloop]; rfl
      split at hrest
      · cases hrest
        exact h.moveFrom hcalling htodo _ _
      · split at hrest <;> cases hrest <;> exact h.moveFrom hcalling htodo _ _
  · cases hrest

theorem wake (h : NoneLost s) {queue : MessageQueue (Posted α)}
    (hwake : s.queue.wake = some queue) : NoneLost { s with queue } := by
  unfold MessageQueue.wake at hwake
  split at hwake
  · next until? hloop =>
      cases hwake
      exact h.moveFrom (by rw [hloop]; rfl) (by rw [hloop]; rfl) _ _
  · cases hwake

theorem returned (h : NoneLost s) (hreturned : s.returned = some t) : NoneLost t := by
  unfold Alarms.returned at hreturned
  split at hreturned
  · next hfiring =>
      obtain ⟨queue, hqueue, rfl⟩ := Option.map_eq_some_iff.mp hreturned
      unfold MessageQueue.returned at hqueue
      split at hqueue
      · next messageId callback pass hloop =>
          cases hqueue
          refine h.move rfl (List.Sublist.refl _) (by simp) ?_
          intro a start deadline hne hclosure
          cases hclosure with
          | pending hmem => exact .pending hmem
          | taken hmem hlive =>
              rw [hloop] at hmem
              exact .taken hmem hlive
          | called pass hcalling hnot =>
              rw [hfiring] at hnot
              cases hnot
      · cases hqueue
  · cases hreturned

private theorem fired (h : NoneLost s) {messageId : UInt32} {posted : Posted α}
    {pass : Pass (Posted α)} (hloop : s.queue.loop = .calling messageId posted pass) :
    NoneLost { s with
      alarms := Function.update s.alarms posted.alarm
        { s.alarms posted.alarm with status := .kStatusAlarm }
      firing := true
      log := .fired posted.alarm posted.start s.now :: s.log } := by
  have hids (a : α) : (Function.update s.alarms posted.alarm
      { s.alarms posted.alarm with status := .kStatusAlarm } a).messageId =
        (s.alarms a).messageId := by
    by_cases ha : a = posted.alarm
    · rw [ha, Function.update_self]
    · rw [Function.update_of_ne ha]
  refine ⟨h.nextId, fun a => ?_, fun a b => ?_, h.messages, h.nodup,
    fun _ => by simp only [hloop]; rfl, fun a ha => ?_⟩
  · rw [hids]
    exact h.alarms a
  · rw [hids, hids]
    exact h.apart a b
  · by_cases heq : a = posted.alarm
    · subst heq
      simp [Alarm.isWaiting] at ha
    · have hwaiting : (s.alarms a).isWaiting = true := by
        simpa only [Function.update_of_ne heq] using ha
      obtain ⟨hne, start, deadline, hlatest, hclosure⟩ := h.waiting a hwaiting
      refine ⟨by rwa [hids], start, deadline,
        by simpa [latest, Ne.symm heq] using hlatest, ?_⟩
      cases hclosure with
      | pending hmem => exact .pending (by rwa [hids])
      | taken hmem hlive => exact .taken (by rwa [hids]) (by rwa [hids])
      | called pass' hcalling hnot =>
          rw [hloop] at hcalling
          cases hcalling
          exact absurd rfl heq

theorem fire (h : NoneLost s) (hfire : s.fire = some t) : NoneLost t := by
  unfold Alarms.fire at hfire
  split at hfire
  · next messageId posted pass hloop hidle =>
      dsimp only at hfire
      split at hfire
      · next hzero =>
          cases hfire
          refine h.move rfl (List.Sublist.refl _) (by simp [hidle]) ?_
          intro a start deadline hne hclosure
          cases hclosure with
          | pending hmem => exact .pending hmem
          | taken hmem hlive =>
              rw [hloop] at hmem
              exact .taken hmem hlive
          | called pass hcalling hnot =>
              rw [hloop] at hcalling
              cases hcalling
              exact absurd hzero hne
      · next hid =>
          cases hfire
          exact h.fired hloop
  · cases hfire

theorem starts_step {action : AlarmAction α} (hs : s.step action = some t) :
    s.starts ≤ t.starts := by
  have queue {next : Option (MessageQueue (Posted α))}
      (hmap : next.map (fun queue => { s with queue }) = some t) :
      s.starts ≤ t.starts := by
    obtain ⟨queue, -, rfl⟩ := Option.map_eq_some_iff.mp hmap
    exact Nat.le_refl _
  cases action with
  | start b afterSec =>
      cases hs
      unfold Alarms.start
      split
      · exact Nat.le_succ _
      · exact Nat.le_refl _
  | cancel b =>
      cases hs
      unfold Alarms.cancel
      split <;> exact Nat.le_refl _
  | fire =>
      simp only [Alarms.step, Alarms.fire] at hs
      split at hs
      · split at hs <;> cases hs <;> exact Nat.le_refl _
      · cases hs
  | returned =>
      simp only [Alarms.step, Alarms.returned] at hs
      split at hs
      · obtain ⟨queue, -, rfl⟩ := Option.map_eq_some_iff.mp hs
        exact Nat.le_refl _
      · cases hs
  | drain => exact queue hs
  | checkCanceled => exact queue hs
  | rest => exact queue hs
  | wake => exact queue hs
  | setCallback | setUserData | tick =>
      cases hs
      exact Nat.le_refl _

theorem step (h : NoneLost s) {action : AlarmAction α} (hs : s.step action = some t)
    (hfew : t.starts < 4294967294) : NoneLost t := by
  cases action with
  | setCallback b =>
      cases hs
      exact h.of_set rfl rfl
  | setUserData b userData =>
      cases hs
      exact h.of_set rfl rfl
  | start b afterSec =>
      cases hs
      exact h.start b afterSec hfew
  | cancel b =>
      cases hs
      exact h.cancel b
  | drain =>
      obtain ⟨queue, hdrain, rfl⟩ := Option.map_eq_some_iff.mp hs
      exact h.drain hdrain
  | checkCanceled =>
      obtain ⟨queue, hcheck, rfl⟩ := Option.map_eq_some_iff.mp hs
      exact h.checkCanceled hcheck
  | fire => exact h.fire hs
  | returned => exact h.returned hs
  | rest =>
      obtain ⟨queue, hrest, rfl⟩ := Option.map_eq_some_iff.mp hs
      exact h.rest hrest
  | wake =>
      obtain ⟨queue, hwake, rfl⟩ := Option.map_eq_some_iff.mp hs
      exact h.wake hwake
  | tick nanoseconds =>
      cases hs
      refine ⟨h.nextId, h.alarms, h.apart, h.messages, h.nodup, h.firing, fun a ha => ?_⟩
      obtain ⟨hne, start, deadline, hlatest, hclosure⟩ := h.waiting a ha
      exact ⟨hne, start, deadline, hlatest, hclosure.aside rfl (fun _ hm _ => hm) id rfl rfl⟩

theorem freshId (h : NoneLost s) : s.FreshId := by
  intro m hm heq
  have hle := h.messages m hm
  rw [heq, h.nextId] at hle
  omega

theorem of_reachable (h : Reachable Alarms.step AnyStep {} s)
    (hfew : s.starts < 4294967294) : NoneLost s := by
  have hstep (u : Alarms α) (action : AlarmAction α) (v : Alarms α)
      (_ : Reachable Alarms.step AnyStep {} u) (hu : u.starts < 4294967294 → NoneLost u)
      (_ : AnyStep u action) (hs : u.step action = some v)
      (hv : v.starts < 4294967294) : NoneLost v :=
    (hu (Nat.lt_of_le_of_lt (starts_step hs) hv)).step hs hv
  exact h.invariant (fun _ => init) hstep hfew

end NoneLost

/-- In every interleaving an alarm that waits has the closure of its last `Start` on
the way, with the deadline of that `Start`: neither the calls for other alarms nor the
loop lose it, before there have been `2 ^ 32 - 2` `Start`s. -/
theorem waiting_on_the_way {s : Alarms α} (h : Reachable Alarms.step AnyStep {} s)
    (hfew : s.starts < 4294967294) (a : α) (hwaiting : (s.alarms a).isWaiting = true) :
    s.OnTheWay a :=
  ((NoneLost.of_reachable h hfew).waiting a hwaiting).2

/-- Two alarms are due, and one is canceled behind the drain. -/
theorem waiting_on_the_way_drained :
    ∃ s : Alarms Bool, (s.alarms true).isWaiting = true ∧ s.queue.messages = [] ∧
      s.starts < 4294967294 ∧ s.OnTheWay true := by
  have hrun : (run Alarms.step ({} : Alarms Bool)
      [.setCallback true, .setCallback false, .start false 1, .start true 1,
        .tick 1000000000, .drain, .cancel false]).map
      (fun s => ((s.alarms true).isWaiting, s.queue.messages, s.starts)) =
        some (true, [], 2) := by
    decide +kernel
  obtain ⟨s, hreach, hlogs⟩ := Reachable.of_run_map hrun
  have hwaiting : (s.alarms true).isWaiting = true := congrArg Prod.fst hlogs
  have hstarts : s.starts = 2 := congrArg (fun logs => logs.2.2) hlogs
  have hfew : s.starts < 4294967294 := by omega
  exact ⟨s, hwaiting, congrArg (fun logs => logs.2.1) hlogs, hfew,
    waiting_on_the_way hreach hfew true hwaiting⟩

end Alarms

end GoSocket.Common
