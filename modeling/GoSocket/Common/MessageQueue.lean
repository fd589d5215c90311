import GoSocket.Foundation.Transition

/-!
# The message queue

`MessageQueue` keeps messages sorted by the time they are due; one thread runs
`__RunLoop` for ever.  Each part of the loop that holds the queue's lock is one
step here, and so is each call of `PostMessage` and `CancelMessage`.  Callbacks
are of an arbitrary type `κ`: running one is the user's step between the
cancelled check and `returned`.  Times are nanoseconds of the system clock.
-/

namespace GoSocket.Common

open Std

structure Message (κ : Type) where
  callback : Option κ
  messageId : UInt32
  when : Int
  deriving DecidableEq, Repr

/-- `DURATION_TO_MS`: the cast rounds toward zero. -/
def durationToMs (nanoseconds : Int) : Int := nanoseconds.tdiv 1000000

/-- What one pass of the loop keeps in its local variables. -/
structure Pass (κ : Type) where
  todo : List (UInt32 × κ)
  now : Int
  duration : Int
  deriving DecidableEq, Repr

/-- Where the queue's thread stands. -/
inductive LoopPc (κ : Type) where
  | top
  -- inside `for`, in front of the lock
  | next (pass : Pass κ)
  | calling (messageId : UInt32) (callback : κ) (pass : Pass κ)
  -- in `wait`, or in `wait_until` with that time
  | waiting (until? : Option Int)
  deriving DecidableEq, Repr

structure MessageQueue (κ : Type) where
  messages : List (Message κ) := []
  currentMsgId : UInt32 := 1
  hasPost : Bool := false
  canceledMessageIds : TreeMap UInt32 Bool := {}
  loop : LoopPc κ := .top

namespace MessageQueue

variable {κ : Type}

/-- In front of the first message that is not due earlier. -/
def insertMessage (new : Message κ) : List (Message κ) → List (Message κ)
  | [] => [new]
  | m :: rest =>
      if m.when < new.when then m :: insertMessage new rest
      else new :: m :: rest

def postMessage (self : MessageQueue κ) (now : Int) (afterSec : Int)
    (callback : Option κ) : MessageQueue κ × UInt32 :=
  let messageId := self.currentMsgId
  let currentMsgId := messageId + 1
  ({ self with
      currentMsgId := if currentMsgId = 0xFFFFFFFF then 1 else currentMsgId
      messages := insertMessage
        { callback, messageId, when := now + afterSec * 1000000000 }
        self.messages
      hasPost := true }, messageId)

def removeMessage (messageId : UInt32) : List (Message κ) → List (Message κ)
  | [] => []
  | m :: rest =>
      if m.messageId = messageId then rest
      else m :: removeMessage messageId rest

def cancelMessage (self : MessageQueue κ) (messageId : UInt32) :
    MessageQueue κ × Bool :=
  ({ self with
      canceledMessageIds := self.canceledMessageIds.insert messageId true
      messages := removeMessage messageId self.messages },
    self.messages.any (·.messageId = messageId))

/-! ## The loop -/

/-- The messages that the loop takes when it reads `now`. -/
def isDue (now : Int) (m : Message κ) : Bool := 0 ≤ durationToMs (now - m.when)

def addCallback (map : TreeMap UInt32 κ) (m : Message κ) : TreeMap UInt32 κ :=
  match m.callback with
  | some callback => map.insert m.messageId callback
  | none => map

def callbackMap (due : List (Message κ)) : TreeMap UInt32 κ :=
  due.foldl addCallback {}

def drain (self : MessageQueue κ) (now : Int) : Option (MessageQueue κ) :=
  match self.loop with
  | .top =>
      let rest := self.messages.dropWhile (isDue now)
      let duration :=
        match rest with
        | [] => 0
        | m :: _ => durationToMs (m.when - now)
      let todo := (callbackMap (self.messages.takeWhile (isDue now))).toList
      some { self with
        messages := rest, canceledMessageIds := {}, hasPost := false
        loop := .next { todo, now, duration } }
  | _ => none

def checkCanceled (self : MessageQueue κ) : Option (MessageQueue κ) :=
  match self.loop with
  | .next { todo := (messageId, callback) :: todo, now, duration } =>
      let pass : Pass κ := { todo, now, duration }
      if messageId ∈ self.canceledMessageIds then
        some { self with loop := .next pass }
      else some { self with loop := .calling messageId callback pass }
  | _ => none

def returned (self : MessageQueue κ) : Option (MessageQueue κ) :=
  match self.loop with
  | .calling _ _ pass => some { self with loop := .next pass }
  | _ => none

def rest (self : MessageQueue κ) : Option (MessageQueue κ) :=
  match self.loop with
  | .next { todo := [], now, duration } =>
      if self.hasPost then some { self with hasPost := false, loop := .top }
      else if duration = 0 then some { self with loop := .waiting none }
      else
        some { self with loop := .waiting (some (now + duration * 1000000)) }
  | _ => none

def wake (self : MessageQueue κ) : Option (MessageQueue κ) :=
  match self.loop with
  | .waiting _ => some { self with loop := .top }
  | _ => none

end MessageQueue

/-! ## The list and the callbacks taken from it -/

/-- The closures that the loop has taken and not yet called. -/
def LoopPc.todo {κ : Type} : LoopPc κ → List (UInt32 × κ)
  | .next pass => pass.todo
  | .calling _ _ pass => pass.todo
  | _ => []

def LoopPc.isCalling {κ : Type} : LoopPc κ → Bool
  | .calling _ _ _ => true
  | _ => false

def LoopPc.isWaiting {κ : Type} : LoopPc κ → Bool
  | .waiting _ => true
  | _ => false

namespace MessageQueue

variable {κ : Type}

theorem toNat_nextMsgId {currentMsgId : UInt32} {posts : Nat}
    (h : currentMsgId.toNat = 1 + posts % 4294967294) :
    (if currentMsgId + 1 = 0xFFFFFFFF then 1 else currentMsgId + 1 : UInt32).toNat =
      1 + (posts + 1) % 4294967294 := by
  have hadd : (currentMsgId + 1).toNat = currentMsgId.toNat + 1 := by
    rw [UInt32.toNat_add]
    simp
    omega
  split
  · next hmax =>
      rw [hmax] at hadd
      simp at hadd
      simp
      omega
  · next hne =>
      have hlt : (currentMsgId + 1).toNat ≠ 0xFFFFFFFF := fun heq =>
        hne (UInt32.toNat_inj.mp heq)
      omega

@[simp] theorem mem_insertMessage {new m : Message κ} {ms : List (Message κ)} :
    m ∈ insertMessage new ms ↔ m = new ∨ m ∈ ms := by
  induction ms with
  | nil => simp [insertMessage]
  | cons m' rest ih =>
      rw [insertMessage]
      split
      · simp only [List.mem_cons, ih]
        exact or_left_comm
      · simp

theorem nodup_insertMessage {new : Message κ} {ms : List (Message κ)}
    (hnew : ∀ m ∈ ms, m.messageId ≠ new.messageId)
    (h : (ms.map (·.messageId)).Nodup) :
    ((insertMessage new ms).map (·.messageId)).Nodup := by
  induction ms with
  | nil => simp [insertMessage]
  | cons m rest ih =>
      rw [List.map_cons, List.nodup_cons] at h
      rw [insertMessage]
      split
      · have hrest := ih (fun m hm => hnew m (by simp [hm])) h.2
        rw [List.map_cons, List.nodup_cons]
        refine ⟨?_, hrest⟩
        intro hmem
        obtain ⟨m', hm', hid⟩ := List.mem_map.mp hmem
        rcases mem_insertMessage.mp hm' with rfl | hm'
        · exact hnew m (by simp) hid.symm
        · exact h.1 (List.mem_map.mpr ⟨m', hm', hid⟩)
      · rw [List.map_cons, List.nodup_cons]
        refine ⟨?_, by rwa [List.map_cons, List.nodup_cons]⟩
        intro hmem
        obtain ⟨m', hm', hid⟩ := List.mem_map.mp hmem
        exact hnew m' hm' hid

theorem sorted_insertMessage {new : Message κ} {ms : List (Message κ)}
    (h : ms.Pairwise (·.when ≤ ·.when)) :
    (insertMessage new ms).Pairwise (·.when ≤ ·.when) := by
  induction ms with
  | nil => simp [insertMessage]
  | cons m rest ih =>
      rw [List.pairwise_cons] at h
      rw [insertMessage]
      split
      · next hlt =>
          refine List.pairwise_cons.mpr ⟨?_, ih h.2⟩
          intro m' hm'
          rcases mem_insertMessage.mp hm' with rfl | hm'
          · exact Int.le_of_lt hlt
          · exact h.1 m' hm'
      · next hge =>
          have hle : new.when ≤ m.when := Int.not_lt.mp hge
          refine List.pairwise_cons.mpr ⟨?_, List.pairwise_cons.mpr h⟩
          intro m' hm'
          rcases List.mem_cons.mp hm' with rfl | hm'
          · exact hle
          · exact Int.le_trans hle (h.1 m' hm')

theorem removeMessage_sublist (messageId : UInt32) (ms : List (Message κ)) :
    (removeMessage messageId ms).Sublist ms := by
  induction ms with
  | nil => exact .slnil
  | cons m rest ih =>
      rw [removeMessage]
      split
      · exact List.sublist_cons_self m rest
      · exact ih.cons_cons m

theorem messageId_ne_of_mem_removeMessage {messageId : UInt32}
    {ms : List (Message κ)} (h : (ms.map (·.messageId)).Nodup) {m : Message κ}
    (hm : m ∈ removeMessage messageId ms) : m.messageId ≠ messageId := by
  induction ms with
  | nil => simp [removeMessage] at hm
  | cons m' rest ih =>
      rw [List.map_cons, List.nodup_cons] at h
      rw [removeMessage] at hm
      split at hm
      · next heq =>
          intro hid
          exact h.1 (List.mem_map.mpr ⟨m, hm, hid.trans heq.symm⟩)
      · next hne =>
          rcases List.mem_cons.mp hm with rfl | hm
          · exact hne
          · exact ih h.2 hm

theorem mem_removeMessage_of_ne {messageId : UInt32} {ms : List (Message κ)}
    {m : Message κ} (hm : m ∈ ms) (hne : m.messageId ≠ messageId) :
    m ∈ removeMessage messageId ms := by
  induction ms with
  | nil => cases hm
  | cons m' rest ih =>
      rw [removeMessage]
      rcases List.mem_cons.mp hm with rfl | hm
      · rw [if_neg hne]
        exact List.mem_cons_self
      · split
        · exact hm
        · exact List.mem_cons_of_mem m' (ih hm)

private theorem of_getElem?_addCallback {map : Std.TreeMap UInt32 κ}
    {m : Message κ} {messageId : UInt32} {callback : κ}
    (h : (addCallback map m)[messageId]? = some callback) :
    map[messageId]? = some callback ∨
      m.messageId = messageId ∧ m.callback = some callback := by
  unfold addCallback at h
  cases hm : m.callback with
  | none =>
      rw [hm] at h
      exact .inl h
  | some callback' =>
      rw [hm] at h
      simp only [Std.TreeMap.getElem?_insert] at h
      split at h
      · next heq =>
          cases h
          exact .inr ⟨Std.LawfulEqCmp.eq_of_compare heq, rfl⟩
      · exact .inl h

private theorem of_getElem?_foldl_addCallback {due : List (Message κ)}
    {map : Std.TreeMap UInt32 κ} {messageId : UInt32} {callback : κ}
    (h : (due.foldl addCallback map)[messageId]? = some callback) :
    map[messageId]? = some callback ∨
      ∃ m ∈ due, m.messageId = messageId ∧ m.callback = some callback := by
  induction due generalizing map with
  | nil => exact .inl h
  | cons m rest ih =>
      rcases ih h with h | ⟨m', hm', hid, hcallback⟩
      · rcases of_getElem?_addCallback h with h | h
        · exact .inl h
        · exact .inr ⟨m, by simp, h⟩
      · exact .inr ⟨m', by simp [hm'], hid, hcallback⟩

theorem of_mem_callbackMap {due : List (Message κ)} {messageId : UInt32}
    {callback : κ} (h : (messageId, callback) ∈ (callbackMap due).toList) :
    ∃ m ∈ due, m.messageId = messageId ∧ m.callback = some callback := by
  rw [Std.TreeMap.mem_toList_iff_getElem?_eq_some] at h
  rcases of_getElem?_foldl_addCallback h with h | h
  · simp at h
  · exact h

private theorem getElem?_foldl_addCallback_of_not_mem {due : List (Message κ)}
    {map : Std.TreeMap UInt32 κ} {messageId : UInt32}
    (h : messageId ∉ due.map (·.messageId)) :
    (due.foldl addCallback map)[messageId]? = map[messageId]? := by
  induction due generalizing map with
  | nil => rfl
  | cons m rest ih =>
      rw [List.map_cons, List.mem_cons, not_or] at h
      rw [List.foldl_cons, ih h.2]
      unfold addCallback
      split
      · rw [Std.TreeMap.getElem?_insert, if_neg]
        intro heq
        exact h.1 (Std.LawfulEqCmp.eq_of_compare heq).symm
      · rfl

theorem mem_callbackMap {due : List (Message κ)}
    (h : (due.map (·.messageId)).Nodup) {m : Message κ} (hm : m ∈ due)
    {callback : κ} (hcallback : m.callback = some callback) :
    (m.messageId, callback) ∈ (callbackMap due).toList := by
  rw [Std.TreeMap.mem_toList_iff_getElem?_eq_some]
  unfold callbackMap
  generalize ({} : Std.TreeMap UInt32 κ) = map
  induction due generalizing map with
  | nil => cases hm
  | cons m' rest ih =>
      rw [List.map_cons, List.nodup_cons] at h
      rw [List.foldl_cons]
      rcases List.mem_cons.mp hm with rfl | hm
      · rw [getElem?_foldl_addCallback_of_not_mem h.1]
        simp [addCallback, hcallback]
      · exact ih h.2 hm _

theorem callbackMap_filter (due : List (Message κ)) :
    callbackMap (due.filter (·.callback.isSome)) =
      callbackMap due := by
  unfold callbackMap
  generalize ({} : Std.TreeMap UInt32 κ) = map
  induction due generalizing map with
  | nil => rfl
  | cons m rest ih =>
      cases hcallback : m.callback with
      | none =>
          have hskip : addCallback map m = map := by
            rw [addCallback, hcallback]
          rw [List.filter_cons_of_neg (by simp [hcallback]), List.foldl_cons, hskip,
            ih]
      | some callback =>
          rw [List.filter_cons_of_pos (by simp [hcallback]), List.foldl_cons,
            List.foldl_cons, ih]

theorem nodup_callbackMap (due : List (Message κ)) :
    ((callbackMap due).toList.map Prod.fst).Nodup := by
  rw [Std.TreeMap.map_fst_toList_eq_keys]
  exact Std.TreeMap.nodup_keys

theorem checkCanceled_eq {self queue : MessageQueue κ} {messageId : UInt32}
    {callback : κ} {todo : List (UInt32 × κ)}
    (h : self.checkCanceled = some queue)
    (htodo : self.loop.todo = (messageId, callback) :: todo) :
    queue = { self with loop := queue.loop } ∧ queue.loop.todo = todo ∧
      queue.loop.isCalling = !decide (messageId ∈ self.canceledMessageIds) := by
  unfold checkCanceled at h
  split at h
  · next messageId' callback' todo' now duration hloop =>
      rw [hloop] at htodo
      cases htodo
      split at h
      · next hmem =>
          cases h
          simp [LoopPc.todo, LoopPc.isCalling, hmem]
      · next hmem =>
          cases h
          simp [LoopPc.todo, LoopPc.isCalling, hmem]
  · cases h

/-- Behind a step of the loop that takes no message and calls nothing. -/
structure Idles (before after : MessageQueue κ) : Prop where
  messages : after.messages = before.messages
  currentMsgId : after.currentMsgId = before.currentMsgId
  canceledMessageIds : after.canceledMessageIds = before.canceledMessageIds
  todo : after.loop.todo = before.loop.todo

theorem idles_returned {self queue : MessageQueue κ} (h : self.returned = some queue) :
    self.Idles queue := by
  unfold returned at h
  split at h
  · next hloop =>
      cases h
      exact ⟨rfl, rfl, rfl, by rw [hloop]; rfl⟩
  · cases h

theorem idles_rest {self queue : MessageQueue κ} (h : self.rest = some queue) :
    self.Idles queue := by
  unfold rest at h
  split at h
  · next hloop =>
      split at h
      · cases h
        exact ⟨rfl, rfl, rfl, by rw [hloop]; rfl⟩
      · split at h
        · cases h
          exact ⟨rfl, rfl, rfl, by rw [hloop]; rfl⟩
        · cases h
          exact ⟨rfl, rfl, rfl, by rw [hloop]; rfl⟩
  · cases h

theorem idles_wake {self queue : MessageQueue κ} (h : self.wake = some queue) :
    self.Idles queue := by
  unfold wake at h
  split at h
  · next hloop =>
      cases h
      exact ⟨rfl, rfl, rfl, by rw [hloop]; rfl⟩
  · cases h

end MessageQueue

end GoSocket.Common
