import GoSocket.Common.MessageQueue
import GoSocket.Foundation.LinkedCells

/-!
# The linked list of the message queue

`MessageQueue` keeps its messages in cells that it allocates, links and deletes
by hand.  Here are the three operations on these cells.  They do what
`MessageQueue` does on a list, and what a plain set of timers does.
-/

namespace GoSocket.Common

open Std GoSocket.Foundation

/-- The fields of the queue; an address that is not in the heap is free. -/
structure LinkedQueue (κ : Type) where
  heap : CellHeap (Message κ) := {}
  firstMessage : Option Nat := none
  currentMsgId : UInt32 := 1
  hasPost : Bool := false
  canceledMessageIds : TreeMap UInt32 Bool := {}

namespace LinkedQueue

variable {κ : Type}

/-- `PostMessage`, where `new` gives the address; `none` is a dangling pointer. -/
def postMessage (self : LinkedQueue κ) (addr : Nat) (now afterSec : Int)
    (callback : Option κ) : Option (LinkedQueue κ × UInt32) :=
  let messageId := self.currentMsgId
  let newMessage : Message κ :=
    { callback, messageId, when := now + afterSec * 1000000000 }
  let heap := self.heap.insert addr { value := newMessage, next := none }
  let currentMsgId := messageId + 1
  match walk heap (fun m => !decide (m.when < newMessage.when)) heap.size none
    self.firstMessage with
  | none => none
  | some (lastMessage, currentMessage) =>
      (link heap self.firstMessage addr lastMessage currentMessage).map
        fun (heap, firstMessage) =>
          ({ self with
              heap, firstMessage
              currentMsgId := if currentMsgId = 0xFFFFFFFF then 1 else currentMsgId
              hasPost := true }, messageId)

def cancelMessage (self : LinkedQueue κ) (messageId : UInt32) :
    Option (LinkedQueue κ × Bool) :=
  let canceledMessageIds := self.canceledMessageIds.insert messageId true
  match walk self.heap (fun m => decide (m.messageId = messageId)) self.heap.size none
    self.firstMessage with
  | none => none
  | some (_, none) => some ({ self with canceledMessageIds }, false)
  | some (lastMessage, some currentMessage) =>
      (unlink self.heap self.firstMessage lastMessage currentMessage).map
        fun (heap, firstMessage) =>
          ({ self with heap, firstMessage, canceledMessageIds }, true)

def drainLoop (now : Int) : Nat → CellHeap (Message κ) → Option Nat →
    TreeMap UInt32 κ → Option (CellHeap (Message κ) × Option Nat × TreeMap UInt32 κ)
  | _, heap, none, callbackMap => some (heap, none, callbackMap)
  | 0, _, some _, _ => none
  | fuel + 1, heap, some currentMessage, callbackMap =>
      match heap[currentMessage]? with
      | none => none
      | some cell =>
          if MessageQueue.isDue now cell.value then
            drainLoop now fuel (heap.erase currentMessage) cell.next
              (MessageQueue.addCallback callbackMap cell.value)
          else some (heap, some currentMessage, callbackMap)

def drain (self : LinkedQueue κ) (now : Int) : Option (LinkedQueue κ × Pass κ) :=
  match drainLoop now self.heap.size self.heap self.firstMessage {} with
  | none => none
  | some (heap, firstMessage, callbackMap) =>
      let duration :=
        match firstMessage with
        | none => some 0
        | some currentMessage =>
            heap[currentMessage]?.map fun (cell : Cell (Message κ)) =>
              durationToMs (cell.value.when - now)
      duration.map fun duration =>
        ({ self with
            heap, firstMessage, canceledMessageIds := {}, hasPost := false },
          { todo := callbackMap.toList, now, duration })

/-- The messages that can be read off the cells, and no other cell. -/
def Holds (self : LinkedQueue κ) (messages : List (Message κ)) : Prop :=
  ∃ cells, Linked self.heap self.firstMessage cells ∧
    cells.map Prod.snd = messages

/-- The same queue, with its list in cells and as a list. -/
structure Represents (linked : LinkedQueue κ) (queue : MessageQueue κ) : Prop where
  holds : linked.Holds queue.messages
  currentMsgId : linked.currentMsgId = queue.currentMsgId
  hasPost : linked.hasPost = queue.hasPost
  canceledMessageIds : linked.canceledMessageIds = queue.canceledMessageIds

variable {self : LinkedQueue κ} {queue : MessageQueue κ}
  {messages : List (Message κ)}

/-! ## The operations on the cells are those on the list -/

theorem insertMessage_cells {new : Message κ} {before after : List (Nat × Message κ)}
    (hbefore : ∀ c ∈ before, c.2.when < new.when)
    (hafter : ∀ c ∈ after.head?, ¬c.2.when < new.when) :
    MessageQueue.insertMessage new ((before ++ after).map Prod.snd) =
      before.map Prod.snd ++ new :: after.map Prod.snd := by
  induction before with
  | nil =>
      cases after with
      | nil => rfl
      | cons c rest =>
          rw [List.nil_append, List.map_cons, MessageQueue.insertMessage,
            if_neg (hafter c (by simp))]
          rfl
  | cons c rest ih =>
      rw [List.cons_append, List.map_cons, MessageQueue.insertMessage,
        if_pos (hbefore c (by simp)),
        ih fun c hc => hbefore c (List.mem_cons_of_mem _ hc)]
      rfl

theorem removeMessage_cells {messageId : UInt32} {before after : List (Nat × Message κ)}
    (hbefore : ∀ c ∈ before, c.2.messageId ≠ messageId)
    (hafter : ∀ c ∈ after.head?, c.2.messageId = messageId) :
    MessageQueue.removeMessage messageId ((before ++ after).map Prod.snd) =
        (before ++ after.tail).map Prod.snd ∧
      ((before ++ after).map Prod.snd).any (·.messageId = messageId) =
        after.head?.isSome := by
  induction before with
  | nil =>
      cases after with
      | nil => exact ⟨rfl, rfl⟩
      | cons c rest =>
          have hid := hafter c (by simp)
          exact ⟨if_pos hid, by simp [hid]⟩
  | cons c rest ih =>
      obtain ⟨hremove, hany⟩ := ih fun c hc => hbefore c (List.mem_cons_of_mem _ hc)
      have hne := hbefore c (by simp)
      constructor
      · rw [List.cons_append, List.map_cons, MessageQueue.removeMessage, if_neg hne,
          hremove]
        rfl
      · rw [List.cons_append, List.map_cons, List.any_cons, hany, decide_eq_false hne,
          Bool.false_or]

theorem Represents.postMessage (h : self.Represents queue) {addr : Nat}
    (haddr : self.heap[addr]? = none) (now afterSec : Int) (callback : Option κ) :
    ∃ next, self.postMessage addr now afterSec callback =
        some (next, (queue.postMessage now afterSec callback).2) ∧
      next.Represents (queue.postMessage now afterSec callback).1 := by
  obtain ⟨⟨cells, hlinked, hcells⟩, hid, hpost, hcanceled⟩ := h
  let new : Message κ :=
    { callback, messageId := queue.currentMsgId, when := now + afterSec * 1000000000 }
  obtain ⟨before, after, rfl, hbefore, hafter⟩ :=
    exists_split (fun m => !decide (m.when < new.when)) cells
  obtain ⟨heap, first, hlink, hnew⟩ := hlinked.link new haddr
  have hsegment := hlinked.segment.insert { value := new, next := none }
    (hlinked.notMem haddr)
  have hfuel : (before ++ after).length ≤
      (self.heap.insert addr { value := new, next := none }).size :=
    Nat.le_trans hlinked.length_le TreeMap.size_le_size_insert
  have hwalk := walk_eq (fun m => !decide (m.when < new.when)) hsegment hfuel
    hbefore hafter none
  rw [Option.or_none] at hwalk
  have hmessages : (before ++ (addr, new) :: after).map Prod.snd =
      MessageQueue.insertMessage new queue.messages := by
    rw [← hcells, insertMessage_cells]
    · rw [List.map_append]
      rfl
    · intro c hc
      simpa using hbefore c hc
    · intro c hc
      simpa using hafter c hc
  refine ⟨{ self with
    heap, firstMessage := first
    currentMsgId := if queue.currentMsgId + 1 = 0xFFFFFFFF then 1 else queue.currentMsgId + 1
    hasPost := true }, ?_, ⟨_, hnew, hmessages⟩, rfl, rfl, hcanceled⟩
  unfold LinkedQueue.postMessage
  simp only [hid]
  rw [hwalk]
  exact congrArg (Option.map _) hlink

theorem Represents.cancelMessage (h : self.Represents queue) (messageId : UInt32) :
    ∃ next, self.cancelMessage messageId =
        some (next, (queue.cancelMessage messageId).2) ∧
      next.Represents (queue.cancelMessage messageId).1 := by
  obtain ⟨⟨cells, hlinked, hcells⟩, hid, hpost, hcanceled⟩ := h
  obtain ⟨before, after, rfl, hbefore, hafter⟩ :=
    exists_split (fun m => decide (m.messageId = messageId)) cells
  have hwalk := walk_eq (fun m => decide (m.messageId = messageId)) hlinked.segment
    hlinked.length_le hbefore hafter none
  rw [Option.or_none] at hwalk
  obtain ⟨hremove, hany⟩ := removeMessage_cells
    (fun c hc => of_decide_eq_false (hbefore c hc))
    (fun c hc => of_decide_eq_true (hafter c hc))
  rw [hcells] at hremove hany
  cases after with
  | nil =>
      refine ⟨{ self with
        canceledMessageIds := self.canceledMessageIds.insert messageId true }, ?_,
        ⟨_, hlinked, hremove.symm⟩, hid, hpost, ?_⟩
      · unfold LinkedQueue.cancelMessage MessageQueue.cancelMessage
        rw [hwalk, hany]
        rfl
      · exact congrArg (·.insert messageId true) hcanceled
  | cons c rest =>
      obtain ⟨heap, first, hunlink, hnew⟩ := hlinked.unlink
      refine ⟨{ self with
        heap, firstMessage := first
        canceledMessageIds := self.canceledMessageIds.insert messageId true }, ?_,
        ⟨_, hnew, hremove.symm⟩, hid, hpost, ?_⟩
      · unfold LinkedQueue.cancelMessage MessageQueue.cancelMessage
        rw [hwalk, hany]
        simp only [List.head?_cons, Option.map_some, hunlink]
        rfl
      · exact congrArg (·.insert messageId true) hcanceled

theorem drainLoop_eq (now : Int) {fuel : Nat} {heap : CellHeap (Message κ)}
    {first : Option Nat} {cells : List (Nat × Message κ)} (h : Linked heap first cells)
    (hfuel : cells.length ≤ fuel) (callbackMap : TreeMap UInt32 κ) :
    ∃ heap' first', drainLoop now fuel heap first callbackMap =
        some (heap', first', ((cells.map Prod.snd).takeWhile
          (MessageQueue.isDue now)).foldl MessageQueue.addCallback callbackMap) ∧
      Linked heap' first' (cells.dropWhile fun c => MessageQueue.isDue now c.2) := by
  induction cells generalizing heap first fuel callbackMap with
  | nil =>
      have hfirst : first = none := h.segment
      subst hfirst
      exact ⟨heap, none, by cases fuel <;> rfl, h⟩
  | cons c rest ih =>
      obtain ⟨rfl, next, hcell, hrest⟩ := h.tail
      cases fuel with
      | zero => simp at hfuel
      | succ fuel =>
          rw [drainLoop, hcell]
          by_cases hdue : MessageQueue.isDue now c.2 = true
          · obtain ⟨heap', first', hloop, hlinked⟩ := ih hrest (by simpa using hfuel)
              (MessageQueue.addCallback callbackMap c.2)
            refine ⟨heap', first', ?_, ?_⟩
            · simp [hdue, hloop]
            · simpa [hdue] using hlinked
          · refine ⟨heap, some c.1, ?_, ?_⟩
            · simp [hdue]
            · simpa [hdue] using h

theorem Represents.drain (h : self.Represents queue) (now : Int)
    (htop : queue.loop = .top) :
    ∃ next pass queue', self.drain now = some (next, pass) ∧
      queue.drain now = some queue' ∧ queue'.loop = .next pass ∧
      next.Represents queue' := by
  obtain ⟨⟨cells, hlinked, hcells⟩, hid, hpost, hcanceled⟩ := h
  obtain ⟨heap, first, hloop, hrest⟩ :=
    drainLoop_eq now hlinked hlinked.length_le {}
  rw [hcells] at hloop
  have hmessages : (cells.dropWhile fun c => MessageQueue.isDue now c.2).map Prod.snd =
      queue.messages.dropWhile (MessageQueue.isDue now) := by
    rw [← hcells, List.dropWhile_map]
    rfl
  generalize cells.dropWhile (fun c => MessageQueue.isDue now c.2) = left
    at hrest hmessages
  have hfirst := hrest.segment.first_eq
  unfold LinkedQueue.drain MessageQueue.drain
  rw [hloop, htop]
  simp only [← hmessages]
  cases left with
  | nil =>
      cases hfirst
      exact ⟨_, _, _, rfl, rfl, rfl, ⟨_, hrest, rfl⟩, hid, rfl, rfl⟩
  | cons c rest =>
      obtain ⟨rfl, next, hcell, -⟩ := hrest.segment
      refine ⟨{ self with
        heap, firstMessage := some c.1, canceledMessageIds := {}, hasPost := false },
        _, _, ?_, rfl, rfl, ⟨_, hrest, rfl⟩, hid, rfl, rfl⟩
      simp only [hcell, Option.map_some]
      rfl

end LinkedQueue

/-! ## Runs, beside a plain set of timers -/

/-- A queue, and the timers that were posted and neither canceled nor drained,
each with the number of its post. -/
structure TimerRun (κ : Type) where
  queue : LinkedQueue κ := {}
  timers : Set (Nat × Message κ) := ∅
  posts : Nat := 0

inductive TimerAction (κ : Type) where
  -- `new` gives that address
  | post (addr : Nat) (now afterSec : Int) (callback : Option κ)
  | cancel (messageId : UInt32)
  | drain (now : Int)

namespace TimerRun

variable {κ : Type}

def step (self : TimerRun κ) : TimerAction κ → Option (TimerRun κ)
  | .post addr now afterSec callback =>
      if self.queue.heap[addr]?.isSome then none
      else
        (self.queue.postMessage addr now afterSec callback).map fun (queue, messageId) =>
          { queue
            timers := insert (self.posts,
              { callback, messageId, when := now + afterSec * 1000000000 }) self.timers
            posts := self.posts + 1 }
  | .cancel messageId =>
      (self.queue.cancelMessage messageId).map fun (queue, _) => { self with
        queue, timers := { timer ∈ self.timers | timer.2.messageId ≠ messageId } }
  | .drain now =>
      (self.queue.drain now).map fun (queue, _) => { self with
        queue, timers := { timer ∈ self.timers | ¬timer.2.when < now + 1000000 } }

def FewPosts (s : TimerRun κ) : TimerAction κ → Prop
  | .post _ _ _ _ => ∀ timer ∈ s.timers, s.posts < timer.1 + 4294967294
  | _ => True

/-- The cells are the timers, in the order of their deadlines, each once. -/
structure Sorted (s : TimerRun κ) (messages : List (Nat × Message κ)) : Prop where
  holds : s.queue.Holds (messages.map Prod.snd)
  sorted : (messages.map Prod.snd).Pairwise (·.when ≤ ·.when)
  nodup : ((messages.map Prod.snd).map (·.messageId)).Nodup
  timers : ∀ timer, timer ∈ messages ↔ timer ∈ s.timers

/-- The list is the set of timers, and each call returns and does to it what it
says. -/
structure KeepsTimers (s : TimerRun κ) (messages : List (Nat × Message κ)) : Prop where
  list : Sorted s messages
  post : ∀ addr now afterSec callback, s.queue.heap[addr]? = none →
    ∃ queue, s.queue.postMessage addr now afterSec callback =
      some (queue, s.queue.currentMsgId)
  cancel : ∀ messageId, ∃ queue found,
    s.queue.cancelMessage messageId = some (queue, found) ∧
      (found = true ↔ ∃ timer ∈ s.timers, timer.2.messageId = messageId) ∧
      queue.Holds ((messages.filter (·.2.messageId ≠ messageId)).map Prod.snd)
  drain : ∀ now, ∃ queue pass, s.queue.drain now = some (queue, pass) ∧
    queue.Holds ((messages.filter fun timer =>
      ¬timer.2.when < now + 1000000).map Prod.snd)

variable {s t : TimerRun κ} {messages : List (Nat × Message κ)}

theorem removeMessage_eq_filter {messageId : UInt32} {ms : List (Message κ)}
    (h : (ms.map (·.messageId)).Nodup) :
    MessageQueue.removeMessage messageId ms =
      ms.filter (·.messageId ≠ messageId) := by
  induction ms with
  | nil => rfl
  | cons m rest ih =>
      rw [List.map_cons, List.nodup_cons] at h
      rw [MessageQueue.removeMessage]
      split
      · next hid =>
          rw [List.filter_cons_of_neg (by simpa using hid), eq_comm,
            List.filter_eq_self]
          intro m' hm'
          have hne : m'.messageId ≠ messageId := fun heq =>
            h.1 (List.mem_map.mpr ⟨m', hm', heq.trans hid.symm⟩)
          simpa using hne
      · next hid =>
          rw [List.filter_cons_of_pos (by simpa using hid), ih h.2]

theorem isDue_iff {now : Int} {m : Message κ} :
    MessageQueue.isDue now m = true ↔ m.when < now + 1000000 := by
  unfold MessageQueue.isDue durationToMs
  rw [decide_eq_true_iff]
  rcases Int.le_total 0 (now - m.when) with hle | hle
  · have hnonneg := Int.tdiv_nonneg (b := 1000000) hle (by omega)
    omega
  · have hneg : now - m.when = -(m.when - now) := by omega
    rw [hneg, Int.neg_tdiv, Int.tdiv_eq_ediv_of_nonneg (by omega)]
    omega

theorem dropWhile_eq_filter {now : Int} {ms : List (Message κ)}
    (h : ms.Pairwise (·.when ≤ ·.when)) :
    ms.dropWhile (MessageQueue.isDue now) =
      ms.filter fun m => ¬m.when < now + 1000000 := by
  induction ms with
  | nil => rfl
  | cons m rest ih =>
      rw [List.pairwise_cons] at h
      by_cases hdue : m.when < now + 1000000
      · rw [List.dropWhile_cons_of_pos (isDue_iff.mpr hdue),
          List.filter_cons_of_neg (by simpa using hdue), ih h.2]
      · rw [List.dropWhile_cons_of_neg fun hm => hdue (isDue_iff.mp hm), eq_comm,
          List.filter_eq_self]
        intro m' hm'
        have hle : m.when ≤ m'.when := by
          rcases List.mem_cons.mp hm' with rfl | hm'
          · exact Int.le_refl _
          · exact h.1 m' hm'
        simp only [decide_eq_true_eq]
        omega

def toQueue (self : LinkedQueue κ) (messages : List (Message κ)) : MessageQueue κ where
  messages
  currentMsgId := self.currentMsgId
  hasPost := self.hasPost
  canceledMessageIds := self.canceledMessageIds

/-- The numbers of the posts give the ids. -/
structure Tracked (s : TimerRun κ) : Prop where
  list : ∃ messages, Sorted s messages
  currentMsgId : s.queue.currentMsgId.toNat = 1 + s.posts % 4294967294
  numbers : ∀ timer ∈ s.timers,
    timer.1 < s.posts ∧ timer.2.messageId.toNat = 1 + timer.1 % 4294967294

theorem Sorted.represents (h : Sorted s messages) :
    s.queue.Represents (toQueue s.queue (messages.map Prod.snd)) :=
  ⟨h.holds, rfl, rfl, rfl⟩

theorem Sorted.filter (h : Sorted s messages) {p : Message κ → Bool}
    {queue : LinkedQueue κ}
    (hholds : queue.Holds ((messages.map Prod.snd).filter p)) :
    Sorted { s with queue, timers := { timer ∈ s.timers | p timer.2 } }
      (messages.filter (p ·.2)) := by
  have hmap : (messages.filter (p ·.2)).map Prod.snd =
      (messages.map Prod.snd).filter p := by
    rw [List.filter_map]
    rfl
  have hsub := List.filter_sublist (p := p) (l := messages.map Prod.snd)
  constructor
  case holds => rwa [hmap]
  case sorted => rw [hmap]; exact h.sorted.sublist hsub
  case nodup => rw [hmap]; exact h.nodup.sublist (hsub.map _)
  case timers =>
    intro timer
    rw [List.mem_filter, h.timers]
    rfl

theorem Sorted.insert (h : Sorted s messages) {new : Message κ}
    (hfresh : ∀ timer ∈ s.timers, timer.2.messageId ≠ new.messageId)
    {queue : LinkedQueue κ} {posts : Nat} (n : Nat)
    (hholds : queue.Holds (MessageQueue.insertMessage new (messages.map Prod.snd))) :
    ∃ messages', Sorted { queue, timers := Insert.insert (n, new) s.timers, posts }
      messages' := by
  obtain ⟨before, after, rfl, hbefore, hafter⟩ :=
    exists_split (fun m => !decide (m.when < new.when)) messages
  have hmap : (before ++ (n, new) :: after).map Prod.snd =
      MessageQueue.insertMessage new ((before ++ after).map Prod.snd) := by
    rw [LinkedQueue.insertMessage_cells, List.map_append, List.map_cons]
    · intro c hc
      simpa using hbefore c hc
    · intro c hc
      simpa using hafter c hc
  refine ⟨before ++ (n, new) :: after, ?_⟩
  constructor
  case holds => rwa [hmap]
  case sorted =>
    rw [hmap]
    exact MessageQueue.sorted_insertMessage h.sorted
  case nodup =>
    rw [hmap]
    refine MessageQueue.nodup_insertMessage ?_ h.nodup
    intro m hm
    obtain ⟨timer, htimer, rfl⟩ := List.mem_map.mp hm
    exact hfresh timer ((h.timers timer).mp htimer)
  case timers =>
    intro timer
    rw [List.perm_middle.mem_iff, List.mem_cons, h.timers]
    rfl

theorem Sorted.cancelMessage (h : Sorted s messages) (messageId : UInt32) :
    ∃ queue found, s.queue.cancelMessage messageId = some (queue, found) ∧
      queue.currentMsgId = s.queue.currentMsgId ∧
      (found = true ↔ ∃ timer ∈ s.timers, timer.2.messageId = messageId) ∧
      queue.Holds ((messages.map Prod.snd).filter (·.messageId ≠ messageId)) := by
  obtain ⟨queue, hcancel, hqueue⟩ := h.represents.cancelMessage messageId
  refine ⟨queue, _, hcancel, hqueue.currentMsgId, ?_, ?_⟩
  · simp [MessageQueue.cancelMessage, toQueue, h.timers]
  · rw [← removeMessage_eq_filter h.nodup]
    exact hqueue.holds

theorem Sorted.drain (h : Sorted s messages) (now : Int) :
    ∃ queue pass, s.queue.drain now = some (queue, pass) ∧
      queue.currentMsgId = s.queue.currentMsgId ∧
      queue.Holds ((messages.map Prod.snd).filter fun m => ¬m.when < now + 1000000) := by
  obtain ⟨queue, pass, queue', hdrain, hdrain', -, hqueue⟩ :=
    h.represents.drain now rfl
  cases hdrain'
  refine ⟨queue, pass, hdrain, hqueue.currentMsgId, ?_⟩
  rw [← dropWhile_eq_filter h.sorted]
  exact hqueue.holds

namespace Tracked

theorem fresh (h : Tracked s) {addr : Nat} {now afterSec : Int} {callback : Option κ}
    (hok : FewPosts s (.post addr now afterSec callback)) :
    ∀ timer ∈ s.timers, timer.2.messageId ≠ s.queue.currentMsgId := by
  intro timer htimer heq
  have hfew := hok timer htimer
  obtain ⟨hlt, hid⟩ := h.numbers timer htimer
  have hcurrent := h.currentMsgId
  rw [← heq] at hcurrent
  omega

theorem post (h : Tracked s) {addr : Nat} {now afterSec : Int} {callback : Option κ}
    (hok : FewPosts s (.post addr now afterSec callback))
    (hstep : s.step (.post addr now afterSec callback) = some t) : Tracked t := by
  obtain ⟨messages, hlist⟩ := h.list
  have hfresh := h.fresh hok
  rw [step] at hstep
  split at hstep
  · cases hstep
  next haddr =>
  obtain ⟨next, hpost, hnext⟩ := hlist.represents.postMessage
    (by simpa using haddr) now afterSec callback
  rw [hpost] at hstep
  cases hstep
  have hcurrent := h.currentMsgId
  constructor
  case list => exact hlist.insert hfresh s.posts hnext.holds
  case currentMsgId =>
    rw [hnext.currentMsgId]
    exact MessageQueue.toNat_nextMsgId hcurrent
  case numbers =>
    rintro timer (rfl | htimer)
    · exact ⟨Nat.lt_succ_self _, hcurrent⟩
    · obtain ⟨hlt, hid⟩ := h.numbers timer htimer
      exact ⟨Nat.lt_succ_of_lt hlt, hid⟩

theorem cancel (h : Tracked s) {messageId : UInt32}
    (hstep : s.step (.cancel messageId) = some t) : Tracked t := by
  obtain ⟨messages, hlist⟩ := h.list
  obtain ⟨queue, found, hcancel, hid, -, hholds⟩ := hlist.cancelMessage messageId
  rw [step, hcancel] at hstep
  cases hstep
  constructor
  case list =>
    have hfilter := hlist.filter hholds
    simp only [decide_eq_true_eq] at hfilter
    exact ⟨_, hfilter⟩
  case currentMsgId => exact hid ▸ h.currentMsgId
  case numbers => exact fun timer htimer => h.numbers timer htimer.1

theorem drain (h : Tracked s) {now : Int} (hstep : s.step (.drain now) = some t) :
    Tracked t := by
  obtain ⟨messages, hlist⟩ := h.list
  obtain ⟨queue, pass, hdrain, hid, hholds⟩ := hlist.drain now
  rw [step, hdrain] at hstep
  cases hstep
  constructor
  case list =>
    have hfilter := hlist.filter hholds
    simp only [decide_eq_true_eq] at hfilter
    exact ⟨_, hfilter⟩
  case currentMsgId => exact hid ▸ h.currentMsgId
  case numbers => exact fun timer htimer => h.numbers timer htimer.1

theorem step (h : Tracked s) (action : TimerAction κ) (hok : FewPosts s action)
    (hstep : s.step action = some t) : Tracked t := by
  cases action with
  | post addr now afterSec callback => exact h.post hok hstep
  | cancel messageId => exact h.cancel hstep
  | drain now => exact h.drain hstep

end Tracked

theorem tracked_init : Tracked ({} : TimerRun κ) where
  list :=
    ⟨[], ⟨[], ⟨rfl, .nil, by simp⟩, rfl⟩, .nil, .nil,
      fun _ => ⟨nofun, False.elim⟩⟩
  currentMsgId := rfl
  numbers := nofun

/-- While fewer than 2^32 - 2 posts are made in the life of a message, the linked
list is the set of timers. -/
theorem keepsTimers (h : Reachable step FewPosts {} s) :
    ∃ messages, KeepsTimers s messages := by
  have htracked : Tracked s := h.invariant tracked_init
    fun _ action _ _ ht hok hstep => ht.step action hok hstep
  obtain ⟨messages, hlist⟩ := htracked.list
  refine ⟨messages, ?_⟩
  constructor
  case list => exact hlist
  case post =>
    intro addr now afterSec callback haddr
    obtain ⟨next, hpost, -⟩ := hlist.represents.postMessage haddr now afterSec callback
    exact ⟨next, hpost⟩
  case cancel =>
    intro messageId
    obtain ⟨queue, found, hcancel, -, hfound, hholds⟩ := hlist.cancelMessage messageId
    refine ⟨queue, found, hcancel, hfound, ?_⟩
    rwa [List.filter_map] at hholds
  case drain =>
    intro now
    obtain ⟨queue, pass, hdrain, -, hholds⟩ := hlist.drain now
    refine ⟨queue, pass, hdrain, ?_⟩
    rwa [List.filter_map] at hholds

theorem fewPosts_of_lt (action : TimerAction κ) (h : s.posts < 4294967294) :
    FewPosts s action := by
  cases action with
  | post => exact fun timer _ => Nat.lt_add_left timer.1 h
  | cancel => trivial
  | drain => trivial

/-- The second of three messages is canceled, and the first is drained. -/
theorem keepsTimers_three : ∃ s : TimerRun Unit, s.queue.firstMessage = some 7 ∧
    s.queue.heap.size = 1 ∧ ∃ messages, KeepsTimers s messages := by
  have hrun : Reachable step FewPosts ({} : TimerRun Unit) _ :=
    .tail (.drain 1000000000) (.tail (.cancel 2) (.tail (.post 9 0 1 none) (.tail
      (.post 8 0 1 none) (.tail (.post 7 0 2 none) .refl
        (fewPosts_of_lt _ (by decide)) rfl) (fewPosts_of_lt _ (by decide)) rfl)
          (fewPosts_of_lt _ (by decide)) rfl) (fewPosts_of_lt _ (by decide)) rfl)
            (fewPosts_of_lt _ (by decide)) rfl
  exact ⟨_, by decide, by decide, keepsTimers hrun⟩

end TimerRun

end GoSocket.Common
