import GoSocket.Foundation.Keyed
import GoSocket.Socket.Epoll

/-!
# SocketPoll, and the registrations of SocketEpoll

`SocketPoll` passes its whole list to `poll`.  `SocketEpoll` adds its list to an
epoll instance, which keeps what it has got before: adding a descriptor again
changes nothing, and adding a closed one fails.  Nobody looks at the results.
-/

namespace GoSocket.Socket

open GoSocket.Foundation

/-- What holds of a descriptor while it is polled. -/
structure FdCondition where
  readable : Bool := false
  writable : Bool := false
  hangUp : Bool := false
  error : Bool := false
  closed : Bool := false
  deriving DecidableEq, Repr

def FdCondition.ready (self : FdCondition) : EventBits where
  epollIn := self.readable
  epollOut := self.writable
  epollErr := self.error
  epollHup := self.hangUp

/-! ## SocketPoll -/

structure PollBits where
  pollIn : Bool := false
  pollOut : Bool := false
  pollErr : Bool := false
  pollHup : Bool := false
  pollNval : Bool := false
  deriving DecidableEq, Repr

/-- The `revents` that `poll` gives to an entry. -/
def PollBits.report (events : PollBits) (condition : FdCondition) : PollBits :=
  if condition.closed then { pollNval := true }
  else
    { pollIn := events.pollIn && condition.readable
      pollOut := events.pollOut && condition.writable
      pollErr := condition.error
      pollHup := condition.hangUp }

/-- A `pollfd`. -/
structure PollFd where
  fd : Nat
  events : PollBits
  revents : PollBits := {}
  deriving DecidableEq, Repr

structure SocketPoll where
  events : List PollFd
  pollEvents : List PollFd := []
  deriving DecidableEq, Repr

namespace SocketPoll

def new (breakerFd : Nat) : SocketPoll where
  events := [{ fd := breakerFd, events := { pollIn := true } }]

/-- What `ReadEvent`, `WriteEvent` and `ErrorEvent` do; `__AddEvent` puts a new
descriptor at the end. -/
def setEvent (self : SocketPoll) (fd : Nat) (change : PollBits → PollBits) :
    SocketPoll :=
  { self with
    events := upsert PollFd.fd fd (fun e => { e with events := change e.events })
      { fd, events := change {} } self.events }

def readEvent (self : SocketPoll) (fd : Nat) (active : Bool) : SocketPoll :=
  self.setEvent fd fun bits => { bits with pollIn := active }

def writeEvent (self : SocketPoll) (fd : Nat) (active : Bool) : SocketPoll :=
  self.setEvent fd fun bits => { bits with pollOut := active }

def errorEvent (self : SocketPoll) (fd : Nat) (active : Bool) : SocketPoll :=
  self.setEvent fd fun bits => { bits with pollErr := active, pollNval := active }

def clearEvent (self : SocketPoll) : SocketPoll :=
  { self with events := self.events.take 1 }

def poll (self : SocketPoll) (condition : Nat → FdCondition) : SocketPoll :=
  let events := self.events.map fun e =>
    { e with revents := e.events.report (condition e.fd) }
  { events, pollEvents := events.filter (·.revents ≠ {}) }

/-- The `revents` of a descriptor that `Poll` has found. -/
def revents (self : SocketPoll) (fd : Nat) : PollBits :=
  match self.pollEvents.find? (·.fd = fd) with
  | some e => e.revents
  | none => {}

def readFdIsSet (self : SocketPoll) (fd : Nat) : Bool :=
  (self.revents fd).pollIn || (self.revents fd).pollHup

def writeFdIsSet (self : SocketPoll) (fd : Nat) : Bool :=
  (self.revents fd).pollOut

def exceptionFdIsSet (self : SocketPoll) (fd : Nat) : Bool :=
  (self.revents fd).pollErr || (self.revents fd).pollNval

def breakerRevents (self : SocketPoll) : PollBits :=
  match self.events with
  | e :: _ => e.revents
  | [] => {}

def breakerIsError (self : SocketPoll) : Bool :=
  self.breakerRevents.pollNval || self.breakerRevents.pollErr

def breakerIsBreak (self : SocketPoll) : Bool := self.breakerRevents.pollIn

theorem revents_poll {self : SocketPoll} (h : (self.events.map PollFd.fd).Nodup)
    (condition : Nat → FdCondition) (fd : Nat) :
    (self.poll condition).revents fd =
      match self.events.find? (·.fd = fd) with
      | some e => e.events.report (condition fd)
      | none => {} := by
  unfold revents poll
  dsimp only
  rw [find?_filter_of_nodup, List.find?_map, Function.comp_def]
  · cases hfind : self.events.find? (·.fd = fd) with
    | none => simp
    | some e =>
        have hfd : e.fd = fd := by simpa using List.find?_some hfind
        subst hfd
        by_cases hempty : e.events.report (condition e.fd) = {}
        · simp [hempty, Option.filter]
        · simp [hempty, Option.filter]
  · rw [List.map_map]
    exact h

end SocketPoll

/-! ## SocketEpoll -/

namespace SocketEpoll

/-- The event bits of a descriptor that `Poll` has found. -/
def bits (self : SocketEpoll) (fd : Nat) : EventBits :=
  match self.pollEvents.find? (·.fd = fd) with
  | some e => e.events
  | none => {}

@[simp] theorem readFdIsSet_eq (self : SocketEpoll) (fd : Nat) :
    self.readFdIsSet fd = ((self.bits fd).epollIn || (self.bits fd).epollHup) := by
  unfold readFdIsSet bits
  cases self.pollEvents.find? (·.fd = fd) <;> rfl

@[simp] theorem writeFdIsSet_eq (self : SocketEpoll) (fd : Nat) :
    self.writeFdIsSet fd = (self.bits fd).epollOut := by
  unfold writeFdIsSet bits
  cases self.pollEvents.find? (·.fd = fd) <;> rfl

@[simp] theorem exceptionFdIsSet_eq (self : SocketEpoll) (fd : Nat) :
    self.exceptionFdIsSet fd = (self.bits fd).epollErr := by
  unfold exceptionFdIsSet bits
  cases self.pollEvents.find? (·.fd = fd) <;> rfl

def breakerIsError (self : SocketEpoll) (breakerFd : Nat) : Bool :=
  self.exceptionFdIsSet breakerFd

def breakerIsBreak (self : SocketEpoll) (breakerFd : Nat) : Bool :=
  self.readFdIsSet breakerFd

end SocketEpoll

/-- A `SocketEpoll` with the epoll instance behind its `_epfd`. -/
structure Epoll where
  socketEpoll : SocketEpoll
  registered : List EpollEvent := []
  deriving DecidableEq, Repr

namespace Epoll

def new (breakerFd : Nat) : Epoll where
  socketEpoll := .new breakerFd

def setEvent (self : Epoll) (fd : Nat) (change : EventBits → EventBits) : Epoll :=
  { self with
    socketEpoll := { self.socketEpoll with
      events := upsert EpollEvent.fd fd
        (fun e => { e with events := change e.events })
        { fd, events := change {} } self.socketEpoll.events } }

def readEvent (self : Epoll) (fd : Nat) (active : Bool) : Epoll :=
  self.setEvent fd fun bits => { bits with epollIn := active }

def writeEvent (self : Epoll) (fd : Nat) (active : Bool) : Epoll :=
  self.setEvent fd fun bits => { bits with epollOut := active }

def errorEvent (self : Epoll) (fd : Nat) (active : Bool) : Epoll :=
  self.setEvent fd fun bits => { bits with epollErr := active }

def clearEvent (self : Epoll) : Epoll :=
  { self with socketEpoll := self.socketEpoll.clearEvent }

/-- `EPOLL_CTL_ADD`: `EBADF` of a closed descriptor, `EEXIST` of one that is
there. -/
def ctlAdd (condition : Nat → FdCondition) (registered : List EpollEvent)
    (e : EpollEvent) : List EpollEvent :=
  if (condition e.fd).closed then registered
  else if e.fd ∈ registered.map EpollEvent.fd then registered
  else registered ++ [e]

def register (self : Epoll) (condition : Nat → FdCondition) : List EpollEvent :=
  self.socketEpoll.events.foldl (ctlAdd condition)
    (self.registered.filter fun e => !(condition e.fd).closed)

def ready (registered : List EpollEvent) (condition : Nat → FdCondition) :
    List EpollEvent :=
  registered.filterMap fun e =>
    let events := e.events.report (condition e.fd).ready
    if events = {} then none else some { fd := e.fd, events }

/-- What `epoll_wait` may return: as many of the ready ones as there is room
for, in any order. -/
def WaitReturns (ready : List EpollEvent) (maxEvents : Nat)
    (ret : List EpollEvent) : Prop :=
  ret.Subperm ready ∧ ret.length = min maxEvents ready.length

private theorem nodup_ctlAdd {condition : Nat → FdCondition}
    {registered : List EpollEvent} {e : EpollEvent}
    (h : (registered.map EpollEvent.fd).Nodup) :
    ((ctlAdd condition registered e).map EpollEvent.fd).Nodup := by
  unfold ctlAdd
  split
  · exact h
  · split
    · exact h
    · next hnew =>
        rw [List.map_append, List.nodup_append]
        refine ⟨h, by simp, ?_⟩
        intro fd hfd fd' hfd'
        rintro rfl
        cases List.mem_singleton.mp hfd'
        exact hnew hfd

private theorem nodup_foldl_ctlAdd {condition : Nat → FdCondition}
    (l : List EpollEvent) {registered : List EpollEvent}
    (h : (registered.map EpollEvent.fd).Nodup) :
    ((l.foldl (ctlAdd condition) registered).map EpollEvent.fd).Nodup := by
  induction l generalizing registered with
  | nil => exact h
  | cons e l ih => exact ih (nodup_ctlAdd h)

private theorem mem_ctlAdd {condition : Nat → FdCondition}
    {registered : List EpollEvent} {e e' : EpollEvent} :
    e' ∈ ctlAdd condition registered e ↔ e' ∈ registered ∨
      e' = e ∧ (condition e.fd).closed = false ∧
        e.fd ∉ registered.map EpollEvent.fd := by
  unfold ctlAdd
  split
  · next hclosed => simp [hclosed]
  · next hclosed =>
      split
      · next hmem => simp [hmem]
      · next hmem =>
          rw [List.mem_append, List.mem_singleton]
          simp only [Bool.not_eq_true] at hclosed
          simp [hclosed, hmem]

private theorem mem_foldl_ctlAdd {condition : Nat → FdCondition}
    {l registered : List EpollEvent} (hl : (l.map EpollEvent.fd).Nodup)
    {e : EpollEvent} :
    e ∈ l.foldl (ctlAdd condition) registered ↔ e ∈ registered ∨
      e ∈ l ∧ (condition e.fd).closed = false ∧
        e.fd ∉ registered.map EpollEvent.fd := by
  induction l generalizing registered with
  | nil => simp
  | cons a l ih =>
      rw [List.map_cons, List.nodup_cons] at hl
      rw [List.foldl_cons, ih hl.2, mem_ctlAdd, List.mem_cons]
      have hkeys : e.fd ∈ (ctlAdd condition registered a).map EpollEvent.fd ↔
          e.fd ∈ registered.map EpollEvent.fd ∨
            e.fd = a.fd ∧ (condition a.fd).closed = false := by
        simp only [List.mem_map, mem_ctlAdd]
        constructor
        · rintro ⟨e', hmem | ⟨rfl, hopen, -⟩, hfd⟩
          · exact .inl ⟨e', hmem, hfd⟩
          · exact .inr ⟨hfd.symm, hopen⟩
        · rintro (⟨e', hmem, hfd⟩ | ⟨hfd, hopen⟩)
          · exact ⟨e', .inl hmem, hfd⟩
          · by_cases hin : ∃ e' ∈ registered, e'.fd = a.fd
            · obtain ⟨e', hmem, hfd'⟩ := hin
              exact ⟨e', .inl hmem, hfd'.trans hfd.symm⟩
            · refine ⟨a, .inr ⟨rfl, hopen, ?_⟩, hfd.symm⟩
              simpa using hin
      have hne : e ∈ l → e.fd ≠ a.fd := by
        intro hmem hfd
        apply hl.1
        rw [← hfd]
        exact List.mem_map_of_mem hmem
      rw [hkeys]
      constructor
      · rintro ((hmem | ⟨rfl, hopen, hnew⟩) | ⟨hmem, hopen, hnew⟩)
        · exact .inl hmem
        · exact .inr ⟨.inl rfl, hopen, hnew⟩
        · exact .inr ⟨.inr hmem, hopen, fun hin => hnew (.inl hin)⟩
      · rintro (hmem | ⟨rfl | hmem, hopen, hnew⟩)
        · exact .inl (.inl hmem)
        · exact .inl (.inr ⟨rfl, hopen, hnew⟩)
        · refine .inr ⟨hmem, hopen, ?_⟩
          rintro (hin | ⟨hfd, -⟩)
          · exact hnew hin
          · exact hne hmem hfd

theorem mem_register {self : Epoll} {condition : Nat → FdCondition}
    {e : EpollEvent} (h : (self.socketEpoll.events.map EpollEvent.fd).Nodup) :
    e ∈ self.register condition ↔ (condition e.fd).closed = false ∧
      (e ∈ self.registered ∨ e ∈ self.socketEpoll.events ∧
        e.fd ∉ self.registered.map EpollEvent.fd) := by
  unfold register
  rw [mem_foldl_ctlAdd h, List.mem_filter]
  constructor
  · rintro (⟨hmem, hopen⟩ | ⟨hmem, hopen, hnew⟩)
    · exact ⟨by simpa using hopen, .inl hmem⟩
    · refine ⟨hopen, .inr ⟨hmem, fun hin => hnew ?_⟩⟩
      obtain ⟨e', hmem', hfd⟩ := List.mem_map.mp hin
      refine List.mem_map.mpr ⟨e', List.mem_filter.mpr ⟨hmem', ?_⟩, hfd⟩
      rw [hfd, hopen]
      rfl
  · rintro ⟨hopen, hmem | ⟨hmem, hnew⟩⟩
    · exact .inl ⟨hmem, by simpa using hopen⟩
    · refine .inr ⟨hmem, hopen, fun hin => hnew ?_⟩
      obtain ⟨e', hmem', hfd⟩ := List.mem_map.mp hin
      exact List.mem_map.mpr ⟨e', (List.mem_filter.mp hmem').1, hfd⟩

theorem nodup_register {self : Epoll}
    (h : (self.registered.map EpollEvent.fd).Nodup)
    (condition : Nat → FdCondition) :
    ((self.register condition).map EpollEvent.fd).Nodup := by
  apply nodup_foldl_ctlAdd
  exact (List.filter_sublist.map EpollEvent.fd).nodup h

private theorem fd_of_ready {condition : Nat → FdCondition} (e e' : EpollEvent)
    (h : (let events := e.events.report (condition e.fd).ready
      if events = {} then none else some ({ fd := e.fd, events } : EpollEvent)) =
        some e') : e'.fd = e.fd := by
  dsimp only at h
  split at h
  · cases h
  · cases h
    rfl

theorem keys_ready_sublist (registered : List EpollEvent)
    (condition : Nat → FdCondition) :
    ((ready registered condition).map EpollEvent.fd).Sublist
      (registered.map EpollEvent.fd) :=
  keys_filterMap_sublist fd_of_ready registered

theorem bits_of_perm {registered ret : List EpollEvent}
    {condition : Nat → FdCondition} (h : (registered.map EpollEvent.fd).Nodup)
    (hperm : ret.Perm (ready registered condition)) (events : List EpollEvent)
    (fd : Nat) : SocketEpoll.bits { events, pollEvents := ret } fd =
      match registered.find? (·.fd = fd) with
      | some e => e.events.report (condition fd).ready
      | none => {} := by
  have hnodup := (keys_ready_sublist registered condition).nodup h
  unfold SocketEpoll.bits
  dsimp only
  rw [← find?_eq_of_perm hperm.symm hnodup]
  unfold ready
  rw [find?_filterMap_of_nodup fd_of_ready h]
  cases hfind : registered.find? (·.fd = fd) with
  | none => rfl
  | some e =>
      have hfd : e.fd = fd := by simpa using List.find?_some hfind
      subst hfd
      by_cases hempty : e.events.report (condition e.fd).ready = {}
      · simp [hempty]
      · simp [hempty]

theorem addEvent_eq_upsert (fd : Nat) (bits : EventBits) (l : List EpollEvent) :
    SocketEpoll.addEvent fd bits l = upsert EpollEvent.fd fd
      (fun e => { e with events := e.events.or bits }) { fd, events := bits } l := by
  induction l with
  | nil => rfl
  | cons e rest ih =>
      unfold SocketEpoll.addEvent upsert
      rw [ih]

@[simp] theorem readEvent_true (self : Epoll) (fd : Nat) :
    (self.readEvent fd true).socketEpoll = self.socketEpoll.readEvent fd := by
  unfold readEvent setEvent SocketEpoll.readEvent SocketEpoll.add
  rw [addEvent_eq_upsert]
  simp [EventBits.or]

@[simp] theorem writeEvent_true (self : Epoll) (fd : Nat) :
    (self.writeEvent fd true).socketEpoll = self.socketEpoll.writeEvent fd := by
  unfold writeEvent setEvent SocketEpoll.writeEvent SocketEpoll.add
  rw [addEvent_eq_upsert]
  simp [EventBits.or]

@[simp] theorem errorEvent_true (self : Epoll) (fd : Nat) :
    (self.errorEvent fd true).socketEpoll = self.socketEpoll.errorEvent fd := by
  unfold errorEvent setEvent SocketEpoll.errorEvent SocketEpoll.add
  rw [addEvent_eq_upsert]
  simp [EventBits.or]

end Epoll

end GoSocket.Socket
