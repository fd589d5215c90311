import GoSocket.Socket.Breaker

/-!
# SocketEpoll

The list of interests that a `SocketSelect` collects, the events that
`epoll_wait` reports of them, and the questions asked about those afterwards.
The kernel is level triggered: it reports what is ready at that moment.
-/

namespace GoSocket.Socket

structure EventBits where
  epollIn : Bool := false
  epollOut : Bool := false
  epollErr : Bool := false
  epollHup : Bool := false
  deriving DecidableEq, Repr

namespace EventBits

def or (a b : EventBits) : EventBits where
  epollIn := a.epollIn || b.epollIn
  epollOut := a.epollOut || b.epollOut
  epollErr := a.epollErr || b.epollErr
  epollHup := a.epollHup || b.epollHup

/-- What is reported of a descriptor; errors and hang-ups always are. -/
def report (interest ready : EventBits) : EventBits where
  epollIn := interest.epollIn && ready.epollIn
  epollOut := interest.epollOut && ready.epollOut
  epollErr := ready.epollErr
  epollHup := ready.epollHup

end EventBits

structure EpollEvent where
  fd : Nat
  events : EventBits
  deriving DecidableEq, Repr

structure SocketEpoll where
  events : List EpollEvent
  pollEvents : List EpollEvent := []
  deriving DecidableEq, Repr

namespace SocketEpoll

def addEvent (fd : Nat) (bits : EventBits) : List EpollEvent → List EpollEvent
  | [] => [{ fd, events := bits }]
  | e :: rest =>
      if e.fd = fd then { e with events := e.events.or bits } :: rest
      else e :: addEvent fd bits rest

/-- `ReadEvent`, `WriteEvent` and `ErrorEvent`, with `active`. -/
def add (self : SocketEpoll) (fd : Nat) (bits : EventBits) : SocketEpoll :=
  { self with events := addEvent fd bits self.events }

def readEvent (self : SocketEpoll) (fd : Nat) : SocketEpoll :=
  self.add fd { epollIn := true }

def writeEvent (self : SocketEpoll) (fd : Nat) : SocketEpoll :=
  self.add fd { epollOut := true }

def errorEvent (self : SocketEpoll) (fd : Nat) : SocketEpoll :=
  self.add fd { epollErr := true }

def new (breakerFd : Nat) : SocketEpoll :=
  ({ events := [] } : SocketEpoll).readEvent breakerFd

def clearEvent (self : SocketEpoll) : SocketEpoll :=
  { self with events := self.events.take 1 }

def wait (self : SocketEpoll) (ready : Nat → EventBits) : SocketEpoll :=
  { self with pollEvents := self.events.filterMap fun e =>
      let events := e.events.report (ready e.fd)
      if events = {} then none else some { fd := e.fd, events } }

def readFdIsSet (self : SocketEpoll) (fd : Nat) : Bool :=
  match self.pollEvents.find? (·.fd = fd) with
  | some e => e.events.epollIn || e.events.epollHup
  | none => false

def writeFdIsSet (self : SocketEpoll) (fd : Nat) : Bool :=
  match self.pollEvents.find? (·.fd = fd) with
  | some e => e.events.epollOut
  | none => false

def exceptionFdIsSet (self : SocketEpoll) (fd : Nat) : Bool :=
  match self.pollEvents.find? (·.fd = fd) with
  | some e => e.events.epollErr
  | none => false

/-! ## The breaker's descriptor -/

/-- The first interest is the breaker's. -/
def Watches (self : SocketEpoll) (breakerFd : Nat) : Prop :=
  ∃ bits rest, self.events = { fd := breakerFd, events := bits } :: rest ∧
    bits.epollIn = true

variable {self : SocketEpoll} {breakerFd : Nat}

theorem watches_new (breakerFd : Nat) : (new breakerFd).Watches breakerFd :=
  ⟨_, [], rfl, rfl⟩

theorem Watches.clearEvent (h : self.Watches breakerFd) :
    self.clearEvent.Watches breakerFd := by
  obtain ⟨bits, rest, heq, hin⟩ := h
  exact ⟨bits, [], by simp [SocketEpoll.clearEvent, heq], hin⟩

theorem Watches.add (h : self.Watches breakerFd) (fd : Nat) (bits : EventBits) :
    (self.add fd bits).Watches breakerFd := by
  obtain ⟨bits', rest, heq, hin⟩ := h
  unfold SocketEpoll.add
  rw [heq, addEvent]
  split
  · exact ⟨_, _, rfl, by simp [EventBits.or, hin]⟩
  · exact ⟨_, _, rfl, hin⟩

theorem Watches.readFdIsSet_wait (h : self.Watches breakerFd)
    {ready : Nat → EventBits} (hready : (ready breakerFd).epollIn = true) :
    (self.wait ready).readFdIsSet breakerFd = true := by
  obtain ⟨bits, rest, heq, hin⟩ := h
  have hreport : (bits.report (ready breakerFd)).epollIn = true := by
    simp [EventBits.report, hin, hready]
  have hne : bits.report (ready breakerFd) ≠ {} := by
    intro hempty
    rw [hempty] at hreport
    cases hreport
  simp [readFdIsSet, wait, heq, hne, hreport]

end SocketEpoll

end GoSocket.Socket
