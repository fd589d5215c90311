import GoSocket.Socket.Poll

/-!
# SocketKqueue and SocketEpoll

A kqueue reports an event for each filter, with `EV_EOF` as soon as the
direction is shut down.  `SocketKqueue` takes that flag for an exception, also
while there are bytes to read; epoll reports them as readable.
-/

namespace GoSocket.Socket

open GoSocket.Foundation

inductive Filter where
  | EVFILT_READ
  | EVFILT_WRITE
  deriving DecidableEq, Repr

/-- A change: `EV_ADD|EV_ENABLE`, or `EV_DELETE`. -/
structure KqueueChange where
  fd : Nat
  filter : Filter
  delete : Bool := false
  deriving DecidableEq, Repr

/-- A `KqueueEvent`. -/
structure KqueueEvent where
  fd : Nat
  filter : Filter
  evError : Bool := false
  evEof : Bool := false
  deriving DecidableEq, Repr

structure SocketKqueue where
  events : List KqueueChange
  pollEvents : List KqueueEvent := []
  deriving DecidableEq, Repr

namespace SocketKqueue

/-- What `ReadEvent` and `WriteEvent` do with their filter. -/
def setEvent (fd : Nat) (filter : Filter) (active : Bool) :
    List KqueueChange → List KqueueChange
  | [] => if active then [{ fd, filter }] else []
  | e :: rest =>
      if e.fd = fd ∧ e.filter = filter then { e with delete := !active } :: rest
      else e :: setEvent fd filter active rest

def readEvent (self : SocketKqueue) (fd : Nat) (active : Bool) : SocketKqueue :=
  { self with events := setEvent fd .EVFILT_READ active self.events }

def writeEvent (self : SocketKqueue) (fd : Nat) (active : Bool) : SocketKqueue :=
  { self with events := setEvent fd .EVFILT_WRITE active self.events }

def errorEvent (self : SocketKqueue) (_ : Nat) (_ : Bool) : SocketKqueue := self

def new (breakerFd : Nat) : SocketKqueue :=
  ({ events := [] } : SocketKqueue).readEvent breakerFd true

def clearEvent (self : SocketKqueue) : SocketKqueue :=
  { self with events := self.events.take 1 }

def readFdIsSet (self : SocketKqueue) (fd : Nat) : Bool :=
  self.pollEvents.any fun e => e.fd = fd && !e.evError && !e.evEof &&
    e.filter = .EVFILT_READ

def writeFdIsSet (self : SocketKqueue) (fd : Nat) : Bool :=
  self.pollEvents.any fun e => e.fd = fd && !e.evError && !e.evEof &&
    e.filter = .EVFILT_WRITE

def exceptionFdIsSet (self : SocketKqueue) (fd : Nat) : Bool :=
  match self.pollEvents.find? (·.fd = fd) with
  | some e => e.evError || e.evEof
  | none => false

def breakerIsError (self : SocketKqueue) (breakerFd : Nat) : Bool :=
  self.exceptionFdIsSet breakerFd

def breakerIsBreak (self : SocketKqueue) (breakerFd : Nat) : Bool :=
  self.readFdIsSet breakerFd

end SocketKqueue

/-! ## The two kernels -/

/-- What holds of a descriptor, whichever kernel it is in. -/
structure SocketCondition where
  -- received bytes that were not read
  unread : Bool := false
  writable : Bool := false
  readShut : Bool := false
  writeShut : Bool := false
  -- `SO_ERROR`
  error : Bool := false
  closed : Bool := false
  deriving DecidableEq, Repr

namespace SocketCondition

def linux (self : SocketCondition) : FdCondition where
  readable := self.unread || self.readShut
  writable := self.writable || self.writeShut
  hangUp := self.readShut && self.writeShut
  error := self.error
  closed := self.closed

def kevent (self : SocketCondition) (fd : Nat) (filter : Filter) :
    Option KqueueEvent :=
  let (active, evEof) :=
    match filter with
    | .EVFILT_READ => (self.unread || self.readShut || self.error, self.readShut)
    | .EVFILT_WRITE => (self.writable || self.writeShut || self.error, self.writeShut)
  if active then some { fd, filter, evEof } else none

end SocketCondition

namespace SocketKqueue

/-- The changes that fail on a new kqueue: a closed descriptor, and deleting what
was never added. -/
def failed (events : List KqueueChange) (condition : Nat → SocketCondition) :
    List KqueueEvent :=
  events.filterMap fun e =>
    if e.delete || (condition e.fd).closed then
      some { fd := e.fd, filter := e.filter, evError := true }
    else none

/-- What `kevent` on a new kqueue has to return: the changes that failed, or the
filters that are active.  There is room for all of them. -/
def found (events : List KqueueChange) (condition : Nat → SocketCondition) :
    List KqueueEvent :=
  if failed events condition = [] then
    events.filterMap fun e => (condition e.fd).kevent e.fd e.filter
  else failed events condition

end SocketKqueue

/-! ## One poll of a SocketSelect -/

inductive SelectCall where
  | readFdSet (fd : Nat)
  | writeFdSet (fd : Nat)
  | exceptionFdSet (fd : Nat)
  deriving DecidableEq, Repr

/-- The object behind a `SocketSelect` on Linux, with the calls on it, newest
first. -/
def linuxSelect (breakerFd : Nat) : List SelectCall → Epoll
  | [] => (Epoll.new breakerFd).clearEvent
  | .readFdSet fd :: calls => (linuxSelect breakerFd calls).readEvent fd true
  | .writeFdSet fd :: calls => (linuxSelect breakerFd calls).writeEvent fd true
  | .exceptionFdSet fd :: calls => (linuxSelect breakerFd calls).errorEvent fd true

def appleSelect (breakerFd : Nat) : List SelectCall → SocketKqueue
  | [] => (SocketKqueue.new breakerFd).clearEvent
  | .readFdSet fd :: calls => (appleSelect breakerFd calls).readEvent fd true
  | .writeFdSet fd :: calls => (appleSelect breakerFd calls).writeEvent fd true
  | .exceptionFdSet fd :: calls => (appleSelect breakerFd calls).errorEvent fd true

/-- What a descriptor is watched for. -/
structure Interest where
  read : Bool
  write : Bool
  exception : Bool
  deriving DecidableEq, Repr

def Interest.listed (self : Interest) : Bool :=
  self.read || self.write || self.exception

def interest (breakerFd : Nat) (calls : List SelectCall) (fd : Nat) : Interest where
  read := fd = breakerFd || .readFdSet fd ∈ calls
  write := .writeFdSet fd ∈ calls
  exception := .exceptionFdSet fd ∈ calls

/-- The two answers that the I/O loop tests before it decodes. -/
structure SameAnswers (linux : SocketEpoll) (apple : SocketKqueue) : Prop where
  read : ∀ fd, linux.readFdIsSet fd = apple.readFdIsSet fd
  exception : ∀ fd, linux.exceptionFdIsSet fd = apple.exceptionFdIsSet fd

/-- The answers of the two after the poll, whatever order the events come in. -/
def SelectsAlike (breakerFd : Nat) (calls : List SelectCall)
    (condition : Nat → SocketCondition) : Prop :=
  ∀ linux apple,
    Epoll.WaitReturns
      (Epoll.ready ((linuxSelect breakerFd calls).register fun fd =>
        (condition fd).linux) fun fd => (condition fd).linux)
      (linuxSelect breakerFd calls).socketEpoll.events.length linux →
    apple.Perm (SocketKqueue.found (appleSelect breakerFd calls).events condition) →
      SameAnswers
        { (linuxSelect breakerFd calls).socketEpoll with pollEvents := linux }
        { (appleSelect breakerFd calls) with pollEvents := apple }

/-- Where a descriptor looks the same to both. -/
structure SeenAlike (i : Interest) (c : SocketCondition) : Prop where
  closed : (i.read || i.write) = true → c.closed = false
  read : i.read = true → c.readShut = false ∧ c.error = false ∧
    (i.write = true → c.writeShut = false)
  other : i.read = false → i.listed = true → c.closed = false →
    (c.readShut && c.writeShut) = false ∧ c.error = (i.write && c.writeShut)

/-! ## The interests -/

variable {breakerFd : Nat}

/-- The list of the epoll object has these interests. -/
def Shows (events : List EpollEvent) (i : Nat → Interest) : Prop :=
  ∀ fd, match events.find? (·.fd = fd) with
    | none => (i fd).listed = false
    | some e => (i fd).listed = true ∧ e.events.epollIn = (i fd).read

private theorem Shows.setEvent {self : Epoll} {i i' : Nat → Interest}
    (h : Shows self.socketEpoll.events i) {fd : Nat}
    {change : EventBits → EventBits} (hother : ∀ fd', fd' ≠ fd → i' fd' = i fd')
    (hlisted : (i' fd).listed = true)
    (hread : ∀ bits, bits.epollIn = (i fd).read →
      (change bits).epollIn = (i' fd).read) :
    Shows (self.setEvent fd change).socketEpoll.events i' := by
  intro fd'
  unfold Epoll.setEvent
  dsimp only
  have hold := h fd'
  by_cases hfd : fd' = fd
  · subst hfd
    rw [find?_upsert_self]
    case hchange => exact fun _ => rfl
    case hnew => rfl
    cases hfind : self.socketEpoll.events.find? (·.fd = fd') with
    | none =>
        rw [hfind] at hold
        refine ⟨hlisted, hread {} ?_⟩
        simp [Interest.listed] at hold
        exact hold.1.1.symm
    | some e =>
        rw [hfind] at hold
        exact ⟨hlisted, hread e.events hold.2⟩
  · rw [find?_upsert_of_ne ?hchange ?hnew _ hfd, hother fd' hfd]
    case hchange => exact fun _ => rfl
    case hnew => rfl
    exact hold

private theorem interest_cons (breakerFd : Nat) (call : SelectCall)
    (calls : List SelectCall) (fd : Nat) :
    interest breakerFd (call :: calls) fd =
      { read := (interest breakerFd calls fd).read || call = .readFdSet fd
        write := (interest breakerFd calls fd).write || call = .writeFdSet fd
        exception := (interest breakerFd calls fd).exception ||
          call = .exceptionFdSet fd } := by
  unfold interest
  simp only [List.mem_cons, Interest.mk.injEq]
  refine ⟨?_, ?_, ?_⟩
  · cases call <;> grind
  · cases call <;> grind
  · cases call <;> grind

private theorem linux_interest (breakerFd : Nat) (calls : List SelectCall) :
    ((linuxSelect breakerFd calls).socketEpoll.events.map EpollEvent.fd).Nodup ∧
      (linuxSelect breakerFd calls).registered = [] ∧
      Shows (linuxSelect breakerFd calls).socketEpoll.events
        (interest breakerFd calls) := by
  induction calls with
  | nil =>
      refine ⟨List.nodup_singleton _, rfl, fun fd => ?_⟩
      by_cases hfd : fd = breakerFd
      · subst hfd
        simp [linuxSelect, Epoll.clearEvent, SocketEpoll.clearEvent, Epoll.new,
          SocketEpoll.new, SocketEpoll.readEvent, SocketEpoll.add,
          SocketEpoll.addEvent, interest, Interest.listed]
      · simp [linuxSelect, Epoll.clearEvent, SocketEpoll.clearEvent, Epoll.new,
          SocketEpoll.new, SocketEpoll.readEvent, SocketEpoll.add,
          SocketEpoll.addEvent, interest, Interest.listed, hfd, Ne.symm hfd]
  | cons call calls ih =>
      obtain ⟨hnodup, hregistered, hshows⟩ := ih
      have hnodup' (fd : Nat) (change : EventBits → EventBits) :
          (((linuxSelect breakerFd calls).setEvent fd change).socketEpoll.events.map
            EpollEvent.fd).Nodup := by
        apply nodup_upsert
        · exact fun _ => rfl
        · rfl
        · exact hnodup
      cases call with
      | readFdSet fd =>
          refine ⟨hnodup' fd _, hregistered, hshows.setEvent ?_ ?_ ?_⟩
          · intro fd' hne
            simp [interest_cons, Ne.symm hne]
          · simp [interest_cons, Interest.listed]
          · simp [interest_cons]
      | writeFdSet fd =>
          refine ⟨hnodup' fd _, hregistered, hshows.setEvent ?_ ?_ ?_⟩
          · intro fd' hne
            simp [interest_cons, Ne.symm hne]
          · simp [interest_cons, Interest.listed]
          · simp [interest_cons]
      | exceptionFdSet fd =>
          refine ⟨hnodup' fd _, hregistered, hshows.setEvent ?_ ?_ ?_⟩
          · intro fd' hne
            simp [interest_cons, Ne.symm hne]
          · simp [interest_cons, Interest.listed]
          · simp [interest_cons]

private theorem mem_setEvent {fd : Nat} {filter : Filter}
    {l : List KqueueChange} (hadds : ∀ e ∈ l, e.delete = false)
    {e : KqueueChange} :
    e ∈ SocketKqueue.setEvent fd filter true l ↔ e = { fd, filter } ∨ e ∈ l := by
  induction l with
  | nil => simp [SocketKqueue.setEvent]
  | cons a rest ih =>
      have ha := hadds a List.mem_cons_self
      have hrest := ih fun e he => hadds e (List.mem_cons_of_mem _ he)
      unfold SocketKqueue.setEvent
      by_cases hsame : a.fd = fd ∧ a.filter = filter
      · have heq : a = { fd, filter } := by
          cases a
          simp_all
        rw [if_pos hsame, heq]
        simp
      · rw [if_neg hsame, List.mem_cons, List.mem_cons, hrest]
        exact or_left_comm

private theorem apple_interest (breakerFd : Nat) (calls : List SelectCall)
    (e : KqueueChange) :
    e ∈ (appleSelect breakerFd calls).events ↔ e.delete = false ∧
      match e.filter with
      | .EVFILT_READ => (interest breakerFd calls e.fd).read = true
      | .EVFILT_WRITE => (interest breakerFd calls e.fd).write = true := by
  induction calls generalizing e with
  | nil =>
      cases e with
      | mk fd filter delete =>
          cases filter <;>
            simp [appleSelect, SocketKqueue.clearEvent, SocketKqueue.new,
              SocketKqueue.readEvent, SocketKqueue.setEvent, interest, and_comm]
  | cons call calls ih =>
      have hadds : ∀ e ∈ (appleSelect breakerFd calls).events, e.delete = false :=
        fun e he => ((ih e).mp he).1
      have hcons := interest_cons breakerFd call calls e.fd
      cases e with
      | mk fd' filter delete =>
          cases call with
          | readFdSet fd =>
              change _ ∈ SocketKqueue.setEvent _ _ _ _ ↔ _
              rw [mem_setEvent hadds, ih, hcons]
              cases filter with
              | EVFILT_READ =>
                  simp
                  grind
              | EVFILT_WRITE => simp
          | writeFdSet fd =>
              change _ ∈ SocketKqueue.setEvent _ _ _ _ ↔ _
              rw [mem_setEvent hadds, ih, hcons]
              cases filter with
              | EVFILT_READ => simp
              | EVFILT_WRITE =>
                  simp
                  grind
          | exceptionFdSet fd =>
              change _ ∈ (appleSelect breakerFd calls).events ↔ _
              rw [ih, hcons]
              cases filter <;> simp

/-! ## The answers -/

/-- What `SocketEpoll` answers of a descriptor. -/
def linuxRead (i : Interest) (c : SocketCondition) : Bool :=
  i.listed && !c.closed && (i.read && (c.unread || c.readShut) ||
    (c.readShut && c.writeShut))

def linuxException (i : Interest) (c : SocketCondition) : Bool :=
  i.listed && !c.closed && c.error

theorem linux_answers (breakerFd : Nat) (calls : List SelectCall)
    (condition : Nat → SocketCondition) {ret : List EpollEvent}
    (hret : Epoll.WaitReturns
      (Epoll.ready ((linuxSelect breakerFd calls).register fun fd =>
        (condition fd).linux) fun fd => (condition fd).linux)
      (linuxSelect breakerFd calls).socketEpoll.events.length ret) (fd : Nat) :
    SocketEpoll.readFdIsSet
        { (linuxSelect breakerFd calls).socketEpoll with pollEvents := ret } fd =
      linuxRead (interest breakerFd calls fd) (condition fd) ∧
    SocketEpoll.exceptionFdIsSet
        { (linuxSelect breakerFd calls).socketEpoll with pollEvents := ret } fd =
      linuxException (interest breakerFd calls fd) (condition fd) := by
  obtain ⟨hnodup, hregistered, hshows⟩ := linux_interest breakerFd calls
  have hnil : ((linuxSelect breakerFd calls).registered.map EpollEvent.fd).Nodup := by
    simp [hregistered]
  have hnodup' := Epoll.nodup_register hnil fun fd => (condition fd).linux
  have hmem (e : EpollEvent) : e ∈ (linuxSelect breakerFd calls).register
      (fun fd => (condition fd).linux) ↔ (condition e.fd).closed = false ∧
        e ∈ (linuxSelect breakerFd calls).socketEpoll.events := by
    rw [Epoll.mem_register hnodup, hregistered]
    simp [SocketCondition.linux]
  have hroom : (Epoll.ready ((linuxSelect breakerFd calls).register fun fd =>
      (condition fd).linux) fun fd => (condition fd).linux).length ≤
        (linuxSelect breakerFd calls).socketEpoll.events.length := by
    apply length_le_of_keys_subset ((Epoll.keys_ready_sublist _ _).nodup hnodup')
    intro fd hfd
    obtain ⟨e, he, rfl⟩ := List.mem_map.mp
      ((Epoll.keys_ready_sublist _ _).subset hfd)
    exact List.mem_map_of_mem ((hmem e).mp he).2
  have hperm := hret.1.perm_of_length_le
    (Nat.le_of_eq (hret.2.trans (Nat.min_eq_right hroom)).symm)
  have hbits := Epoll.bits_of_perm hnodup' hperm
    (linuxSelect breakerFd calls).socketEpoll.events fd
  rw [SocketEpoll.readFdIsSet_eq, SocketEpoll.exceptionFdIsSet_eq, hbits]
  have hshow := hshows fd
  have hregister (e : EpollEvent) :=
    find?_eq_some_iff_of_nodup hnodup' (k := fd) (a := e)
  cases hfind : (linuxSelect breakerFd calls).socketEpoll.events.find?
      (·.fd = fd) with
  | none =>
      rw [hfind] at hshow
      have hnone : ((linuxSelect breakerFd calls).register fun fd =>
          (condition fd).linux).find? (·.fd = fd) = none := by
        rw [Option.eq_none_iff_forall_not_mem]
        intro e hfound
        obtain ⟨he, rfl⟩ := (hregister e).mp hfound
        exact find?_eq_none_iff_notMem.mp hfind
          (List.mem_map_of_mem ((hmem e).mp he).2)
      rw [hnone]
      simp [linuxRead, linuxException, hshow]
  | some e =>
      rw [hfind] at hshow
      obtain ⟨hlisted, hread⟩ := hshow
      obtain ⟨he, rfl⟩ := (find?_eq_some_iff_of_nodup hnodup).mp hfind
      cases hclosed : (condition e.fd).closed with
      | true =>
          have hnone : ((linuxSelect breakerFd calls).register fun fd =>
              (condition fd).linux).find? (·.fd = e.fd) = none := by
            rw [Option.eq_none_iff_forall_not_mem]
            intro e' he'
            obtain ⟨he', hfd⟩ := (hregister e').mp he'
            have := ((hmem e').mp he').1
            rw [hfd, hclosed] at this
            cases this
          rw [hnone]
          simp [linuxRead, linuxException, hclosed]
      | false =>
          rw [(hregister e).mpr ⟨(hmem e).mpr ⟨hclosed, he⟩, rfl⟩]
          simp [linuxRead, linuxException, hclosed, hlisted, ← hread,
            EventBits.report, FdCondition.ready, SocketCondition.linux]

/-- What `SocketKqueue` answers of a descriptor that is open. -/
def appleRead (i : Interest) (c : SocketCondition) : Bool :=
  i.read && (c.unread || c.error) && !c.readShut

/-- The first event of the descriptor has the flag, or there is none; which one
is first the kernel decides. -/
structure AppleException (i : Interest) (c : SocketCondition) (flag : Bool) :
    Prop where
  read : i.read = true → (c.unread || c.readShut || c.error) = true →
    c.readShut = flag
  write : i.write = true → (c.writable || c.writeShut || c.error) = true →
    c.writeShut = flag
  some : flag = true →
    i.read = true ∧ (c.unread || c.readShut || c.error) = true ∨
      i.write = true ∧ (c.writable || c.writeShut || c.error) = true

theorem seenAlike_iff {i : Interest} {c : SocketCondition}
    (hclosed : (i.read || i.write) = true → c.closed = false) :
    linuxRead i c = appleRead i c ∧ AppleException i c (linuxException i c) ↔
      SeenAlike i c := by
  cases hread : i.read with
  | true =>
      have hopen : c.closed = false := hclosed (by simp [hread])
      constructor
      · rintro ⟨heq, hexception⟩
        have hreadFlag := hexception.read hread
        have hwriteFlag := hexception.write
        simp only [linuxRead, appleRead, linuxException, Interest.listed, hread,
          hopen] at heq hreadFlag hwriteFlag
        refine ⟨fun _ => hopen, fun _ => ?_, fun hno => by simp [hread] at hno⟩
        grind
      · intro halike
        obtain ⟨hshut, herror, hwrite⟩ := halike.read hread
        have hflag : linuxException i c = false := by simp [linuxException, herror]
        rw [hflag]
        refine ⟨?_, fun _ _ => hshut, fun hw _ => hwrite hw, by simp⟩
        simp [linuxRead, appleRead, Interest.listed, hread, hopen, hshut, herror]
  | false =>
      constructor
      · rintro ⟨heq, hexception⟩
        have hwriteFlag := hexception.write
        have hsome := hexception.some
        refine ⟨hclosed, fun hyes => by simp [hread] at hyes, fun _ hlisted hopen => ?_⟩
        simp only [linuxRead, appleRead, linuxException, hread, hlisted,
          hopen] at heq hwriteFlag hsome
        grind
      · intro halike
        have hother := halike.other hread
        constructor
        · cases hlisted : i.listed <;> cases hopen : c.closed <;>
            simp [linuxRead, appleRead, hread, hlisted, hopen]
          have := (hother hlisted hopen).1
          simpa using this
        · have hwrite : i.write = true → i.listed = true ∧ c.closed = false := by
            intro hw
            exact ⟨by simp [Interest.listed, hw], hclosed (by simp [hw])⟩
          constructor
          case read =>
            intro hyes
            rw [hread] at hyes
            cases hyes
          case write =>
            intro hw _
            obtain ⟨hlisted, hopen⟩ := hwrite hw
            have herror := (hother hlisted hopen).2
            simp [linuxException, hlisted, hopen, herror, hw]
          case some =>
            intro hflag
            simp only [linuxException, Bool.and_eq_true, Bool.not_eq_true'] at hflag
            obtain ⟨⟨hlisted, hopen⟩, herror⟩ := hflag
            have heq := (hother hlisted hopen).2
            rw [herror] at heq
            refine .inr ⟨?_, by simp [herror]⟩
            exact (Bool.and_eq_true_iff.mp heq.symm).1

private theorem failed_eq_nil_iff (breakerFd : Nat) (calls : List SelectCall)
    (condition : Nat → SocketCondition) :
    SocketKqueue.failed (appleSelect breakerFd calls).events condition = [] ↔
      ∀ fd, ((interest breakerFd calls fd).read ||
        (interest breakerFd calls fd).write) = true →
          (condition fd).closed = false := by
  unfold SocketKqueue.failed
  rw [List.filterMap_eq_nil_iff]
  constructor
  · intro hall fd hwatched
    have hopen (filter : Filter)
        (hmem : { fd, filter } ∈ (appleSelect breakerFd calls).events) :
        (condition fd).closed = false := by
      simpa using hall _ hmem
    rcases Bool.or_eq_true_iff.mp hwatched with hread | hwrite
    · exact hopen .EVFILT_READ ((apple_interest breakerFd calls _).mpr ⟨rfl, hread⟩)
    · exact hopen .EVFILT_WRITE ((apple_interest breakerFd calls _).mpr ⟨rfl, hwrite⟩)
  · intro hall e hmem
    obtain ⟨hdelete, hinterest⟩ := (apple_interest breakerFd calls e).mp hmem
    have hopen : (condition e.fd).closed = false := by
      apply hall
      cases hfilter : e.filter <;> rw [hfilter] at hinterest <;>
        simp [hinterest]
    simp [hdelete, hopen]

private theorem mem_found {breakerFd : Nat} {calls : List SelectCall}
    {condition : Nat → SocketCondition}
    (hopen : SocketKqueue.failed (appleSelect breakerFd calls).events condition = [])
    {e : KqueueEvent} :
    e ∈ SocketKqueue.found (appleSelect breakerFd calls).events condition ↔
      e.evError = false ∧
      match e.filter with
      | .EVFILT_READ => (interest breakerFd calls e.fd).read = true ∧
          ((condition e.fd).unread || (condition e.fd).readShut ||
            (condition e.fd).error) = true ∧ e.evEof = (condition e.fd).readShut
      | .EVFILT_WRITE => (interest breakerFd calls e.fd).write = true ∧
          ((condition e.fd).writable || (condition e.fd).writeShut ||
            (condition e.fd).error) = true ∧ e.evEof = (condition e.fd).writeShut := by
  unfold SocketKqueue.found
  rw [if_pos hopen, List.mem_filterMap]
  constructor
  · rintro ⟨change, hmem, heq⟩
    obtain ⟨-, hinterest⟩ := (apple_interest breakerFd calls change).mp hmem
    unfold SocketCondition.kevent at heq
    cases hfilter : change.filter <;> rw [hfilter] at heq hinterest <;>
      dsimp only at heq hinterest <;> split at heq
    · next hactive =>
        cases heq
        exact ⟨rfl, hinterest, hactive, rfl⟩
    · cases heq
    · next hactive =>
        cases heq
        exact ⟨rfl, hinterest, hactive, rfl⟩
    · cases heq
  · cases e with
    | mk fd filter evError evEof =>
        rintro ⟨herror, hrest⟩
        refine ⟨{ fd, filter }, ?_, ?_⟩
        · rw [apple_interest]
          cases filter <;> exact ⟨rfl, hrest.1⟩
        · unfold SocketCondition.kevent
          cases filter
          · obtain ⟨-, hactive, heof⟩ := hrest
            simp_all
          · obtain ⟨-, hactive, heof⟩ := hrest
            simp_all

private theorem exception_of_all_orders (found : List KqueueEvent) (fd : Nat)
    (flag : Bool) :
    (∀ ret, ret.Perm found →
      SocketKqueue.exceptionFdIsSet { events := [], pollEvents := ret } fd = flag) ↔
      (∀ e ∈ found, e.fd = fd → (e.evError || e.evEof) = flag) ∧
        (flag = true → ∃ e ∈ found, e.fd = fd) := by
  unfold SocketKqueue.exceptionFdIsSet
  dsimp only
  constructor
  · intro hall
    constructor
    · rintro e hmem rfl
      have := hall (e :: found.erase e) (List.perm_cons_erase hmem).symm
      simpa using this
    · intro hflag
      have := hall found (List.Perm.refl _)
      cases hfind : found.find? (·.fd = fd) with
      | none =>
          rw [hfind, hflag] at this
          cases this
      | some e =>
          exact ⟨e, List.mem_of_find?_eq_some hfind,
            by simpa using List.find?_some hfind⟩
  · rintro ⟨hall, hsome⟩ ret hperm
    cases hfind : ret.find? (·.fd = fd) with
    | none =>
        cases flag with
        | false => rfl
        | true =>
            obtain ⟨e, hmem, hfd⟩ := hsome rfl
            have := List.find?_eq_none.mp hfind e (hperm.mem_iff.mpr hmem)
            simp [hfd] at this
    | some e =>
        have hmem := hperm.mem_iff.mp (List.mem_of_find?_eq_some hfind)
        exact hall e hmem (by simpa using List.find?_some hfind)

section Open

variable {calls : List SelectCall} {condition : Nat → SocketCondition}
  (hopen : SocketKqueue.failed (appleSelect breakerFd calls).events condition = [])

include hopen

private theorem apple_read {ret : List KqueueEvent}
    (hperm : ret.Perm (SocketKqueue.found (appleSelect breakerFd calls).events
      condition)) (events : List KqueueChange) (fd : Nat) :
    SocketKqueue.readFdIsSet { events, pollEvents := ret } fd =
      appleRead (interest breakerFd calls fd) (condition fd) := by
  rw [Bool.eq_iff_iff]
  unfold SocketKqueue.readFdIsSet appleRead
  rw [List.any_eq_true]
  constructor
  · rintro ⟨e, hmem, he⟩
    simp only [Bool.and_eq_true, decide_eq_true_eq, Bool.not_eq_true'] at he
    obtain ⟨⟨⟨rfl, -⟩, heof⟩, hfilter⟩ := he
    have hfound := ((mem_found hopen).mp (hperm.mem_iff.mp hmem)).2
    rw [hfilter] at hfound
    obtain ⟨hread, hactive, hshut⟩ := hfound
    rw [heof] at hshut
    rw [← hshut, Bool.or_false] at hactive
    simp [hread, ← hshut, hactive]
  · intro hyes
    simp only [Bool.and_eq_true, Bool.not_eq_true'] at hyes
    obtain ⟨⟨hread, hactive⟩, hshut⟩ := hyes
    refine ⟨{ fd, filter := .EVFILT_READ }, hperm.mem_iff.mpr ?_, by simp⟩
    exact (mem_found hopen).mpr ⟨rfl, hread, by simpa [hshut] using hactive, hshut.symm⟩

private theorem appleException_iff (fd : Nat) (flag : Bool) :
    AppleException (interest breakerFd calls fd) (condition fd) flag ↔
      (∀ e ∈ SocketKqueue.found (appleSelect breakerFd calls).events condition,
        e.fd = fd → (e.evError || e.evEof) = flag) ∧
      (flag = true → ∃ e ∈ SocketKqueue.found (appleSelect breakerFd calls).events
        condition, e.fd = fd) := by
  constructor
  · intro hexception
    constructor
    · rintro e hmem rfl
      obtain ⟨herror, hfound⟩ := (mem_found hopen).mp hmem
      cases hfilter : e.filter <;> rw [hfilter] at hfound <;>
        obtain ⟨hwatched, hactive, heof⟩ := hfound
      · rw [herror, heof, Bool.false_or]
        exact hexception.read hwatched hactive
      · rw [herror, heof, Bool.false_or]
        exact hexception.write hwatched hactive
    · intro hflag
      rcases hexception.some hflag with ⟨hread, hactive⟩ | ⟨hwrite, hactive⟩
      · exact ⟨{ fd, filter := .EVFILT_READ, evEof := (condition fd).readShut },
          (mem_found hopen).mpr ⟨rfl, hread, hactive, rfl⟩, rfl⟩
      · exact ⟨{ fd, filter := .EVFILT_WRITE, evEof := (condition fd).writeShut },
          (mem_found hopen).mpr ⟨rfl, hwrite, hactive, rfl⟩, rfl⟩
  · rintro ⟨hall, hsome⟩
    constructor
    case read =>
      intro hread hactive
      exact hall { fd, filter := .EVFILT_READ, evEof := (condition fd).readShut }
        ((mem_found hopen).mpr ⟨rfl, hread, hactive, rfl⟩) rfl
    case write =>
      intro hwrite hactive
      exact hall { fd, filter := .EVFILT_WRITE, evEof := (condition fd).writeShut }
        ((mem_found hopen).mpr ⟨rfl, hwrite, hactive, rfl⟩) rfl
    case some =>
      intro hflag
      obtain ⟨e, hmem, rfl⟩ := hsome hflag
      have hfound := ((mem_found hopen).mp hmem).2
      cases hfilter : e.filter <;> rw [hfilter] at hfound
      · exact .inl ⟨hfound.1, hfound.2.1⟩
      · exact .inr ⟨hfound.1, hfound.2.1⟩

end Open

private theorem open_of_selectsAlike {calls : List SelectCall}
    {condition : Nat → SocketCondition}
    (hexception : ∀ fd ret,
      ret.Perm (SocketKqueue.found (appleSelect breakerFd calls).events condition) →
      SocketKqueue.exceptionFdIsSet { events := [], pollEvents := ret } fd =
        linuxException (interest breakerFd calls fd) (condition fd)) :
    SocketKqueue.failed (appleSelect breakerFd calls).events condition = [] := by
  by_contra hne
  obtain ⟨e, hmem⟩ := List.exists_mem_of_ne_nil _ hne
  obtain ⟨change, hchange, heq⟩ := List.mem_filterMap.mp hmem
  obtain ⟨hdelete, -⟩ := (apple_interest breakerFd calls change).mp hchange
  split at heq
  · next hfailed =>
      cases heq
      have hclosed : (condition change.fd).closed = true := by
        simpa [hdelete] using hfailed
      have hall := ((exception_of_all_orders _ change.fd _).mp
        (hexception change.fd)).1
      unfold SocketKqueue.found at hall
      rw [if_neg hne] at hall
      have := hall _ hmem rfl
      simp [linuxException, hclosed] at this
  · cases heq

theorem selectsAlike_iff (breakerFd : Nat) (calls : List SelectCall)
    (condition : Nat → SocketCondition) :
    SelectsAlike breakerFd calls condition ↔
      ∀ fd, SeenAlike (interest breakerFd calls fd) (condition fd) := by
  constructor
  · intro halike
    obtain ⟨linux, hlinux⟩ : ∃ linux, Epoll.WaitReturns
        (Epoll.ready ((linuxSelect breakerFd calls).register fun fd =>
          (condition fd).linux) fun fd => (condition fd).linux)
        (linuxSelect breakerFd calls).socketEpoll.events.length linux :=
      ⟨_, (List.take_sublist _ _).subperm, List.length_take⟩
    have hanswers := linux_answers breakerFd calls condition hlinux
    have hexception (fd : Nat) (ret : List KqueueEvent)
        (hperm : ret.Perm (SocketKqueue.found (appleSelect breakerFd calls).events
          condition)) :
        SocketKqueue.exceptionFdIsSet { events := [], pollEvents := ret } fd =
          linuxException (interest breakerFd calls fd) (condition fd) := by
      rw [← (hanswers fd).2]
      exact ((halike linux ret hlinux hperm).exception fd).symm
    have hopen := open_of_selectsAlike hexception
    intro fd
    have hclosed := (failed_eq_nil_iff breakerFd calls condition).mp hopen fd
    refine (seenAlike_iff hclosed).mp ⟨?_, ?_⟩
    · rw [← (hanswers fd).1, (halike linux _ hlinux (List.Perm.refl _)).read fd]
      exact apple_read hopen (List.Perm.refl _) _ fd
    · rw [appleException_iff hopen]
      exact (exception_of_all_orders _ fd _).mp (hexception fd)
  · intro hseen
    have hopen := (failed_eq_nil_iff breakerFd calls condition).mpr
      fun fd => (hseen fd).closed
    intro linux apple hlinux happle
    constructor
    · intro fd
      rw [(linux_answers breakerFd calls condition hlinux fd).1,
        apple_read hopen happle]
      exact ((seenAlike_iff (hseen fd).closed).mpr (hseen fd)).1
    · intro fd
      rw [(linux_answers breakerFd calls condition hlinux fd).2]
      have hexception := ((seenAlike_iff (hseen fd).closed).mpr (hseen fd)).2
      have := (exception_of_all_orders _ fd _).mpr
        ((appleException_iff hopen fd _).mp hexception) apple happle
      exact this.symm

/-- What `__RunReadWrite` asks of its socket, with no message to send. -/
def runReadWriteSelect (socketFd : Nat) : List SelectCall :=
  [.exceptionFdSet socketFd, .readFdSet socketFd]

def decodes (exception readable : Bool) : Bool := !exception && readable

def closedByPeer (socketFd : Nat) (fd : Nat) : SocketCondition :=
  if fd = socketFd then { unread := true, readShut := true } else {}

theorem frame_before_close_differs :
    ¬ SelectsAlike 3 (runReadWriteSelect 5) (closedByPeer 5) ∧
    ∃ (linux : SocketEpoll) (apple : SocketKqueue),
      Epoll.WaitReturns
        (Epoll.ready ((linuxSelect 3 (runReadWriteSelect 5)).register fun fd =>
          (closedByPeer 5 fd).linux) fun fd => (closedByPeer 5 fd).linux)
        (linuxSelect 3 (runReadWriteSelect 5)).socketEpoll.events.length
        linux.pollEvents ∧
      apple.pollEvents.Perm (SocketKqueue.found
        (appleSelect 3 (runReadWriteSelect 5)).events (closedByPeer 5)) ∧
      decodes (linux.exceptionFdIsSet 5) (linux.readFdIsSet 5) = true ∧
      decodes (apple.exceptionFdIsSet 5) (apple.readFdIsSet 5) = false := by
  constructor
  · intro halike
    have hsame := halike [{ fd := 5, events := { epollIn := true } }]
      [{ fd := 5, filter := .EVFILT_READ, evEof := true }]
      ⟨List.Subperm.refl _, rfl⟩ (List.Perm.refl _)
    have hread := hsame.read 5
    cases hread
  · exact ⟨{ events := [], pollEvents := [{ fd := 5, events := { epollIn := true } }] },
      { events := [],
        pollEvents := [{ fd := 5, filter := .EVFILT_READ, evEof := true }] },
      ⟨List.Subperm.refl _, rfl⟩, List.Perm.refl _, rfl, rfl⟩

end GoSocket.Socket
