import GoSocket.Foundation.Transition
import GoSocket.Socket.Poll

/-!
# SocketEpoll and SocketPoll behind SocketPollBase

The two objects take the same calls.  They answer the same as long as no
descriptor of the list is closed, no registration of an earlier poll differs
from the list where it shows, and the breaker is not hung up with nothing to
read.
-/

namespace GoSocket.Socket

open GoSocket.Foundation

/-- Both objects behind the same calls. -/
structure Backends where
  breakerFd : Nat
  epoll : Epoll
  poll : SocketPoll
  -- what the last `epoll_wait` had to report, and its `maxevents`
  ready : List EpollEvent := []
  maxEvents : Nat := 0

inductive PollCall where
  | readEvent (fd : Nat) (active : Bool)
  | writeEvent (fd : Nat) (active : Bool)
  | errorEvent (fd : Nat) (active : Bool)
  | clearEvent
  | poll (condition : Nat → FdCondition)
  -- a descriptor is closed, and may be another one by the next poll
  | closed (fd : Nat)

/-- The answers of the two after a poll. -/
structure Agree (breakerFd : Nat) (epoll : SocketEpoll) (poll : SocketPoll) :
    Prop where
  read : ∀ fd, epoll.readFdIsSet fd = poll.readFdIsSet fd
  write : ∀ fd, epoll.writeFdIsSet fd = poll.writeFdIsSet fd
  exception : ∀ fd, epoll.exceptionFdIsSet fd = poll.exceptionFdIsSet fd
  breakerIsError : epoll.breakerIsError breakerFd = poll.breakerIsError
  breakerIsBreak : epoll.breakerIsBreak breakerFd = poll.breakerIsBreak

namespace Backends

def new (breakerFd : Nat) : Backends where
  breakerFd
  epoll := .new breakerFd
  poll := .new breakerFd

def step (self : Backends) : PollCall → Option Backends
  | .readEvent fd active =>
      some { self with
        epoll := self.epoll.readEvent fd active
        poll := self.poll.readEvent fd active }
  | .writeEvent fd active =>
      some { self with
        epoll := self.epoll.writeEvent fd active
        poll := self.poll.writeEvent fd active }
  | .errorEvent fd active =>
      some { self with
        epoll := self.epoll.errorEvent fd active
        poll := self.poll.errorEvent fd active }
  | .clearEvent =>
      some { self with
        epoll := self.epoll.clearEvent
        poll := self.poll.clearEvent }
  | .poll condition =>
      let registered := self.epoll.register condition
      some { self with
        epoll := { self.epoll with registered }
        poll := self.poll.poll condition
        ready := Epoll.ready registered condition
        maxEvents := self.epoll.socketEpoll.events.length }
  | .closed fd =>
      some { self with
        epoll := { self.epoll with
          registered := self.epoll.registered.filter (·.fd ≠ fd) } }

/-- The answers agree, whatever `epoll_wait` has returned of what was ready. -/
def Interchangeable (s : Backends) : Prop :=
  ∀ pollEvents, Epoll.WaitReturns s.ready s.maxEvents pollEvents →
    Agree s.breakerFd { s.epoll.socketEpoll with pollEvents } s.poll

def interest (s : Backends) (fd : Nat) : Option EpollEvent :=
  s.epoll.socketEpoll.events.find? (·.fd = fd)

/-- What is registered of a descriptor shows nothing that the list does not. -/
def UpToDate (s : Backends) (condition : Nat → FdCondition) (e : EpollEvent) :
    Prop :=
  match s.interest e.fd with
  | none => e.events.report (condition e.fd).ready = {}
  | some listed =>
      ((condition e.fd).readable = true → (condition e.fd).hangUp = false →
        e.events.epollIn = listed.events.epollIn) ∧
      ((condition e.fd).writable = true →
        e.events.epollOut = listed.events.epollOut)

structure PollsAlike (s : Backends) (condition : Nat → FdCondition) : Prop where
  listed : ∀ e ∈ s.epoll.socketEpoll.events, (condition e.fd).closed = false
  registered : ∀ e ∈ s.epoll.registered, (condition e.fd).closed = false →
    s.UpToDate condition e
  breaker : ∀ e, s.interest s.breakerFd = some e →
    (condition s.breakerFd).hangUp = true →
      e.events.epollIn = true ∧ (condition s.breakerFd).readable = true

def CallsAlike (s : Backends) : PollCall → Prop
  | .poll condition => s.PollsAlike condition
  | _ => True

/-- The two lists hold the same, with the breaker in front. -/
structure SameInterests (s : Backends) : Prop where
  same : List.Forall₂ (fun (e : EpollEvent) (p : PollFd) => e.fd = p.fd ∧
    e.events.epollIn = p.events.pollIn ∧ e.events.epollOut = p.events.pollOut)
    s.epoll.socketEpoll.events s.poll.events
  nodup : (s.epoll.socketEpoll.events.map EpollEvent.fd).Nodup
  registered : (s.epoll.registered.map EpollEvent.fd).Nodup
  breaker : ∃ e rest, s.epoll.socketEpoll.events = e :: rest ∧ e.fd = s.breakerFd

variable {s t : Backends}

theorem sameInterests_new (breakerFd : Nat) : SameInterests (new breakerFd) where
  same := .cons ⟨rfl, rfl, rfl⟩ .nil
  nodup := List.nodup_singleton _
  registered := List.nodup_nil
  breaker := ⟨_, [], rfl, rfl⟩

private theorem exists_cons_upsert {fd breakerFd : Nat}
    {change : EpollEvent → EpollEvent} {new : EpollEvent} {l : List EpollEvent}
    (hchange : ∀ e, (change e).fd = e.fd)
    (h : ∃ e rest, l = e :: rest ∧ e.fd = breakerFd) :
    ∃ e rest, upsert EpollEvent.fd fd change new l = e :: rest ∧
      e.fd = breakerFd := by
  obtain ⟨e, rest, rfl, hfd⟩ := h
  unfold upsert
  split
  · exact ⟨_, _, rfl, (hchange e).trans hfd⟩
  · exact ⟨_, _, rfl, hfd⟩

theorem SameInterests.setEvent (h : s.SameInterests) (fd : Nat)
    {change : EventBits → EventBits} {change' : PollBits → PollBits}
    (hsame : ∀ e p, e.epollIn = p.pollIn → e.epollOut = p.pollOut →
      (change e).epollIn = (change' p).pollIn ∧
        (change e).epollOut = (change' p).pollOut) :
    SameInterests { s with
      epoll := s.epoll.setEvent fd change
      poll := s.poll.setEvent fd change' } where
  same := by
    apply forall₂_upsert (fun _ _ h => h.1)
    · exact fun e p ⟨hfd, hin, hout⟩ => ⟨hfd, hsame _ _ hin hout⟩
    · exact ⟨rfl, hsame _ _ rfl rfl⟩
    · exact h.same
  nodup := by
    apply nodup_upsert
    · exact fun _ => rfl
    · rfl
    · exact h.nodup
  registered := h.registered
  breaker := exists_cons_upsert (fun _ => rfl) h.breaker

theorem SameInterests.mem_register (h : s.SameInterests)
    {condition : Nat → FdCondition} {e : EpollEvent} :
    e ∈ s.epoll.register condition ↔ (condition e.fd).closed = false ∧
      (e ∈ s.epoll.registered ∨ e ∈ s.epoll.socketEpoll.events ∧
        e.fd ∉ s.epoll.registered.map EpollEvent.fd) :=
  Epoll.mem_register h.nodup

theorem SameInterests.nodup_register (h : s.SameInterests)
    (condition : Nat → FdCondition) :
    ((s.epoll.register condition).map EpollEvent.fd).Nodup :=
  Epoll.nodup_register h.registered condition

/-! ## One descriptor -/

/-- The answers that are taken from the bits of the two. -/
structure AgreeAt (bits : EventBits) (revents : PollBits) : Prop where
  read : (bits.epollIn || bits.epollHup) = (revents.pollIn || revents.pollHup)
  write : bits.epollOut = revents.pollOut
  exception : bits.epollErr = (revents.pollErr || revents.pollNval)

/-- The bits that the poll has for a descriptor, when all that is ready was
returned. -/
def epollBits (s : Backends) (condition : Nat → FdCondition) (fd : Nat) :
    EventBits :=
  match (s.epoll.register condition).find? (·.fd = fd) with
  | some e => e.events.report (condition fd).ready
  | none => {}

def pollBits (s : Backends) (condition : Nat → FdCondition) (fd : Nat) :
    PollBits :=
  match s.poll.events.find? (·.fd = fd) with
  | some e => e.events.report (condition fd)
  | none => {}

/-- What the condition on a poll says of one descriptor. -/
structure PollsAlikeAt (s : Backends) (condition : Nat → FdCondition) (fd : Nat) :
    Prop where
  listed : ∀ e, s.interest fd = some e → (condition fd).closed = false
  registered : ∀ e ∈ s.epoll.registered, e.fd = fd →
    (condition fd).closed = false → s.UpToDate condition e

private theorem agreeAt_empty_iff (bits : EventBits) :
    AgreeAt bits {} ↔ bits = {} := by
  constructor
  · rintro ⟨hread, hwrite, hexception⟩
    obtain ⟨hin, hhup⟩ := Bool.or_eq_false_iff.mp hread
    cases bits
    simp_all
  · rintro rfl
    exact ⟨rfl, rfl, rfl⟩

private theorem agreeAt_report_iff {e l : EventBits} {p : PollBits}
    (hin : l.epollIn = p.pollIn) (hout : l.epollOut = p.pollOut)
    {condition : FdCondition} (hopen : condition.closed = false) :
    AgreeAt (e.report condition.ready) (p.report condition) ↔
      (condition.readable = true → condition.hangUp = false →
        e.epollIn = l.epollIn) ∧
      (condition.writable = true → e.epollOut = l.epollOut) := by
  unfold PollBits.report EventBits.report FdCondition.ready
  rw [hopen, ← hin, ← hout]
  dsimp only
  constructor
  · rintro ⟨hread, hwrite, -⟩
    dsimp only at hread hwrite
    constructor
    · intro hreadable hhangUp
      simpa [hreadable, hhangUp] using hread
    · intro hwritable
      simpa [hwritable] using hwrite
  · rintro ⟨hread, hwrite⟩
    constructor
    · dsimp only
      revert hread
      cases condition.readable <;> cases condition.hangUp <;> simp
    · dsimp only
      revert hwrite
      cases condition.writable <;> simp
    · simp

theorem SameInterests.agreeAt_iff (h : s.SameInterests)
    (condition : Nat → FdCondition) (fd : Nat) :
    AgreeAt (s.epollBits condition fd) (s.pollBits condition fd) ↔
      s.PollsAlikeAt condition fd := by
  have hregister (e : EpollEvent) := find?_eq_some_iff_of_nodup
    (h.nodup_register condition) (k := fd) (a := e)
  unfold epollBits pollBits
  rcases forall₂_find? (fun _ _ h => h.1) h.same fd with
    ⟨hlist, hpoll⟩ | ⟨l, p, hlist, hpoll, hfd, hin, hout⟩
  · have hinterest : s.interest fd = none := hlist
    have hunlisted (e : EpollEvent) (hmem : e ∈ s.epoll.socketEpoll.events) :
        e.fd ≠ fd := by
      rintro rfl
      exact find?_eq_none_iff_notMem.mp hlist (List.mem_map_of_mem hmem)
    rw [hpoll]
    dsimp only
    rw [agreeAt_empty_iff]
    constructor
    · intro hempty
      refine ⟨fun l hl => by simp [hinterest] at hl, ?_⟩
      rintro e hmem rfl hopen
      have hfind := (hregister e).mpr ⟨h.mem_register.mpr ⟨hopen, .inl hmem⟩, rfl⟩
      rw [hfind] at hempty
      unfold UpToDate
      rw [hinterest]
      exact hempty
    · intro halike
      cases hfind : (s.epoll.register condition).find? (·.fd = fd) with
      | none => rfl
      | some e =>
          obtain ⟨hmem, rfl⟩ := (hregister e).mp hfind
          obtain ⟨hopen, hmem | ⟨hmem, -⟩⟩ := h.mem_register.mp hmem
          · have hup := halike.registered e hmem rfl hopen
            unfold UpToDate at hup
            rw [hinterest] at hup
            exact hup
          · exact absurd rfl (hunlisted e hmem)
  · have hinterest : s.interest fd = some l := hlist
    obtain ⟨hlmem, rfl⟩ := (find?_eq_some_iff_of_nodup h.nodup).mp hlist
    rw [hpoll]
    dsimp only
    cases hopen : (condition l.fd).closed with
    | true =>
        refine iff_of_false (fun hagree => ?_) (fun halike => ?_)
        · cases hfind : (s.epoll.register condition).find? (·.fd = l.fd) with
          | none =>
              rw [hfind] at hagree
              simpa [PollBits.report, hopen] using hagree.exception
          | some e =>
              obtain ⟨hmem, hfd'⟩ := (hregister e).mp hfind
              have := (h.mem_register.mp hmem).1
              rw [hfd', hopen] at this
              cases this
        · have := halike.listed l hinterest
          rw [hopen] at this
          cases this
    | false =>
        have hreport (e : EpollEvent) :=
          agreeAt_report_iff (e := e.events) hin hout hopen
        by_cases hbefore : l.fd ∈ s.epoll.registered.map EpollEvent.fd
        · obtain ⟨e, hmem, hfd'⟩ := List.mem_map.mp hbefore
          have hfind := (hregister e).mpr
            ⟨h.mem_register.mpr ⟨hfd' ▸ hopen, .inl hmem⟩, hfd'⟩
          have hup : s.UpToDate condition e ↔
              ((condition l.fd).readable = true → (condition l.fd).hangUp = false →
                e.events.epollIn = l.events.epollIn) ∧
              ((condition l.fd).writable = true →
                e.events.epollOut = l.events.epollOut) := by
            unfold UpToDate
            rw [hfd', hinterest]
          rw [hfind]
          dsimp only
          rw [hreport e, ← hup]
          constructor
          · intro hup
            refine ⟨fun _ _ => hopen, fun e' hmem' hfd'' _ => ?_⟩
            rw [List.inj_on_of_nodup_map h.registered hmem' hmem
              (hfd''.trans hfd'.symm)]
            exact hup
          · exact fun halike => halike.registered e hmem hfd' hopen
        · have hfind := (hregister l).mpr
            ⟨h.mem_register.mpr ⟨hopen, .inr ⟨hlmem, hbefore⟩⟩, rfl⟩
          rw [hfind]
          dsimp only
          rw [hreport l]
          refine iff_of_true ⟨fun _ _ => rfl, fun _ => rfl⟩
            ⟨fun _ _ => hopen, fun e hmem hfd' _ => ?_⟩
          exact absurd (hfd' ▸ List.mem_map_of_mem hmem) hbefore

/-! ## One poll -/

theorem SameInterests.breaker_cons (h : s.SameInterests) :
    ∃ e p restE restP, s.epoll.socketEpoll.events = e :: restE ∧
      s.poll.events = p :: restP ∧ e.fd = s.breakerFd ∧ p.fd = s.breakerFd ∧
      e.events.epollIn = p.events.pollIn := by
  obtain ⟨e, restE, hE, hfd⟩ := h.breaker
  have hsame := h.same
  rw [hE] at hsame
  cases hP : s.poll.events with
  | nil =>
      rw [hP] at hsame
      cases hsame
  | cons p restP =>
      rw [hP] at hsame
      cases hsame with
      | cons hab _ => exact ⟨e, p, restE, restP, hE, rfl, hfd, hab.1 ▸ hfd, hab.2.1⟩

theorem SameInterests.breakerRevents (h : s.SameInterests)
    (condition : Nat → FdCondition) :
    (s.poll.poll condition).breakerRevents = s.pollBits condition s.breakerFd := by
  obtain ⟨e, p, restE, restP, -, hP, -, hfd, -⟩ := h.breaker_cons
  unfold SocketPoll.breakerRevents SocketPoll.poll pollBits
  rw [hP]
  simp [hfd]

theorem SameInterests.agree_iff (h : s.SameInterests)
    {condition : Nat → FdCondition} {ret : List EpollEvent}
    (hperm : ret.Perm (Epoll.ready (s.epoll.register condition) condition)) :
    Agree s.breakerFd { s.epoll.socketEpoll with pollEvents := ret }
        (s.poll.poll condition) ↔
      (∀ fd, AgreeAt (s.epollBits condition fd) (s.pollBits condition fd)) ∧
        ((s.pollBits condition s.breakerFd).pollHup = true →
          (s.pollBits condition s.breakerFd).pollIn = true) := by
  have hpollNodup : (s.poll.events.map PollFd.fd).Nodup :=
    forall₂_keys (fun _ _ h => h.1) h.same ▸ h.nodup
  have hbits (fd : Nat) : SocketEpoll.bits
      { s.epoll.socketEpoll with pollEvents := ret } fd = s.epollBits condition fd :=
    Epoll.bits_of_perm (h.nodup_register condition) hperm _ fd
  have hrevents (fd : Nat) : (s.poll.poll condition).revents fd =
      s.pollBits condition fd :=
    SocketPoll.revents_poll hpollNodup condition fd
  have hbreaker := h.breakerRevents condition
  constructor
  · intro hagree
    have hall (fd : Nat) : AgreeAt (s.epollBits condition fd)
        (s.pollBits condition fd) := by
      constructor
      · simpa [SocketEpoll.readFdIsSet_eq, SocketPoll.readFdIsSet, hbits, hrevents]
          using hagree.read fd
      · simpa [SocketEpoll.writeFdIsSet_eq, SocketPoll.writeFdIsSet, hbits,
          hrevents] using hagree.write fd
      · simpa [SocketEpoll.exceptionFdIsSet_eq, SocketPoll.exceptionFdIsSet, hbits,
          hrevents] using hagree.exception fd
    refine ⟨hall, fun hhup => ?_⟩
    have hbreak := hagree.breakerIsBreak
    unfold SocketEpoll.breakerIsBreak SocketPoll.breakerIsBreak at hbreak
    rw [SocketEpoll.readFdIsSet_eq, hbits, (hall s.breakerFd).read, hhup,
      Bool.or_true, hbreaker] at hbreak
    exact hbreak.symm
  · rintro ⟨hall, hhup⟩
    constructor
    case read =>
      intro fd
      rw [SocketEpoll.readFdIsSet_eq, SocketPoll.readFdIsSet, hbits, hrevents]
      exact (hall fd).read
    case write =>
      intro fd
      rw [SocketEpoll.writeFdIsSet_eq, SocketPoll.writeFdIsSet, hbits, hrevents]
      exact (hall fd).write
    case exception =>
      intro fd
      rw [SocketEpoll.exceptionFdIsSet_eq, SocketPoll.exceptionFdIsSet, hbits,
        hrevents]
      exact (hall fd).exception
    case breakerIsError =>
      unfold SocketEpoll.breakerIsError SocketPoll.breakerIsError
      rw [SocketEpoll.exceptionFdIsSet_eq, hbits, hbreaker,
        (hall s.breakerFd).exception, Bool.or_comm]
    case breakerIsBreak =>
      unfold SocketEpoll.breakerIsBreak SocketPoll.breakerIsBreak
      rw [SocketEpoll.readFdIsSet_eq, hbits, hbreaker, (hall s.breakerFd).read]
      cases hhup' : (s.pollBits condition s.breakerFd).pollHup with
      | false => simp
      | true => simp [hhup hhup']

/-- Where something is ready that the list does not have, `epoll_wait` may return
it. -/
theorem exists_return {ready : List EpollEvent} {maxEvents : Nat}
    (hpos : 0 < maxEvents) {e : EpollEvent} (hmem : e ∈ ready) :
    ∃ ret, Epoll.WaitReturns ready maxEvents ret ∧ e ∈ ret := by
  obtain ⟨before, after, rfl⟩ := List.append_of_mem hmem
  refine ⟨(e :: (before ++ after)).take maxEvents, ⟨?_, ?_⟩, ?_⟩
  · exact (List.take_sublist _ _).subperm.trans List.perm_middle.symm.subperm
  · simp
    omega
  · cases maxEvents with
    | zero => omega
    | succ n => simp

private theorem mem_ready {registered : List EpollEvent}
    {condition : Nat → FdCondition} {u : EpollEvent}
    (h : u ∈ Epoll.ready registered condition) : u.events ≠ {} ∧
      ∃ e ∈ registered, e.fd = u.fd ∧
        u.events = e.events.report (condition e.fd).ready := by
  obtain ⟨e, hmem, heq⟩ := List.mem_filterMap.mp h
  dsimp only at heq
  split at heq
  · cases heq
  · next hne =>
      cases heq
      exact ⟨hne, e, hmem, rfl, rfl⟩

theorem SameInterests.unlisted_ready (h : s.SameInterests)
    {condition : Nat → FdCondition} {u : EpollEvent}
    (hready : u ∈ Epoll.ready (s.epoll.register condition) condition)
    (hunlisted : s.interest u.fd = none) :
    (∃ ret, Epoll.WaitReturns (Epoll.ready (s.epoll.register condition) condition)
      s.epoll.socketEpoll.events.length ret ∧
        ¬ Agree s.breakerFd { s.epoll.socketEpoll with pollEvents := ret }
          (s.poll.poll condition)) ∧
      ¬ s.PollsAlike condition := by
  obtain ⟨hne, e, hmem, hfd, hevents⟩ := mem_ready hready
  constructor
  · have hpos : 0 < s.epoll.socketEpoll.events.length := by
      obtain ⟨e, rest, heq, -⟩ := h.breaker
      rw [heq]
      exact Nat.succ_pos _
    obtain ⟨ret, hreturns, hret⟩ := exists_return hpos hready
    refine ⟨ret, hreturns, fun hagree => hne ?_⟩
    have hnodup := nodup_keys_of_subperm hreturns.1
      ((Epoll.keys_ready_sublist _ condition).nodup (h.nodup_register condition))
    have hbits : SocketEpoll.bits
        { s.epoll.socketEpoll with pollEvents := ret } u.fd = u.events := by
      unfold SocketEpoll.bits
      rw [(find?_eq_some_iff_of_nodup hnodup).mpr ⟨hret, rfl⟩]
    have hrevents : (s.poll.poll condition).revents u.fd = {} := by
      rw [SocketPoll.revents_poll (forall₂_keys (fun _ _ h => h.1) h.same ▸ h.nodup)]
      rcases forall₂_find? (fun _ _ h => h.1) h.same u.fd with
        ⟨-, hpoll⟩ | ⟨l, p, hlist, -⟩
      · rw [hpoll]
      · rw [interest, hlist] at hunlisted
        cases hunlisted
    rw [← agreeAt_empty_iff]
    constructor
    · simpa [SocketEpoll.readFdIsSet_eq, SocketPoll.readFdIsSet, hbits, hrevents]
        using hagree.read u.fd
    · simpa [SocketEpoll.writeFdIsSet_eq, SocketPoll.writeFdIsSet, hbits, hrevents]
        using hagree.write u.fd
    · simpa [SocketEpoll.exceptionFdIsSet_eq, SocketPoll.exceptionFdIsSet, hbits,
        hrevents] using hagree.exception u.fd
  · intro halike
    rw [hevents] at hne
    rw [← hfd] at hunlisted
    obtain ⟨hopen, hmem | ⟨hmem, -⟩⟩ := h.mem_register.mp hmem
    · have hup := halike.registered e hmem hopen
      unfold UpToDate at hup
      rw [hunlisted] at hup
      exact hne hup
    · exact find?_eq_none_iff_notMem.mp hunlisted (List.mem_map_of_mem hmem)

theorem SameInterests.pollsAlike_iff (h : s.SameInterests)
    (condition : Nat → FdCondition) :
    s.PollsAlike condition ↔
      (∀ fd, AgreeAt (s.epollBits condition fd) (s.pollBits condition fd)) ∧
        ((s.pollBits condition s.breakerFd).pollHup = true →
          (s.pollBits condition s.breakerFd).pollIn = true) := by
  obtain ⟨e, p, restE, restP, hE, hP, hfdE, hfdP, hin⟩ := h.breaker_cons
  have hinterest : s.interest s.breakerFd = some e := by
    unfold interest
    rw [hE]
    simp [hfdE]
  have hbits : s.pollBits condition s.breakerFd =
      p.events.report (condition s.breakerFd) := by
    unfold pollBits
    rw [hP]
    simp [hfdP]
  simp only [h.agreeAt_iff, hbits]
  constructor
  · intro halike
    have hopen := halike.listed e (by simp [hE])
    rw [hfdE] at hopen
    refine ⟨fun fd => ⟨fun l hl => ?_, ?_⟩, fun hhup => ?_⟩
    · obtain ⟨hmem, rfl⟩ := (find?_eq_some_iff_of_nodup h.nodup).mp hl
      exact halike.listed l hmem
    · rintro e' hmem rfl hopen'
      exact halike.registered e' hmem hopen'
    · unfold PollBits.report at hhup ⊢
      rw [hopen] at hhup ⊢
      obtain ⟨hin', hreadable⟩ := halike.breaker e hinterest hhup
      simp [← hin, hin', hreadable]
  · rintro ⟨hall, hhup⟩
    constructor
    case listed =>
      intro l hmem
      exact (hall l.fd).listed l
        ((find?_eq_some_iff_of_nodup h.nodup).mpr ⟨hmem, rfl⟩)
    case registered => exact fun e' hmem => (hall e'.fd).registered e' hmem rfl
    case breaker =>
      intro e' he' hhangUp
      rw [hinterest] at he'
      cases he'
      have hopen := (hall s.breakerFd).listed e hinterest
      unfold PollBits.report at hhup
      rw [hopen] at hhup
      have := hhup hhangUp
      simpa [← hin] using this

theorem SameInterests.interchangeable_poll (h : s.SameInterests)
    {condition : Nat → FdCondition} (hs : s.step (.poll condition) = some t) :
    t.Interchangeable ↔ s.PollsAlike condition := by
  cases hs
  by_cases hunlisted : ∃ u ∈ Epoll.ready (s.epoll.register condition) condition,
      s.interest u.fd = none
  · obtain ⟨u, hready, hnone⟩ := hunlisted
    obtain ⟨⟨ret, hreturns, hdisagree⟩, hnot⟩ := h.unlisted_ready hready hnone
    exact iff_of_false (fun hall => hdisagree (hall ret hreturns)) hnot
  · have hlength : (Epoll.ready (s.epoll.register condition) condition).length ≤
        s.epoll.socketEpoll.events.length := by
      apply length_le_of_keys_subset
        ((Epoll.keys_ready_sublist _ condition).nodup (h.nodup_register condition))
      intro fd hfd
      obtain ⟨u, hready, rfl⟩ := List.mem_map.mp hfd
      by_contra hnone
      exact hunlisted ⟨u, hready, find?_eq_none_iff_notMem.mpr hnone⟩
    rw [h.pollsAlike_iff condition]
    constructor
    · intro hall
      apply (h.agree_iff (List.Perm.refl _)).mp
      exact hall _ ⟨List.Subperm.refl _, (Nat.min_eq_right hlength).symm⟩
    · intro halike ret ⟨hsub, hret⟩
      have hperm := hsub.perm_of_length_le (by
        rw [hret]
        exact Nat.le_of_eq (Nat.min_eq_right hlength).symm)
      exact (h.agree_iff hperm).mpr halike

/-! ## All calls -/

private theorem Interchangeable.keep (h : s.Interchangeable)
    (hfd : t.breakerFd = s.breakerFd) (hready : t.ready = s.ready)
    (hmax : t.maxEvents = s.maxEvents) (hpoll : t.poll.pollEvents = s.poll.pollEvents)
    (hbreaker : t.poll.breakerRevents = s.poll.breakerRevents) :
    t.Interchangeable := by
  intro ret hreturns
  rw [hready, hmax] at hreturns
  have hagree := h ret hreturns
  have hrevents : t.poll.revents = s.poll.revents := by
    funext fd
    unfold SocketPoll.revents
    rw [hpoll]
  constructor
  case read =>
    intro fd
    unfold SocketPoll.readFdIsSet
    rw [hrevents]
    exact hagree.read fd
  case write =>
    intro fd
    unfold SocketPoll.writeFdIsSet
    rw [hrevents]
    exact hagree.write fd
  case exception =>
    intro fd
    unfold SocketPoll.exceptionFdIsSet
    rw [hrevents]
    exact hagree.exception fd
  case breakerIsError =>
    unfold SocketPoll.breakerIsError
    rw [hbreaker, hfd]
    exact hagree.breakerIsError
  case breakerIsBreak =>
    unfold SocketPoll.breakerIsBreak
    rw [hbreaker, hfd]
    exact hagree.breakerIsBreak

private theorem SameInterests.breakerRevents_setEvent (h : s.SameInterests)
    (fd : Nat) (change : PollBits → PollBits) :
    (s.poll.setEvent fd change).breakerRevents = s.poll.breakerRevents := by
  obtain ⟨e, p, restE, restP, -, hP, -⟩ := h.breaker_cons
  unfold SocketPoll.breakerRevents SocketPoll.setEvent
  rw [hP]
  dsimp only
  unfold upsert
  by_cases hfd : p.fd = fd
  · rw [if_pos hfd]
  · rw [if_neg hfd]

theorem SameInterests.clearEvent (h : s.SameInterests) : SameInterests { s with
    epoll := s.epoll.clearEvent
    poll := s.poll.clearEvent } := by
  obtain ⟨e, p, restE, restP, hE, hP, hfdE, -, -⟩ := h.breaker_cons
  have hsame := h.same
  rw [hE, hP] at hsame
  constructor
  case same =>
    unfold Epoll.clearEvent SocketEpoll.clearEvent SocketPoll.clearEvent
    dsimp only
    rw [hE, hP]
    cases hsame with
    | cons hab _ => exact .cons hab .nil
  case nodup =>
    unfold Epoll.clearEvent SocketEpoll.clearEvent
    dsimp only
    rw [hE]
    exact List.nodup_singleton _
  case registered => exact h.registered
  case breaker =>
    unfold Epoll.clearEvent SocketEpoll.clearEvent
    dsimp only
    rw [hE]
    exact ⟨e, [], rfl, hfdE⟩

theorem SameInterests.poll (h : s.SameInterests) (condition : Nat → FdCondition)
    (ready : List EpollEvent) (maxEvents : Nat) : SameInterests { s with
      epoll := { s.epoll with registered := s.epoll.register condition }
      poll := s.poll.poll condition
      ready, maxEvents } where
  same := by
    show List.Forall₂ _ s.epoll.socketEpoll.events (s.poll.events.map _)
    rw [List.forall₂_map_right_iff]
    exact h.same
  nodup := h.nodup
  registered := h.nodup_register condition
  breaker := h.breaker

theorem sameInterests_step {call : PollCall} (h : s.SameInterests)
    (hs : s.step call = some t) : t.SameInterests := by
  cases call with
  | readEvent fd active =>
      cases hs
      exact h.setEvent fd fun _ _ _ hout => ⟨rfl, hout⟩
  | writeEvent fd active =>
      cases hs
      exact h.setEvent fd fun _ _ hin _ => ⟨hin, rfl⟩
  | errorEvent fd active =>
      cases hs
      exact h.setEvent fd fun _ _ hin hout => ⟨hin, hout⟩
  | clearEvent =>
      cases hs
      exact h.clearEvent
  | poll condition =>
      cases hs
      exact h.poll condition _ _
  | closed fd =>
      cases hs
      exact ⟨h.same, h.nodup,
        (List.filter_sublist.map EpollEvent.fd).nodup h.registered, h.breaker⟩

theorem interchangeable_step {call : PollCall} (hi : s.SameInterests)
    (h : s.Interchangeable) (hs : s.step call = some t) :
    t.Interchangeable ↔ s.CallsAlike call := by
  cases call with
  | readEvent fd active =>
      cases hs
      exact iff_of_true (h.keep rfl rfl rfl rfl (hi.breakerRevents_setEvent fd _))
        trivial
  | writeEvent fd active =>
      cases hs
      exact iff_of_true (h.keep rfl rfl rfl rfl (hi.breakerRevents_setEvent fd _))
        trivial
  | errorEvent fd active =>
      cases hs
      exact iff_of_true (h.keep rfl rfl rfl rfl (hi.breakerRevents_setEvent fd _))
        trivial
  | clearEvent =>
      cases hs
      refine iff_of_true (h.keep rfl rfl rfl rfl ?_) trivial
      obtain ⟨e, p, restE, restP, -, hP, -⟩ := hi.breaker_cons
      unfold SocketPoll.breakerRevents SocketPoll.clearEvent
      rw [hP]
      rfl
  | poll condition => exact hi.interchangeable_poll hs
  | closed fd =>
      cases hs
      exact iff_of_true (h.keep rfl rfl rfl rfl rfl) trivial

theorem interchangeable_new (breakerFd : Nat) : (new breakerFd).Interchangeable := by
  intro ret ⟨hsub, _⟩
  have hnil : ret = [] := List.subperm_nil.mp hsub
  rw [hnil]
  exact ⟨fun _ => rfl, fun _ => rfl, fun _ => rfl, rfl, rfl⟩

theorem interchangeable_iff (breakerFd : Nat) (calls : List PollCall) :
    Throughout step Interchangeable (new breakerFd) calls ↔
      Meets step CallsAlike (new breakerFd) calls :=
  throughout_iff_meets (fun _ _ _ => sameInterests_step)
    (fun _ _ _ => interchangeable_step) (sameInterests_new breakerFd)
    (interchangeable_new breakerFd) calls

/-- The condition of one descriptor, where nothing is to be said of the others. -/
def only (fd : Nat) (condition : FdCondition) (fd' : Nat) : FdCondition :=
  if fd' = fd then condition else {}

/-- What `BreakerIsError` says of a closed breaker, and `BreakerIsBreak` of one
that is hung up; and a descriptor that was taken out of the list. -/
theorem backends_differ :
    (∃ s ret, run step (new 3) [.poll (only 3 { closed := true })] = some s ∧
      Epoll.WaitReturns s.ready s.maxEvents ret ∧
      SocketEpoll.breakerIsError { s.epoll.socketEpoll with pollEvents := ret } 3 =
        false ∧ s.poll.breakerIsError = true) ∧
    (∃ s ret, run step (new 3) [.poll (only 3 { hangUp := true })] = some s ∧
      Epoll.WaitReturns s.ready s.maxEvents ret ∧
      SocketEpoll.breakerIsBreak { s.epoll.socketEpoll with pollEvents := ret } 3 =
        true ∧ s.poll.breakerIsBreak = false) ∧
    ∃ s ret, run step (new 3) [.readEvent 5 true, .poll (only 5 {}), .clearEvent,
        .poll (only 5 { readable := true })] = some s ∧
      Epoll.WaitReturns s.ready s.maxEvents ret ∧
      SocketEpoll.readFdIsSet { s.epoll.socketEpoll with pollEvents := ret } 5 =
        true ∧ s.poll.readFdIsSet 5 = false := by
  refine ⟨⟨_, [], rfl, ⟨List.Subperm.refl _, rfl⟩, rfl, rfl⟩,
    ⟨_, [{ fd := 3, events := { epollHup := true } }], rfl,
      ⟨List.Subperm.refl _, rfl⟩, rfl, rfl⟩,
    ⟨_, [{ fd := 5, events := { epollIn := true } }], rfl,
      ⟨List.Subperm.refl _, rfl⟩, rfl, rfl⟩⟩

end Backends

end GoSocket.Socket
