import GoSocket.Foundation.Transition

/-!
# The breaker

`SocketBreaker` keeps one fact twice: in the flag `_broken`, and as a byte in a
pipe.  `Break` and `Clear` hold its lock; `Close` and `ReCreate` do not, and
leave the flag alone.  Each of their system calls is a step here.  `Close` also
leaves the numbers in `_pipes`, where until the next `ReCreate` they may be those
of somebody else's descriptors.
-/

namespace GoSocket.Socket

open GoSocket.Foundation

/-- The pipe that `_pipes` names, with the bytes nobody has read. -/
structure Pipe where
  bytes : Nat := 0
  nonblocking : Bool := false
  deriving DecidableEq, Repr

structure Breaker where
  broken : Bool := false
  -- `none` where `_pipes` names no open pipe
  pipe : Option Pipe := none
  -- `_pipes` has the numbers of a pipe that `Close` has given back
  stale : Bool := false
  deriving DecidableEq, Repr

namespace Breaker

/-- `Break`; `writes` is whether `write` takes the byte, of an open pipe or of
whoever has the number of a closed one. -/
def break_ (self : Breaker) (writes : Bool) : Breaker × Bool :=
  if self.broken then (self, true)
  else
    match self.pipe with
    | some pipe =>
        if writes then
          ({ self with
             broken := true
             pipe := some { pipe with bytes := pipe.bytes + 1 } }, true)
        else (self, false)
    | none =>
        if self.stale && writes then ({ self with broken := true }, true)
        else (self, false)

/-- `Clear`, which reads up to 128 bytes.  The read of an empty pipe fails, or
waits where the pipe still blocks; `reads` is whether whoever has the number of a
closed one gives bytes. -/
def clear (self : Breaker) (reads : Bool) : Option (Breaker × Bool) :=
  match self.pipe with
  | some pipe =>
      if pipe.bytes = 0 then
        if pipe.nonblocking then some (self, false) else none
      else
        some ({ self with
                broken := false
                pipe := some { pipe with bytes := pipe.bytes - 128 } }, true)
  | none =>
      if self.stale && reads then some ({ self with broken := false }, true)
      else some (self, false)

/-- `Close`, which leaves `_pipes` as it is. -/
def close (self : Breaker) : Breaker :=
  { self with pipe := none, stale := self.stale || self.pipe.isSome }

/-- `_pipes` gets -1 and -1, or the numbers of a new pipe. -/
def setPipes (self : Breaker) (pipe : Option Pipe) : Breaker :=
  { self with pipe, stale := false }

def readable (self : Breaker) : Bool :=
  match self.pipe with
  | some pipe => pipe.bytes ≠ 0
  | none => false

@[simp] theorem setPipes_stale (self : Breaker) (pipe : Option Pipe) :
    (self.setPipes pipe).stale = false := rfl

@[simp] theorem break_stale (self : Breaker) (writes : Bool) :
    (self.break_ writes).1.stale = self.stale := by
  unfold break_
  split
  · rfl
  · split <;> split <;> rfl

theorem stale_clear {self b : Breaker} {reads ret : Bool}
    (h : self.clear reads = some (b, ret)) : b.stale = self.stale := by
  unfold clear at h
  split at h
  · split at h
    · split at h <;> cases h
      rfl
    · cases h
      rfl
  · split at h <;> cases h <;> rfl

end Breaker

/-! ## A breaker whose pipe stays open -/

namespace Breaker

/-- The pipe is there, and holds the one byte of a signal that is out. -/
def Intact (b : Breaker) : Prop :=
  b.pipe = some { bytes := if b.broken then 1 else 0, nonblocking := true }

variable {b : Breaker}

theorem Intact.readable (h : b.Intact) : b.readable = b.broken := by
  unfold Breaker.readable
  rw [h]
  cases b.broken <;> rfl

theorem Intact.break_ (h : b.Intact) (writes : Bool) :
    (b.break_ writes).1.Intact ∧
      (b.break_ writes).1.broken = (b.break_ writes).2 := by
  unfold Breaker.break_
  split
  · next hbroken => exact ⟨h, hbroken⟩
  · next hbroken =>
      have hfalse : b.broken = false := by simpa using hbroken
      rw [h]
      cases writes <;> simp [Intact, hfalse, h.trans (by rw [hfalse])]

theorem Intact.broken_break_ (h : b.Intact) :
    (b.break_ true).1.broken = true ∧ (b.break_ true).2 = true := by
  unfold Breaker.break_
  split
  · next hbroken => exact ⟨hbroken, rfl⟩
  · rw [h]
    exact ⟨rfl, rfl⟩

theorem Intact.clear (h : b.Intact) (reads : Bool) :
    ∃ b' ret, b.clear reads = some (b', ret) ∧ b'.Intact ∧ b'.broken = false := by
  unfold Breaker.clear
  rw [h]
  cases hbroken : b.broken with
  | false => exact ⟨b, false, by simp, h, hbroken⟩
  | true =>
      exact ⟨{ b with broken := false, pipe := some { nonblocking := true } }, true,
        by simp, by simp [Intact], rfl⟩

end Breaker

/-! ## All interleavings -/

inductive BreakerAction where
  | break_ (writes : Bool)
  | clear (reads : Bool)
  | close
  -- `ReCreate`: `_pipes` is reset, `pipe` is called, and `fcntl`
  | reset
  | create (ok : Bool)
  | configure (ok : Bool)
  deriving DecidableEq, Repr

/-- A breaker, and whether a `Break` has returned true since the last `Clear`
that succeeded. -/
structure Signals where
  breaker : Breaker := {}
  signalled : Bool := false
  deriving DecidableEq, Repr

namespace Signals

def step (self : Signals) : BreakerAction → Option Signals
  | .break_ writes =>
      let (breaker, ret) := self.breaker.break_ writes
      some { breaker, signalled := self.signalled || ret }
  | .clear reads =>
      (self.breaker.clear reads).map fun (breaker, ret) =>
        { breaker, signalled := self.signalled && !ret }
  | .close => some { self with breaker := self.breaker.close }
  | .reset => some { self with breaker := self.breaker.setPipes none }
  | .create true => some { self with breaker := self.breaker.setPipes (some {}) }
  | .create false => some { self with breaker := self.breaker.setPipes none }
  | .configure true =>
      some { self with breaker := { self.breaker with
        pipe := self.breaker.pipe.map ({ · with nonblocking := true }) } }
  | .configure false => some { self with breaker := self.breaker.close }

end Signals

/-! ## The flag and the byte -/

namespace Signals

/-- The flag says whether the pipe has its one byte, and who was told that the
signal is out finds it there. -/
structure Consistent (s : Signals) : Prop where
  broken_iff : s.breaker.broken = true ↔
    ∃ pipe, s.breaker.pipe = some pipe ∧ pipe.bytes = 1
  bytes_le : ∀ pipe, s.breaker.pipe = some pipe → pipe.bytes ≤ 1
  signalled : s.signalled = true → s.breaker.readable = true

/-- A pipe is closed or replaced only while no signal is out, and until the next
one is made nobody takes the byte of a signal. -/
def Careful (self : Signals) : BreakerAction → Prop
  | .break_ writes =>
      self.breaker.broken = true ∨ self.breaker.pipe.isSome = true ∨
        self.breaker.stale = false ∨ writes = false
  | .close => self.breaker.broken = false
  | .reset => self.breaker.broken = false
  | .create _ => self.breaker.broken = false
  | .configure false => self.breaker.broken = false
  | _ => True

theorem consistent_init : Consistent {} := by
  constructor <;> simp

namespace Consistent

variable {s t : Signals}

theorem not_signalled (h : Consistent s) (hbroken : s.breaker.broken = false) :
    s.signalled = false := by
  by_contra hsignalled
  have hreadable := h.signalled (by simpa using hsignalled)
  unfold Breaker.readable at hreadable
  split at hreadable
  · next pipe hpipe =>
      have hle := h.bytes_le pipe hpipe
      have hone : pipe.bytes = 1 := by
        have hne := of_decide_eq_true hreadable
        omega
      have htrue := h.broken_iff.mpr ⟨pipe, hpipe, hone⟩
      rw [hbroken] at htrue
      cases htrue
  · cases hreadable

theorem drop_iff (h : Consistent s) {pipe : Option Pipe} {stale : Bool}
    (hpipe : ∀ p, pipe = some p → p.bytes = 0) :
    Consistent { s with breaker := { s.breaker with pipe, stale } } ↔
      s.breaker.broken = false := by
  constructor
  · intro hdrop
    by_contra hbroken
    obtain ⟨p, hp, hone⟩ :=
      hdrop.broken_iff.mp (by simpa using hbroken)
    have hzero := hpipe p hp
    omega
  · intro hbroken
    constructor
    case broken_iff =>
      simp only [hbroken, Bool.false_eq_true, false_iff]
      rintro ⟨p, hp, hone⟩
      have hzero := hpipe p hp
      omega
    case bytes_le =>
      intro p hp
      have hzero := hpipe p hp
      omega
    case signalled =>
      rw [h.not_signalled hbroken]
      nofun

theorem break_iff (h : Consistent s) (writes : Bool)
    (hstep : s.step (.break_ writes) = some t) :
    Consistent t ↔ Careful s (.break_ writes) := by
  have hsame (h : Consistent s) :
      Consistent { breaker := s.breaker, signalled := s.signalled || false } := by
    rwa [Bool.or_false]
  simp only [step, Breaker.break_] at hstep
  split at hstep
  · next hbroken =>
      cases hstep
      refine iff_of_true ⟨h.broken_iff, h.bytes_le, fun _ => ?_⟩ (.inl hbroken)
      obtain ⟨pipe, hpipe, hone⟩ := h.broken_iff.mp hbroken
      simp [Breaker.readable, hpipe, hone]
  · next hbroken =>
      split at hstep
      · next pipe hpipe =>
          have hzero : pipe.bytes = 0 := by
            have hle := h.bytes_le pipe hpipe
            have hne : pipe.bytes ≠ 1 := fun hone =>
              hbroken (h.broken_iff.mpr ⟨pipe, hpipe, hone⟩)
            omega
          refine iff_of_true ?_ (.inr (.inl (by rw [hpipe]; rfl)))
          split at hstep
          · cases hstep
            constructor <;> simp [hzero, Breaker.readable]
          · cases hstep
            exact hsame h
      · next hpipe =>
          split at hstep
          -- somebody else has the byte
          · next htaken =>
              cases hstep
              obtain ⟨hstale, hwrites⟩ := Bool.and_eq_true_iff.mp htaken
              refine iff_of_false (fun ht => ?_) ?_
              · obtain ⟨pipe, hsome, -⟩ := ht.broken_iff.mp rfl
                cases hpipe.symm.trans hsome
              · simp [Careful, hbroken, hpipe, hstale, hwrites]
          · next hnot =>
              cases hstep
              refine iff_of_true (hsame h) (.inr (.inr ?_))
              simpa [Bool.and_eq_true, Classical.or_iff_not_imp_left] using hnot

theorem clear (h : Consistent s) {reads : Bool}
    (hstep : s.step (.clear reads) = some t) : Consistent t := by
  obtain ⟨⟨breaker, ret⟩, hclear, rfl⟩ := Option.map_eq_some_iff.mp hstep
  unfold Breaker.clear at hclear
  split at hclear
  · next pipe hpipe =>
      have hle := h.bytes_le pipe hpipe
      split at hclear
      · split at hclear
        · cases hclear
          simpa using h
        · cases hclear
      · cases hclear
        have hzero : pipe.bytes - 128 = 0 := by omega
        constructor <;> simp [hzero]
  · next hpipe =>
      split at hclear
      · cases hclear
        constructor <;> simp [hpipe]
      · cases hclear
        simpa using h

theorem step_iff (h : Consistent s) (action : BreakerAction)
    (hstep : s.step action = some t) : Consistent t ↔ Careful s action := by
  cases action with
  | break_ writes => exact h.break_iff writes hstep
  | clear reads => exact iff_of_true (h.clear hstep) trivial
  | close =>
      cases hstep
      exact h.drop_iff nofun
  | reset =>
      cases hstep
      exact h.drop_iff nofun
  | create ok =>
      cases ok <;> cases hstep
      · exact h.drop_iff nofun
      · refine h.drop_iff ?_
        rintro _ ⟨⟩
        rfl
  | configure ok =>
      cases ok <;> cases hstep
      · exact h.drop_iff nofun
      · refine iff_of_true ⟨?_, ?_, ?_⟩ trivial
        · simpa using h.broken_iff
        · simpa using h.bytes_le
        · intro hsignalled
          have hreadable := h.signalled hsignalled
          unfold Breaker.readable at hreadable ⊢
          cases hpipe : s.breaker.pipe <;> simp_all

end Consistent

/-- The constructor, a query that gives up, and a second one: the resolver of
the first reports between the second's `Clear` and `Close`. -/
def lateResolver : List BreakerAction :=
  let reCreate := [.reset, .create true, .configure true]
  reCreate ++ [.clear false, .close] ++ reCreate ++
    [.clear false, .break_ true, .close] ++ reCreate

end Signals

end GoSocket.Socket
