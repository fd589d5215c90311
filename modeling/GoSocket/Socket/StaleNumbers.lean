import GoSocket.Socket.Breaker
import GoSocket.Foundation.Simulation
import Mathlib.Logic.Function.Basic

/-!
# The numbers that a closed breaker keeps

`Close` gives the two descriptors back and leaves their numbers in `_pipes` until the
next `ReCreate`.  The numbers are the process's: meanwhile they may be somebody else's
descriptors, and `Break` writes to them, `Clear` reads them and `Close` closes them.
-/

namespace GoSocket.Socket

open GoSocket.Foundation

/-- Whose a descriptor is: an end of the `n`-th breaker's pipe, or not a breaker's. -/
inductive Owner where
  | readEnd (n : Nat)
  | writeEnd (n : Nat)
  | rest
  deriving DecidableEq, Repr

structure PipeBreaker where
  broken : Bool := false
  -- `_pipes`, `none` for -1 and -1
  pipes : Option (Nat × Nat) := none
  -- the pipe that was made last
  pipe : Pipe := {}
  -- a `Break` has returned true since the last `Clear` that succeeded
  signalled : Bool := false
  deriving DecidableEq, Repr

/-- The breakers of a process, and its open descriptors. -/
structure Process where
  breakers : Nat → PipeBreaker := fun _ => {}
  table : Nat → Option Owner := fun _ => none
  -- the descriptors of others that a breaker has used, newest first
  touched : List Nat := []

/-- What a breaker finds at a number of its `_pipes`. -/
inductive Found where
  -- `EBADF`
  | closed
  | own
  | others
  deriving DecidableEq, Repr

namespace Process

def find (self : Process) (own : Owner) (fd : Nat) : Found :=
  match self.table fd with
  | none => .closed
  | some owner => if owner = own then .own else .others

def set (self : Process) (n : Nat) (breaker : PipeBreaker) : Process :=
  { self with breakers := Function.update self.breakers n breaker }

def touch (self : Process) (fd : Nat) : Process :=
  { self with touched := fd :: self.touched }

def setFd (self : Process) (fd : Nat) (owner : Option Owner) : Process :=
  { self with table := Function.update self.table fd owner }

/-- `Break`; `writes` is whether an open descriptor takes the byte. -/
def break_ (self : Process) (n : Nat) (writes : Bool) : Process :=
  let breaker := self.breakers n
  let told := { breaker with broken := true, signalled := true }
  if breaker.broken then self.set n told
  else
    match breaker.pipes with
    | none => self
    | some (_, writeFd) =>
        match self.find (.writeEnd n) writeFd with
        | .closed => self
        | .own =>
            if writes then
              self.set n { told with
                pipe := { breaker.pipe with bytes := breaker.pipe.bytes + 1 } }
            else self
        | .others => (if writes then self.set n told else self).touch writeFd

/-- `Clear`; `reads` is whether somebody else's descriptor has bytes to read. -/
def clear (self : Process) (n : Nat) (reads : Bool) : Option Process :=
  let breaker := self.breakers n
  let cleared := { breaker with broken := false, signalled := false }
  match breaker.pipes with
  | none => some self
  | some (readFd, _) =>
      match self.find (.readEnd n) readFd with
      | .closed => some self
      | .own =>
          if breaker.pipe.bytes = 0 then
            if breaker.pipe.nonblocking then some self else none
          else
            some (self.set n { cleared with
              pipe := { breaker.pipe with bytes := breaker.pipe.bytes - 128 } })
      | .others => some ((if reads then self.set n cleared else self).touch readFd)

def closeFd (self : Process) (own : Owner) (fd : Nat) : Process :=
  match self.find own fd with
  | .closed => self
  | .own => self.setFd fd none
  | .others => (self.setFd fd none).touch fd

/-- `Close`, which leaves `_pipes` as it is. -/
def close (self : Process) (n : Nat) : Process :=
  match (self.breakers n).pipes with
  | none => self
  | some (readFd, writeFd) =>
      (self.closeFd (.readEnd n) readFd).closeFd (.writeEnd n) writeFd

/-- `pipe`, which gives numbers that are free. -/
def create (self : Process) (n : Nat) (fds : Option (Nat × Nat)) : Option Process :=
  let breaker := self.breakers n
  match fds with
  | none => some (self.set n { breaker with pipes := none })
  | some (readFd, writeFd) =>
      if readFd ≠ writeFd ∧ self.table readFd = none ∧ self.table writeFd = none then
        some (((self.set n { breaker with pipes := fds, pipe := {} }).setFd readFd
          (some (.readEnd n))).setFd writeFd (some (.writeEnd n)))
      else none

def fcntl (self : Process) (own : Owner) (fd : Nat) : Process :=
  match self.find own fd with
  | .others => self.touch fd
  | _ => self

def configure (self : Process) (n : Nat) : Process :=
  let breaker := self.breakers n
  match breaker.pipes with
  | none => self
  | some (readFd, writeFd) =>
      let self := (self.fcntl (.readEnd n) readFd).fcntl (.writeEnd n) writeFd
      if self.find (.readEnd n) readFd = .own then
        self.set n { breaker with pipe := { breaker.pipe with nonblocking := true } }
      else self

end Process

inductive ProcessAction where
  -- the numbers are what `pipe` gives
  | call (n : Nat) (action : BreakerAction) (fds : Nat × Nat)
  -- the rest of the process opens a descriptor, or closes one of its own
  | open_ (fd : Nat)
  | close (fd : Nat)
  deriving DecidableEq, Repr

namespace Process

def call (self : Process) (n : Nat) (fds : Nat × Nat) :
    BreakerAction → Option Process
  | .break_ writes => some (self.break_ n writes)
  | .clear reads => self.clear n reads
  | .close => some (self.close n)
  | .reset => some (self.set n { self.breakers n with pipes := none })
  | .create ok => self.create n (if ok then some fds else none)
  | .configure true => some (self.configure n)
  | .configure false => some (self.close n)

def step (self : Process) : ProcessAction → Option Process
  | .call n action fds => self.call n fds action
  | .open_ fd => if self.table fd = none then some (self.setFd fd (some .rest)) else none
  | .close fd => if self.table fd = some .rest then some (self.setFd fd none) else none

end Process

def ProcessAction.call? : ProcessAction → Option (Nat × BreakerAction)
  | .call n action _ => some (n, action)
  | _ => none

/-! ## What the calls say -/

namespace Calls

def step (self : Nat → Signals) : Nat × BreakerAction → Option (Nat → Signals)
  | (n, action) => ((self n).step action).map (Function.update self n)

/-- The call does not go to numbers that were given back. -/
def Current (self : Nat → Signals) : Nat × BreakerAction → Prop
  | (_, .reset) => True
  | (_, .create _) => True
  | (n, .break_ _) =>
      (self n).breaker.broken = true ∨ (self n).breaker.stale = false
  | (n, _) => (self n).breaker.stale = false

end Calls

/-! ## A call that goes to its own pipe -/

variable {table table' : Nat → Option Owner} {n : Nat} {b : PipeBreaker} {x : Signals}

/-- What the numbers of a breaker are, and what its calls say that they are. -/
inductive Ends (table : Nat → Option Owner) (n : Nat) (b : PipeBreaker) (x : Signals) :
    Prop
  | none (hpipes : b.pipes = none) (hpipe : x.breaker.pipe = none)
      (hstale : x.breaker.stale = false)
  | own (readFd writeFd : Nat) (hpipes : b.pipes = some (readFd, writeFd))
      (hpipe : x.breaker.pipe = some b.pipe) (hstale : x.breaker.stale = false)
      (hread : table readFd = some (.readEnd n))
      (hwrite : table writeFd = some (.writeEnd n))
  | stale (readFd writeFd : Nat) (hpipes : b.pipes = some (readFd, writeFd))
      (hpipe : x.breaker.pipe = none) (hstale : x.breaker.stale = true)
      (hread : table readFd ≠ some (.readEnd n))
      (hwrite : table writeFd ≠ some (.writeEnd n))

structure Names (table : Nat → Option Owner) (n : Nat) (b : PipeBreaker)
    (x : Signals) : Prop where
  broken : x.breaker.broken = b.broken
  signalled : x.signalled = b.signalled
  ends : Ends table n b x

theorem Ends.congr {b' : PipeBreaker} {x' : Signals} (h : Ends table n b x)
    (hpipes : b'.pipes = b.pipes) (hpipe : b'.pipe = b.pipe)
    (hsignals : x'.breaker.pipe = x.breaker.pipe)
    (hstale : x'.breaker.stale = x.breaker.stale) : Ends table n b' x' := by
  cases h with
  | none hnone hx hfalse =>
      exact .none (hpipes.trans hnone) (hsignals.trans hx) (hstale.trans hfalse)
  | own readFd writeFd hsome hx hfalse hread hwrite =>
      exact .own readFd writeFd (hpipes.trans hsome) (by rw [hsignals, hx, hpipe])
        (hstale.trans hfalse) hread hwrite
  | stale readFd writeFd hsome hx htrue hread hwrite =>
      exact .stale readFd writeFd (hpipes.trans hsome) (hsignals.trans hx)
        (hstale.trans htrue) hread hwrite

/-- The descriptors of the breaker are the same ones. -/
structure SameEnds (n : Nat) (table table' : Nat → Option Owner) : Prop where
  readEnd : ∀ fd, table' fd = some (.readEnd n) ↔ table fd = some (.readEnd n)
  writeEnd : ∀ fd, table' fd = some (.writeEnd n) ↔ table fd = some (.writeEnd n)

theorem SameEnds.refl : SameEnds n table table where
  readEnd _ := Iff.rfl
  writeEnd _ := Iff.rfl

theorem SameEnds.trans {table'' : Nat → Option Owner} (h : SameEnds n table table')
    (h' : SameEnds n table' table'') : SameEnds n table table'' where
  readEnd fd := (h'.readEnd fd).trans (h.readEnd fd)
  writeEnd fd := (h'.writeEnd fd).trans (h.writeEnd fd)

/-- Neither end of the breaker's pipe. -/
def NotOwn (n : Nat) (owner : Option Owner) : Prop :=
  owner ≠ some (.readEnd n) ∧ owner ≠ some (.writeEnd n)

theorem sameEnds_update {fd : Nat} {owner : Option Owner} (hbefore : NotOwn n (table fd))
    (hafter : NotOwn n owner) : SameEnds n table (Function.update table fd owner) := by
  constructor <;> intro fd' <;> by_cases heq : fd' = fd
  · subst heq
    simp [hbefore.1, hafter.1]
  · rw [Function.update_of_ne heq]
  · subst heq
    simp [hbefore.2, hafter.2]
  · rw [Function.update_of_ne heq]

theorem sameEnds_update_two {readFd writeFd : Nat} {owner owner' : Option Owner}
    (hne : writeFd ≠ readFd) (hread : NotOwn n (table readFd))
    (hwrite : NotOwn n (table writeFd)) (howner : NotOwn n owner)
    (howner' : NotOwn n owner') :
    SameEnds n table
      (Function.update (Function.update table readFd owner) writeFd owner') :=
  (sameEnds_update hread howner).trans
    (sameEnds_update (by rwa [Function.update_of_ne hne]) howner')

theorem Names.frame (h : Names table n b x) (hsame : SameEnds n table table') :
    Names table' n b x where
  broken := h.broken
  signalled := h.signalled
  ends := by
    cases h.ends with
    | none hpipes hpipe hstale => exact .none hpipes hpipe hstale
    | own readFd writeFd hpipes hpipe hstale hread hwrite =>
        exact .own readFd writeFd hpipes hpipe hstale ((hsame.readEnd _).mpr hread)
          ((hsame.writeEnd _).mpr hwrite)
    | stale readFd writeFd hpipes hpipe hstale hread hwrite =>
        exact .stale readFd writeFd hpipes hpipe hstale (mt (hsame.readEnd _).mp hread)
          (mt (hsame.writeEnd _).mp hwrite)

/-- Every breaker's calls say what its numbers are, and there are free numbers. -/
structure Told (s : Process) (calls : Nat → Signals) : Prop where
  names : ∀ n, Names s.table n (s.breakers n) (calls n)
  free : ∃ bound, ∀ fd, bound ≤ fd → s.table fd = none

variable {s t : Process} {calls : Nat → Signals}

theorem Told.update (h : Told s calls) (breaker : PipeBreaker) (x : Signals)
    (hbreakers : t.breakers = Function.update s.breakers n breaker)
    (hnames : Names t.table n breaker x)
    (hothers : ∀ m, m ≠ n → SameEnds m s.table t.table)
    (hfree : ∃ bound, ∀ fd, bound ≤ fd → t.table fd = none) :
    Told t (Function.update calls n x) := by
  refine ⟨fun m => ?_, hfree⟩
  rw [hbreakers]
  by_cases heq : m = n
  · subst heq
    rw [Function.update_self, Function.update_self]
    exact hnames
  · rw [Function.update_of_ne heq, Function.update_of_ne heq]
    exact (h.names m).frame (hothers m heq)

theorem Told.set (h : Told s calls) (breaker : PipeBreaker) (x : Signals)
    (hnames : Names s.table n breaker x) :
    Told (s.set n breaker) (Function.update calls n x) :=
  h.update breaker x rfl hnames (fun _ _ => .refl) h.free

theorem Told.same (h : Told s calls) (x : Signals)
    (hnames : Names s.table n (s.breakers n) x) : Told s (Function.update calls n x) :=
  h.update (s.breakers n) x (Function.update_eq_self n s.breakers).symm hnames
    (fun _ _ => .refl) h.free

theorem find_own {own : Owner} {fd : Nat} (h : s.table fd = some own) :
    s.find own fd = .own := by
  simp [Process.find, h]

/-- A call that goes to its own pipe is what the calls say, and touches nothing else. -/
def Answers (s t : Process) (calls : Nat → Signals) (n : Nat)
    (action : BreakerAction) : Prop :=
  ∃ x, (calls n).step action = some x ∧ (Calls.Current calls (n, action) →
    Told t (Function.update calls n x) ∧ t.touched = s.touched)

theorem Told.break_ (h : Told s calls) (n : Nat) (writes : Bool) :
    Answers s (s.break_ n writes) calls n (.break_ writes) := by
  have hnames := h.names n
  obtain ⟨hbroken, hsignalled, hends⟩ := hnames
  let told := (calls n).breaker.break_ writes
  refine ⟨{ breaker := told.1, signalled := (calls n).signalled || told.2 }, rfl,
    fun hcurrent => ?_⟩
  cases hb : (s.breakers n).broken with
  | true =>
      have htold : told = ((calls n).breaker, true) := by
        simp [told, Breaker.break_, hbroken, hb]
      have hset : s.break_ n writes =
          s.set n { s.breakers n with broken := true, signalled := true } := by
        simp [Process.break_, hb]
      rw [hset, htold]
      exact ⟨h.set _ _ ⟨hbroken.trans hb, Bool.or_true _, hends.congr rfl rfl rfl rfl⟩, rfl⟩
  | false =>
      have hfails (hnot : told = ((calls n).breaker, false))
          (hsame : s.break_ n writes = s) : Told (s.break_ n writes)
            (Function.update calls n
              { breaker := told.1, signalled := (calls n).signalled || told.2 }) ∧
            (s.break_ n writes).touched = s.touched := by
        rw [hnot, hsame, Bool.or_false]
        exact ⟨h.same _ (h.names n), rfl⟩
      cases hends with
      | none hpipes hpipe hstale =>
          refine hfails ?_ ?_
          · simp [told, Breaker.break_, hbroken, hb, hpipe, hstale]
          · simp [Process.break_, hb, hpipes]
      | own readFd writeFd hpipes hpipe hstale hread hwrite =>
          cases writes with
          | false =>
              refine hfails ?_ ?_
              · simp [told, Breaker.break_, hbroken, hb, hpipe]
              · simp [Process.break_, hb, hpipes, find_own hwrite]
          | true =>
              let pipe := { (s.breakers n).pipe with bytes := (s.breakers n).pipe.bytes + 1 }
              have htold : told = ({ (calls n).breaker with
                  broken := true, pipe := some pipe }, true) := by
                simp [told, Breaker.break_, hbroken, hb, hpipe, pipe]
              have hset : s.break_ n true = s.set n
                  { s.breakers n with broken := true, signalled := true, pipe } := by
                simp [Process.break_, hb, hpipes, find_own hwrite, pipe]
              rw [hset, htold]
              refine ⟨h.set _ _ ⟨rfl, Bool.or_true _, ?_⟩, rfl⟩
              exact .own readFd writeFd hpipes rfl hstale hread hwrite
      | stale readFd writeFd hpipes hpipe hstale hread hwrite =>
          simp [Calls.Current, hbroken, hb, hstale] at hcurrent

theorem Told.clear (h : Told s calls) {n : Nat} {reads : Bool}
    (hs : s.clear n reads = some t) : Answers s t calls n (.clear reads) := by
  obtain ⟨hbroken, hsignalled, hends⟩ := h.names n
  have hfails (hclear : (calls n).breaker.clear reads =
      some ((calls n).breaker, false)) (hsame : s = t) :
      Answers s t calls n (.clear reads) := by
    subst hsame
    refine ⟨calls n, ?_, fun _ => ⟨h.same _ (h.names n), rfl⟩⟩
    simp [Signals.step, hclear]
  unfold Process.clear at hs
  dsimp only at hs
  cases hends with
  | none hpipes hpipe hstale =>
      rw [hpipes] at hs
      exact hfails (by simp [Breaker.clear, hpipe, hstale]) (Option.some_inj.mp hs)
  | own readFd writeFd hpipes hpipe hstale hread hwrite =>
      rw [hpipes] at hs
      dsimp only at hs
      rw [find_own hread] at hs
      dsimp only at hs
      split at hs
      · next hzero =>
          split at hs
          · next hnonblocking =>
              refine hfails ?_ (Option.some_inj.mp hs)
              simp [Breaker.clear, hpipe, hzero, hnonblocking]
          · cases hs
      · next hbytes =>
          cases hs
          let pipe :=
            { (s.breakers n).pipe with bytes := (s.breakers n).pipe.bytes - 128 }
          refine ⟨{ breaker := { (calls n).breaker with
                      broken := false, pipe := some pipe }
                    signalled := false }, ?_, fun _ => ?_⟩
          · simp [Signals.step, Breaker.clear, hpipe, hbytes, pipe]
          · refine ⟨h.set _ _ ⟨rfl, rfl, ?_⟩, rfl⟩
            exact .own readFd writeFd rfl rfl hstale hread hwrite
  | stale readFd writeFd hpipes hpipe hstale hread hwrite =>
      have hcalls : ∃ x, (calls n).step (.clear reads) = some x := by
        cases reads <;> simp [Signals.step, Breaker.clear, hpipe, hstale]
      obtain ⟨x, hx⟩ := hcalls
      exact ⟨x, hx, fun hcurrent => by simp [Calls.Current, hstale] at hcurrent⟩

private theorem close_own {readFd writeFd : Nat} (hne : writeFd ≠ readFd)
    (hpipes : (s.breakers n).pipes = some (readFd, writeFd))
    (hread : s.table readFd = some (.readEnd n))
    (hwrite : s.table writeFd = some (.writeEnd n)) :
    s.close n = (s.setFd readFd none).setFd writeFd none := by
  have hwrite' : (s.setFd readFd none).table writeFd = some (.writeEnd n) := by
    simp only [Process.setFd, Function.update_of_ne hne, hwrite]
  simp only [Process.close, hpipes, Process.closeFd, find_own hread, find_own hwrite']

theorem Told.close (h : Told s calls) (n : Nat) {action : BreakerAction}
    (haction : action = .close ∨ action = .configure false) :
    Answers s (s.close n) calls n action := by
  obtain ⟨hbroken, hsignalled, hends⟩ := h.names n
  let x : Signals :=
    { calls n with breaker := (calls n).breaker.close }
  have hx : (calls n).step action = some x := by
    rcases haction with rfl | rfl <;> rfl
  refine ⟨x, hx, fun hcurrent => ?_⟩
  have hfalse : (calls n).breaker.stale = false := by
    rcases haction with rfl | rfl <;> exact hcurrent
  cases hends with
  | none hpipes hpipe hstale =>
      have hsame : s.close n = s := by simp only [Process.close, hpipes]
      rw [hsame]
      refine ⟨h.same _ ⟨hbroken, hsignalled, .none hpipes rfl ?_⟩, rfl⟩
      simp [x, Breaker.close, hstale, hpipe]
  | own readFd writeFd hpipes hpipe hstale hread hwrite =>
      have hne : writeFd ≠ readFd := by
        rintro rfl
        cases hread.symm.trans hwrite
      rw [close_own hne hpipes hread hwrite]
      refine ⟨h.update (s.breakers n) x (Function.update_eq_self n s.breakers).symm
        ⟨hbroken, hsignalled, .stale readFd writeFd hpipes rfl ?_ ?_ ?_⟩
        (fun m hm => ?_) ?_, rfl⟩
      · simp [x, Breaker.close, hpipe]
      · simp [Process.setFd, Function.update_apply]
      · simp [Process.setFd]
      · have hm' : n ≠ m := Ne.symm hm
        exact sameEnds_update_two hne (by simp [NotOwn, hread, hm'])
          (by simp [NotOwn, hwrite, hm']) (by simp [NotOwn]) (by simp [NotOwn])
      · obtain ⟨bound, hbound⟩ := h.free
        refine ⟨bound, fun fd hfd => ?_⟩
        simp [Process.setFd, Function.update_apply, hbound fd hfd]
  | stale readFd writeFd hpipes hpipe hstale => cases hstale.symm.trans hfalse

theorem Told.reset (h : Told s calls) (n : Nat) {action : BreakerAction}
    (haction : action = .reset ∨ action = .create false) :
    Answers s (s.set n { s.breakers n with pipes := none }) calls n action := by
  obtain ⟨hbroken, hsignalled, -⟩ := h.names n
  let x : Signals :=
    { calls n with breaker := (calls n).breaker.setPipes none }
  have hx : (calls n).step action = some x := by
    rcases haction with rfl | rfl <;> rfl
  exact ⟨x, hx, fun _ => ⟨h.set _ _ ⟨hbroken, hsignalled, .none rfl rfl rfl⟩, rfl⟩⟩

theorem Told.create (h : Told s calls) {n : Nat} {fds : Nat × Nat}
    (hs : s.create n (some fds) = some t) : Answers s t calls n (.create true) := by
  obtain ⟨hbroken, hsignalled, -⟩ := h.names n
  obtain ⟨readFd, writeFd⟩ := fds
  unfold Process.create at hs
  dsimp only at hs
  split at hs
  · next hfree =>
      obtain ⟨hne, hread, hwrite⟩ := hfree
      cases hs
      refine ⟨{ calls n with breaker := (calls n).breaker.setPipes (some {}) }, rfl,
        fun _ => ⟨h.update _ _ rfl ⟨hbroken, hsignalled,
          .own readFd writeFd rfl rfl rfl ?_ ?_⟩ (fun m hm => ?_) ?_, rfl⟩⟩
      · simp [Process.setFd, Process.set, Function.update_of_ne hne]
      · simp [Process.setFd]
      · have hm' : n ≠ m := Ne.symm hm
        exact sameEnds_update_two hne.symm (by simp [NotOwn, hread]) (by simp [NotOwn, hwrite])
          (by simp [NotOwn, hm']) (by simp [NotOwn, hm'])
      · obtain ⟨bound, hbound⟩ := h.free
        refine ⟨max bound (max readFd writeFd + 1), fun fd hfd => ?_⟩
        have hnone := hbound fd (by omega)
        have hread' : fd ≠ readFd := by omega
        have hwrite' : fd ≠ writeFd := by omega
        simp [Process.setFd, Process.set, Function.update_of_ne hread',
          Function.update_of_ne hwrite', hnone]
  · cases hs

theorem Told.configure (h : Told s calls) (n : Nat) :
    Answers s (s.configure n) calls n (.configure true) := by
  obtain ⟨hbroken, hsignalled, hends⟩ := h.names n
  refine ⟨_, rfl, fun hcurrent => ?_⟩
  cases hends with
  | none hpipes hpipe hstale =>
      have hsame : s.configure n = s := by simp only [Process.configure, hpipes]
      rw [hsame]
      exact ⟨h.same _ ⟨hbroken, hsignalled, .none hpipes (by simp [hpipe]) hstale⟩, rfl⟩
  | own readFd writeFd hpipes hpipe hstale hread hwrite =>
      have hset : s.configure n = s.set n { s.breakers n with
          pipe := { (s.breakers n).pipe with nonblocking := true } } := by
        simp only [Process.configure, hpipes, Process.fcntl, find_own hread,
          find_own hwrite, if_true]
      rw [hset]
      refine ⟨h.set _ _ ⟨hbroken, hsignalled, ?_⟩, rfl⟩
      exact .own readFd writeFd hpipes (by simp [hpipe]) hstale hread hwrite
  | stale readFd writeFd hpipes hpipe hstale => cases hstale.symm.trans hcurrent

theorem Told.call (h : Told s calls) {n : Nat} {action : BreakerAction}
    {fds : Nat × Nat} (hs : s.call n fds action = some t) :
    Answers s t calls n action := by
  cases action with
  | break_ writes =>
      cases hs
      exact h.break_ n writes
  | clear reads => exact h.clear hs
  | close =>
      cases hs
      exact h.close n (.inl rfl)
  | reset =>
      cases hs
      exact h.reset n (.inl rfl)
  | create ok =>
      cases ok with
      | true => exact h.create hs
      | false =>
          cases hs
          exact h.reset n (.inr rfl)
  | configure ok =>
      cases ok with
      | true =>
          cases hs
          exact h.configure n
      | false =>
          cases hs
          exact h.close n (.inr rfl)

theorem Told.rest (h : Told s calls) {fd : Nat} {owner : Option Owner}
    (hbefore : ∀ n, NotOwn n (s.table fd)) (hafter : ∀ n, NotOwn n owner) :
    Told (s.setFd fd owner) calls := by
  refine ⟨fun n => (h.names n).frame (sameEnds_update (hbefore n) (hafter n)), ?_⟩
  obtain ⟨bound, hbound⟩ := h.free
  refine ⟨max bound (fd + 1), fun fd' hfd => ?_⟩
  have hne : fd' ≠ fd := by omega
  simp only [Process.setFd, Function.update_of_ne hne]
  exact hbound fd' (by omega)

theorem told_init : Told {} fun _ => {} where
  names _ := ⟨rfl, rfl, .none rfl rfl rfl⟩
  free := ⟨0, fun _ _ => rfl⟩

/-- What holds as long as all calls go to their own pipes. -/
def Untouched (s : Process) (calls : Nat → Signals) : Prop :=
  Told s calls ∧ s.touched = []

theorem Untouched.hidden (h : Untouched s calls) {action : ProcessAction}
    (hcall : action.call? = none) (hs : s.step action = some t) : Untouched t calls := by
  obtain ⟨htold, htouched⟩ := h
  cases action with
  | call n action fds => cases hcall
  | open_ fd =>
      unfold Process.step at hs
      dsimp only at hs
      split at hs
      · next hfree =>
          cases hs
          refine ⟨htold.rest (fun n => ?_) (by simp [NotOwn]), htouched⟩
          simp [NotOwn, hfree]
      · cases hs
  | close fd =>
      unfold Process.step at hs
      dsimp only at hs
      split at hs
      · next hrest =>
          cases hs
          refine ⟨htold.rest (fun n => ?_) (by simp [NotOwn]), htouched⟩
          simp [NotOwn, hrest]
      · cases hs

theorem Untouched.visible (h : Untouched s calls) {action : ProcessAction}
    {call : Nat × BreakerAction} (hcall : action.call? = some call)
    (hs : s.step action = some t) : ∃ calls', Calls.step calls call = some calls' ∧
      (Calls.Current calls call → Untouched t calls') := by
  cases action with
  | call n action fds =>
      cases hcall
      obtain ⟨x, hx, hkeeps⟩ := h.1.call hs
      refine ⟨Function.update calls n x, by simp [Calls.step, hx], fun hcurrent => ?_⟩
      obtain ⟨htold, htouched⟩ := hkeeps hcurrent
      exact ⟨htold, htouched.trans h.2⟩
  | open_ fd => cases hcall
  | close fd => cases hcall

theorem Untouched.realise (h : Untouched s calls) {call : Nat × BreakerAction}
    {calls' : Nat → Signals} (hcurrent : Calls.Current calls call)
    (hcalls : Calls.step calls call = some calls') :
    ∃ action t, action.call? = some call ∧ s.step action = some t ∧
      Untouched t calls' := by
  obtain ⟨n, action⟩ := call
  have hmade (fds : Nat × Nat) (hsome : ∃ t, s.call n fds action = some t) :
      ∃ action' t, action'.call? = some (n, action) ∧ s.step action' = some t ∧
        Untouched t calls' := by
    obtain ⟨t, ht⟩ := hsome
    refine ⟨.call n action fds, t, rfl, ht, ?_⟩
    have hcall : (ProcessAction.call n action fds).call? = some (n, action) := rfl
    obtain ⟨calls'', hcalls', huntouched⟩ := h.visible hcall ht
    cases hcalls.symm.trans hcalls'
    exact huntouched hcurrent
  cases action with
  | clear reads =>
      refine hmade (0, 0) ?_
      obtain ⟨hbroken, hsignalled, hends⟩ := h.1.names n
      simp only [Process.call, Process.clear]
      cases hends with
      | none hpipes => exact ⟨s, by rw [hpipes]⟩
      | own readFd writeFd hpipes hpipe hstale hread hwrite =>
          rw [hpipes]
          dsimp only
          rw [find_own hread]
          dsimp only
          split
          · next hzero =>
              split
              · exact ⟨s, rfl⟩
              · next hblocks =>
                  simp [Calls.step, Signals.step, Breaker.clear, hpipe,
                    hzero, hblocks] at hcalls
          · exact ⟨_, rfl⟩
      | stale readFd writeFd hpipes hpipe hstale => cases hstale.symm.trans hcurrent
  | create ok =>
      cases ok with
      | true =>
          obtain ⟨bound, hbound⟩ := h.1.free
          refine hmade (bound, bound + 1) ?_
          simp only [Process.call, Process.create, if_true]
          rw [if_pos ⟨by omega, hbound bound (by omega), hbound (bound + 1) (by omega)⟩]
          exact ⟨_, rfl⟩
      | false => exact hmade (0, 0) ⟨_, rfl⟩
  | configure ok =>
      cases ok with
      | true => exact hmade (0, 0) ⟨_, rfl⟩
      | false => exact hmade (0, 0) ⟨_, rfl⟩
  | break_ writes => exact hmade (0, 0) ⟨_, rfl⟩
  | close => exact hmade (0, 0) ⟨_, rfl⟩
  | reset => exact hmade (0, 0) ⟨_, rfl⟩

/-! ## A call that goes to a number of somebody else -/

theorem exists_taken {own : Owner} {fd : Nat} (hne : s.table fd ≠ some own)
    (hown : own ≠ .rest) : ∃ opens t, run Process.step s opens = some t ∧
      opens.filterMap ProcessAction.call? = [] ∧ t.breakers = s.breakers ∧
        t.find own fd = .others := by
  cases htable : s.table fd with
  | none =>
      refine ⟨[.open_ fd], s.setFd fd (some .rest), ?_, rfl, rfl, ?_⟩
      · simp [run, Process.step, htable]
      · simp [Process.find, Process.setFd, hown.symm]
  | some owner =>
      refine ⟨[], s, rfl, rfl, rfl, ?_⟩
      have howner : owner ≠ own := fun heq => hne (htable.trans (by rw [heq]))
      simp [Process.find, htable, howner]

theorem closeFd_touched {own : Owner} {fd : Nat} :
    s.touched ≠ [] → (s.closeFd own fd).touched ≠ [] := by
  intro hne
  unfold Process.closeFd
  split
  · exact hne
  · exact hne
  · simp [Process.touch]

theorem fcntl_touched {own : Owner} {fd : Nat} :
    s.touched ≠ [] → (s.fcntl own fd).touched ≠ [] := by
  intro hne
  unfold Process.fcntl
  split
  · simp [Process.touch]
  · exact hne

theorem break_touches {readFd writeFd : Nat} {writes : Bool}
    (hbroken : (s.breakers n).broken = false)
    (hpipes : (s.breakers n).pipes = some (readFd, writeFd))
    (hfind : s.find (.writeEnd n) writeFd = .others) :
    (s.break_ n writes).touched ≠ [] := by
  simp [Process.break_, hbroken, hpipes, hfind, Process.touch]

theorem clear_touches {readFd writeFd : Nat} {reads : Bool}
    (hpipes : (s.breakers n).pipes = some (readFd, writeFd))
    (hfind : s.find (.readEnd n) readFd = .others) :
    ∃ t, s.clear n reads = some t ∧ t.touched ≠ [] := by
  simp [Process.clear, hpipes, hfind, Process.touch]

theorem close_touches {readFd writeFd : Nat}
    (hpipes : (s.breakers n).pipes = some (readFd, writeFd))
    (hfind : s.find (.readEnd n) readFd = .others) : (s.close n).touched ≠ [] := by
  simp only [Process.close, hpipes]
  refine closeFd_touched ?_
  simp [Process.closeFd, hfind, Process.touch]

theorem configure_touches {readFd writeFd : Nat}
    (hpipes : (s.breakers n).pipes = some (readFd, writeFd))
    (hfind : s.find (.readEnd n) readFd = .others) : (s.configure n).touched ≠ [] := by
  simp only [Process.configure, hpipes]
  have htouched : ((s.fcntl (.readEnd n) readFd).fcntl (.writeEnd n) writeFd).touched ≠
      [] := by
    refine fcntl_touched ?_
    simp [Process.fcntl, hfind, Process.touch]
  split
  · exact htouched
  · exact htouched

/-- A call to numbers that were given back finds, at worst, the descriptor of somebody
else there. -/
theorem Told.touches (h : Told s calls) {call : Nat × BreakerAction}
    (hstale : ¬ Calls.Current calls call) : ∃ actions t,
      run Process.step s actions = some t ∧
        actions.filterMap ProcessAction.call? = [call] ∧ t.touched ≠ [] := by
  obtain ⟨n, action⟩ := call
  have hnumbers : (calls n).breaker.stale = true := by
    cases action with
    | reset => exact absurd trivial hstale
    | create ok => exact absurd trivial hstale
    | break_ writes => simpa [Calls.Current] using (not_or.mp hstale).2
    | clear reads => simpa [Calls.Current] using hstale
    | close => simpa [Calls.Current] using hstale
    | configure ok => simpa [Calls.Current] using hstale
  obtain ⟨hbroken, hsignalled, hends⟩ := h.names n
  cases hends with
  | none hpipes hpipe hfalse => cases hnumbers.symm.trans hfalse
  | own readFd writeFd hpipes hpipe hfalse => cases hnumbers.symm.trans hfalse
  | stale readFd writeFd hpipes hpipe htrue hread hwrite =>
      have hcalled {own : Owner} {fd : Nat} (hne : s.table fd ≠ some own)
          (hown : own ≠ .rest)
          (htouches : ∀ t : Process, t.breakers = s.breakers → t.find own fd = .others →
            ∃ u, t.call n (0, 0) action = some u ∧ u.touched ≠ []) :
          ∃ actions t, run Process.step s actions = some t ∧
            actions.filterMap ProcessAction.call? = [(n, action)] ∧ t.touched ≠ [] := by
        obtain ⟨opens, t, hrun, hhidden, hsame, hfind⟩ := exists_taken hne hown
        obtain ⟨u, hu, htouched⟩ := htouches t hsame hfind
        refine ⟨opens ++ [.call n action (0, 0)], u, ?_, ?_, htouched⟩
        · rw [run_append hrun]
          simp [run, Process.step, hu]
        · rw [List.filterMap_append, hhidden]
          rfl
      cases action with
      | reset => exact absurd trivial hstale
      | create ok => exact absurd trivial hstale
      | break_ writes =>
          refine hcalled hwrite (by simp) fun t hsame hfind => ⟨_, rfl, ?_⟩
          rw [← hsame] at hbroken hpipes
          refine break_touches ?_ hpipes hfind
          rw [← hbroken]
          simpa using (not_or.mp hstale).1
      | clear reads =>
          exact hcalled hread (by simp) fun t hsame hfind =>
            clear_touches (hsame ▸ hpipes) hfind
      | close =>
          exact hcalled hread (by simp) fun t hsame hfind =>
            ⟨_, rfl, close_touches (hsame ▸ hpipes) hfind⟩
      | configure ok =>
          refine hcalled hread (by simp) fun t hsame hfind => ?_
          cases ok with
          | true => exact ⟨_, rfl, configure_touches (hsame ▸ hpipes) hfind⟩
          | false => exact ⟨_, rfl, close_touches (hsame ▸ hpipes) hfind⟩

theorem untouched_init : Untouched {} fun _ => {} := ⟨told_init, rfl⟩

theorem untouched_of_meets {calls : List (Nat × BreakerAction)}
    (hmeets : Meets Calls.step Calls.Current (fun _ => {}) calls)
    {actions : List ProcessAction} (hpre : actions.filterMap ProcessAction.call? <+: calls)
    {s : Process} (hrun : run Process.step {} actions = some s) : s.touched = [] := by
  have hhidden (s : Process) (calls : Nat → Signals) (action : ProcessAction)
      (t : Process) (h : Untouched s calls) (hcall : action.call? = none)
      (hs : s.step action = some t) : Untouched t calls :=
    h.hidden hcall hs
  have hvisible (s : Process) (calls : Nat → Signals) (action : ProcessAction)
      (call : Nat × BreakerAction) (t : Process) (h : Untouched s calls)
      (hcall : action.call? = some call) (hs : s.step action = some t) :
      ∃ calls', Calls.step calls call = some calls' ∧
        (Calls.Current calls call → Untouched t calls') :=
    h.visible hcall hs
  obtain ⟨calls', -, huntouched⟩ :=
    run_visible hhidden hvisible untouched_init (hmeets.of_prefix hpre) hrun
  exact huntouched.2

/-- Whatever the rest of the process opens and closes meanwhile, the calls of the breakers
touch no descriptor but their own, exactly if no call goes to numbers that `Close` has
given back. -/
theorem untouched_iff (calls : List (Nat × BreakerAction)) :
    Meets Calls.step Calls.Current (fun _ => {}) calls ↔
      ∀ actions s, actions.filterMap ProcessAction.call? <+: calls →
        run Process.step {} actions = some s → s.touched = [] := by
  constructor
  · intro hmeets actions s hpre hrun
    exact untouched_of_meets hmeets hpre hrun
  · intro hall
    by_contra hnot
    have hrealise (s : Process) (calls : Nat → Signals) (call : Nat × BreakerAction)
        (calls' : Nat → Signals) (h : Untouched s calls)
        (hcurrent : Calls.Current calls call)
        (hcalls : Calls.step calls call = some calls') :
        ∃ action t, action.call? = some call ∧ s.step action = some t ∧
          Untouched t calls' :=
      h.realise hcurrent hcalls
    obtain ⟨actions, s, calls', call, hrun, huntouched, hpre, hstale⟩ :=
      exists_run_visible hrealise untouched_init hnot
    obtain ⟨more, t, hmore, hcall, htouched⟩ := huntouched.1.touches hstale
    refine htouched (hall (actions ++ more) t ?_ ?_)
    · rw [List.filterMap_append, hcall]
      exact hpre
    · rw [run_append hrun]
      exact hmore

end GoSocket.Socket
