import GoSocket.Connect.TcpConnector
import GoSocket.Foundation.Transition

/-!
# ConnectImpatient

The race of connectors.  A round asks the clock for the next address, passes
the connectors before the poll and behind it, and ends the race or not; at the
end what is left is closed.  Each pass of a loop over the connectors is a step,
and so is each return of the poll.
-/

namespace GoSocket.Connect

open GoSocket.Foundation

structure ComplexConnect where
  timeout : UInt32
  interval : UInt32
  errorInterval : UInt32
  maxConnect : UInt32
  deriving DecidableEq, Repr

inductive ImpatientPc where
  | top
  | preSelect (i : Nat)
  -- `Select`, with the seconds that it may wait
  | select (selTimeout : Int32)
  | afterSelect (i : Nat)
  | check
  | close (i : Nat)
  | returned
  deriving DecidableEq, Repr

/-- The clock at the head of the round in which an attempt has its turn, and
when it is started, its `_startConnTime`. -/
structure AttemptTimes where
  round : UInt64
  start : UInt64
  deriving DecidableEq, Repr

/-- What a run has seen. -/
inductive ImpatientEvent where
  | attempt (addr : AddrInfo) (times : AttemptTimes)
  -- a connector as `AfterSelect` has left it
  | after (i : Nat) (connector : TcpConnector)
  | selectError
  | breakerError
  | isBreak
  deriving DecidableEq, Repr

inductive SelectResult where
  | error
  | isException
  | isBreak
  | done
  deriving DecidableEq, Repr

inductive ImpatientAction where
  | top (curTime startTime : UInt64)
  | preSelect (answers : PreAnswers) (tickCount : UInt64)
  | select (result : SelectResult)
  | afterSelect (answers : AfterAnswers)
  | check
  | close
  deriving DecidableEq, Repr

structure ConnectImpatient where
  conf : ComplexConnect
  connectors : List (Option TcpConnector)
  lastStartConnTime : UInt64
  lastError : Int32 := 0
  index : Nat := 0
  retSocket : Option ConnSocket := none
  timeout : Int32 := 0
  sel : SocketSelect := {}
  pc : ImpatientPc := .top
  -- the clock, also at the head of the round, the descriptors that are open,
  -- and the run, newest first
  tickCount : UInt64
  round : UInt64 := tickCount
  fds : List Nat := []
  events : List ImpatientEvent := []
  deriving DecidableEq, Repr

namespace ConnectImpatient

/-- The connectors are made; without an address the call returns at once. -/
def start (conf : ComplexConnect) (withSSL : Bool) (addrs : List AddrInfo)
    (curTime : UInt64) : ConnectImpatient where
  conf
  connectors := addrs.map fun addr => some (.new withSSL addr conf.timeout)
  lastStartConnTime := curTime - conf.interval.toUInt64
  pc := if addrs = [] then .returned else .top
  tickCount := curTime

def isConnecting (connector : Option TcpConnector) : Bool :=
  match connector with
  | some connector => connector.socket.isSome
  | none => false

def runningCount (self : ConnectImpatient) : Nat :=
  self.connectors.countP isConnecting

def nextConnTimeout (self : ConnectImpatient) (curTime : UInt64) : Int32 :=
  let interval :=
    if self.lastError = 0 then self.conf.interval.toInt32
    else self.conf.errorInterval.toInt32
  interval - (curTime - self.lastStartConnTime).toUInt32.toInt32

def nextAddress (self : ConnectImpatient) (curTime startTime : UInt64) :
    ConnectImpatient :=
  let self := { self with sel := {}, timeout := self.conf.timeout.toInt32 }
  if self.index < self.connectors.length ∧
      self.runningCount < self.conf.maxConnect.toNat then
    if self.nextConnTimeout curTime > 0 then
      { self with timeout := min self.timeout (self.nextConnTimeout curTime) }
    else
      { self with
        lastStartConnTime := startTime
        lastError := 0
        index := self.index + 1 }
  else self

/-- The descriptor that a `PreSelect` has got from `socket`. -/
def opened (connector : TcpConnector) (answers : PreAnswers) : List Nat :=
  if connector.status = .ConnStatusStart then answers.socketFd.toList else []

def set (self : ConnectImpatient) (i : Nat) (connector : Option TcpConnector) :
    ConnectImpatient :=
  { self with connectors := self.connectors.set i connector }

/-- `PreSelect` and `Timeout` of a connector. -/
def callPreSelect (self : ConnectImpatient) (i : Nat) (connector : TcpConnector)
    (answers : PreAnswers) (tickCount : UInt64) : ConnectImpatient :=
  let (connector', sel) := connector.callPreSelect answers self.sel
  { self.set i (some connector') with
    sel
    timeout := min self.timeout (connector'.timeout tickCount)
    fds := opened connector answers ++ self.fds
    events :=
      if connector.status = .ConnStatusStart then
        .attempt connector.addr ⟨self.round, answers.tickCount⟩ :: self.events
      else self.events }

def closeFds (self : ConnectImpatient) (closed : List Nat) : ConnectImpatient :=
  { self with fds := self.fds.diff closed }

/-- `AfterSelect` of a connector, and what its status says. -/
def callAfterSelect (self : ConnectImpatient) (i : Nat)
    (connector : TcpConnector) (answers : AfterAnswers) : ConnectImpatient :=
  let connector := connector.callAfterSelect answers
  let self := { self with events := .after i connector :: self.events }
  match connector.status with
  | .ConnStatusError =>
      { (self.set i none).closeFds connector.close.1 with
        lastError := -1
        pc := .afterSelect (i + 1) }
  | .ConnStatusConnected =>
      { self.set i none with retSocket := connector.socket, pc := .check }
  | _ => { self.set i (some connector) with pc := .afterSelect (i + 1) }

def step (self : ConnectImpatient) : ImpatientAction → Option ConnectImpatient
  | .top curTime startTime =>
      if self.pc = .top ∧ self.tickCount ≤ curTime ∧ curTime ≤ startTime then
        some { self.nextAddress curTime startTime with
          tickCount := startTime
          round := startTime
          pc := .preSelect 0 }
      else none
  | .preSelect answers tickCount =>
      match self.pc with
      | .preSelect i =>
          if i < self.index then
            match self.connectors[i]? with
            | some (some connector) =>
                if self.tickCount ≤ answers.tickCount ∧
                    answers.tickCount ≤ tickCount ∧
                    ∀ fd ∈ opened connector answers, fd ∉ self.fds then
                  some { self.callPreSelect i connector answers tickCount with
                    tickCount
                    pc := .preSelect (i + 1) }
                else none
            | _ => some { self with pc := .preSelect (i + 1) }
          else
            some { self with pc := .select (max 0 self.timeout / 1000) }
      | _ => none
  | .select result =>
      match self.pc with
      | .select _ =>
          match result with
          | .error =>
              some { self with
                pc := .close 0, events := .selectError :: self.events }
          | .isException =>
              some { self with
                pc := .close 0, events := .breakerError :: self.events }
          | .isBreak =>
              some { self with
                pc := .close 0, events := .isBreak :: self.events }
          | .done => some { self with pc := .afterSelect 0 }
      | _ => none
  | .afterSelect answers =>
      match self.pc with
      | .afterSelect i =>
          if i < self.index then
            match self.connectors[i]? with
            | some (some connector) =>
                if self.tickCount ≤ answers.tickCount then
                  some { self.callAfterSelect i connector answers with
                    tickCount := answers.tickCount }
                else none
            | _ => some { self with pc := .afterSelect (i + 1) }
          else some { self with pc := .check }
      | _ => none
  | .check =>
      match self.pc with
      | .check =>
          if (∀ connector ∈ self.connectors, connector = none) ∨
              self.retSocket ≠ none then
            some { self with pc := .close 0 }
          else some { self with pc := .top }
      | _ => none
  | .close =>
      match self.pc with
      | .close i =>
          if i < self.connectors.length then
            match self.connectors[i]? with
            | some (some connector) =>
                some { (self.set i none).closeFds connector.close.1 with
                  pc := .close (i + 1) }
            | _ => some { self with pc := .close (i + 1) }
          else some { self with pc := .returned }
      | _ => none

/-! ## The steps -/

/-- A connector that is still there. -/
def Has (self : ConnectImpatient) (i : Nat) (connector : TcpConnector) : Prop :=
  self.connectors[i]? = some (some connector)

/-- The connector that `PreSelect` is to be called on. -/
def preSelecting (self : ConnectImpatient) : Option TcpConnector :=
  match self.pc with
  | .preSelect i => if i < self.index then self.connectors[i]?.join else none
  | _ => none

/-- The steps that only go on. -/
inductive Turn (self : ConnectImpatient) : ImpatientPc → Prop
  | preSkip (i : Nat) (hpc : self.pc = .preSelect i)
      (hi : i < self.index) (hnone : ∀ connector, ¬ self.Has i connector) :
      Turn self (.preSelect (i + 1))
  | preEnd (i : Nat) (hpc : self.pc = .preSelect i) (hi : self.index ≤ i)
      (selTimeout : Int32) : Turn self (.select selTimeout)
  | selected (selTimeout : Int32) (hpc : self.pc = .select selTimeout) :
      Turn self (.afterSelect 0)
  | afterSkip (i : Nat) (hpc : self.pc = .afterSelect i) (hi : i < self.index)
      (hnone : ∀ connector, ¬ self.Has i connector) : Turn self (.afterSelect (i + 1))
  | afterEnd (i : Nat) (hpc : self.pc = .afterSelect i) (hi : self.index ≤ i) :
      Turn self .check
  | checkEnd (hpc : self.pc = .check)
      (hend : (∀ connector ∈ self.connectors, connector = none) ∨
        self.retSocket ≠ none) : Turn self (.close 0)
  | checkTop (hpc : self.pc = .check) (hret : self.retSocket = none) :
      Turn self .top
  | closeSkip (i : Nat) (hpc : self.pc = .close i)
      (hnone : ∀ connector, ¬ self.Has i connector) : Turn self (.close (i + 1))
  | closeEnd (i : Nat) (hpc : self.pc = .close i)
      (hi : self.connectors.length ≤ i) : Turn self .returned

inductive StepCases (self : ConnectImpatient) :
    ImpatientAction → ConnectImpatient → Prop
  | top (curTime startTime : UInt64) (hpc : self.pc = .top)
      (hcur : self.tickCount ≤ curTime) (hstart : curTime ≤ startTime) :
      StepCases self (.top curTime startTime)
        { self.nextAddress curTime startTime with
          tickCount := startTime
          round := startTime
          pc := .preSelect 0 }
  | preSelect (answers : PreAnswers) (tickCount : UInt64) (i : Nat)
      (connector : TcpConnector) (hpc : self.pc = .preSelect i)
      (hi : i < self.index) (hhas : self.Has i connector)
      (htick : self.tickCount ≤ tickCount)
      (hfresh : ∀ fd ∈ opened connector answers, fd ∉ self.fds)
      (hstart : self.tickCount ≤ answers.tickCount) :
      StepCases self (.preSelect answers tickCount)
        { self.callPreSelect i connector answers tickCount with
          tickCount
          pc := .preSelect (i + 1) }
  | leave (result : SelectResult) (selTimeout : Int32)
      (hpc : self.pc = .select selTimeout) (event : ImpatientEvent)
      (hevent : event = .selectError ∨ event = .breakerError ∨ event = .isBreak) :
      StepCases self (.select result)
        { self with pc := .close 0, events := event :: self.events }
  | afterSelect (answers : AfterAnswers) (i : Nat) (connector : TcpConnector)
      (hpc : self.pc = .afterSelect i) (hi : i < self.index)
      (hhas : self.Has i connector) (htick : self.tickCount ≤ answers.tickCount) :
      StepCases self (.afterSelect answers)
        { self.callAfterSelect i connector answers with
          tickCount := answers.tickCount }
  | close (i : Nat) (connector : TcpConnector) (hpc : self.pc = .close i)
      (hhas : self.Has i connector) :
      StepCases self .close
        { (self.set i none).closeFds connector.close.1 with
          pc := .close (i + 1) }
  | turn (action : ImpatientAction) (pc : ImpatientPc) (hturn : Turn self pc)
      (hidle : self.preSelecting = none) : StepCases self action { self with pc }

variable {s t : ConnectImpatient}

theorem preSelecting_eq {i : Nat} {connector : TcpConnector}
    (hpc : s.pc = .preSelect i) (hi : i < s.index) (hhas : s.Has i connector) :
    s.preSelecting = some connector := by
  unfold preSelecting
  rw [hpc]
  dsimp only
  rw [if_pos hi, hhas]
  rfl

theorem has_set {i j : Nat} {connector : TcpConnector}
    {x : Option TcpConnector} (h : (s.set i x).Has j connector) :
    j = i ∧ x = some connector ∨ j ≠ i ∧ s.Has j connector := by
  unfold Has set at h
  rw [List.getElem?_set] at h
  split at h
  · next heq =>
      split at h
      · exact .inl ⟨heq.symm, by simpa using h⟩
      · cases h
  · next hne => exact .inr ⟨fun heq => hne heq.symm, h⟩

private theorem preSelecting_eq_none
    (hnone : ∀ i connector, s.pc = .preSelect i → i < s.index →
      ¬ s.Has i connector) : s.preSelecting = none := by
  unfold preSelecting
  split
  · next i hpc =>
      split
      · next hi =>
          rw [Option.eq_none_iff_forall_not_mem]
          intro connector hmem
          exact hnone i connector hpc hi (Option.join_eq_some_iff.mp hmem)
      · rfl
  · rfl

private theorem preSelecting_of_pc (hpc : ∀ i, s.pc ≠ .preSelect i) :
    s.preSelecting = none :=
  preSelecting_eq_none fun i _ h => absurd h (hpc i)

theorem step_cases {action : ImpatientAction} (h : s.step action = some t) :
    StepCases s action t := by
  cases action with
  | top curTime startTime =>
      rw [step] at h
      split at h
      · next hguard =>
          obtain ⟨hpc, hcur, hstart⟩ := hguard
          cases h
          exact .top curTime startTime hpc hcur hstart
      · cases h
  | preSelect answers tickCount =>
      rw [step] at h
      split at h
      · next i hpc =>
          split at h
          · next hi =>
              split at h
              · next connector hhas =>
                  split at h
                  · next hguard =>
                      obtain ⟨hle, hle', hfresh⟩ := hguard
                      cases h
                      exact .preSelect answers tickCount i connector hpc hi hhas
                        (UInt64.le_trans hle hle') hfresh hle
                  · cases h
              · next hnone =>
                  cases h
                  refine .turn _ _ (.preSkip i hpc hi hnone) ?_
                  apply preSelecting_eq_none
                  intro j connector hj _
                  rw [hpc] at hj
                  cases hj
                  exact hnone connector
          · next hi =>
              cases h
              refine .turn _ _ (.preEnd i hpc (by omega) _) ?_
              apply preSelecting_eq_none
              intro j connector hj hlt
              rw [hpc] at hj
              cases hj
              exact absurd hlt hi
      · cases h
  | select result =>
      unfold step at h
      dsimp only at h
      split at h
      · next selTimeout hpc =>
          cases result with
          | error =>
              cases h
              exact .leave _ selTimeout hpc _ (.inl rfl)
          | isException =>
              cases h
              exact .leave _ selTimeout hpc _ (.inr (.inl rfl))
          | isBreak =>
              cases h
              exact .leave _ selTimeout hpc _ (.inr (.inr rfl))
          | done =>
              cases h
              exact .turn _ _ (.selected selTimeout hpc)
                (preSelecting_of_pc (by simp [hpc]))
      · cases h
  | afterSelect answers =>
      rw [step] at h
      split at h
      · next i hpc =>
          split at h
          · next hi =>
              split at h
              · next connector hhas =>
                  split at h
                  · next htick =>
                      cases h
                      exact .afterSelect answers i connector hpc hi hhas htick
                  · cases h
              · next hnone =>
                  cases h
                  exact .turn _ _ (.afterSkip i hpc hi hnone)
                    (preSelecting_of_pc (by simp [hpc]))
          · next hi =>
              cases h
              exact .turn _ _ (.afterEnd i hpc (by omega))
                (preSelecting_of_pc (by simp [hpc]))
      · cases h
  | check =>
      rw [step] at h
      split at h
      · next hpc =>
          split at h
          · next hend =>
              cases h
              exact .turn _ _ (.checkEnd hpc hend)
                (preSelecting_of_pc (by simp [hpc]))
          · next hend =>
              cases h
              refine .turn _ _ (.checkTop hpc ?_)
                (preSelecting_of_pc (by simp [hpc]))
              by_contra hne
              exact hend (.inr hne)
      · cases h
  | close =>
      rw [step] at h
      split at h
      · next i hpc =>
          split at h
          · split at h
            · next connector hhas =>
                cases h
                exact .close i connector hpc hhas
            · next hnone =>
                cases h
                exact .turn _ _ (.closeSkip i hpc hnone)
                    (preSelecting_of_pc (by simp [hpc]))
          · next hi =>
              cases h
              exact .turn _ _ (.closeEnd i hpc (by omega))
                (preSelecting_of_pc (by simp [hpc]))
      · cases h

end ConnectImpatient

end GoSocket.Connect
