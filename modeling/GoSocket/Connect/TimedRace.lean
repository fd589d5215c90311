import GoSocket.Connect.Race
import Mathlib.Algebra.BigOperators.Group.List.Basic

/-!
# The race against the clock

The race of plain TCP addresses with the times that the heads of its rounds have
read.  An address that has not had its turn, a connector that is still there and
the time up to the next turn all count as rounds that are left; no step inside of a
round adds to them.
-/

namespace GoSocket.Connect

/-! ## Connectors without TLS -/

namespace TcpConnector

/-- A connector of a plain TCP address. -/
structure Plain (s : TcpConnector) : Prop where
  isSSLConnector : s.isSSLConnector = false
  isTls : s.addr.isTls = false

variable {s t : TcpConnector}

theorem timeout_pos {tickCount : UInt64} (hstatus : s.status = .ConnStatusConnecting)
    (hpos : ¬ s.timeout tickCount ≤ 0) (hle : s.startConnTime ≤ tickCount)
    (hlt : tickCount.toNat < s.startConnTime.toNat + s.connTimeout.toNat + 2 ^ 29) :
    tickCount.toNat < s.startConnTime.toNat + s.connTimeout.toNat := by
  unfold timeout at hpos
  rw [hstatus] at hpos
  dsimp only at hpos
  rw [Int32.le_iff_toInt_le, ConnectImpatient.toInt_toInt32, UInt64.toNat_toUInt32,
    UInt64.toNat_sub, UInt64.toNat_add, UInt32.toNat_toUInt64] at hpos
  have hstart := UInt64.le_iff_toNat_le.mp hle
  have htick := tickCount.toNat_lt
  simp only [Int.bmod] at hpos
  have : (0 : Int32).toInt = 0 := rfl
  omega

theorem Plain.pre {answers : PreAnswers} (h : Plain s) (hs : PreCases s answers t) :
    Plain t := by
  cases hs <;> exact ⟨h.isSSLConnector, h.isTls⟩

theorem PreCases.connTimeout {answers : PreAnswers} (hs : PreCases s answers t) :
    t.connTimeout = s.connTimeout := by
  cases hs <;> rfl

theorem Plain.timeout_pos (h : Plain s) {answers : AfterAnswers}
    (hstatus : (s.callAfterSelect answers).status = .ConnStatusConnecting) :
    s.callAfterSelect answers = s ∧ ¬ s.timeout answers.tickCount ≤ 0 := by
  revert hstatus
  unfold callAfterSelect afterSelect afterConnectSelect
  rw [h.isSSLConnector, h.isTls]
  simp only [Bool.false_eq_true, if_false]
  split
  · next hconnecting =>
      split
      · exact fun hfail => by cases hfail
      · split
        · exact fun hfail => by cases hfail
        · split
          · split
            · exact fun hfail => by cases hfail
            · exact fun hconnected => by cases hconnected
          · split
            · exact fun hfail => by cases hfail
            · next hpos => exact fun _ => ⟨rfl, hpos⟩
  · next hother => exact fun hconnecting => absurd hconnecting hother

end TcpConnector

/-! ## The race against the clock -/

namespace ComplexConnect

/-- One connector may run, and no time is as long as 2^28 ms. -/
structure Modest (conf : ComplexConnect) : Prop where
  timeout : conf.timeout.toNat < 2 ^ 28
  interval : conf.interval.toNat < 2 ^ 28
  errorInterval : conf.errorInterval.toNat < 2 ^ 28
  maxConnect : 1 ≤ conf.maxConnect.toNat

def longestWait (conf : ComplexConnect) : Nat :=
  max conf.interval.toNat conf.errorInterval.toNat

end ComplexConnect

namespace ConnectImpatient

variable {s t : ConnectImpatient} {action : ImpatientAction}

theorem preSelect_ticks {answers : PreAnswers} {tickCount : UInt64} {i : Nat}
    {connector : TcpConnector} (h : s.step (.preSelect answers tickCount) = some t)
    (hpc : s.pc = .preSelect i) (hi : i < s.index) (hhas : s.Has i connector) :
    s.tickCount ≤ answers.tickCount ∧ answers.tickCount ≤ tickCount := by
  simp only [step, hpc] at h
  rw [if_pos hi, hhas] at h
  dsimp only at h
  split at h
  · next hguard => exact ⟨hguard.1, hguard.2.1⟩
  · cases h

theorem has_of_checkTop (h : s.step action = some t) (hpc : s.pc = .check)
    (htop : t.pc = .top) : ∃ i connector, s.Has i connector := by
  cases action with
  | check =>
      simp only [step, hpc] at h
      split at h
      · cases h
        cases htop
      · next hnot =>
          simp only [not_or, not_forall] at hnot
          obtain ⟨⟨x, hmem, hsome⟩, -⟩ := hnot
          obtain ⟨i, hi⟩ := List.getElem?_of_mem hmem
          obtain ⟨connector, rfl⟩ := Option.ne_none_iff_exists'.mp hsome
          exact ⟨i, connector, hi⟩
  | top => simp [step, hpc] at h
  | preSelect => simp [step, hpc] at h
  | select => simp [step, hpc] at h
  | afterSelect => simp [step, hpc] at h
  | close => simp [step, hpc] at h

theorem over_step (h : s.step action = some t) (hover : s.Over) : t.Over := by
  cases step_cases h with
  | top curTime startTime hpc => simp [Over, hpc] at hover
  | preSelect answers tickCount i connector hpc => simp [Over, hpc] at hover
  | leave => exact .inl ⟨0, rfl⟩
  | afterSelect answers i connector hpc => simp [Over, hpc] at hover
  | close i => exact .inl ⟨i + 1, rfl⟩
  | turn action pc hturn =>
      cases hturn with
      | checkEnd => exact .inl ⟨0, rfl⟩
      | closeSkip i => exact .inl ⟨i + 1, rfl⟩
      | closeEnd => exact .inr rfl
      | preSkip i hpc => simp [Over, hpc] at hover
      | preEnd i hpc => simp [Over, hpc] at hover
      | selected selTimeout hpc => simp [Over, hpc] at hover
      | afterSkip i hpc => simp [Over, hpc] at hover
      | afterEnd i hpc => simp [Over, hpc] at hover
      | checkTop hpc => simp [Over, hpc] at hover

theorem lt_of_closeSkip {i : Nat} (h : s.step action = some t)
    (hpc : s.pc = .close i) (hnext : t.pc = .close (i + 1)) :
    i < s.connectors.length := by
  cases action with
  | close =>
      simp only [step, hpc] at h
      split at h
      · assumption
      · cases h
        cases hnext
  | top => simp [step, hpc] at h
  | preSelect => simp [step, hpc] at h
  | select => simp [step, hpc] at h
  | afterSelect => simp [step, hpc] at h
  | check => simp [step, hpc] at h

private theorem lt_of_bmod {interval since : Nat} (hinterval : interval < 2 ^ 28)
    (hsince : since < 2 ^ 30)
    (hpos : 0 < ((interval : Int).bmod (2 ^ 32) -
      ((since % 2 ^ 32 : Nat) : Int).bmod (2 ^ 32)).bmod (2 ^ 32)) :
    since < interval := by
  have hleft : (interval : Int).bmod (2 ^ 32) = interval :=
    Int.bmod_eq_of_le (by omega) (by omega)
  have hright : (since : Int).bmod (2 ^ 32) = since :=
    Int.bmod_eq_of_le (by omega) (by omega)
  rw [Nat.mod_eq_of_lt (by omega), hleft, hright,
    Int.bmod_eq_of_le (by omega) (by omega)] at hpos
  omega

/-- The wait for the next turn is no longer than it should be, where the casts lose
nothing. -/
theorem lt_of_wait {curTime : UInt64} {lastStart : Int} (hconf : s.conf.Modest)
    (hwraps : lastStart % 2 ^ 64 = s.lastStartConnTime.toNat)
    (hle : lastStart ≤ curTime.toNat) (hlt : curTime.toNat < lastStart + 2 ^ 30)
    (hwait : s.nextConnTimeout curTime > 0) :
    curTime.toNat < lastStart + s.conf.longestWait := by
  have hsince : (curTime - s.lastStartConnTime).toNat = curTime.toNat - lastStart := by
    have hcur := curTime.toNat_lt
    rw [UInt64.toNat_sub]
    omega
  have hpos := Int32.lt_iff_toInt_lt.mp hwait
  unfold nextConnTimeout at hpos
  dsimp only at hpos
  have hmax : s.conf.interval.toNat ≤ s.conf.longestWait ∧
      s.conf.errorInterval.toNat ≤ s.conf.longestWait :=
    ⟨Nat.le_max_left _ _, Nat.le_max_right _ _⟩
  split at hpos
  · rw [Int32.toInt_sub, toInt_toInt32, toInt_toInt32, UInt64.toNat_toUInt32] at hpos
    have := lt_of_bmod hconf.interval (by omega) hpos
    omega
  · rw [Int32.toInt_sub, toInt_toInt32, toInt_toInt32, UInt64.toNat_toUInt32] at hpos
    have := lt_of_bmod hconf.errorInterval (by omega) hpos
    omega

theorem exists_step (htop : s.pc ≠ .top) (hret : s.pc ≠ .returned) :
    ∃ action t, s.step action = some t ∧ t.tickCount = s.tickCount := by
  cases hpc : s.pc with
  | top => exact absurd hpc htop
  | preSelect i =>
      refine ⟨.preSelect { tickCount := s.tickCount } s.tickCount, ?_⟩
      simp only [step, hpc]
      split
      · split
        · next connector hhas =>
            have hnone : opened connector { tickCount := s.tickCount } = [] := by
              simp [opened]
            rw [if_pos ⟨UInt64.le_refl _, UInt64.le_refl _, by simp [hnone]⟩]
            exact ⟨_, rfl, rfl⟩
        · exact ⟨_, rfl, rfl⟩
      · exact ⟨_, rfl, rfl⟩
  | select selTimeout =>
      refine ⟨.select .done, ?_⟩
      simp only [step, hpc]
      exact ⟨_, rfl, rfl⟩
  | afterSelect i =>
      refine ⟨.afterSelect { tickCount := s.tickCount }, ?_⟩
      simp only [step, hpc]
      split
      · split
        · rw [if_pos (UInt64.le_refl _)]
          exact ⟨_, rfl, rfl⟩
        · exact ⟨_, rfl, rfl⟩
      · exact ⟨_, rfl, rfl⟩
  | check =>
      refine ⟨.check, ?_⟩
      simp only [step, hpc]
      split
      · exact ⟨_, rfl, rfl⟩
      · exact ⟨_, rfl, rfl⟩
  | close i =>
      refine ⟨.close, ?_⟩
      simp only [step, hpc]
      split
      · split
        · exact ⟨_, rfl, rfl⟩
        · exact ⟨_, rfl, rfl⟩
      · exact ⟨_, rfl, rfl⟩
  | returned => exact absurd hpc hret

end ConnectImpatient

/-- The race, with the time that the head of the round has read. -/
structure TimedRace where
  race : ConnectImpatient
  curTime : UInt64
  rounds : Nat := 0
  deriving DecidableEq, Repr

namespace TimedRace

def start (conf : ComplexConnect) (withSSL : Bool) (addrs : List AddrInfo)
    (curTime : UInt64) : TimedRace where
  race := .start conf withSSL addrs curTime
  curTime

def step (self : TimedRace) (action : ImpatientAction) : Option TimedRace :=
  (self.race.step action).map fun race =>
    match action with
    | .top curTime _ => { race, curTime, rounds := self.rounds + 1 }
    | _ => { self with race }

/-- The clock has gone on since the round before, and no round takes 2^28 ms. -/
def Advances (s : TimedRace) (action : ImpatientAction) : Prop :=
  match s.step action with
  | some t =>
      (s.rounds ≠ 0 → s.rounds ≠ t.rounds → s.curTime < t.curTime) ∧
        t.curTime.toNat < s.curTime.toNat + 2 ^ 28 ∧
        t.race.tickCount.toNat < t.curTime.toNat + 2 ^ 28
  | none => True

instance (s : TimedRace) (action : ImpatientAction) :
    Decidable (Advances s action) := by
  unfold Advances
  split <;> infer_instance

/-! ## The measure -/

def load (curTime : Nat) : Option TcpConnector → Nat
  | none => 0
  | some connector =>
      match connector.status with
      | .ConnStatusStart => connector.connTimeout.toNat + 2 ^ 28
      | .ConnStatusConnecting =>
          connector.startConnTime.toNat + connector.connTimeout.toNat - curTime
      | _ => 0

/-- No more rounds than this are left; `lastStart` is the time of the last turn. -/
def roundsLeft (s : TimedRace) (lastStart : Int) : Nat :=
  (if s.rounds = 0 then 1 else 0) +
    (s.race.connectors.length - s.race.index) *
      (s.race.conf.longestWait + 2 ^ 28 + 1) +
    (s.race.connectors.map (load s.curTime.toNat)).sum +
    (lastStart + s.race.conf.longestWait - s.curTime.toNat).toNat

def stepsLeft (n : Nat) : ImpatientPc → Nat
  | .top => 0
  | .preSelect i => n - i + n + 4
  | .select _ => n + 3
  | .afterSelect i => n - i + 2
  | .check => 1
  | .close i => n - i + 1
  | .returned => 0

def rank (s : TimedRace) (lastStart : Int) : Nat :=
  let n := s.race.connectors.length
  match s.race.pc with
  | .close _ | .returned => stepsLeft n s.race.pc
  | _ => s.roundsLeft lastStart * (2 * n + 5) + stepsLeft n s.race.pc + (n + 2)

def longest (conf : ComplexConnect) (n : Nat) : Nat :=
  (1 + n * (conf.longestWait + 2 ^ 28 + 1) + n * (conf.timeout.toNat + 2 ^ 28) +
    conf.longestWait) * (2 * n + 5) + (n + 2)

/-! ## The invariant -/

/-- The connectors that have been behind the poll in this round. -/
def Passed (s : TimedRace) (i : Nat) : Prop :=
  match s.race.pc with
  | .top => True
  | .afterSelect j => i < j
  | .check => s.race.retSocket = none
  | _ => False

/-- A connector goes on for no longer than its time and a round. -/
structure Kept (s : TimedRace) (lastStart : Int) (i : Nat)
    (connector : TcpConnector) : Prop where
  plain : connector.Plain
  connTimeout : connector.connTimeout = s.race.conf.timeout
  status : connector.status = .ConnStatusStart ∨
    connector.status = .ConnStatusConnecting ∨
    connector.status = .ConnStatusError ∧ ¬ s.Passed i
  start : connector.status = .ConnStatusStart → i < s.race.index →
    s.curTime.toNat ≤ lastStart
  startConnTime : connector.status = .ConnStatusConnecting →
    connector.startConnTime ≤ s.race.tickCount ∧
      connector.startConnTime.toNat < lastStart + 2 ^ 28
  connecting : connector.status = .ConnStatusConnecting →
    s.curTime.toNat <
      connector.startConnTime.toNat + connector.connTimeout.toNat + 2 ^ 28
  passed : connector.status = .ConnStatusConnecting → s.Passed i →
    s.curTime.toNat < connector.startConnTime.toNat + connector.connTimeout.toNat

/-- The clock of the race, in which `lastStart` does not wrap. -/
structure Timed (s : TimedRace) (lastStart : Int) : Prop where
  curTime : s.curTime ≤ s.race.tickCount
  tickCount : s.race.tickCount.toNat < s.curTime.toNat + 2 ^ 28
  wraps : lastStart % 2 ^ 64 = s.race.lastStartConnTime.toNat
  started : lastStart ≤ s.race.tickCount.toNat
  since : s.curTime.toNat < lastStart + 3 * 2 ^ 28
  kept : ∀ i connector, s.race.Has i connector → s.Kept lastStart i connector
  alive : s.race.pc = .top → ∃ i connector, s.race.Has i connector

variable {s t : TimedRace} {lastStart : Int} {addrs : List AddrInfo}

theorem timed_start {conf : ComplexConnect} (hconf : conf.Modest)
    (hne : addrs ≠ []) (hplain : ∀ addr ∈ addrs, addr.isTls = false) (withSSL : Bool)
    (curTime : UInt64) :
    Timed (start conf withSSL addrs curTime)
      (curTime.toNat - conf.interval.toNat) := by
  have hinterval := hconf.interval
  constructor
  case curTime => exact UInt64.le_refl _
  case tickCount =>
    show curTime.toNat < curTime.toNat + 2 ^ 28
    omega
  case wraps =>
    show _ = ((curTime - conf.interval.toUInt64).toNat : Int)
    have := curTime.toNat_lt
    rw [UInt64.toNat_sub, UInt32.toNat_toUInt64]
    omega
  case started =>
    show (curTime.toNat : Int) - conf.interval.toNat ≤ curTime.toNat
    omega
  case since =>
    show (curTime.toNat : Int) < curTime.toNat - conf.interval.toNat + 3 * 2 ^ 28
    omega
  case kept =>
    intro i connector hhas
    obtain ⟨addr, haddr, rfl⟩ : ∃ addr, addrs[i]? = some addr ∧
        TcpConnector.new withSSL addr conf.timeout = connector := by
      simpa [ConnectImpatient.Has, start, ConnectImpatient.start] using hhas
    have htls := hplain addr (List.mem_of_getElem? haddr)
    constructor
    case plain => exact ⟨by simp [TcpConnector.new, htls], htls⟩
    case connTimeout => rfl
    case status => exact .inl rfl
    case start => exact fun _ hi => absurd hi (Nat.not_lt_zero i)
    all_goals
      intro hstatus
      cases hstatus
  case alive =>
    intro _
    obtain ⟨addr, rest, rfl⟩ := List.exists_cons_of_ne_nil hne
    exact ⟨0, _, rfl⟩

/-! ## A step inside of the round -/

section Inside

variable {race : ConnectImpatient}

theorem Kept.frame {i : Nat} {connector : TcpConnector}
    (h : s.Kept lastStart i connector) (hconf : race.conf = s.race.conf)
    (hindex : race.index = s.race.index) (htick : s.race.tickCount ≤ race.tickCount)
    (hpassed : connector.status ≠ .ConnStatusStart → Passed { s with race } i →
      s.Passed i) : Kept { s with race } lastStart i connector := by
  constructor
  case plain => exact h.plain
  case connTimeout => exact h.connTimeout.trans (congrArg _ hconf.symm)
  case status =>
    rcases h.status with hstart | hconnecting | ⟨herror, hnot⟩
    · exact .inl hstart
    · exact .inr (.inl hconnecting)
    · exact .inr (.inr ⟨herror, fun hyes => hnot (hpassed (by simp [herror]) hyes)⟩)
  case start =>
    intro hstatus hi
    exact h.start hstatus (hindex ▸ hi)
  case startConnTime =>
    intro hstatus
    obtain ⟨hle, hlt⟩ := h.startConnTime hstatus
    exact ⟨UInt64.le_trans hle htick, hlt⟩
  case connecting => exact h.connecting
  case passed =>
    intro hstatus hyes
    exact h.passed hstatus (hpassed (by simp [hstatus]) hyes)

theorem Timed.frame (h : s.Timed lastStart) (hlast :
      race.lastStartConnTime = s.race.lastStartConnTime)
    (htick : s.race.tickCount ≤ race.tickCount)
    (hadvances : race.tickCount.toNat < s.curTime.toNat + 2 ^ 28)
    (hkept : ∀ i connector, race.Has i connector →
      Kept { s with race } lastStart i connector)
    (halive : race.pc = .top → ∃ i connector, race.Has i connector) :
    Timed { s with race } lastStart := by
  have hle := UInt64.le_iff_toNat_le.mp htick
  constructor
  case curTime => exact UInt64.le_trans h.curTime htick
  case tickCount => exact hadvances
  case wraps => exact h.wraps.trans (by rw [hlast])
  case started =>
    have := h.started
    show lastStart ≤ race.tickCount.toNat
    omega
  case since => exact h.since
  case kept => exact hkept
  case alive => exact halive

theorem Kept.preSelect {i : Nat} {connector connector' : TcpConnector}
    {answers : PreAnswers} (h : s.Kept lastStart i connector)
    (htimed : s.Timed lastStart) (hi : i < s.race.index)
    (hcases : connector.PreCases answers connector')
    (hconf : race.conf = s.race.conf) (hindex : race.index = s.race.index)
    (hpc : race.pc = .preSelect (i + 1))
    (hbefore : s.race.tickCount ≤ answers.tickCount)
    (hafter : answers.tickCount ≤ race.tickCount)
    (hadvances : race.tickCount.toNat < s.curTime.toNat + 2 ^ 28) :
    Kept { s with race } lastStart i connector' ∧
      load s.curTime.toNat (some connector') ≤
        load s.curTime.toNat (some connector) := by
  have hpassed : ¬ Passed { s with race } i := by
    unfold Passed
    rw [hpc]
    exact id
  have hplain := h.plain.pre hcases
  have htimeout : connector'.connTimeout = race.conf.timeout :=
    hcases.connTimeout.trans (h.connTimeout.trans (congrArg _ hconf.symm))
  have hfail (self : TcpConnector) (hself : self.Plain)
      (htime : self.connTimeout = race.conf.timeout) :
      Kept { s with race } lastStart i self.fail := by
    refine ⟨⟨hself.isSSLConnector, hself.isTls⟩, htime, .inr (.inr ⟨rfl, hpassed⟩),
      ?_, ?_, ?_, ?_⟩
    all_goals
      intro hstatus
      cases hstatus
  cases hcases with
  | same hstatus =>
      exact ⟨h.frame hconf hindex (UInt64.le_trans hbefore hafter)
        fun _ hyes => absurd hyes hpassed, Nat.le_refl _⟩
  | noSocket => exact ⟨hfail connector h.plain htimeout, Nat.zero_le _⟩
  | failsEarly hstatus socketFd hfd hearly startConnTime =>
      have hsame : ({ connector with startConnTime } : TcpConnector).Plain :=
        ⟨h.plain.isSSLConnector, h.plain.isTls⟩
      exact ⟨hfail _ hsame htimeout, Nat.zero_le _⟩
  | connecting hstatus =>
      have hle := UInt64.le_iff_toNat_le.mp hafter
      have hcur := UInt64.le_iff_toNat_le.mp (UInt64.le_trans htimed.curTime hbefore)
      have hlast := h.start hstatus hi
      constructor
      · constructor
        case plain => exact hplain
        case connTimeout => exact htimeout
        case status => exact .inr (.inl rfl)
        case start =>
          intro hstart
          cases hstart
        case startConnTime =>
          refine fun _ => ⟨hafter, ?_⟩
          dsimp only
          omega
        case connecting =>
          intro _
          dsimp only
          omega
        case passed => exact fun _ hyes => absurd hyes hpassed
      · simp only [load, hstatus]
        omega
  | handshake hssl => exact absurd hssl (by simp [h.plain.isSSLConnector])

theorem Kept.afterSelect {i : Nat} {connector : TcpConnector}
    {answers : AfterAnswers} (h : s.Kept lastStart i connector)
    (htimed : s.Timed lastStart) (hstatus : connector.status ≠ .ConnStatusStart)
    (hrest : (connector.callAfterSelect answers).status ≠ .ConnStatusError ∧
      (connector.callAfterSelect answers).status ≠ .ConnStatusConnected)
    (hconf : race.conf = s.race.conf) (htick : race.tickCount = answers.tickCount)
    (hbefore : s.race.tickCount ≤ answers.tickCount)
    (hadvances : race.tickCount.toNat < s.curTime.toNat + 2 ^ 28) :
    connector.callAfterSelect answers = connector ∧
      Kept { s with race } lastStart i connector := by
  have hcases := connector.callAfterSelect_cases answers
  have hconnecting :
      (connector.callAfterSelect answers).status = .ConnStatusConnecting := by
    generalize connector.callAfterSelect answers = connector' at hcases hrest ⊢
    cases hcases with
    | same =>
        rcases h.status with hstart | hconnecting | ⟨herror, -⟩
        · exact absurd hstart hstatus
        · exact hconnecting
        · exact absurd herror hrest.1
    | failed => exact absurd rfl hrest.1
    | startSSL _ _ htls => exact absurd htls (by simp [h.plain.isTls])
    | connected => exact absurd rfl hrest.2
    | sslConnected => exact absurd rfl hrest.2
  obtain ⟨heq, hpos⟩ := h.plain.timeout_pos hconnecting
  rw [heq] at hconnecting
  obtain ⟨hstart, hlast⟩ := h.startConnTime hconnecting
  have hlater := h.connecting hconnecting
  have hleft := TcpConnector.timeout_pos hconnecting hpos
    (UInt64.le_trans hstart hbefore) (by rw [← htick]; omega)
  have hcur := UInt64.le_iff_toNat_le.mp (UInt64.le_trans htimed.curTime hbefore)
  refine ⟨heq, ?_⟩
  constructor
  case plain => exact h.plain
  case connTimeout => exact h.connTimeout.trans (congrArg _ hconf.symm)
  case status => exact .inr (.inl hconnecting)
  case start => exact fun hno => absurd hno hstatus
  case startConnTime =>
    exact fun _ => ⟨UInt64.le_trans hstart (htick ▸ hbefore), hlast⟩
  case connecting => exact fun _ => hlater
  case passed => exact fun _ _ => Nat.lt_of_le_of_lt hcur hleft

private theorem sum_map_set_le {f : Option TcpConnector → Nat}
    {l : List (Option TcpConnector)} {i : Nat} {x y : Option TcpConnector}
    (h : l[i]? = some x) (hle : f y ≤ f x) :
    ((l.set i y).map f).sum ≤ (l.map f).sum := by
  induction l generalizing i with
  | nil => simp at h
  | cons z rest ih =>
      cases i with
      | zero =>
          cases h
          simpa using hle
      | succ i => simpa using ih h

theorem roundsLeft_le {i : Nat} {connector : TcpConnector}
    {x : Option TcpConnector} (hhas : s.race.Has i connector)
    (hconf : race.conf = s.race.conf) (hindex : race.index = s.race.index)
    (hset : race.connectors = s.race.connectors.set i x)
    (hload : load s.curTime.toNat x ≤ load s.curTime.toNat (some connector)) :
    roundsLeft { s with race } lastStart ≤ roundsLeft s lastStart := by
  have hsum := sum_map_set_le hhas hload
  rw [← hset] at hsum
  have hlength : race.connectors.length = s.race.connectors.length := by
    rw [hset, List.length_set]
  unfold roundsLeft
  dsimp only
  rw [hconf, hindex, hlength]
  omega

theorem Timed.turn {action : ImpatientAction} {pc : ImpatientPc}
    (h : s.Timed lastStart) (hracing : s.race.Racing addrs)
    (hturn : s.race.Turn pc)
    (hstep : s.race.step action = some { s.race with pc }) :
    Timed { s with race := { s.race with pc } } lastStart := by
  have hpassed (i : Nat) (connector : TcpConnector) (hhas : s.race.Has i connector)
      (hstatus : connector.status ≠ .ConnStatusStart)
      (hyes : Passed { s with race := { s.race with pc } } i) : s.Passed i := by
    unfold Passed at hyes ⊢
    cases hturn with
    | preSkip => exact hyes.elim
    | preEnd => exact hyes.elim
    | selected => exact absurd hyes (Nat.not_lt_zero i)
    | afterSkip j hpc hi hnone =>
        rw [hpc]
        dsimp only at hyes ⊢
        rcases Nat.lt_succ_iff_lt_or_eq.mp hyes with hlt | rfl
        · exact hlt
        · exact absurd hhas (hnone connector)
    | afterEnd j hpc hi =>
        rw [hpc]
        dsimp only
        by_contra hge
        have hsettled := hracing.settled (by simp [hpc])
        have hopen := hracing.racing (by simp [ConnectImpatient.Over, hpc])
        have hindex := hsettled.index
        have hlt : i < addrs.length := by
          rw [← hracing.length]
          exact (List.getElem?_eq_some_iff.mp hhas).1
        obtain ⟨connector', hhas', hstart⟩ := hopen.fresh i (by omega) hlt
        cases hhas.symm.trans hhas'
        exact hstatus hstart
    | checkEnd => exact hyes.elim
    | checkTop hpc hret =>
        rw [hpc]
        exact hret
    | closeSkip => exact hyes.elim
    | closeEnd => exact hyes.elim
  apply h.frame
  case hlast => rfl
  case htick => exact UInt64.le_refl _
  case hadvances => exact h.tickCount
  case hkept =>
    intro i connector hhas
    exact (h.kept i connector hhas).frame rfl rfl (UInt64.le_refl _)
      (hpassed i connector hhas)
  case halive =>
    intro htop
    cases hturn with
    | checkTop hpc =>
        obtain ⟨i, connector, hhas⟩ := ConnectImpatient.has_of_checkTop hstep hpc rfl
        exact ⟨i, connector, hhas⟩
    | _ => cases htop

theorem Timed.replace {i : Nat} {connector : TcpConnector} (h : s.Timed lastStart)
    (hhas : s.race.Has i connector) (x : Option TcpConnector)
    (hset : race.connectors = s.race.connectors.set i x)
    (hconf : race.conf = s.race.conf) (hindex : race.index = s.race.index)
    (hlast : race.lastStartConnTime = s.race.lastStartConnTime)
    (htick : s.race.tickCount ≤ race.tickCount)
    (hadvances : race.tickCount.toNat < s.curTime.toNat + 2 ^ 28)
    (hpassed : ∀ j, j ≠ i → Passed { s with race } j → s.Passed j)
    (hx : ∀ connector', x = some connector' →
      Kept { s with race } lastStart i connector')
    (hload : load s.curTime.toNat x ≤ load s.curTime.toNat (some connector))
    (htop : race.pc ≠ .top) :
    Timed { s with race } lastStart ∧
      roundsLeft { s with race } lastStart ≤ roundsLeft s lastStart := by
  refine ⟨?_, roundsLeft_le hhas hconf hindex hset hload⟩
  apply h.frame hlast htick hadvances
  case hkept =>
    intro j connector' hhas'
    have hhas' : (s.race.set i x).Has j connector' := by
      unfold ConnectImpatient.Has at hhas' ⊢
      rw [hset] at hhas'
      exact hhas'
    rcases ConnectImpatient.has_set hhas' with ⟨rfl, heq⟩ | ⟨hne, hhas'⟩
    · exact hx connector' heq
    · exact (h.kept j connector' hhas').frame hconf hindex htick
        fun _ => hpassed j hne
  case halive => exact fun hpc => absurd hpc htop

theorem Timed.preSelect {i : Nat} {connector : TcpConnector} {answers : PreAnswers}
    {tickCount : UInt64} (h : s.Timed lastStart) (hhas : s.race.Has i connector)
    (hi : i < s.race.index) (hbefore : s.race.tickCount ≤ answers.tickCount)
    (hafter : answers.tickCount ≤ tickCount)
    (hadvances : tickCount.toNat < s.curTime.toNat + 2 ^ 28)
    (hrace : race = { s.race.callPreSelect i connector answers tickCount with
      tickCount
      pc := .preSelect (i + 1) }) :
    Timed { s with race } lastStart ∧
      roundsLeft { s with race } lastStart ≤ roundsLeft s lastStart := by
  obtain ⟨sel, timeout, fds, heq⟩ :=
    ConnectImpatient.callPreSelect_eq s.race i connector answers tickCount
  rw [heq] at hrace
  have hcases := connector.callPreSelect_cases answers s.race.sel
  have hconf : race.conf = s.race.conf := hrace ▸ rfl
  have hindex : race.index = s.race.index := hrace ▸ rfl
  have hpc : race.pc = .preSelect (i + 1) := hrace ▸ rfl
  have htick : race.tickCount = tickCount := hrace ▸ rfl
  obtain ⟨hkept, hload⟩ := (h.kept i connector hhas).preSelect h hi hcases hconf hindex
    hpc hbefore (htick ▸ hafter) (htick ▸ hadvances)
  apply h.replace hhas (some (connector.callPreSelect answers s.race.sel).1)
  case hset => exact hrace ▸ rfl
  case hconf => exact hconf
  case hindex => exact hindex
  case hlast => exact hrace ▸ rfl
  case htick => exact htick ▸ UInt64.le_trans hbefore hafter
  case hadvances => exact htick ▸ hadvances
  case hpassed =>
    intro j _ hyes
    unfold Passed at hyes
    rw [hpc] at hyes
    exact hyes.elim
  case hx => exact fun _ hsome => Option.some.inj hsome ▸ hkept
  case hload => exact hload
  case htop => simp [hpc]

theorem Timed.afterSelect {i : Nat} {connector : TcpConnector}
    {answers : AfterAnswers} (h : s.Timed lastStart) (hracing : s.race.Racing addrs)
    (hpc : s.race.pc = .afterSelect i) (hhas : s.race.Has i connector)
    (hi : i < s.race.index) (hbefore : s.race.tickCount ≤ answers.tickCount)
    (hadvances : answers.tickCount.toNat < s.curTime.toNat + 2 ^ 28)
    (hrace : race = { s.race.callAfterSelect i connector answers with
      tickCount := answers.tickCount }) :
    Timed { s with race } lastStart ∧
      roundsLeft { s with race } lastStart ≤ roundsLeft s lastStart := by
  have hsettled := hracing.settled (by simp [hpc])
  have hopen := hracing.racing (by simp [ConnectImpatient.Over, hpc])
  have hstatus : connector.status ≠ .ConnStatusStart :=
    hopen.attempted i connector (hsettled.index ▸ hi) hhas
  have hpassed (j : Nat) (hne : j ≠ i) (hlt : j < i + 1) : s.Passed j := by
    unfold Passed
    rw [hpc]
    exact Nat.lt_of_le_of_ne (Nat.le_of_lt_succ hlt) hne
  unfold ConnectImpatient.callAfterSelect at hrace
  dsimp only at hrace
  have htick : race.tickCount = answers.tickCount := by rw [hrace]
  have hconf : race.conf = s.race.conf := by
    rw [hrace]
    dsimp only
    split <;> rfl
  split at hrace
  · next herror =>
      subst hrace
      apply h.replace hhas none
      case hset => rfl
      case hconf => rfl
      case hindex => rfl
      case hlast => rfl
      case htick => exact hbefore
      case hadvances => exact hadvances
      case hpassed => exact hpassed
      case hx => simp
      case hload => exact Nat.zero_le _
      case htop => simp
  · next hconnected =>
      have hsome : (connector.callAfterSelect answers).socket ≠ none :=
        ((hracing.sound i connector hhas).after
          (connector.callAfterSelect_cases answers)).held (.inr (.inr (.inr hconnected)))
      subst hrace
      apply h.replace hhas none
      case hset => rfl
      case hconf => rfl
      case hindex => rfl
      case hlast => rfl
      case htick => exact hbefore
      case hadvances => exact hadvances
      case hpassed => exact fun _ _ hnone => absurd hnone hsome
      case hx => simp
      case hload => exact Nat.zero_le _
      case htop => simp
  · next herror hconnected =>
      obtain ⟨heq, hkept⟩ := (h.kept i connector hhas).afterSelect h hstatus
        ⟨herror, hconnected⟩ hconf htick hbefore (htick ▸ hadvances)
      rw [heq] at hrace
      subst hrace
      apply h.replace hhas (some connector)
      case hset => rfl
      case hconf => rfl
      case hindex => rfl
      case hlast => rfl
      case htick => exact hbefore
      case hadvances => exact hadvances
      case hpassed => exact hpassed
      case hx => exact fun _ hsome => Option.some.inj hsome ▸ hkept
      case hload => exact Nat.le_refl _
      case htop => simp

theorem Timed.inside {action : ImpatientAction} (h : s.Timed lastStart)
    (hracing : s.race.Racing addrs) (hpc : s.race.pc ≠ .top)
    (hstep : s.race.step action = some race)
    (hadvances : race.tickCount.toNat < s.curTime.toNat + 2 ^ 28) :
    Timed { s with race } lastStart ∧
      roundsLeft { s with race } lastStart ≤ roundsLeft s lastStart := by
  cases ConnectImpatient.step_cases hstep with
  | top curTime startTime htop => exact absurd htop hpc
  | preSelect answers tickCount i connector hi hlt hhas =>
      obtain ⟨hbefore, hafter⟩ := ConnectImpatient.preSelect_ticks hstep hi hlt hhas
      exact h.preSelect hhas hlt hbefore hafter hadvances rfl
  | leave result selTimeout hselect event =>
      refine ⟨h.frame rfl (UInt64.le_refl _) h.tickCount (fun i connector hhas => ?_)
        (by simp), Nat.le_refl _⟩
      exact (h.kept i connector hhas).frame rfl rfl (UInt64.le_refl _)
        fun _ hyes => hyes.elim
  | afterSelect answers i connector hi hlt hhas hbefore =>
      exact h.afterSelect hracing hi hhas hlt hbefore hadvances rfl
  | close i connector hi hhas =>
      apply h.replace hhas none
      case hset => rfl
      case hconf => rfl
      case hindex => rfl
      case hlast => rfl
      case htick => exact UInt64.le_refl _
      case hadvances => exact h.tickCount
      case hpassed => exact fun _ _ hyes => hyes.elim
      case hx => simp
      case hload => exact Nat.zero_le _
      case htop => simp
  | turn action pc hturn => exact ⟨h.turn hracing hturn hstep, Nat.le_refl _⟩

end Inside

end TimedRace

end GoSocket.Connect
