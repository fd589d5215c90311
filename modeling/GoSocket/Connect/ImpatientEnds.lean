import GoSocket.Connect.TimedRace
import GoSocket.Foundation.Ranking
import Mathlib.Algebra.Order.BigOperators.Group.List
import Mathlib.Algebra.Order.Group.Nat

/-!
# The race ends

The head of a round gives an address its turn, which costs more than it adds, or
a connector or the wait comes nearer to its end.  So a race of plain TCP addresses
is over after a number of steps that its start gives.
-/

namespace GoSocket.Connect

open GoSocket.Foundation

namespace TimedRace

variable {s t : TimedRace} {lastStart : Int} {addrs : List AddrInfo}

/-! ## The head of a round -/

theorem Timed.exists_connecting (h : s.Timed lastStart)
    (hracing : s.race.Racing addrs) (hconf : s.race.conf.Modest)
    (hpc : s.race.pc = .top)
    (hfull : s.race.connectors.length ≤ s.race.index ∨
      s.race.conf.maxConnect.toNat ≤ s.race.runningCount) :
    ∃ i connector, s.race.Has i connector ∧
      connector.status = .ConnStatusConnecting := by
  have hpassed (i : Nat) : s.Passed i := by
    unfold Passed
    rw [hpc]
    trivial
  have hstarted {i : Nat} {connector : TcpConnector} (hhas : s.race.Has i connector)
      (hstatus : connector.status ≠ .ConnStatusStart) :
      connector.status = .ConnStatusConnecting := by
    rcases (h.kept i connector hhas).status with hstart | hconnecting | ⟨-, hnot⟩
    · exact absurd hstart hstatus
    · exact hconnecting
    · exact absurd (hpassed i) hnot
  rcases hfull with hindex | hrunning
  · have hsettled := hracing.settled (by simp [hpc])
    have hopen := hracing.racing (by simp [ConnectImpatient.Over, hpc])
    obtain ⟨i, connector, hhas⟩ := h.alive hpc
    have hi := (List.getElem?_eq_some_iff.mp hhas).1
    refine ⟨i, connector, hhas, hstarted hhas (hopen.attempted i connector ?_ hhas)⟩
    have := hsettled.index
    omega
  · have hmax := hconf.maxConnect
    have hpos : 0 < s.race.runningCount := by omega
    obtain ⟨x, hmem, hx⟩ := List.countP_pos_iff.mp hpos
    obtain ⟨i, hhas⟩ := List.getElem?_of_mem hmem
    cases x with
    | none => cases hx
    | some connector =>
        refine ⟨i, connector, hhas, hstarted hhas fun hstart => ?_⟩
        have hnone := (hracing.sound i connector hhas).start hstart
        simp [ConnectImpatient.isConnecting, hnone] at hx

theorem load_le {curTime curTime' : Nat} (hle : curTime ≤ curTime')
    (x : Option TcpConnector) : load curTime' x ≤ load curTime x := by
  unfold load
  split
  · exact Nat.le_refl _
  · split <;> omega

/-- What the clock of a round has to give. -/
structure Ticks (s : TimedRace) (curTime startTime : UInt64) : Prop where
  before : s.race.tickCount ≤ curTime
  later : curTime ≤ startTime
  advances : s.rounds ≠ 0 → s.curTime < curTime
  between : curTime.toNat < s.curTime.toNat + 2 ^ 28
  inside : startTime.toNat < curTime.toNat + 2 ^ 28

theorem Timed.passed (h : s.Timed lastStart) (hpc : s.race.pc = .top) {i : Nat}
    {connector : TcpConnector} (hhas : s.race.Has i connector)
    (hstatus : connector.status = .ConnStatusConnecting) :
    s.curTime.toNat <
      connector.startConnTime.toNat + connector.connTimeout.toNat := by
  refine (h.kept i connector hhas).passed hstatus ?_
  unfold Passed
  rw [hpc]
  trivial

theorem Timed.top (h : s.Timed lastStart) (hracing : s.race.Racing addrs)
    (hpc : s.race.pc = .top) {curTime startTime : UInt64}
    (hticks : s.Ticks curTime startTime) {race : ConnectImpatient} {lastStart' : Int}
    (hconnectors : race.connectors = s.race.connectors)
    (hconf : race.conf = s.race.conf) (htick : race.tickCount = startTime)
    (hnext : race.pc = .preSelect 0)
    (hwraps : lastStart' % 2 ^ 64 = race.lastStartConnTime.toNat)
    (hlast : lastStart ≤ lastStart') (hle : lastStart' ≤ startTime.toNat)
    (hsince : curTime.toNat < lastStart' + 3 * 2 ^ 28)
    (hstart : ∀ i, s.race.index ≤ i → i < race.index → curTime.toNat ≤ lastStart') :
    Timed { race, curTime, rounds := s.rounds + 1 } lastStart' := by
  have hcur := hticks.before
  have hstartTime := hticks.later
  have hbetween := hticks.between
  have hsettled := hracing.settled (by simp [hpc])
  have hopen := hracing.racing (by simp [ConnectImpatient.Over, hpc])
  constructor
  case curTime => exact htick ▸ hstartTime
  case tickCount => exact htick ▸ hticks.inside
  case wraps => exact hwraps
  case started => exact htick ▸ hle
  case since => exact hsince
  case kept =>
    intro i connector hhas
    have hhas : s.race.Has i connector := by
      unfold ConnectImpatient.Has at hhas ⊢
      rw [← hconnectors]
      exact hhas
    have hkept := h.kept i connector hhas
    constructor
    case plain => exact hkept.plain
    case connTimeout => exact hkept.connTimeout.trans (congrArg _ hconf.symm)
    case status =>
      rcases hkept.status with hstart | hconnecting | ⟨-, hnot⟩
      · exact .inl hstart
      · exact .inr (.inl hconnecting)
      · refine absurd ?_ hnot
        unfold Passed
        rw [hpc]
        trivial
    case start =>
      intro hstatus hi
      refine hstart i ?_ hi
      by_contra hlt
      refine hopen.attempted i connector ?_ hhas hstatus
      have := hsettled.index
      omega
    case startConnTime =>
      intro hstatus
      obtain ⟨hbefore, hlater⟩ := hkept.startConnTime hstatus
      refine ⟨?_, Int.lt_of_lt_of_le hlater (by omega)⟩
      exact htick ▸ UInt64.le_trans (UInt64.le_trans hbefore hcur) hstartTime
    case connecting =>
      intro hstatus
      have := h.passed hpc hhas hstatus
      dsimp only
      omega
    case passed =>
      intro _ hyes
      unfold Passed at hyes
      rw [hnext] at hyes
      exact hyes.elim
  case alive =>
    intro htop
    rw [hnext] at htop
    cases htop

/-- Where the head of a round gives no turn, a connector or the wait has come nearer
to its end. -/
theorem Timed.stay (h : s.Timed lastStart) (hracing : s.race.Racing addrs)
    (hconf : s.race.conf.Modest) (hpc : s.race.pc = .top)
    {curTime startTime : UInt64} (hticks : s.Ticks curTime startTime)
    (hstay : s.race.nextConnTimeout curTime > 0 ∨
      s.race.connectors.length ≤ s.race.index ∨
      s.race.conf.maxConnect.toNat ≤ s.race.runningCount) :
    curTime.toNat < lastStart + 3 * 2 ^ 28 ∧
      (s.race.connectors.map (load curTime.toNat)).sum +
          (lastStart + s.race.conf.longestWait - curTime.toNat).toNat +
          (if s.curTime < curTime then 1 else 0) ≤
        (s.race.connectors.map (load s.curTime.toNat)).sum +
          (lastStart + s.race.conf.longestWait - s.curTime.toNat).toNat := by
  have hcur := UInt64.le_iff_toNat_le.mp (UInt64.le_trans h.curTime hticks.before)
  have hbetween := hticks.between
  have hsince := h.since
  have hsum : (s.race.connectors.map (load curTime.toNat)).sum ≤
      (s.race.connectors.map (load s.curTime.toNat)).sum :=
    List.sum_le_sum fun x _ => load_le hcur x
  rcases hstay with hwait | hfull
  · have hstarted := h.started
    have htick := UInt64.le_iff_toNat_le.mp hticks.before
    have hlt := ConnectImpatient.lt_of_wait hconf h.wraps (by omega) (by omega) hwait
    have hwaits : s.race.conf.longestWait < 2 ^ 28 :=
      Nat.max_lt.mpr ⟨hconf.interval, hconf.errorInterval⟩
    refine ⟨by omega, ?_⟩
    split
    · next hadvance =>
        have := UInt64.lt_iff_toNat_lt.mp hadvance
        omega
    · omega
  · obtain ⟨i, connector, hhas, hstatus⟩ :=
      h.exists_connecting hracing hconf hpc hfull
    have hkept := h.kept i connector hhas
    have hleft := h.passed hpc hhas hstatus
    obtain ⟨-, hstart⟩ := hkept.startConnTime hstatus
    have htimeout := hconf.timeout
    rw [← hkept.connTimeout] at htimeout
    refine ⟨by omega, ?_⟩
    split
    · next hadvance =>
        have hlt := UInt64.lt_iff_toNat_lt.mp hadvance
        have hload : (s.race.connectors.map (load curTime.toNat)).sum <
            (s.race.connectors.map (load s.curTime.toNat)).sum := by
          refine List.sum_lt_sum _ _ (fun x _ => load_le hcur x)
            ⟨some connector, List.mem_of_getElem? hhas, ?_⟩
          simp only [load, hstatus]
          omega
        omega
    · omega

def next (self : TimedRace) (curTime startTime : UInt64) : TimedRace where
  race := { self.race.nextAddress curTime startTime with
    tickCount := startTime
    round := startTime
    pc := .preSelect 0 }
  curTime
  rounds := self.rounds + 1

theorem Timed.next (h : s.Timed lastStart) (hracing : s.race.Racing addrs)
    (hconf : s.race.conf.Modest) (hpc : s.race.pc = .top)
    {curTime startTime : UInt64} (hticks : s.Ticks curTime startTime) :
    ∃ lastStart', (s.next curTime startTime).Timed lastStart' ∧
      (s.next curTime startTime).roundsLeft lastStart' < s.roundsLeft lastStart := by
  have hbefore := UInt64.le_iff_toNat_le.mp hticks.before
  have hlater := UInt64.le_iff_toNat_le.mp hticks.later
  have hstarted := h.started
  obtain ⟨timeout, ⟨hstay, heq⟩ | ⟨hlt, hrunning, hturn, heq⟩⟩ :=
    ConnectImpatient.nextAddress_cases s.race curTime startTime
  · obtain ⟨hsince, hless⟩ := h.stay hracing hconf hpc hticks hstay
    refine ⟨lastStart, ?_, ?_⟩
    · unfold TimedRace.next
      rw [heq]
      apply h.top hracing hpc hticks
      case hconnectors => rfl
      case hconf => rfl
      case htick => rfl
      case hnext => rfl
      case hwraps => exact h.wraps
      case hlast => exact Int.le_refl _
      case hle => omega
      case hsince => exact hsince
      case hstart => exact fun i hge hi => absurd hi (Nat.not_lt.mpr hge)
    · unfold roundsLeft TimedRace.next
      rw [heq]
      dsimp only
      rw [if_neg (Nat.succ_ne_zero _)]
      by_cases hfirst : s.rounds = 0
      · rw [if_pos hfirst]
        omega
      · rw [if_pos (hticks.advances hfirst)] at hless
        rw [if_neg hfirst]
        omega
  · refine ⟨startTime.toNat, ?_, ?_⟩
    · unfold TimedRace.next
      rw [heq]
      apply h.top hracing hpc hticks
      case hconnectors => rfl
      case hconf => rfl
      case htick => rfl
      case hnext => rfl
      case hwraps =>
        have := startTime.toNat_lt
        dsimp only
        omega
      case hlast => omega
      case hle => exact Int.le_refl _
      case hsince => omega
      case hstart =>
        intro _ _ _
        omega
    · have hcur := UInt64.le_iff_toNat_le.mp (UInt64.le_trans h.curTime hticks.before)
      have hsum : (s.race.connectors.map (load curTime.toNat)).sum ≤
          (s.race.connectors.map (load s.curTime.toNat)).sum :=
        List.sum_le_sum fun x _ => load_le hcur x
      have hinside := hticks.inside
      have hturns : s.race.connectors.length - s.race.index =
          s.race.connectors.length - (s.race.index + 1) + 1 := by omega
      unfold roundsLeft TimedRace.next
      rw [heq]
      dsimp only
      -- the turn costs more than the wait behind it
      rw [if_neg (Nat.succ_ne_zero _), hturns, Nat.add_mul]
      omega

/-! ## Every step lowers the rank -/

theorem stepsLeft_lt {action : ImpatientAction} {race : ConnectImpatient}
    (hracing : s.race.Racing addrs) (hpc : s.race.pc ≠ .top)
    (hstep : s.race.step action = some race) :
    race.connectors.length = s.race.connectors.length ∧
      (stepsLeft s.race.connectors.length race.pc <
          stepsLeft s.race.connectors.length s.race.pc ∨
        s.race.pc = .check ∧ race.pc = .close 0) := by
  have hindex := hracing.index
  rw [← hracing.length] at hindex
  cases ConnectImpatient.step_cases hstep with
  | top curTime startTime htop => exact absurd htop hpc
  | preSelect answers tickCount i connector hi hlt =>
      refine ⟨by simp [ConnectImpatient.callPreSelect, ConnectImpatient.set], .inl ?_⟩
      rw [hi]
      simp only [stepsLeft]
      omega
  | leave result selTimeout hselect =>
      refine ⟨rfl, .inl ?_⟩
      rw [hselect]
      simp only [stepsLeft]
      omega
  | afterSelect answers i connector hi hlt =>
      unfold ConnectImpatient.callAfterSelect
      dsimp only
      rw [hi]
      split
      · refine ⟨by simp [ConnectImpatient.closeFds, ConnectImpatient.set], .inl ?_⟩
        simp only [stepsLeft]
        omega
      · refine ⟨by simp [ConnectImpatient.set], .inl ?_⟩
        simp only [stepsLeft]
        omega
      · refine ⟨by simp [ConnectImpatient.set], .inl ?_⟩
        simp only [stepsLeft]
        omega
  | close i connector hi hhas =>
      have hlt := (List.getElem?_eq_some_iff.mp hhas).1
      refine ⟨by simp [ConnectImpatient.closeFds, ConnectImpatient.set], .inl ?_⟩
      rw [hi]
      simp only [stepsLeft]
      omega
  | turn action pc hturn =>
      refine ⟨rfl, ?_⟩
      cases hturn with
      | checkEnd hcheck => exact .inr ⟨hcheck, rfl⟩
      | closeSkip i hi =>
          have hlt := ConnectImpatient.lt_of_closeSkip hstep hi rfl
          rw [hi]
          refine .inl ?_
          simp only [stepsLeft]
          omega
      | preSkip i hi hlt =>
          rw [hi]
          refine .inl ?_
          simp only [stepsLeft]
          omega
      | afterSkip i hi hlt =>
          rw [hi]
          refine .inl ?_
          simp only [stepsLeft]
          omega
      | preEnd i hi =>
          rw [hi]
          refine .inl ?_
          simp only [stepsLeft]
          omega
      | selected selTimeout hi =>
          rw [hi]
          refine .inl ?_
          simp only [stepsLeft]
          omega
      | afterEnd i hi =>
          rw [hi]
          refine .inl ?_
          simp only [stepsLeft]
          omega
      | checkTop hi =>
          rw [hi]
          exact .inl Nat.zero_lt_one
      | closeEnd i hi =>
          rw [hi]
          refine .inl ?_
          simp only [stepsLeft]
          omega

theorem rank_of_over (h : s.race.Over) (lastStart : Int) :
    s.rank lastStart = stepsLeft s.race.connectors.length s.race.pc ∧
      s.rank lastStart ≤ s.race.connectors.length + 1 := by
  unfold rank
  rcases h with ⟨i, hpc⟩ | hpc
  · rw [hpc]
    exact ⟨rfl, Nat.succ_le_succ (Nat.sub_le _ _)⟩
  · rw [hpc]
    exact ⟨rfl, Nat.zero_le _⟩

theorem rank_of_not_over (h : ¬ s.race.Over) (lastStart : Int) :
    s.rank lastStart = s.roundsLeft lastStart * (2 * s.race.connectors.length + 5) +
      stepsLeft s.race.connectors.length s.race.pc +
        (s.race.connectors.length + 2) := by
  unfold rank
  dsimp only
  split
  · next i hpc => exact absurd (.inl ⟨i, hpc⟩) h
  · next hpc => exact absurd (.inr hpc) h
  · rfl

theorem rank_inside {action : ImpatientAction} {race : ConnectImpatient}
    (hracing : s.race.Racing addrs) (hpc : s.race.pc ≠ .top)
    (hstep : s.race.step action = some race)
    (hleft : roundsLeft { s with race } lastStart ≤ roundsLeft s lastStart) :
    rank { s with race } lastStart < rank s lastStart := by
  obtain ⟨hlength, hsteps⟩ := stepsLeft_lt hracing hpc hstep
  by_cases hover : s.race.Over
  · have hcheck : s.race.pc ≠ .check := by
      intro heq
      simp [ConnectImpatient.Over, heq] at hover
    have hnext := ConnectImpatient.over_step hstep hover
    rw [(rank_of_over hover lastStart).1,
      (rank_of_over (s := { s with race }) hnext lastStart).1]
    dsimp only
    rw [hlength]
    exact hsteps.resolve_right fun h => hcheck h.1
  · rw [rank_of_not_over hover lastStart]
    by_cases hnext : race.Over
    · have := (rank_of_over (s := { s with race }) hnext lastStart).2
      dsimp only at this
      omega
    · have hmul := Nat.mul_le_mul_right (2 * s.race.connectors.length + 5) hleft
      rw [rank_of_not_over (s := { s with race }) hnext lastStart]
      dsimp only
      rw [hlength]
      have hlt := hsteps.resolve_right fun h => hnext (.inl ⟨0, h.2⟩)
      omega

theorem rank_next {curTime startTime : UInt64} {lastStart' : Int}
    (hpc : s.race.pc = .top)
    (hleft : (s.next curTime startTime).roundsLeft lastStart' < s.roundsLeft lastStart) :
    (s.next curTime startTime).rank lastStart' < s.rank lastStart := by
  have hlength : (s.next curTime startTime).race.connectors.length =
      s.race.connectors.length := by
    obtain ⟨timeout, ⟨-, heq⟩ | ⟨-, -, -, heq⟩⟩ :=
      ConnectImpatient.nextAddress_cases s.race curTime startTime
    · simp only [TimedRace.next, heq]
    · simp only [TimedRace.next, heq]
  have hover : ¬ s.race.Over := by simp [ConnectImpatient.Over, hpc]
  have hnext : ¬ (s.next curTime startTime).race.Over := by
    simp [ConnectImpatient.Over, TimedRace.next]
  have hmul := Nat.mul_le_mul_right (2 * s.race.connectors.length + 5) hleft
  rw [Nat.succ_mul] at hmul
  rw [rank_of_not_over hover lastStart, rank_of_not_over hnext lastStart', hlength, hpc]
  have hsteps : stepsLeft s.race.connectors.length (s.next curTime startTime).race.pc =
      2 * s.race.connectors.length + 4 := by
    simp only [TimedRace.next, stepsLeft]
    omega
  rw [hsteps]
  simp only [stepsLeft]
  omega

/-! ## Runs -/

theorem step_of_top {curTime startTime : UInt64} (hpc : s.race.pc = .top)
    (hcur : s.race.tickCount ≤ curTime) (hstart : curTime ≤ startTime) :
    s.step (.top curTime startTime) = some (s.next curTime startTime) := by
  simp only [step, ConnectImpatient.step]
  rw [if_pos ⟨hpc, hcur, hstart⟩]
  rfl

theorem step_of_inside {action : ImpatientAction} {race : ConnectImpatient}
    (hpc : s.race.pc ≠ .top) (hstep : s.race.step action = some race) :
    s.step action = some { s with race } := by
  unfold step
  rw [hstep]
  cases action with
  | top curTime startTime => simp [ConnectImpatient.step, hpc] at hstep
  | _ => rfl

/-- What carries the measure through a run. -/
structure Ending (addrs : List AddrInfo) (s : TimedRace) (lastStart : Int) :
    Prop where
  modest : s.race.conf.Modest
  racing : s.race.Racing addrs
  timed : s.Timed lastStart

theorem Ending.step {action : ImpatientAction} (h : Ending addrs s lastStart)
    (hadvances : s.Advances action) (hs : s.step action = some t) :
    ∃ lastStart', Ending addrs t lastStart' ∧ t.rank lastStart' < s.rank lastStart := by
  obtain ⟨race, hrace, -⟩ := Option.map_eq_some_iff.mp hs
  have hinterval := Nat.lt_trans h.modest.interval (by decide : 2 ^ 28 < 2 ^ 31)
  have hracing := ConnectImpatient.racing_step hinterval h.racing hrace
  have hmodest : race.conf.Modest := ConnectImpatient.conf_step hrace ▸ h.modest
  unfold Advances at hadvances
  rw [hs] at hadvances
  obtain ⟨hadvance, hbetween, hinside⟩ := hadvances
  by_cases hpc : s.race.pc = .top
  · cases ConnectImpatient.step_cases hrace with
    | top curTime startTime _ hcur hstart =>
        cases hs.symm.trans (step_of_top hpc hcur hstart)
        have hnext : s.rounds ≠ (s.next curTime startTime).rounds :=
          Nat.ne_of_lt (Nat.lt_succ_self _)
        have hticks : s.Ticks curTime startTime :=
          ⟨hcur, hstart, fun hfirst => hadvance hfirst hnext, hbetween, hinside⟩
        obtain ⟨lastStart', htimed, hleft⟩ :=
          h.timed.next h.racing h.modest hpc hticks
        exact ⟨lastStart', ⟨hmodest, hracing, htimed⟩, rank_next hpc hleft⟩
    | preSelect answers tickCount i connector hpre => simp [hpc] at hpre
    | leave result selTimeout hselect => simp [hpc] at hselect
    | afterSelect answers i connector hafter => simp [hpc] at hafter
    | close i connector hclose => simp [hpc] at hclose
    | turn action pc hturn => cases hturn <;> simp_all
  · cases hs.symm.trans (step_of_inside hpc hrace)
    obtain ⟨htimed, hleft⟩ := h.timed.inside h.racing hpc hrace hinside
    exact ⟨lastStart, ⟨hmodest, hracing, htimed⟩, rank_inside h.racing hpc hrace hleft⟩

theorem ending_start {conf : ComplexConnect} (hconf : conf.Modest)
    (hne : addrs ≠ []) (hplain : ∀ addr ∈ addrs, addr.isTls = false) (withSSL : Bool)
    (curTime : UInt64) :
    Ending addrs (start conf withSSL addrs curTime)
      (curTime.toNat - conf.interval.toNat) :=
  ⟨hconf, ConnectImpatient.racing_start conf withSSL addrs curTime,
    timed_start hconf hne hplain withSSL curTime⟩

theorem rank_start (conf : ComplexConnect) (hne : addrs ≠ []) (withSSL : Bool)
    (curTime : UInt64) :
    (start conf withSSL addrs curTime).rank (curTime.toNat - conf.interval.toNat) ≤
      longest conf addrs.length := by
  have hover : ¬ (start conf withSSL addrs curTime).race.Over := by
    simp [ConnectImpatient.Over, start, ConnectImpatient.start, hne]
  have hlength : (start conf withSSL addrs curTime).race.connectors.length =
      addrs.length := by
    simp [start, ConnectImpatient.start]
  have hload : ((start conf withSSL addrs curTime).race.connectors.map
      (load curTime.toNat)).sum = addrs.length * (conf.timeout.toNat + 2 ^ 28) := by
    simp [start, ConnectImpatient.start, Function.comp_def, load, TcpConnector.new]
  have hleft : (start conf withSSL addrs curTime).roundsLeft
      (curTime.toNat - conf.interval.toNat) ≤
        1 + addrs.length * (conf.longestWait + 2 ^ 28 + 1) +
          addrs.length * (conf.timeout.toNat + 2 ^ 28) + conf.longestWait := by
    have hrounds : (start conf withSSL addrs curTime).rounds = 0 := rfl
    have hindex : (start conf withSSL addrs curTime).race.index = 0 := rfl
    have hconf : (start conf withSSL addrs curTime).race.conf = conf := rfl
    have hcur : (start conf withSSL addrs curTime).curTime = curTime := rfl
    unfold roundsLeft
    rw [hlength, hrounds, hindex, hconf, hcur, hload, if_pos rfl, Nat.sub_zero]
    omega
  have hmul := Nat.mul_le_mul_right (2 * addrs.length + 5) hleft
  have hpc : (start conf withSSL addrs curTime).race.pc = .top := by
    simp [start, ConnectImpatient.start, hne]
  unfold longest
  rw [rank_of_not_over hover, hlength, hpc, stepsLeft, Nat.add_zero]
  exact Nat.add_le_add_right hmul (addrs.length + 2)

theorem exists_ending {conf : ComplexConnect} (hconf : conf.Modest)
    (hne : addrs ≠ []) (hplain : ∀ addr ∈ addrs, addr.isTls = false) (withSSL : Bool)
    (curTime : UInt64)
    (h : Reachable step Advances (start conf withSSL addrs curTime) s) :
    ∃ lastStart, Ending addrs s lastStart := by
  have hstart := ending_start hconf hne hplain withSSL curTime
  have hstep (t : TimedRace) (action : ImpatientAction) (u : TimedRace)
      (_ : Reachable step Advances (start conf withSSL addrs curTime) t)
      (hbefore : ∃ lastStart, Ending addrs t lastStart) (hadvances : Advances t action)
      (hs : t.step action = some u) : ∃ lastStart, Ending addrs u lastStart := by
    obtain ⟨lastStart, hending⟩ := hbefore
    obtain ⟨lastStart', hending', -⟩ := hending.step hadvances hs
    exact ⟨lastStart', hending'⟩
  obtain ⟨lastStart, hending⟩ := h.invariant ⟨_, hstart⟩ hstep
  exact ⟨lastStart, hending⟩

theorem Ending.exists_step (h : Ending addrs s lastStart) (hret : s.race.pc ≠ .returned)
    (hclock : s.curTime.toNat + 2 ^ 28 < 2 ^ 64) :
    ∃ action t, Advances s action ∧ s.step action = some t := by
  have htick := h.timed.tickCount
  by_cases hpc : s.race.pc = .top
  · have hnext : (s.curTime + (2 ^ 28 - 1)).toNat = s.curTime.toNat + (2 ^ 28 - 1) := by
      have hstep : (2 ^ 28 - 1 : UInt64).toNat = 2 ^ 28 - 1 := by decide
      rw [UInt64.toNat_add, hstep]
      omega
    have hle : s.race.tickCount ≤ s.curTime + (2 ^ 28 - 1) := by
      rw [UInt64.le_iff_toNat_le]
      omega
    have hs := step_of_top hpc hle (UInt64.le_refl _)
    refine ⟨_, _, ?_, hs⟩
    unfold Advances
    rw [hs]
    refine ⟨fun _ _ => ?_, ?_, ?_⟩
    · rw [UInt64.lt_iff_toNat_lt]
      simp only [TimedRace.next]
      omega
    · simp only [TimedRace.next]
      omega
    · simp only [TimedRace.next]
      omega
  · obtain ⟨action, race, hrace, hsame⟩ := ConnectImpatient.exists_step hpc hret
    have hs := step_of_inside hpc hrace
    refine ⟨action, _, ?_, hs⟩
    unfold Advances
    rw [hs]
    refine ⟨fun _ hne => absurd rfl hne, ?_, ?_⟩
    · dsimp only
      omega
    · dsimp only
      rw [hsame]
      exact htick

/-- A race of plain TCP addresses is over after so many steps, and can go on up to
its end while the clock can. -/
theorem impatient_ends {conf : ComplexConnect} (hconf : conf.Modest)
    (hne : addrs ≠ []) (hplain : ∀ addr ∈ addrs, addr.isTls = false) (withSSL : Bool)
    (curTime : UInt64) :
    EndsWithin step Advances (start conf withSSL addrs curTime)
        (longest conf addrs.length) ∧
      ∀ s, Reachable step Advances (start conf withSSL addrs curTime) s →
        s.race.pc ≠ .returned → s.curTime.toNat + 2 ^ 28 < 2 ^ 64 →
          ∃ action t, Advances s action ∧ s.step action = some t := by
  constructor
  · have hstart := ending_start hconf hne hplain withSSL curTime
    refine EndsWithin.mono (.of_rank ?_ hstart) (rank_start conf hne withSSL curTime)
    exact fun s a t lastStart h hadvances hs => h.step hadvances hs
  · intro s hreach hret hclock
    obtain ⟨lastStart, h⟩ := exists_ending hconf hne hplain withSSL curTime hreach
    exact h.exists_step hret hclock

/-- The race of the two servers, up to its end. -/
theorem impatient_ends_second : ∃ s,
    run step (start ConnectImpatient.oneAtOnce false ConnectImpatient.twoServers 0)
        ConnectImpatient.secondConnects = some s ∧
      s.race.pc = .returned ∧
      ConnectImpatient.secondConnects.length ≤ longest ConnectImpatient.oneAtOnce 2 := by
  have hmap : (run step
      (start ConnectImpatient.oneAtOnce false ConnectImpatient.twoServers 0)
      ConnectImpatient.secondConnects).map (·.race.pc) = some .returned := by
    decide +kernel
  obtain ⟨s, hrun, hpc⟩ := Option.map_eq_some_iff.mp hmap
  have hmodest : ConnectImpatient.oneAtOnce.Modest :=
    ⟨by decide, by decide, by decide, by decide⟩
  have hne : ConnectImpatient.twoServers ≠ [] := by decide
  have hplain : ∀ addr ∈ ConnectImpatient.twoServers, addr.isTls = false := by decide
  have hends := (impatient_ends hmodest hne hplain false 0).1
    ConnectImpatient.secondConnects s
  exact ⟨s, hrun, hpc, hends (by decide +kernel) hrun⟩

end TimedRace

end GoSocket.Connect
