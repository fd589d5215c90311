import GoSocket.Connect.ConnectImpatient
import Mathlib.Algebra.GroupWithZero.Nat
import Mathlib.Data.List.Basic

/-!
# What the race keeps to

How many connectors run at once, which addresses have had their turn, how far
the turns are apart, and what the result is, over every run.  The record of the
run decides, with the ticks that the clock has shown.  The interval is kept
between the heads of the rounds in which addresses have their turn; a connect
may be started later than that, so that the starts themselves can be closer.
-/

namespace GoSocket.Connect

open GoSocket.Foundation

namespace ImpatientEvent

def attempts : List ImpatientEvent → List AddrInfo
  | [] => []
  | .attempt addr _ :: rest => attempts rest ++ [addr]
  | _ :: rest => attempts rest

def lastAttempt : List ImpatientEvent → Option (AttemptTimes × Bool)
  | [] => none
  | .attempt _ times :: _ => some (times, false)
  | .after _ connector :: rest =>
      (lastAttempt rest).map fun (times, failed) =>
        (times, failed || connector.status = .ConnStatusError)
  | _ :: rest => lastAttempt rest

/-- Two attempts with no failure in between are started `interval` apart. -/
def StartsSpaced (interval : UInt32) : List ImpatientEvent → Prop
  | [] => True
  | .attempt _ times :: rest => StartsSpaced interval rest ∧
      ∀ last, lastAttempt rest = some (last, false) →
        last.start.toNat + interval.toNat ≤ times.start.toNat
  | _ :: rest => StartsSpaced interval rest

/-- Two attempts with no failure in between have their turns in rounds
`interval` apart, and an attempt is not started before its round. -/
def Spaced (interval : UInt32) : List ImpatientEvent → Prop
  | [] => True
  | .attempt _ times :: rest => Spaced interval rest ∧ times.round ≤ times.start ∧
      ∀ last, lastAttempt rest = some (last, false) →
        last.round.toNat + interval.toNat ≤ times.round.toNat
  | _ :: rest => Spaced interval rest

end ImpatientEvent

open ImpatientEvent

/-- Why there is no connection. -/
def Unconnected (addrs : List AddrInfo) (events : List ImpatientEvent) : Prop :=
  addrs = [] ∨ .isBreak ∈ events ∨ .breakerError ∈ events ∨
    .selectError ∈ events ∨
    attempts events = addrs ∧ ∀ i < addrs.length, ∃ connector,
      .after i connector ∈ events ∧ connector.status = .ConnStatusError

namespace ConnectImpatient

structure KeepsToRace (conf : ComplexConnect) (addrs : List AddrInfo)
    (s : ConnectImpatient) : Prop where
  running : s.runningCount ≤ conf.maxConnect.toNat
  order : attempts s.events <+: addrs
  spaced : Spaced conf.interval s.events
  connected : ∀ socket, s.retSocket = some socket → ∃ i connector,
    .after i connector ∈ s.events ∧ connector.status = .ConnStatusConnected ∧
      connector.socket = some socket
  unconnected : s.pc = .returned → s.retSocket = none →
    Unconnected addrs s.events

/-- An address has its turn, and its connector has not been reached yet. -/
structure Pending (s : ConnectImpatient) : Prop where
  index : s.index = (attempts s.events).length + 1
  pc : ∃ i, s.pc = .preSelect i ∧ i ≤ (attempts s.events).length
  running : s.runningCount < s.conf.maxConnect.toNat
  lastError : s.lastError = 0
  round : s.round = s.lastStartConnTime
  time : s.lastStartConnTime ≤ s.tickCount
  spaced : ∀ last, lastAttempt s.events = some (last, false) →
    last.round.toNat + s.conf.interval.toNat ≤ s.lastStartConnTime.toNat

/-- Every address that had its turn was attempted. -/
structure Settled (s : ConnectImpatient) : Prop where
  index : s.index = (attempts s.events).length
  last : ∀ times failed, lastAttempt s.events = some (times, failed) →
    times.round = s.lastStartConnTime ∧ times.round ≤ s.tickCount ∧
      (failed = false → s.lastError = 0)

/-- The connectors before the end of the loop. -/
structure Open (addrs : List AddrInfo) (s : ConnectImpatient) : Prop where
  fresh : ∀ i, (attempts s.events).length ≤ i → i < addrs.length →
    ∃ connector, s.Has i connector ∧ connector.status = .ConnStatusStart
  attempted : ∀ i connector, i < (attempts s.events).length →
    s.Has i connector → connector.status ≠ .ConnStatusStart
  gone : s.retSocket = none → ∀ i, s.connectors[i]? = some none →
    ∃ connector, .after i connector ∈ s.events ∧
      connector.status = .ConnStatusError

/-- The loop has been left. -/
def Over (s : ConnectImpatient) : Prop :=
  (∃ i, s.pc = .close i) ∨ s.pc = .returned

structure Racing (addrs : List AddrInfo) (s : ConnectImpatient) : Prop where
  length : s.connectors.length = addrs.length
  addr : ∀ i connector, s.Has i connector → addrs[i]? = some connector.addr
  sound : ∀ i connector, s.Has i connector → connector.Sound
  order : attempts s.events = addrs.take (attempts s.events).length
  running : s.runningCount ≤ s.conf.maxConnect.toNat
  spaced : Spaced s.conf.interval s.events
  connected : ∀ socket, s.retSocket = some socket → ∃ i connector,
    .after i connector ∈ s.events ∧ connector.status = .ConnStatusConnected ∧
      connector.socket = some socket
  index : s.index ≤ addrs.length
  turn : s.Settled ∨ s.Pending
  racing : ¬ s.Over → s.Open addrs
  ret : s.retSocket ≠ none → s.pc = .check ∨ s.Over
  ended : s.Over → s.retSocket = none → Unconnected addrs s.events

variable {s t : ConnectImpatient} {addrs : List AddrInfo}

theorem racing_start (conf : ComplexConnect) (withSSL : Bool)
    (addrs : List AddrInfo) (curTime : UInt64) :
    Racing addrs (start conf withSSL addrs curTime) := by
  have hhas (i : Nat) (connector : TcpConnector)
      (h : (start conf withSSL addrs curTime).Has i connector) :
      ∃ addr, addrs[i]? = some addr ∧
        TcpConnector.new withSSL addr conf.timeout = connector := by
    simpa [Has, start] using h
  have hrunning : (start conf withSSL addrs curTime).runningCount = 0 := by
    simp [runningCount, start, isConnecting, TcpConnector.new, List.countP_eq_zero]
  constructor
  case length => simp [start]
  case addr =>
    intro i connector h
    obtain ⟨addr, heq, rfl⟩ := hhas i connector h
    exact heq
  case sound =>
    intro i connector h
    obtain ⟨addr, -, rfl⟩ := hhas i connector h
    exact TcpConnector.sound_new withSSL addr conf.timeout
  case order => simp [start, attempts]
  case running =>
    rw [hrunning]
    exact Nat.zero_le _
  case spaced => trivial
  case connected => simp [start]
  case index => exact Nat.zero_le _
  case turn => exact .inl ⟨rfl, by simp [start, lastAttempt]⟩
  case racing =>
    intro _
    constructor
    case fresh =>
      intro i _ hi
      refine ⟨TcpConnector.new withSSL addrs[i] conf.timeout, ?_, rfl⟩
      simp [Has, start, hi]
    case attempted => simp [start, attempts]
    case gone => simp [start]
  case ret => simp [start]
  case ended =>
    intro hover _
    by_cases hnil : addrs = []
    · exact .inl hnil
    · simp [Over, start, hnil] at hover

theorem Racing.settled (h : Racing addrs s) (hpc : ∀ i, s.pc ≠ .preSelect i) :
    s.Settled := by
  rcases h.turn with hsettled | hpending
  · exact hsettled
  · obtain ⟨i, hi, -⟩ := hpending.pc
    exact absurd hi (hpc i)

theorem Racing.retSocket_eq_none (h : Racing addrs s) (hcheck : s.pc ≠ .check)
    (hover : ¬ s.Over) : s.retSocket = none := by
  by_contra hne
  rcases h.ret hne with hpc | hyes
  · exact hcheck hpc
  · exact hover hyes

/-! ## The clock -/

theorem toInt_toInt32 (x : UInt32) :
    x.toInt32.toInt = (x.toNat : Int).bmod (2 ^ 32) := by
  rw [← UInt32.toNat_toBitVec, ← BitVec.toInt_eq_toNat_bmod,
    ← UInt32.toBitVec_toInt32, Int32.toInt_toBitVec]

theorem interval_le {curTime : UInt64} (hlast : s.lastStartConnTime ≤ curTime)
    (hinterval : s.conf.interval.toNat < 2 ^ 31) (herror : s.lastError = 0)
    (hturn : ¬ s.nextConnTimeout curTime > 0) :
    s.lastStartConnTime.toNat + s.conf.interval.toNat ≤ curTime.toNat := by
  unfold nextConnTimeout at hturn
  rw [if_pos herror] at hturn
  dsimp only at hturn
  have hle := UInt64.le_iff_toNat_le.mp hlast
  have hsub := UInt64.toNat_sub_of_le _ _ hlast
  have hnot : ¬ (0 : Int) < (s.conf.interval.toInt32 -
      (curTime - s.lastStartConnTime).toUInt32.toInt32).toInt := by
    intro hlt
    exact hturn (Int32.lt_iff_toInt_lt.mpr hlt)
  rw [Int32.toInt_sub, toInt_toInt32, toInt_toInt32, UInt64.toNat_toUInt32,
    hsub] at hnot
  simp only [Int.bmod] at hnot
  omega

/-- The head of a round gives the next address its turn, or leaves everything
but the timeout. -/
theorem nextAddress_cases (s : ConnectImpatient) (curTime startTime : UInt64) :
    ∃ timeout,
      ((s.nextConnTimeout curTime > 0 ∨ s.connectors.length ≤ s.index ∨
          s.conf.maxConnect.toNat ≤ s.runningCount) ∧
        s.nextAddress curTime startTime = { s with sel := {}, timeout }) ∨
      s.index < s.connectors.length ∧
        s.runningCount < s.conf.maxConnect.toNat ∧
        ¬ s.nextConnTimeout curTime > 0 ∧
        s.nextAddress curTime startTime = { s with
          sel := {}
          timeout
          lastStartConnTime := startTime
          lastError := 0
          index := s.index + 1 } := by
  unfold nextAddress
  dsimp only
  split
  · next hnext =>
      split
      · next hwait => exact ⟨_, .inl ⟨.inl hwait, rfl⟩⟩
      · next hturn => exact ⟨_, .inr ⟨hnext.1, hnext.2, hturn, rfl⟩⟩
  · next hnot =>
      rw [not_and_or, Nat.not_lt, Nat.not_lt] at hnot
      exact ⟨_, .inl ⟨.inr hnot, rfl⟩⟩

theorem Racing.top (h : Racing addrs s) {curTime startTime : UInt64}
    (hinterval : s.conf.interval.toNat < 2 ^ 31) (hpc : s.pc = .top)
    (hcur : s.tickCount ≤ curTime) (hstart : curTime ≤ startTime) :
    Racing addrs { s.nextAddress curTime startTime with
      tickCount := startTime
      round := startTime
      pc := .preSelect 0 } := by
  have hsettled := h.settled (by simp [hpc])
  have hopen := h.racing (by simp [Over, hpc])
  have hret := h.retSocket_eq_none (by simp [hpc]) (by simp [Over, hpc])
  have htick := UInt64.le_trans hcur hstart
  obtain ⟨timeout, ⟨-, heq⟩ | ⟨hlt, hrunning, hturn, heq⟩⟩ :=
    nextAddress_cases s curTime startTime
  · rw [heq]
    exact
      { h with
        turn := .inl ⟨hsettled.index, fun times failed hlast =>
          have ⟨htime, hle, herror⟩ := hsettled.last times failed hlast
          ⟨htime, UInt64.le_trans hle htick, herror⟩⟩
        racing := fun _ => ⟨hopen.fresh, hopen.attempted, hopen.gone⟩
        ret := fun hne => absurd hret hne
        ended := by simp [Over] }
  · rw [heq]
    have hpending : Pending { s with
        sel := {}
        timeout
        lastStartConnTime := startTime
        lastError := 0
        index := s.index + 1
        tickCount := startTime
        round := startTime
        pc := .preSelect 0 } := by
      refine ⟨by simp [hsettled.index], ⟨0, rfl, Nat.zero_le _⟩, hrunning, rfl, rfl,
        UInt64.le_refl _, fun last hlast => ?_⟩
      obtain ⟨hround, hle, herror⟩ := hsettled.last last false hlast
      rw [hround] at hle ⊢
      have hwait := interval_le (UInt64.le_trans hle hcur) hinterval (herror rfl) hturn
      exact Nat.le_trans hwait (UInt64.le_iff_toNat_le.mp hstart)
    have hlength := h.length
    exact
      { h with
        index := by
          show s.index + 1 ≤ addrs.length
          omega
        turn := .inr hpending
        racing := fun _ => ⟨hopen.fresh, hopen.attempted, hopen.gone⟩
        ret := fun hne => absurd hret hne
        ended := by simp [Over] }

/-! ## A step at a connector -/

theorem runningCount_set {i : Nat} {connector : TcpConnector}
    (hhas : s.Has i connector) (x : Option TcpConnector) :
    (s.set i x).runningCount + (if isConnecting (some connector) then 1 else 0) =
      s.runningCount + (if isConnecting x then 1 else 0) := by
  obtain ⟨hi, heq⟩ := List.getElem?_eq_some_iff.mp hhas
  have hpos : isConnecting s.connectors[i] = true → 0 < s.runningCount :=
    fun hp => List.countP_pos_iff.mpr ⟨_, List.getElem_mem hi, hp⟩
  unfold runningCount at hpos ⊢
  rw [set, List.countP_set hi, heq]
  rw [heq] at hpos
  split
  · next hp =>
      have := hpos hp
      omega
  · omega

theorem Racing.set (h : Racing addrs s) {i : Nat} {connector : TcpConnector}
    {x : Option TcpConnector} (hhas : s.Has i connector)
    (hx : ∀ connector', x = some connector' →
      connector'.addr = connector.addr ∧ connector'.Sound) :
    (s.set i x).connectors.length = addrs.length ∧
      (∀ j connector', (s.set i x).Has j connector' →
        addrs[j]? = some connector'.addr) ∧
      ∀ j connector', (s.set i x).Has j connector' → connector'.Sound := by
  refine ⟨by simp [ConnectImpatient.set, h.length], fun j connector' hj => ?_,
    fun j connector' hj => ?_⟩
  · rcases has_set hj with ⟨rfl, heq⟩ | ⟨-, hj⟩
    · rw [(hx connector' heq).1]
      exact h.addr j connector hhas
    · exact h.addr j connector' hj
  · rcases has_set hj with ⟨rfl, heq⟩ | ⟨-, hj⟩
    · exact (hx connector' heq).2
    · exact h.sound j connector' hj

private theorem has_set_of_ne {i j : Nat} {connector : TcpConnector}
    (hj : s.Has j connector) (hne : j ≠ i) (x : Option TcpConnector) :
    (s.set i x).Has j connector := by
  unfold Has ConnectImpatient.set
  rw [List.getElem?_set_ne (Ne.symm hne)]
  exact hj

private theorem gone_set {i j : Nat} (connector' : TcpConnector)
    (hj : (s.set i (some connector')).connectors[j]? = some none) :
    s.connectors[j]? = some none := by
  unfold ConnectImpatient.set at hj
  rw [List.getElem?_set] at hj
  split at hj
  · split at hj
    · cases hj
    · cases hj
  · exact hj

theorem Racing.pending_of_start (h : Racing addrs s) {i : Nat}
    {connector : TcpConnector} (hpc : s.pc = .preSelect i) (hi : i < s.index)
    (hhas : s.Has i connector) (hstatus : connector.status = .ConnStatusStart) :
    s.Pending ∧ i = (attempts s.events).length := by
  have hopen := h.racing (by simp [Over, hpc])
  have hge : (attempts s.events).length ≤ i := by
    by_contra hlt
    exact hopen.attempted i connector (by omega) hhas hstatus
  rcases h.turn with hsettled | hpending
  · have := hsettled.index
    omega
  · have := hpending.index
    exact ⟨hpending, by omega⟩

theorem Racing.pending_passed (h : Racing addrs s) {i : Nat}
    (hpc : s.pc = .preSelect i) (hpending : s.Pending)
    (hother : ∀ connector, s.Has i connector →
      connector.status ≠ .ConnStatusStart) :
    i + 1 ≤ (attempts s.events).length := by
  have hopen := h.racing (by simp [Over, hpc])
  obtain ⟨j, hj, hle⟩ := hpending.pc
  rw [hpc] at hj
  cases hj
  have hne : i ≠ (attempts s.events).length := by
    intro heq
    have hindex := h.index
    have := hpending.index
    obtain ⟨connector, hhas, hstart⟩ := hopen.fresh i (by omega) (by omega)
    exact hother connector hhas hstart
  omega

theorem callPreSelect_eq (s : ConnectImpatient) (i : Nat)
    (connector : TcpConnector) (answers : PreAnswers) (tickCount : UInt64) :
    ∃ sel timeout fds, s.callPreSelect i connector answers tickCount =
      { s.set i (some (connector.callPreSelect answers s.sel).1) with
        sel, timeout, fds
        events :=
          if connector.status = .ConnStatusStart then
            .attempt connector.addr ⟨s.round, answers.tickCount⟩ :: s.events
          else s.events } :=
  ⟨_, _, _, rfl⟩

private theorem Racing.attempt (h : Racing addrs s) {answers : PreAnswers}
    {tickCount : UInt64} {i : Nat} {connector : TcpConnector}
    (hpc : s.pc = .preSelect i) (hi : i < s.index) (hhas : s.Has i connector)
    (htick : s.tickCount ≤ tickCount) (hstart : s.tickCount ≤ answers.tickCount)
    (hstatus : connector.status = .ConnStatusStart) :
    Racing addrs { s.callPreSelect i connector answers tickCount with
      tickCount
      pc := .preSelect (i + 1) } := by
  have hcases := TcpConnector.callPreSelect_cases connector answers s.sel
  obtain ⟨hpending, hn⟩ := h.pending_of_start hpc hi hhas hstatus
  have hopen := h.racing (by simp [Over, hpc])
  have hret := h.retSocket_eq_none (by simp [hpc]) (by simp [Over, hpc])
  obtain ⟨hlength, haddr, hsound⟩ := h.set
    (x := some (connector.callPreSelect answers s.sel).1) hhas fun connector' heq => by
      cases heq
      exact ⟨hcases.addr, (h.sound i connector hhas).pre hcases⟩
  have hcount := runningCount_set hhas
    (some (connector.callPreSelect answers s.sel).1)
  obtain ⟨sel, timeout, fds, heq⟩ :=
    callPreSelect_eq s i connector answers tickCount
  rw [if_pos hstatus] at heq
  rw [heq]
  have hattempted : (attempts (.attempt connector.addr
      ⟨s.round, answers.tickCount⟩ :: s.events)).length = i + 1 := by
    rw [attempts, List.length_append, hn, List.length_singleton]
  constructor
  case length => exact hlength
  case addr => exact haddr
  case sound => exact hsound
  case order =>
    dsimp only
    rw [hattempted, attempts, List.take_add_one, h.addr i connector hhas, hn,
      ← h.order]
    rfl
  case running =>
    have hrunning := hpending.running
    show (s.set i (some (connector.callPreSelect answers s.sel).1)).runningCount ≤
      s.conf.maxConnect.toNat
    split at hcount <;> split at hcount <;> omega
  case spaced =>
    have hround := hpending.round
    exact ⟨h.spaced, hround ▸ UInt64.le_trans hpending.time hstart,
      hround ▸ hpending.spaced⟩
  case connected =>
    intro socket hsocket
    rw [show s.retSocket = some socket from hsocket] at hret
    cases hret
  case index => exact h.index
  case turn =>
    refine .inl ⟨?_, fun times failed hlast => ?_⟩
    · dsimp only
      rw [hattempted, hn]
      exact hpending.index
    · cases hlast
      exact ⟨hpending.round, hpending.round ▸ UInt64.le_trans hpending.time htick,
        fun _ => hpending.lastError⟩
  case racing =>
    intro _
    constructor
    case fresh =>
      dsimp only
      rw [hattempted]
      intro j hj hlt
      obtain ⟨connector', hj', hstart⟩ := hopen.fresh j (by omega) hlt
      exact ⟨connector', has_set_of_ne hj' (by omega) _, hstart⟩
    case attempted =>
      dsimp only
      rw [hattempted]
      intro j connector' hlt hj
      rcases has_set hj with ⟨-, hx⟩ | ⟨hne, hj⟩
      · cases hx
        exact hcases.status_ne_start
      · exact hopen.attempted j connector' (by omega) hj
    case gone =>
      intro _ j hj
      obtain ⟨connector', hmem, herror⟩ := hopen.gone hret j (gone_set _ hj)
      exact ⟨connector', List.mem_cons_of_mem _ hmem, herror⟩
  case ret => exact fun hne => absurd hret hne
  case ended => simp [Over]

private theorem Racing.replace (h : Racing addrs s) {i : Nat}
    {connector : TcpConnector} (hhas : s.Has i connector) (x : Option TcpConnector)
    (hset : t.connectors = s.connectors.set i x) (hconf : t.conf = s.conf)
    (hindex : t.index = s.index) (hattempts : attempts t.events = attempts s.events)
    (hspaced : Spaced s.conf.interval t.events)
    (hx : ∀ connector', x = some connector' → connector'.addr = connector.addr ∧
      connector'.Sound ∧ connector'.status ≠ .ConnStatusStart)
    (hconnecting : isConnecting x = true → isConnecting (some connector) = true)
    (hconnected : ∀ socket, t.retSocket = some socket → ∃ i connector,
      .after i connector ∈ t.events ∧ connector.status = .ConnStatusConnected ∧
        connector.socket = some socket)
    (hturn : t.Settled ∨ t.Pending)
    (hracing : ¬ t.Over → ¬ s.Over ∧ connector.status ≠ .ConnStatusStart)
    (hgone : ¬ t.Over → t.retSocket = none → ∀ j, t.connectors[j]? = some none →
      ∃ connector, .after j connector ∈ t.events ∧
        connector.status = .ConnStatusError)
    (hret : t.retSocket ≠ none → t.pc = .check ∨ t.Over)
    (hover : t.Over → t.retSocket = none → Unconnected addrs t.events) :
    Racing addrs t := by
  obtain ⟨hlength, haddr, hsound⟩ := h.set hhas fun connector' heq =>
    ⟨(hx connector' heq).1, (hx connector' heq).2.1⟩
  have hhasT {j : Nat} {connector' : TcpConnector} :
      t.Has j connector' ↔ (s.set i x).Has j connector' := by
    unfold Has
    rw [hset]
    rfl
  constructor
  case length =>
    rw [hset]
    exact hlength
  case addr => exact fun j connector' hj => haddr j connector' (hhasT.mp hj)
  case sound => exact fun j connector' hj => hsound j connector' (hhasT.mp hj)
  case order =>
    rw [hattempts]
    exact h.order
  case running =>
    have hcount := runningCount_set hhas x
    have hrunning := h.running
    have heq : t.runningCount = (s.set i x).runningCount := by
      unfold runningCount
      rw [hset]
      rfl
    rw [heq, hconf]
    by_cases hp : isConnecting x = true
    · rw [if_pos hp, if_pos (hconnecting hp)] at hcount
      omega
    · rw [if_neg hp] at hcount
      omega
  case spaced =>
    rw [hconf]
    exact hspaced
  case connected => exact hconnected
  case index =>
    rw [hindex]
    exact h.index
  case turn => exact hturn
  case racing =>
    intro hopenT
    obtain ⟨hopenS, hstatus⟩ := hracing hopenT
    have hopen := h.racing hopenS
    constructor
    case fresh =>
      rw [hattempts]
      intro j hle hlt
      obtain ⟨connector', hj, hstart⟩ := hopen.fresh j hle hlt
      refine ⟨connector', hhasT.mpr (has_set_of_ne hj ?_ x), hstart⟩
      rintro rfl
      rw [Has, hhas] at hj
      cases hj
      exact hstatus hstart
    case attempted =>
      rw [hattempts]
      intro j connector' hlt hj
      rcases has_set (hhasT.mp hj) with ⟨-, heq⟩ | ⟨-, hj⟩
      · exact (hx connector' heq).2.2
      · exact hopen.attempted j connector' hlt hj
    case gone => exact hgone hopenT
  case ret => exact hret
  case ended => exact hover

private theorem isConnecting_eq_of_fds {connector connector' : TcpConnector}
    (hfds : connector'.fds = connector.fds) :
    isConnecting (some connector') = isConnecting (some connector) := by
  unfold TcpConnector.fds at hfds
  unfold isConnecting
  cases hs : connector.socket <;> cases hs' : connector'.socket <;>
    simp_all

private theorem Racing.pass (h : Racing addrs s) {answers : PreAnswers}
    {tickCount : UInt64} {i : Nat} {connector : TcpConnector}
    (hpc : s.pc = .preSelect i) (hhas : s.Has i connector)
    (htick : s.tickCount ≤ tickCount)
    (hstatus : connector.status ≠ .ConnStatusStart) :
    Racing addrs { s.callPreSelect i connector answers tickCount with
      tickCount
      pc := .preSelect (i + 1) } := by
  have hcases := TcpConnector.callPreSelect_cases connector answers s.sel
  have hopen := h.racing (by simp [Over, hpc])
  have hret := h.retSocket_eq_none (by simp [hpc]) (by simp [Over, hpc])
  have hconnecting := isConnecting_eq_of_fds (hcases.fds_of_ne hstatus)
  have hcount := runningCount_set hhas
    (some (connector.callPreSelect answers s.sel).1)
  rw [hconnecting] at hcount
  obtain ⟨sel, timeout, fds, heq⟩ :=
    callPreSelect_eq s i connector answers tickCount
  rw [if_neg hstatus] at heq
  rw [heq]
  apply h.replace hhas (some (connector.callPreSelect answers s.sel).1)
  case hset => rfl
  case hconf => rfl
  case hindex => rfl
  case hattempts => rfl
  case hspaced => exact h.spaced
  case hx =>
    intro _ heq
    cases heq
    exact ⟨hcases.addr, (h.sound i connector hhas).pre hcases,
      hcases.status_ne_start⟩
  case hconnecting => exact fun hp => hconnecting ▸ hp
  case hconnected =>
    intro socket hsocket
    rw [show s.retSocket = some socket from hsocket] at hret
    cases hret
  case hturn =>
    rcases h.turn with hsettled | hpending
    · refine .inl ⟨hsettled.index, fun times failed hlast => ?_⟩
      obtain ⟨htime, hle, herror⟩ := hsettled.last times failed hlast
      exact ⟨htime, UInt64.le_trans hle htick, herror⟩
    · have hpassed := h.pending_passed hpc hpending fun connector' hhas' => by
        rw [Has, hhas] at hhas'
        cases hhas'
        exact hstatus
      have hrunning : (s.set i (some
          (connector.callPreSelect answers s.sel).1)).runningCount = s.runningCount := by
        omega
      exact .inr
        { index := hpending.index
          pc := ⟨i + 1, rfl, hpassed⟩
          running := hrunning ▸ hpending.running
          lastError := hpending.lastError
          round := hpending.round
          time := UInt64.le_trans hpending.time htick
          spaced := hpending.spaced }
  case hracing => exact fun _ => ⟨by simp [Over, hpc], hstatus⟩
  case hgone => exact fun _ _ j hj => hopen.gone hret j (gone_set _ hj)
  case hret => exact fun hne => absurd hret hne
  case hover => simp [Over]

private theorem Settled.after (h : s.Settled) {connector : TcpConnector}
    {tickCount : UInt64} (htick : s.tickCount ≤ tickCount) (i : Nat)
    {lastError : Int32} (hlastError : connector.status ≠ .ConnStatusError →
      lastError = s.lastError) {times : AttemptTimes} {failed : Bool}
    (hlast : lastAttempt (.after i connector :: s.events) = some (times, failed)) :
    times.round = s.lastStartConnTime ∧ times.round ≤ tickCount ∧
      (failed = false → lastError = 0) := by
  rw [lastAttempt] at hlast
  obtain ⟨⟨times, failed'⟩, hbefore, heq⟩ := Option.map_eq_some_iff.mp hlast
  cases heq
  obtain ⟨htime, hle, herror⟩ := h.last times failed' hbefore
  refine ⟨htime, UInt64.le_trans hle htick, fun hfailed => ?_⟩
  obtain ⟨hfailed, hstatus⟩ := Bool.or_eq_false_iff.mp hfailed
  rw [hlastError (of_decide_eq_false hstatus)]
  exact herror hfailed

private theorem Racing.afterSelect (h : Racing addrs s) {answers : AfterAnswers}
    {i : Nat} {connector : TcpConnector} (hpc : s.pc = .afterSelect i)
    (hi : i < s.index) (hhas : s.Has i connector)
    (htick : s.tickCount ≤ answers.tickCount) :
    Racing addrs { s.callAfterSelect i connector answers with
      tickCount := answers.tickCount } := by
  have hcases := TcpConnector.callAfterSelect_cases connector answers
  have hsettled := h.settled (by simp [hpc])
  have hopen := h.racing (by simp [Over, hpc])
  have hret := h.retSocket_eq_none (by simp [hpc]) (by simp [Over, hpc])
  have hstatus : connector.status ≠ .ConnStatusStart := by
    have := hsettled.index
    exact hopen.attempted i connector (by omega) hhas
  have hsound := (h.sound i connector hhas).after hcases
  have hconnecting :
      isConnecting (some (connector.callAfterSelect answers)) =
        isConnecting (some connector) :=
    isConnecting_eq_of_fds (by simp [TcpConnector.fds, hcases.socket])
  unfold callAfterSelect
  dsimp only
  split
  · next herror =>
      apply h.replace hhas none
      case hset => rfl
      case hconf => rfl
      case hindex => rfl
      case hattempts => rfl
      case hspaced => exact h.spaced
      case hx => simp
      case hconnecting => simp [isConnecting]
      case hconnected =>
        intro socket hsocket
        rw [show s.retSocket = some socket from hsocket] at hret
        cases hret
      case hturn =>
        exact .inl ⟨hsettled.index, fun _ _ =>
          hsettled.after htick i fun hne => absurd herror hne⟩
      case hracing => exact fun _ => ⟨by simp [Over, hpc], hstatus⟩
      case hgone =>
        intro _ _ j hj
        by_cases hji : j = i
        · subst hji
          exact ⟨_, List.mem_cons_self, herror⟩
        · have hj' : s.connectors[j]? = some none := by
            rwa [← List.getElem?_set_ne (Ne.symm hji)]
          obtain ⟨connector', hmem, hfailed⟩ := hopen.gone hret j hj'
          exact ⟨connector', List.mem_cons_of_mem _ hmem, hfailed⟩
      case hret => exact fun hne => absurd hret hne
      case hover => simp [Over]
  · next hconnected =>
      have hsome : (connector.callAfterSelect answers).socket ≠ none :=
        hsound.held (.inr (.inr (.inr hconnected)))
      apply h.replace hhas none
      case hset => rfl
      case hconf => rfl
      case hindex => rfl
      case hattempts => rfl
      case hspaced => exact h.spaced
      case hx => simp
      case hconnecting => simp [isConnecting]
      case hconnected =>
        exact fun socket hsocket => ⟨i, _, List.mem_cons_self, hconnected, hsocket⟩
      case hturn =>
        exact .inl ⟨hsettled.index, fun _ _ =>
          hsettled.after htick i fun _ => rfl⟩
      case hracing => exact fun _ => ⟨by simp [Over, hpc], hstatus⟩
      case hgone => exact fun _ hnone => absurd hnone hsome
      case hret => exact fun _ => .inl rfl
      case hover => simp [Over]
  · next herror hconnected =>
      apply h.replace hhas (some (connector.callAfterSelect answers))
      case hset => rfl
      case hconf => rfl
      case hindex => rfl
      case hattempts => rfl
      case hspaced => exact h.spaced
      case hx =>
        intro _ heq
        cases heq
        exact ⟨hcases.addr, hsound, hcases.status_ne_start hstatus⟩
      case hconnecting => exact fun hp => hconnecting ▸ hp
      case hconnected =>
        intro socket hsocket
        rw [show s.retSocket = some socket from hsocket] at hret
        cases hret
      case hturn =>
        exact .inl ⟨hsettled.index, fun _ _ =>
          hsettled.after htick i fun _ => rfl⟩
      case hracing => exact fun _ => ⟨by simp [Over, hpc], hstatus⟩
      case hgone =>
        intro _ _ j hj
        obtain ⟨connector', hmem, hfailed⟩ := hopen.gone hret j (gone_set _ hj)
        exact ⟨connector', List.mem_cons_of_mem _ hmem, hfailed⟩
      case hret => exact fun hne => absurd hret hne
      case hover => simp [Over]

private theorem Racing.close (h : Racing addrs s) {i : Nat}
    {connector : TcpConnector} (hpc : s.pc = .close i)
    (hhas : s.Has i connector) : Racing addrs
      { (s.set i none).closeFds connector.close.1 with pc := .close (i + 1) } := by
  have hover : s.Over := .inl ⟨i, hpc⟩
  have hsettled := h.settled (by simp [hpc])
  apply h.replace hhas none
  case hset => rfl
  case hconf => rfl
  case hindex => rfl
  case hattempts => rfl
  case hspaced => exact h.spaced
  case hx => simp
  case hconnecting => simp [isConnecting]
  case hconnected => exact h.connected
  case hturn => exact .inl ⟨hsettled.index, hsettled.last⟩
  case hracing => exact fun hopen => absurd (.inl ⟨i + 1, rfl⟩) hopen
  case hgone => exact fun hopen => absurd (.inl ⟨i + 1, rfl⟩) hopen
  case hret => exact fun _ => .inr (.inl ⟨i + 1, rfl⟩)
  case hover => exact fun _ => h.ended hover

/-! ## The other steps -/

theorem Racing.unconnected (h : Racing addrs s) (hopen : s.Open addrs)
    (hret : s.retSocket = none)
    (hend : ∀ connector ∈ s.connectors, connector = none) :
    Unconnected addrs s.events := by
  have hnone (i : Nat) (hi : i < addrs.length) :
      s.connectors[i]? = some none := by
    have hlt : i < s.connectors.length := h.length ▸ hi
    rw [List.getElem?_eq_getElem hlt, hend _ (List.getElem_mem hlt)]
  refine .inr (.inr (.inr (.inr ⟨?_, fun i hi => hopen.gone hret i (hnone i hi)⟩)))
  have hall : addrs.length ≤ (attempts s.events).length := by
    by_contra hlt
    obtain ⟨connector, hhas, -⟩ := hopen.fresh _ (Nat.le_refl _) (by omega)
    rw [Has, hnone _ (by omega)] at hhas
    cases hhas
  rw [h.order, List.take_of_length_le hall]

private theorem Racing.turn_step (h : Racing addrs s) {pc : ImpatientPc}
    (hturn : Turn s pc) : Racing addrs { s with pc } := by
  have hrace (hover : ¬ s.Over) (hover' : ¬ Over { s with pc })
      (hturn : Settled { s with pc } ∨ Pending { s with pc })
      (hret : s.retSocket ≠ none → pc = .check) : Racing addrs { s with pc } :=
    have hopen := h.racing hover
    { h with
      turn := hturn
      racing := fun _ => ⟨hopen.fresh, hopen.attempted, hopen.gone⟩
      ret := fun hne => .inl (hret hne)
      ended := fun hyes => absurd hyes hover' }
  have hsettled (hpc : ∀ i, s.pc ≠ .preSelect i) : Settled { s with pc } :=
    have hbefore := h.settled hpc
    ⟨hbefore.index, hbefore.last⟩
  cases hturn with
  | preSkip i hpc hi hnone =>
      have hover : ¬ s.Over := by simp [Over, hpc]
      have hret := h.retSocket_eq_none (by simp [hpc]) hover
      refine hrace hover (by simp [Over]) ?_ fun hne => absurd hret hne
      rcases h.turn with hbefore | hpending
      · exact .inl ⟨hbefore.index, hbefore.last⟩
      · have hpassed := h.pending_passed hpc hpending
          fun connector hhas => absurd hhas (hnone connector)
        exact .inr
          { index := hpending.index
            pc := ⟨i + 1, rfl, hpassed⟩
            running := hpending.running
            lastError := hpending.lastError
            round := hpending.round
            time := hpending.time
            spaced := hpending.spaced }
  | preEnd i hpc hi selTimeout =>
      have hover : ¬ s.Over := by simp [Over, hpc]
      have hret := h.retSocket_eq_none (by simp [hpc]) hover
      refine hrace hover (by simp [Over]) ?_ fun hne => absurd hret hne
      rcases h.turn with hbefore | hpending
      · exact .inl ⟨hbefore.index, hbefore.last⟩
      · obtain ⟨j, hj, hle⟩ := hpending.pc
        rw [hpc] at hj
        cases hj
        have := hpending.index
        omega
  | selected selTimeout hpc =>
      have hover : ¬ s.Over := by simp [Over, hpc]
      have hret := h.retSocket_eq_none (by simp [hpc]) hover
      exact hrace hover (by simp [Over]) (.inl (hsettled (by simp [hpc])))
        fun hne => absurd hret hne
  | afterSkip i hpc =>
      have hover : ¬ s.Over := by simp [Over, hpc]
      have hret := h.retSocket_eq_none (by simp [hpc]) hover
      exact hrace hover (by simp [Over]) (.inl (hsettled (by simp [hpc])))
        fun hne => absurd hret hne
  | afterEnd i hpc =>
      exact hrace (by simp [Over, hpc]) (by simp [Over])
        (.inl (hsettled (by simp [hpc]))) fun _ => rfl
  | checkEnd hpc hend =>
      have hopen := h.racing (by simp [Over, hpc])
      have hover : Over { s with pc := .close 0 } := .inl ⟨0, rfl⟩
      exact
        { h with
          turn := .inl (hsettled (by simp [hpc]))
          racing := fun hno => absurd hover hno
          ret := fun _ => .inr hover
          ended := fun _ hret => by
            rcases hend with hend | hne
            · exact h.unconnected hopen hret hend
            · exact absurd hret hne }
  | checkTop hpc hret =>
      exact hrace (by simp [Over, hpc]) (by simp [Over])
        (.inl (hsettled (by simp [hpc]))) fun hne => absurd hret hne
  | closeSkip i hpc =>
      have hover : Over { s with pc := .close (i + 1) } := .inl ⟨i + 1, rfl⟩
      exact
        { h with
          turn := .inl (hsettled (by simp [hpc]))
          racing := fun hno => absurd hover hno
          ret := fun _ => .inr hover
          ended := fun _ => h.ended (.inl ⟨i, hpc⟩) }
  | closeEnd i hpc =>
      have hover : Over { s with pc := .returned } := .inr rfl
      exact
        { h with
          turn := .inl (hsettled (by simp [hpc]))
          racing := fun hno => absurd hover hno
          ret := fun _ => .inr hover
          ended := fun _ => h.ended (.inl ⟨i, hpc⟩) }

private theorem Racing.leave (h : Racing addrs s) {selTimeout : Int32}
    (hpc : s.pc = .select selTimeout) {event : ImpatientEvent}
    (hevent : event = .selectError ∨ event = .breakerError ∨ event = .isBreak) :
    Racing addrs { s with pc := .close 0, events := event :: s.events } := by
  have hsettled := h.settled (by simp [hpc])
  have hover : Over { s with pc := .close 0, events := event :: s.events } :=
    .inl ⟨0, rfl⟩
  have hret := h.retSocket_eq_none (by simp [hpc]) (by simp [Over, hpc])
  have hsame : attempts (event :: s.events) = attempts s.events ∧
      lastAttempt (event :: s.events) = lastAttempt s.events ∧
      Spaced s.conf.interval (event :: s.events) := by
    rcases hevent with rfl | rfl | rfl <;> exact ⟨rfl, rfl, h.spaced⟩
  obtain ⟨hattempts, hlast, hspaced⟩ := hsame
  exact
    { h with
      order := by
        dsimp only
        rw [hattempts]
        exact h.order
      spaced := hspaced
      connected := fun socket hsocket => absurd (hret.symm.trans hsocket) (by simp)
      turn := .inl ⟨by dsimp only; rw [hattempts]; exact hsettled.index, by
        dsimp only
        rw [hlast]
        exact hsettled.last⟩
      racing := fun hno => absurd hover hno
      ret := fun _ => .inr hover
      ended := fun _ _ => by
        rcases hevent with rfl | rfl | rfl
        · exact .inr (.inr (.inr (.inl List.mem_cons_self)))
        · exact .inr (.inr (.inl List.mem_cons_self))
        · exact .inr (.inl List.mem_cons_self) }

theorem racing_step {action : ImpatientAction}
    (hinterval : s.conf.interval.toNat < 2 ^ 31) (h : Racing addrs s)
    (hs : s.step action = some t) : Racing addrs t := by
  cases step_cases hs with
  | top curTime startTime hpc hcur hstart => exact h.top hinterval hpc hcur hstart
  | preSelect answers tickCount i connector hpc hi hhas htick hfresh hstart =>
      by_cases hstatus : connector.status = .ConnStatusStart
      · exact h.attempt hpc hi hhas htick hstart hstatus
      · exact h.pass hpc hhas htick hstatus
  | leave result selTimeout hpc event hevent => exact h.leave hpc hevent
  | afterSelect answers i connector hpc hi hhas htick =>
      exact h.afterSelect hpc hi hhas htick
  | close i connector hpc hhas => exact h.close hpc hhas
  | turn action pc hturn => exact h.turn_step hturn

theorem conf_step {action : ImpatientAction} (hs : s.step action = some t) :
    t.conf = s.conf := by
  cases step_cases hs with
  | top curTime startTime =>
      obtain ⟨timeout, ⟨-, heq⟩ | ⟨-, -, -, heq⟩⟩ :=
        nextAddress_cases s curTime startTime
      · rw [heq]
      · rw [heq]
  | afterSelect answers i connector =>
      unfold callAfterSelect
      dsimp only
      split <;> rfl
  | _ => rfl

theorem keepsToRace {conf : ComplexConnect} (withSSL : Bool)
    (addrs : List AddrInfo) (curTime : UInt64)
    (hinterval : conf.interval.toNat < 2 ^ 31)
    (h : Reachable step AnyStep (start conf withSSL addrs curTime) s) :
    KeepsToRace conf addrs s := by
  have hstep (t : ConnectImpatient) (action : ImpatientAction)
      (u : ConnectImpatient)
      (_ : Reachable step AnyStep (start conf withSSL addrs curTime) t)
      (hbefore : t.conf = conf ∧ Racing addrs t) (_ : AnyStep t action)
      (hs : t.step action = some u) : u.conf = conf ∧ Racing addrs u := by
    obtain ⟨hconf, hracing⟩ := hbefore
    exact ⟨(conf_step hs).trans hconf, racing_step (hconf ▸ hinterval) hracing hs⟩
  obtain ⟨rfl, hracing⟩ :=
    h.invariant ⟨rfl, racing_start conf withSSL addrs curTime⟩ hstep
  exact
    { running := hracing.running
      order := List.prefix_iff_eq_take.mpr hracing.order
      spaced := hracing.spaced
      connected := hracing.connected
      unconnected := fun hpc => hracing.ended (.inr hpc) }

def twoServers : List AddrInfo :=
  [{ ip := "127.0.0.1", port := 80, isTls := false },
    { ip := "127.0.0.2", port := 80, isTls := false }]

def oneAtOnce : ComplexConnect :=
  { timeout := 1000, interval := 500, errorInterval := 100, maxConnect := 1 }

def twoAtOnce : ComplexConnect :=
  { timeout := 10000, interval := 4000, errorInterval := 100, maxConnect := 2 }

def startsLate : List ImpatientAction :=
  [.top 0 0, .preSelect { socketFd := some 4, tickCount := 3000 } 3000, .preSelect {} 0,
    .select .done, .afterSelect { tickCount := 3000 }, .afterSelect {}, .check,
    .top 4000 4000, .preSelect { tickCount := 4000 } 4000,
    .preSelect { socketFd := some 5, tickCount := 4000 } 4000]

theorem starts_not_spaced : ∃ s,
    run step (start twoAtOnce false twoServers 0) startsLate = some s ∧
      ¬ StartsSpaced twoAtOnce.interval s.events := by
  refine ⟨_, rfl, ?_⟩
  rintro ⟨-, hstarts⟩
  exact absurd (hstarts ⟨0, 3000⟩ rfl) (by decide)

def secondConnects : List ImpatientAction :=
  [.top 0 0, .preSelect { socketFd := some 4 } 0, .preSelect {} 0, .select .done,
    .afterSelect { ready := { exceptionFdIsSet := true } }, .afterSelect {}, .check,
    .top 100 100, .preSelect {} 0,
    .preSelect { socketFd := some 4, tickCount := 100 } 100, .preSelect {} 0,
    .select .done, .afterSelect {},
    .afterSelect { ready := { writeFdIsSet := true }, tickCount := 100 }, .check,
    .close, .close, .close]

theorem keepsToRace_second : ∃ s,
    run step (start oneAtOnce false twoServers 0) secondConnects = some s ∧
      s.pc = .returned ∧ s.retSocket = some { socket := 4 } ∧
      KeepsToRace oneAtOnce twoServers s := by
  refine ⟨(run step (start oneAtOnce false twoServers 0) secondConnects).get
    (by decide +kernel), (Option.some_get _).symm, by decide +kernel,
    by decide +kernel, ?_⟩
  apply keepsToRace false twoServers 0 (by decide)
  exact Reachable.of_run (Option.some_get _).symm

end ConnectImpatient

end GoSocket.Connect
