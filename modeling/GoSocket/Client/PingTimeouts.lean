import GoSocket.Client.TimerSteps
import GoSocket.Client.WakeUps

/-!
# Pings without an answer

`__RunReadWrite` starts `_pingTimeoutAlarm` behind a `PingReq`, cancels it for a
`PingResp`, and gives the connection up where it has fired.  `PingWatch` is the
client, with the ping that waits for its answer.
-/

namespace GoSocket.Client

open GoSocket.Common GoSocket.Foundation

inductive PingPhase where
  -- no connection is served
  | outside
  | watching
  -- a `PingReq` is written, and the alarm is not yet canceled, or started, for it
  | resetting
  | starting
  deriving DecidableEq, Repr

def IoPc.pingPhase (io : IoPc) : PingPhase :=
  match io with
  | .resetPingTimeout => .resetting
  | .startPingTimeout => .starting
  | io => if io.betweenLoops then .outside else .watching

def IoPc.handlesPingTimeout : IoPc → Bool
  | .sendPing => true
  | .cancelPingTimeout => true
  | .leavePingTimeout => true
  | .resetPingTimeout => true
  | .startPingTimeout => true
  | _ => false

namespace TcpClient

def pingTimeoutAlarm (self : TcpClient) : Alarm :=
  self.timers.alarms .pingTimeoutAlarm

/-- The step writes a `PingReq`, or ends the wait for its answer. -/
def pingEvent? (self : TcpClient) (action : Action) : Option Bool :=
  match self.io, action with
  | .sendPing, .io (.encoded true) => some true
  | .cancelPingTimeout, .io .none => some false
  | .leavePingTimeout, .io .none => some false
  | _, _ => none

def givesUp (self : TcpClient) (action : Action) : Bool :=
  match self.io, action with
  | .checkPingTimeout _ _, .io .none => self.pingTimeoutAlarm.isAlarm
  | _, _ => false

end TcpClient

structure PingWatch where
  client : TcpClient := .init
  -- when the `PingReq` was written that has no answer
  unanswered : Option Int := none
  -- what had no answer where the connection was given up, and when that was
  gaveUp : List (Option Int × Int) := []

namespace PingWatch

def step (self : PingWatch) (action : Action) : Option PingWatch :=
  (self.client.step action).map fun client =>
    { client
      unanswered :=
        match self.client.pingEvent? action with
        | some true => some self.client.timers.now
        | some false => none
        | none => self.unanswered
      gaveUp :=
        if self.client.givesUp action then
          (self.unanswered, self.client.timers.now) :: self.gaveUp
        else self.gaveUp }

end PingWatch

/-! ## What a step does to the alarm -/

namespace TcpClient

variable {s t : TcpClient} {action : Action}

/-- The timers do nothing, or something else than starting or canceling the alarm. -/
def LeavesPingTimeout (timers timers' : Alarms ClientAlarm) : Prop :=
  timers' = timers ∨ ∃ a, timers.step a = some timers' ∧
    (∀ afterSec, a ≠ .start .pingTimeoutAlarm afterSec) ∧ a ≠ .cancel .pingTimeoutAlarm

inductive PingCases (s : TcpClient) (action : Action) (t : TcpClient) : Prop
  | written (hevent : s.pingEvent? action = some true)
      (hphase : s.io.pingPhase = .watching) (hnext : t.io.pingPhase = .resetting)
      (htimers : t.timers = s.timers)
  | reset (hevent : s.pingEvent? action = none)
      (hphase : s.io.pingPhase = .resetting) (hnext : t.io.pingPhase = .starting)
      (htimers : t.timers = (s.timers.cancel .pingTimeoutAlarm).1)
  | started (hevent : s.pingEvent? action = none)
      (hio : s.io = .startPingTimeout) (haction : action = .io .none)
      (hnext : t.io.pingPhase = .watching)
      (htimers : t.timers = (s.timers.start .pingTimeoutAlarm kPingTimeout).1)
  | ended (hevent : s.pingEvent? action = some false)
      (hphase : s.io.pingPhase = .watching)
      (hnext : t.io.pingPhase = .watching ∨ t.io.pingPhase = .outside)
      (htimers : t.timers = (s.timers.cancel .pingTimeoutAlarm).1)
  | begins (hevent : s.pingEvent? action = none)
      (hphase : s.io.pingPhase = .outside) (hnext : t.io.pingPhase = .watching)
      (htimers : t.timers = s.timers)
  | aside (hevent : s.pingEvent? action = none)
      (hphase : t.io.pingPhase = s.io.pingPhase)
      (htimers : LeavesPingTimeout s.timers t.timers)

private theorem LeavesPingTimeout.of_requests {timers timers' : Alarms ClientAlarm}
    (h : RequestsOnly timers timers') : LeavesPingTimeout timers timers' := by
  cases h with
  | same => exact .inl rfl
  | start n afterSec => exact .inr ⟨_, step_start _ _ _, by simp, by simp⟩
  | cancel n => exact .inr ⟨_, step_cancel _ _, by simp, by simp⟩

theorem LeavesPingTimeout.messageId {timers timers' : Alarms ClientAlarm}
    (h : LeavesPingTimeout timers timers') :
    (timers'.alarms .pingTimeoutAlarm).messageId =
      (timers.alarms .pingTimeoutAlarm).messageId := by
  rcases h with rfl | ⟨a, hstep, hstart, hcancel⟩
  · rfl
  · cases Alarms.step_alarm hstep .pingTimeoutAlarm with
    | same heq => rw [heq]
    | setCallback heq => rw [heq]
    | setUserData userData heq => rw [heq]
    | start afterSec => exact absurd rfl (hstart afterSec)
    | cancel => exact absurd rfl hcancel
    | fire messageId start pass hne hfiring hloop heq => rw [heq]

theorem LeavesPingTimeout.waiting {timers timers' : Alarms ClientAlarm}
    (h : LeavesPingTimeout timers timers')
    (hwaiting : (timers'.alarms .pingTimeoutAlarm).isWaiting = true) :
    (timers.alarms .pingTimeoutAlarm).isWaiting = true ∧
      latest .pingTimeoutAlarm timers'.log = latest .pingTimeoutAlarm timers.log := by
  rcases h with rfl | ⟨a, hstep, hstart, hcancel⟩
  · exact ⟨hwaiting, rfl⟩
  · rcases Alarms.waiting_step hstep hwaiting with hbefore | ⟨afterSec, rfl, -⟩
    · exact hbefore
    · exact absurd rfl (hstart afterSec)

theorem LeavesPingTimeout.now {timers timers' : Alarms ClientAlarm}
    (h : LeavesPingTimeout timers timers') : timers.now ≤ timers'.now := by
  rcases h with rfl | ⟨a, hstep, -⟩
  · exact Int.le_refl _
  · exact Alarms.now_step hstep

private theorem pingEvent?_eq_none (h : s.io.handlesPingTimeout = false) :
    s.pingEvent? action = none := by
  unfold pingEvent?
  split
  · next hio => simp [hio, IoPc.handlesPingTimeout] at h
  · next hio => simp [hio, IoPc.handlesPingTimeout] at h
  · next hio => simp [hio, IoPc.handlesPingTimeout] at h
  · rfl

private theorem pingPhase_proceed (hthreads : Threads s) {holder : Holder}
    {next : Section} (hmutex : s.mutex = some (holder, next)) :
    (s.proceed holder next).io.pingPhase = s.io.pingPhase := by
  cases next with
  | connect =>
      simp only [TcpClient.proceed]
      split
      · rfl
      · next hthread =>
          rw [hthreads.finished_of_connect hmutex (Bool.eq_false_iff.mpr hthread)]
          rfl
  | _ => rfl

private theorem pingPhase_of_move {io : IoPc} (h : IoMove s io)
    (hother : s.io.handlesPingTimeout = false) : io.pingPhase = s.io.pingPhase := by
  cases h <;> simp_all [IoPc.pingPhase, IoPc.betweenLoops, IoPc.handlesPingTimeout]

private theorem pingPhase_of_alarm {io next : IoPc} {a : AlarmAction ClientAlarm}
    (h : IoAlarm io a next) (hother : io.handlesPingTimeout = false) :
    next.pingPhase = io.pingPhase ∧ (∀ afterSec, a ≠ .start .pingTimeoutAlarm afterSec) ∧
      a ≠ .cancel .pingTimeoutAlarm := by
  cases h <;> simp_all [IoPc.pingPhase, IoPc.betweenLoops, IoPc.handlesPingTimeout]

private theorem pingPhase_of_status {io next : IoPc} {status : ConnectStatus}
    (h : IoStatus io status next) :
    io.pingPhase = .outside ∧ (next.pingPhase = .outside ∨ next.pingPhase = .watching) := by
  cases h <;> simp [IoPc.pingPhase, IoPc.betweenLoops]

private theorem pingPhase_of_timer {u : TcpClient} {io : IoPc} (h : IoTimer s u io) :
    io.pingPhase = s.io.pingPhase := by
  cases h <;> simp_all [IoPc.pingPhase, IoPc.betweenLoops]

private theorem ping_cases_other (hthreads : Threads s) {event : IoEvent}
    (hother : s.io.handlesPingTimeout = false) (hs : s.ioStep event = some t) :
    PingCases s (.io event) t := by
  have hevent : s.pingEvent? (.io event) = none := pingEvent?_eq_none hother
  cases ioStep_cases hs with
  | move io h => exact .aside hevent (pingPhase_of_move h hother) (.inl rfl)
  | alarm a timers io h hstep =>
      obtain ⟨hphase, hstart, hcancel⟩ := pingPhase_of_alarm h hother
      exact .aside hevent hphase (.inr ⟨a, hstep, hstart, hcancel⟩)
  | status status io h =>
      obtain ⟨hphase, hnext | hnext⟩ := pingPhase_of_status h
      · exact .aside hevent (hnext.trans hphase.symm) (.inl rfl)
      · exact .begins hevent hphase hnext rfl
  | timer u io h =>
      exact .aside hevent (pingPhase_of_timer h) (.of_requests h.timers)
  | encode readable queued rest hio hqueue =>
      refine .aside hevent ?_ (.inl rfl)
      rw [hio]
      unfold behindEncode
      split <;> rfl
  | inside next hio hmutex =>
      exact .aside hevent (pingPhase_proceed hthreads hmutex)
        (.inl (s.proceed_timers .io next))
  | refuse | clear | pingTimeout | pop | noCallback | takeCallback | callBack | enter =>
      exact .aside hevent (by simp [*, IoPc.pingPhase, IoPc.betweenLoops]) (.inl rfl)

private theorem ping_cases_io (hthreads : Threads s) {event : IoEvent}
    (hs : s.ioStep event = some t) : PingCases s (.io event) t := by
  by_cases hother : s.io.handlesPingTimeout = false
  · exact ping_cases_other hthreads hother hs
  · unfold ioStep at hs
    cases hio : s.io with
    | sendPing =>
        rw [hio] at hs
        cases event with
        | encoded ok =>
            cases ok with
            | false =>
                cases hs
                exact .aside (by simp [pingEvent?]) (by rw [hio]; rfl) (.inl rfl)
            | true =>
                cases hs
                exact .written (by simp [pingEvent?, hio]) (by rw [hio]; rfl) rfl rfl
        | _ => cases hs
    | cancelPingTimeout =>
        rw [hio] at hs
        cases event <;> cases hs
        exact .ended (by simp [pingEvent?, hio]) (by rw [hio]; rfl) (.inl rfl) rfl
    | leavePingTimeout =>
        rw [hio] at hs
        cases event <;> cases hs
        exact .ended (by simp [pingEvent?, hio]) (by rw [hio]; rfl) (.inr rfl) rfl
    | resetPingTimeout =>
        rw [hio] at hs
        cases event <;> cases hs
        exact .reset (by simp [pingEvent?, hio]) (by rw [hio]; rfl) rfl rfl
    | startPingTimeout =>
        rw [hio] at hs
        cases event <;> cases hs
        exact .started (by simp [pingEvent?, hio]) hio rfl rfl rfl
    | _ => exact absurd (by rw [hio]; rfl) hother

private theorem ping_cases_user (hthreads : Threads s) {call : UserCall}
    (hs : s.userStep call = some t) : PingCases s (.user call) t := by
  have hevent : s.pingEvent? (.user call) = none := by
    unfold pingEvent?
    split <;> first | contradiction | rfl
  have still (hio : t.io = s.io) : PingCases s (.user call) t :=
    .aside hevent (by rw [hio]) (.inl (userStep_aside hs).1)
  cases userStep_cases hs with
  | enterSend type payload data hasCallback hfree =>
      refine still ?_
      obtain ⟨mutex, calls, invoked, heq⟩ :=
        s.enterSend_eq type payload data hasCallback
      rw [heq]
  | enterPush message hfree =>
      refine still ?_
      obtain ⟨mutex, calls, heq⟩ := s.enterPush_eq message
      rw [heq]
  | inside next hcall hmutex =>
      exact .aside hevent (pingPhase_proceed hthreads hmutex)
        (.inl (s.proceed_timers .user next))
  | _ => exact still rfl

private theorem ping_cases_queue (hthreads : Threads s) (hs : s.queueStep = some t) :
    PingCases s .queue t := by
  have hevent : s.pingEvent? .queue = none := by
    unfold pingEvent?
    split <;> first | contradiction | rfl
  cases queueStep_cases hs with
  | loop timers hcallback hstep =>
      refine .aside hevent rfl (.inr ⟨_, hstep, ?_, ?_⟩) <;>
        unfold loopAction <;> split <;> simp
  | returned timers hcallback hstep =>
      have hreturned : s.timers.step .returned = some timers := hstep
      exact .aside hevent rfl (.inr ⟨_, hreturned, by simp, by simp⟩)
  | timer u callback h =>
      have htimers := h.timers
      obtain ⟨timers, map, pool, canceled, rfl⟩ := h.eq
      exact .aside hevent rfl (.of_requests htimers)
  | inside next hcallback hmutex =>
      exact .aside hevent (pingPhase_proceed hthreads hmutex)
        (.inl (s.proceed_timers .queue next))
  | _ => exact .aside hevent rfl (.inl rfl)

theorem ping_cases (hthreads : Threads s) (hs : s.step action = some t) :
    PingCases s action t := by
  cases action with
  | user call => exact ping_cases_user hthreads hs
  | io event => exact ping_cases_io hthreads hs
  | queue => exact ping_cases_queue hthreads hs
  | tick nanoseconds =>
      have htick : s.timers.step (.tick nanoseconds) =
          some { s.timers with now := s.timers.now + nanoseconds } := rfl
      cases hs
      exact .aside (by cases h : s.io <;> simp [pingEvent?, h]) rfl
        (.inr ⟨_, htick, by simp, by simp⟩)
  | pipes ok =>
      cases hs
      exact .aside (by cases h : s.io <;> simp [pingEvent?, h]) rfl (.inl rfl)

end TcpClient

namespace PingWatch

open TcpClient

variable {s t : PingWatch} {action : Action}

theorem of_map (hs : s.step action = some t) :
    s.client.step action = some t.client ∧
      t.unanswered = (match s.client.pingEvent? action with
        | some true => some s.client.timers.now
        | some false => none
        | none => s.unanswered) ∧
      t.gaveUp = if s.client.givesUp action then
          (s.unanswered, s.client.timers.now) :: s.gaveUp
        else s.gaveUp := by
  obtain ⟨client, hclient, rfl⟩ := Option.map_eq_some_iff.mp hs
  exact ⟨hclient, rfl, rfl⟩

/-- The alarm's deadline is not before the ping's. -/
def DueBehind (timers : Alarms ClientAlarm) (time : Int) : Prop :=
  ∃ start deadline, latest .pingTimeoutAlarm timers.log = some (start, deadline) ∧
    time + kPingTimeout * 1000000000 ≤ deadline

/-- Inside the loop the alarm has a message exactly while a ping has no answer, and
its deadline is not before the ping's. -/
structure Phased (s : PingWatch) : Prop where
  outside : s.client.io.pingPhase = .outside →
    s.client.pingTimeoutAlarm.messageId = 0 ∧ s.unanswered = none
  written : s.client.io.pingPhase = .resetting ∨ s.client.io.pingPhase = .starting →
    s.unanswered.isSome = true
  starting : s.client.io.pingPhase = .starting →
    s.client.pingTimeoutAlarm.messageId = 0
  watching : s.client.io.pingPhase = .watching →
    (s.client.pingTimeoutAlarm.messageId ≠ 0 ↔ s.unanswered.isSome = true)
  past : ∀ time, s.unanswered = some time → time ≤ s.client.timers.now
  due : s.client.io.pingPhase = .watching →
    s.client.pingTimeoutAlarm.isWaiting = true →
      ∀ time, s.unanswered = some time → DueBehind s.client.timers time

/-- An alarm with a message waits for its five seconds, or has fired. -/
structure Watched (s : PingWatch) : Prop extends Phased s where
  threads : Threads s.client
  timers : Timers s.client
  identified : s.client.timers.Identified .pingTimeoutAlarm
  kept : s.client.pingTimeoutAlarm.messageId ≠ 0 →
    s.client.pingTimeoutAlarm.isWaiting = true ∨
      s.client.pingTimeoutAlarm.isAlarm = true
  gaveUp : ∀ entry ∈ s.gaveUp, entry.1.isSome = true

namespace Watched

theorem unanswered_of_givesUp (h : Watched s)
    (hgives : s.client.givesUp action = true) :
    s.client.io.pingPhase = .watching ∧ s.client.pingTimeoutAlarm.isAlarm = true ∧
      s.unanswered.isSome = true := by
  unfold givesUp at hgives
  split at hgives
  · next readable writable hio =>
      have hphase : s.client.io.pingPhase = .watching := by rw [hio]; rfl
      refine ⟨hphase, hgives, (h.watching hphase).mp fun hid => ?_⟩
      have hnot : s.client.pingTimeoutAlarm.isAlarm = false := (h.identified.alarm hid).1
      rw [hnot] at hgives
      cases hgives
  · cases hgives

theorem identified_step (h : Watched s) (hclient : s.client.step action = some t.client) :
    t.client.timers.Identified .pingTimeoutAlarm := by
  rcases (timer_cases hclient).step with hsame | ⟨a, hstep⟩
  · rw [hsame]
    exact h.identified
  · exact h.identified.step hstep

theorem kept_step (h : Watched s) (hclient : s.client.step action = some t.client) :
    t.client.pingTimeoutAlarm.messageId ≠ 0 →
      t.client.pingTimeoutAlarm.isWaiting = true ∨
        t.client.pingTimeoutAlarm.isAlarm = true := by
  rcases (timer_cases hclient).step with hsame | ⟨a, hstep⟩
  · unfold pingTimeoutAlarm
    rw [hsame]
    exact h.kept
  · exact Alarms.kept_step hstep h.kept

theorem gaveUp_step (h : Watched s)
    (hgaveUp : t.gaveUp = if s.client.givesUp action then
      (s.unanswered, s.client.timers.now) :: s.gaveUp else s.gaveUp) :
    ∀ entry ∈ t.gaveUp, entry.1.isSome = true := by
  rw [hgaveUp]
  split
  · next hgives =>
      intro entry hentry
      rcases List.mem_cons.mp hentry with rfl | hentry
      · exact (h.unanswered_of_givesUp hgives).2.2
      · exact h.gaveUp entry hentry
  · exact h.gaveUp

/-! ### The cases of a step -/

theorem messageId_of_cancel
    (htimers : t.client.timers = (s.client.timers.cancel .pingTimeoutAlarm).1) :
    t.client.pingTimeoutAlarm.messageId = 0 := by
  unfold pingTimeoutAlarm
  rw [htimers]
  exact Alarms.messageId_cancel _ _

theorem past_of_same (h : Watched s) (hnow : s.client.timers.now ≤ t.client.timers.now)
    (hunanswered : t.unanswered = s.unanswered) :
    ∀ time, t.unanswered = some time → time ≤ t.client.timers.now := by
  rw [hunanswered]
  exact fun time htime => Int.le_trans (h.past time htime) hnow

theorem phased_written (hnow : s.client.timers.now ≤ t.client.timers.now)
    (hnext : t.client.io.pingPhase = .resetting)
    (hunanswered : t.unanswered = some s.client.timers.now) : Phased t := by
  constructor
  case written =>
    rw [hunanswered]
    exact fun _ => rfl
  case past =>
    rw [hunanswered]
    rintro time ⟨⟩
    exact hnow
  all_goals simp [hnext]

theorem phased_reset (h : Watched s) (hnow : s.client.timers.now ≤ t.client.timers.now)
    (hphase : s.client.io.pingPhase = .resetting)
    (hnext : t.client.io.pingPhase = .starting)
    (htimers : t.client.timers = (s.client.timers.cancel .pingTimeoutAlarm).1)
    (hunanswered : t.unanswered = s.unanswered) : Phased t := by
  constructor
  case written =>
    rw [hunanswered]
    exact fun _ => h.written (.inl hphase)
  case starting => exact fun _ => messageId_of_cancel htimers
  case past => exact h.past_of_same hnow hunanswered
  all_goals simp [hnext]

theorem phased_started (h : Watched s) (hnow : s.client.timers.now ≤ t.client.timers.now)
    (hphase : s.client.io.pingPhase = .starting)
    (hnext : t.client.io.pingPhase = .watching)
    (htimers : t.client.timers =
      (s.client.timers.start .pingTimeoutAlarm kPingTimeout).1)
    (hunanswered : t.unanswered = s.unanswered) : Phased t := by
  have hidle := (h.identified.alarm (h.starting hphase)).2
  have hcan : s.client.timers.canStart .pingTimeoutAlarm = true := by
    simp [Alarms.canStart, h.timers.hasCallback .pingTimeoutAlarm rfl, hidle]
  have hstarted := Alarms.Good.start_eq hcan kPingTimeout
  constructor
  case watching =>
    rw [hunanswered]
    refine fun _ => iff_of_true ?_ (h.written (.inr hphase))
    unfold pingTimeoutAlarm
    rw [htimers, hstarted]
    simpa using h.identified.nextId.1
  case past => exact h.past_of_same hnow hunanswered
  case due =>
    rw [hunanswered]
    intro _ _ time htime
    rw [htimers, hstarted]
    have hpast := h.past time htime
    refine ⟨s.client.timers.starts,
      s.client.timers.now + kPingTimeout * 1000000000, by simp [latest], ?_⟩
    omega
  all_goals simp [hnext]

/-- No ping waits for an answer, and the alarm has no message. -/
theorem phased_silent
    (hnext : t.client.io.pingPhase = .watching ∨ t.client.io.pingPhase = .outside)
    (hzero : t.client.pingTimeoutAlarm.messageId = 0)
    (hunanswered : t.unanswered = none) : Phased t := by
  constructor
  case outside => exact fun _ => ⟨hzero, hunanswered⟩
  case written => rcases hnext with hnext | hnext <;> simp [hnext]
  case starting => exact fun _ => hzero
  case watching =>
    rw [hunanswered]
    exact fun _ => iff_of_false (not_not.mpr hzero) (by simp)
  all_goals simp [hunanswered]

theorem phased_aside (h : Watched s) (hnow : s.client.timers.now ≤ t.client.timers.now)
    (hphase : t.client.io.pingPhase = s.client.io.pingPhase)
    (hleaves : LeavesPingTimeout s.client.timers t.client.timers)
    (hunanswered : t.unanswered = s.unanswered) : Phased t := by
  have hid : t.client.pingTimeoutAlarm.messageId =
      s.client.pingTimeoutAlarm.messageId := hleaves.messageId
  constructor
  case outside =>
    rw [hphase, hunanswered, hid]
    exact h.outside
  case written =>
    rw [hphase, hunanswered]
    exact h.written
  case starting =>
    rw [hphase, hid]
    exact h.starting
  case watching =>
    rw [hphase, hunanswered, hid]
    exact h.watching
  case past => exact h.past_of_same hnow hunanswered
  case due =>
    rw [hphase, hunanswered]
    intro hwatching hwaiting time htime
    obtain ⟨hbefore, hlatest⟩ := hleaves.waiting hwaiting
    unfold DueBehind
    rw [hlatest]
    exact h.due hwatching hbefore time htime

theorem phased_step (h : Watched s) (hclient : s.client.step action = some t.client)
    (hunanswered : t.unanswered = match s.client.pingEvent? action with
      | some true => some s.client.timers.now
      | some false => none
      | none => s.unanswered) : Phased t := by
  have hnow : s.client.timers.now ≤ t.client.timers.now := by
    rcases (timer_cases hclient).step with hsame | ⟨a, hstep⟩
    · exact Int.le_of_eq (by rw [hsame])
    · exact Alarms.now_step hstep
  cases ping_cases h.threads hclient with
  | written hevent hphase hnext htimers =>
      rw [hevent] at hunanswered
      exact phased_written hnow hnext hunanswered
  | reset hevent hphase hnext htimers =>
      rw [hevent] at hunanswered
      exact h.phased_reset hnow hphase hnext htimers hunanswered
  | started hevent hio haction hnext htimers =>
      rw [hevent] at hunanswered
      have hphase : s.client.io.pingPhase = .starting := by rw [hio]; rfl
      exact h.phased_started hnow hphase hnext htimers hunanswered
  | ended hevent hphase hnext htimers =>
      rw [hevent] at hunanswered
      exact phased_silent hnext (messageId_of_cancel htimers) hunanswered
  | begins hevent hphase hnext htimers =>
      rw [hevent] at hunanswered
      obtain ⟨hzero, hnone⟩ := h.outside hphase
      refine phased_silent (.inl hnext) ?_ (hunanswered.trans hnone)
      unfold pingTimeoutAlarm
      rw [htimers]
      exact hzero
  | aside hevent hphase hleaves =>
      rw [hevent] at hunanswered
      exact h.phased_aside hnow hphase hleaves hunanswered

theorem init : Watched {} := by
  have hid : ({} : PingWatch).client.pingTimeoutAlarm.messageId = 0 := rfl
  exact {
    toPhased := phased_silent (.inr rfl) hid rfl
    threads := .init
    timers := .init
    identified :=
      (((Alarms.identified_init _).setCallback _).setCallback _).setCallback _
    kept := fun hne => absurd hid hne
    gaveUp := by simp }

theorem step (h : Watched s) (hs : s.step action = some t) : Watched t := by
  obtain ⟨hclient, hunanswered, hgaveUp⟩ := of_map hs
  exact {
    toPhased := h.phased_step hclient hunanswered
    threads := h.threads.step hclient
    timers := h.timers.step hclient
    identified := h.identified_step hclient
    kept := h.kept_step hclient
    gaveUp := h.gaveUp_step hgaveUp }

theorem of_reachable {ok : PingWatch → Action → Prop}
    (h : Reachable PingWatch.step ok {} s) : Watched s :=
  h.invariant init fun _ _ _ _ hwatched _ hs => hwatched.step hs

end Watched

theorem client_of_reachable {ok : PingWatch → Action → Prop}
    (h : Reachable step ok {} s) : Reachable TcpClient.step AnyStep .init s.client :=
  h.project PingWatch.client fun _ action _ _ _ hs =>
    .single action trivial (of_map hs).1

theorem noneLost_of_reachable {ok : PingWatch → Action → Prop}
    (h : Reachable step ok {} s) (hfew : s.client.timers.starts < 4294967294) :
    s.client.timers.NoneLost :=
  .of_reachable (timers_of_reachable (client_of_reachable h)) hfew

/-- While a ping has no answer its alarm has fired, or its closure is on the way, due
no earlier than five seconds behind the ping; without such a ping the alarm is silent,
and no connection is given up.  In the two steps between the write of the ping and the
alarm's `Start`, `pingPhase` is not `watching`. -/
theorem ping_watched (h : Reachable step AnyStep {} s)
    (hfew : s.client.timers.starts < 4294967294) :
    (s.client.io.pingPhase = .watching →
      (∀ time, s.unanswered = some time →
        s.client.pingTimeoutAlarm.isAlarm = true ∨
          ∃ start deadline,
            s.client.timers.HasClosure .pingTimeoutAlarm start deadline ∧
              time + kPingTimeout * 1000000000 ≤ deadline) ∧
        (s.unanswered = none → s.client.pingTimeoutAlarm.isWaiting = false ∧
          s.client.pingTimeoutAlarm.isAlarm = false)) ∧
      ∀ entry ∈ s.gaveUp, entry.1.isSome = true := by
  have hwatched := Watched.of_reachable h
  refine ⟨fun hwatching => ⟨fun time htime => ?_, fun hnone => ?_⟩, hwatched.gaveUp⟩
  · have hid := (hwatched.watching hwatching).mpr (by rw [htime]; rfl)
    rcases hwatched.kept hid with hwaiting | hfired
    · obtain ⟨-, start, deadline, hlatest, hclosure⟩ :=
        (noneLost_of_reachable h hfew).waiting .pingTimeoutAlarm hwaiting
      obtain ⟨start', deadline', hlatest', hdue⟩ :=
        hwatched.due hwatching hwaiting time htime
      cases hlatest.symm.trans hlatest'
      exact .inr ⟨start, deadline, hclosure, hdue⟩
    · exact .inl hfired
  · have hid : s.client.pingTimeoutAlarm.messageId = 0 := by
      by_contra hne
      have hsome := (hwatched.watching hwatching).mp hne
      rw [hnone] at hsome
      cases hsome
    exact (hwatched.identified.alarm hid).symm

def pinged : List Action :=
  TcpClient.connecting ++
    [.io .none, .io .none, .tick 60000000000, .queue, .queue, .queue, .queue,
      .io (.selected false false), .io .none, .io .none, .io .none, .io .none, .io .none,
      .io .none, .io (.encoded true), .io .none, .io .none]

theorem ping_watched_pinged :
    ∃ s : PingWatch, s.unanswered = some 60000000000 ∧
      s.client.pingTimeoutAlarm.isAlarm = false ∧
      ∃ start deadline, s.client.timers.HasClosure .pingTimeoutAlarm start deadline ∧
        60000000000 + kPingTimeout * 1000000000 ≤ deadline := by
  have hmap : (run step {} pinged).map (fun s =>
      (s.unanswered, s.client.pingTimeoutAlarm.isAlarm, s.client.io.pingPhase,
        s.client.timers.starts)) = some (some 60000000000, false, .watching, 2) := by
    decide +kernel
  obtain ⟨s, hreach, hstate⟩ := Reachable.of_run_map hmap
  simp only [Prod.mk.injEq] at hstate
  obtain ⟨hunanswered, hfired, hphase, hstarts⟩ := hstate
  have hwatched := ((ping_watched hreach (by omega)).1 hphase).1 _ hunanswered
  rw [hfired] at hwatched
  exact ⟨s, hunanswered, hfired, hwatched.resolve_left nofun⟩

/-! ## How long it waits -/

/-- The queue takes the alarm's closure no earlier than it is due, and the alarm is not
started over a closure that the loop has in hand. -/
def OnSchedule (s : PingWatch) : Action → Prop
  | .queue => s.client.callback = .idle → s.client.timers.queue.loop = .top →
      s.client.timers.OnTime .pingTimeoutAlarm
  | .io _ => s.client.io = .startPingTimeout →
      ¬s.client.timers.Taken .pingTimeoutAlarm
  | _ => True

instance (timers : Alarms ClientAlarm) (a : ClientAlarm) : Decidable (timers.OnTime a) :=
  decidable_of_iff
    (∀ m ∈ timers.queue.messages.takeWhile (MessageQueue.isDue timers.now),
      m.callback.map (·.alarm) = some a → m.when ≤ timers.now)
    ⟨fun h m hm start hcallback => h m hm (by rw [hcallback]; rfl), fun h m hm ha => by
      obtain ⟨⟨b, start⟩, hcallback, rfl⟩ := Option.map_eq_some_iff.mp ha
      exact h m hm start hcallback⟩

instance (timers : Alarms ClientAlarm) (a : ClientAlarm) : Decidable (timers.Taken a) :=
  match hloop : timers.queue.loop with
  | .calling messageId posted pass =>
      decidable_of_iff (timers.firing = false ∧ posted.alarm = a)
        ⟨fun ⟨hfiring, ha⟩ => ⟨hfiring, messageId, posted.start, pass, by rw [hloop, ← ha]⟩,
          fun ⟨hfiring, _, _, _, h⟩ => ⟨hfiring, by rw [hloop] at h; cases h; rfl⟩⟩
  | .top => .isFalse fun ⟨_, _, _, _, h⟩ => by rw [hloop] at h; cases h
  | .next _ => .isFalse fun ⟨_, _, _, _, h⟩ => by rw [hloop] at h; cases h
  | .waiting _ => .isFalse fun ⟨_, _, _, _, h⟩ => by rw [hloop] at h; cases h

instance (s : PingWatch) : (action : Action) → Decidable (OnSchedule s action)
  | .queue => inferInstanceAs (Decidable (_ → _ → _))
  | .io _ => inferInstanceAs (Decidable (_ → _))
  | .user _ => .isTrue trivial
  | .tick _ => .isTrue trivial
  | .pipes _ => .isTrue trivial

/-- The alarm fires for the last ping, five seconds behind it. -/
structure InTime (s : PingWatch) : Prop where
  good : s.client.timers.Good .pingTimeoutAlarm
  fired : s.client.io.pingPhase = .watching →
    s.client.pingTimeoutAlarm.isAlarm = true → ∀ time, s.unanswered = some time →
      time + kPingTimeout * 1000000000 ≤ s.client.timers.now
  gaveUp : ∀ entry ∈ s.gaveUp, ∃ time, entry.1 = some time ∧
    time + kPingTimeout * 1000000000 ≤ entry.2

namespace InTime

theorem init : InTime {} where
  good := by
    have hset {timers : Alarms ClientAlarm} (hgood : timers.Good .pingTimeoutAlarm)
        (a : ClientAlarm) : (timers.setCallback a).Good .pingTimeoutAlarm := by
      have hstep : timers.step (.setCallback a) = some (timers.setCallback a) := rfl
      refine Alarms.Good.step hgood ?_ hstep
      trivial
    exact hset (hset (hset (.init _) _) _) _
  fired := nofun
  gaveUp := by simp

private theorem good_step (h : s.client.timers.Good .pingTimeoutAlarm)
    (hnone : s.client.timers.NoneLost) (hok : OnSchedule s action)
    (hcases : TimerCases s.client action t.client) :
    t.client.timers.Good .pingTimeoutAlarm := by
  have fresh (b : ClientAlarm) (hb : b ≠ .pingTimeoutAlarm) (afterSec : Int) :
      Alarms.Undisturbed .pingTimeoutAlarm s.client.timers (.start b afterSec) :=
    fun _ => ⟨hnone.freshId, fun heq => absurd heq hb⟩
  cases hcases with
  | io event haction a halarm hstep =>
      refine Alarms.Good.step h ?_ hstep
      subst haction
      generalize hio : s.client.io = pc, t.client.io = next at halarm
      cases halarm with
      | startPingTimeout => exact fun _ => ⟨hnone.freshId, fun _ => hok hio⟩
      | startPing | restartPing | reconnect => exact fresh _ (by simp) _
      | setUserData | setCallback | cancelPing | pingResp | resetPingTimeout | leave
        | leavePingTimeout => trivial
  | requests hrequests =>
      generalize t.client.timers = timers at hrequests
      cases hrequests with
      | same => exact h
      | start n afterSec =>
          exact Alarms.Good.step h (fresh (.request n) nofun afterSec) (step_start _ _ _)
      | cancel n =>
          refine Alarms.Good.step h ?_ (step_cancel _ _)
          trivial
  | loop haction hidle hstep =>
      refine Alarms.Good.step h ?_ hstep
      subst haction
      unfold loopAction
      split
      · exact hok hidle ‹_›
      all_goals trivial
  | returned hstep =>
      refine Alarms.Good.step h ?_ hstep
      trivial
  | tick nanoseconds hstep =>
      refine Alarms.Good.step h ?_ hstep
      trivial

private theorem fired_of_leaves {timers timers' : Alarms ClientAlarm}
    (h : timers.Good .pingTimeoutAlarm) (hleaves : LeavesPingTimeout timers timers')
    (hfired : (timers'.alarms .pingTimeoutAlarm).isAlarm = true) :
    (timers.alarms .pingTimeoutAlarm).isAlarm = true ∨
      (timers.alarms .pingTimeoutAlarm).isWaiting = true ∧ ∃ start deadline,
        latest .pingTimeoutAlarm timers.log = some (start, deadline) ∧
          deadline ≤ timers.now := by
  rcases hleaves with rfl | ⟨a, hstep, -⟩
  · exact .inl hfired
  · by_cases hfire : a = .fire
    · subst hfire
      cases Alarms.step_alarm hstep .pingTimeoutAlarm with
      | same heq => exact .inl (heq ▸ hfired)
      | fire messageId start pass hne hfiring hloop =>
          obtain ⟨hwaiting, deadline, hlatest, hdue⟩ :=
            Alarms.Good.due_of_fire h hstep hfiring hloop
          exact .inr ⟨hwaiting, start, deadline, hlatest, hdue⟩
    · exact .inl (Alarms.isAlarm_step hstep hfire hfired)

theorem step (h : InTime s) (hwatched : Watched s) (hnone : s.client.timers.NoneLost)
    (hok : OnSchedule s action) (hs : s.step action = some t) : InTime t := by
  obtain ⟨hclient, hunanswered, hgaveUp⟩ := of_map hs
  refine ⟨good_step h.good hnone hok (timer_cases hclient), ?_, ?_⟩
  · intro hwatching hfired
    cases ping_cases hwatched.threads hclient with
    | written hevent hphase hnext =>
        rw [hnext] at hwatching
        cases hwatching
    | reset hevent hphase hnext =>
        rw [hnext] at hwatching
        cases hwatching
    | started hevent hio haction hnext hsame =>
        have hwaiting := Alarms.isWaiting_start
          (hwatched.timers.hasCallback .pingTimeoutAlarm rfl) kPingTimeout
        unfold pingTimeoutAlarm at hfired
        rw [hsame, Alarm.isAlarm_of_isWaiting hwaiting] at hfired
        cases hfired
    | ended hevent =>
        simp only [hevent] at hunanswered
        rw [hunanswered]
        nofun
    | begins hevent hphase =>
        simp only [hevent] at hunanswered
        rw [hunanswered, (hwatched.outside hphase).2]
        nofun
    | aside hevent hphase hleaves =>
        simp only [hevent] at hunanswered
        rw [hunanswered]
        rw [hphase] at hwatching
        intro time htime
        have hnow : s.client.timers.now ≤ t.client.timers.now := hleaves.now
        rcases fired_of_leaves h.good hleaves hfired with hbefore | ⟨hwaiting, hfire⟩
        · exact Int.le_trans (h.fired hwatching hbefore time htime) hnow
        · obtain ⟨start, deadline, hlatest, hdue⟩ := hfire
          obtain ⟨start', deadline', hlatest', hbehind⟩ :=
            hwatched.due hwatching hwaiting time htime
          cases hlatest.symm.trans hlatest'
          omega
  · rw [hgaveUp]
    split
    · next hgives =>
        obtain ⟨hphase, hfired, hsome⟩ := hwatched.unanswered_of_givesUp hgives
        obtain ⟨time, htime⟩ := Option.isSome_iff_exists.mp hsome
        intro entry hentry
        rcases List.mem_cons.mp hentry with rfl | hentry
        · exact ⟨time, htime, h.fired hphase hfired time htime⟩
        · exact h.gaveUp entry hentry
    · exact h.gaveUp

theorem of_reachable (h : Reachable PingWatch.step OnSchedule {} s)
    (hfew : s.client.timers.starts < 4294967294) : InTime s := by
  have hstep (u : PingWatch) (action : Action) (v : PingWatch)
      (hu : Reachable PingWatch.step OnSchedule {} u)
      (hbefore : u.client.timers.starts < 4294967294 → InTime u)
      (hok : OnSchedule u action) (hs : u.step action = some v)
      (hfew : v.client.timers.starts < 4294967294) : InTime v := by
    have hle : u.client.timers.starts ≤ v.client.timers.starts := by
      rcases (timer_cases (of_map hs).1).step with hsame | ⟨a, hstep⟩
      · exact Nat.le_of_eq (by rw [hsame])
      · exact Alarms.NoneLost.starts_step hstep
    have hfew' := Nat.lt_of_le_of_lt hle hfew
    exact (hbefore hfew').step (.of_reachable hu) (noneLost_of_reachable hu hfew') hok hs
  exact h.invariant (fun _ => init) hstep hfew

end InTime

/-- Where the queue keeps to the alarm's time, a connection is given up only for a
ping that has had no answer for five seconds. -/
theorem gaveUp_in_time (h : Reachable step OnSchedule {} s)
    (hfew : s.client.timers.starts < 4294967294) :
    ∀ entry ∈ s.gaveUp, ∃ time, entry.1 = some time ∧
      time + kPingTimeout * 1000000000 ≤ entry.2 :=
  (InTime.of_reachable h hfew).gaveUp

def unansweredPing : List Action :=
  pinged ++ [.io .none, .io .none, .tick 5000000000] ++ List.replicate 6 .queue ++
    [.io (.selected false false), .io .none, .io .none, .io .none]

theorem gaveUp_in_time_unansweredPing :
    ∃ s : PingWatch, s.gaveUp = [(some 60000000000, 65000000000)] ∧
      ∀ entry ∈ s.gaveUp, ∃ time, entry.1 = some time ∧
        time + kPingTimeout * 1000000000 ≤ entry.2 := by
  have hmap : (run step {} unansweredPing).map (fun s =>
      (s.gaveUp, s.client.timers.starts)) =
        some ([(some 60000000000, 65000000000)], 3) := by
    decide +kernel
  obtain ⟨s, hrun, hstate⟩ := Option.map_eq_some_iff.mp hmap
  simp only [Prod.mk.injEq] at hstate
  obtain ⟨hgaveUp, hstarts⟩ := hstate
  have hreach : Reachable step OnSchedule {} s := .of_meets (by decide +kernel) hrun
  exact ⟨s, hgaveUp, gaveUp_in_time hreach (by omega)⟩

end PingWatch

end GoSocket.Client
