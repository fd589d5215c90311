import GoSocket.Client.Requests
import GoSocket.Foundation.Rounds

/-!
# What the status observer sees

`__SetConnectStatus` compares, stores and calls `_onStatusChange`, and takes no
lock for it; `MakeSureConnected` stores a status with the lock, and calls nobody.
The steps of a client are seen here with these three apart.
-/

namespace GoSocket.Client

open GoSocket.Common GoSocket.Foundation

open TcpClient (connectStatusOf)

/-- Where the I/O thread stands inside `__SetConnectStatus`. -/
inductive StatusPc where
  -- it is not inside, or has not compared yet
  | outside
  | store (status : ConnectStatus)
  | call (status : ConnectStatus)
  deriving DecidableEq, Repr

/-- The status that `__SetConnectStatus` is called with at that place. -/
def IoPc.status? : IoPc → Option ConnectStatus
  | .start => some .kConnecting
  | .setConnectStatus ret => some (connectStatusOf ret)
  | .setDisconnected => some .kDisconnected
  | _ => none

structure StatusTrace where
  client : TcpClient := .init
  -- whether `_onStatusChange` is not `NULL`
  notifies : Bool
  statusPc : StatusPc := .outside
  -- what `_onStatusChange` was called with, in the order of the calls
  statuses : List ConnectStatus := []
  returned : Nat := 0

namespace StatusTrace

/-- The I/O threads that have been started and have not returned. -/
def ioThreads (self : StatusTrace) : Nat :=
  self.client.history.sessions - self.returned

def move (self : StatusTrace) (action : Action) : Option StatusTrace :=
  (self.client.step action).map fun client =>
    { self with
      client
      returned :=
        if self.client.io = .startReconnect ∧ client.io = .finished then
          self.returned + 1
        else self.returned }

def ioStep (self : StatusTrace) (event : IoEvent) : Option StatusTrace :=
  match self.statusPc, self.client.io.status? with
  | .outside, some status =>
      if status = self.client.connectStatus then self.move (.io event)
      else some { self with statusPc := .store status }
  | .outside, none => self.move (.io event)
  | .store status, _ =>
      (self.move (.io event)).map fun self =>
        { self with statusPc := .call status }
  | .call status, _ =>
      some { self with
        statusPc := .outside
        statuses :=
          if self.notifies then self.statuses ++ [status] else self.statuses }

def step (self : StatusTrace) : Action → Option StatusTrace
  | .io event => self.ioStep event
  | action => self.move action

end StatusTrace

def ConnectStatus.isResult : ConnectStatus → Bool
  | .kConnected => true
  | .kConnectFailed => true
  | .kConnectKickout => true
  | _ => false

/-- What the observer sees of one session. -/
def StatusRound (statuses : List ConnectStatus) : Prop :=
  ∃ result : ConnectStatus, result.isResult = true ∧
    statuses = [.kConnecting, result, .kDisconnected]

/-! ## What a step of the client means for the session -/

def IoPc.stored : IoPc → Nat
  | .finished => 0
  | .start => 0
  | .runConnect => 1
  | .setConnectStatus _ => 1
  | .startReconnect => 0
  | _ => 2

namespace TcpClient

variable {s t : TcpClient} {action : Action}

theorem IoMove.session {io : IoPc} (h : IoMove s io) :
    s.io.status? = none ∧ (io ≠ .start ∧ io ≠ .finished) ∧
      io.stored = s.io.stored := by
  cases h <;> simp [*, IoPc.status?, IoPc.stored]

theorem IoAlarm.session {io next : IoPc} {a : AlarmAction ClientAlarm}
    (h : IoAlarm io a next) : io = .startReconnect ∧ next = .finished ∨
      io.status? = none ∧ (next ≠ .start ∧ next ≠ .finished) ∧
        next.stored = io.stored := by
  cases h <;> simp [IoPc.status?, IoPc.stored]

theorem IoStatus.status? {io next : IoPc} {status : ConnectStatus}
    (h : IoStatus io status next) : io.status? = some status := by
  cases h <;> rfl

theorem IoStatus.staysInside {io next : IoPc} {status : ConnectStatus}
    (h : IoStatus io status next) : next ≠ .finished := by
  cases h <;> simp

theorem IoTimer.session {u : TcpClient} {io : IoPc} (h : IoTimer s u io) :
    s.io.status? = none ∧ (io ≠ .start ∧ io ≠ .finished) ∧
      io.stored = s.io.stored := by
  cases h <;> simp [*, IoPc.status?, IoPc.stored]

theorem behindEncode_session (readable : Bool) (call : Nat)
    (message : Packet.MessageBase) :
    (behindEncode readable call message ≠ .start ∧
        behindEncode readable call message ≠ .finished) ∧
      (behindEncode readable call message).stored = 2 := by
  unfold behindEncode
  split <;> simp [IoPc.stored]

inductive SessionCases (s : TcpClient) (action : Action) (t : TcpClient) : Prop
  | begins (hio : s.io = .finished) (hnext : t.io = .start)
      (hstatus : t.connectStatus = .kConnectIdle)
      (hsessions : t.history.sessions = s.history.sessions + 1)
  | sets (event : IoEvent) (haction : action = .io event)
      (h : IoStatus s.io t.connectStatus t.io)
      (hsessions : t.history.sessions = s.history.sessions)
  | returns (hio : s.io = .startReconnect) (hnext : t.io = .finished)
      (hstatus : t.connectStatus = s.connectStatus)
      (hsessions : t.history.sessions = s.history.sessions)
  | inside (hio : s.io.status? = none) (hrunning : s.io ≠ .finished)
      (hnext : t.io ≠ .start ∧ t.io ≠ .finished)
      (hstored : t.io.stored = s.io.stored)
      (hstatus : t.connectStatus = s.connectStatus)
      (hsessions : t.history.sessions = s.history.sessions)
  | aside (haction : ∀ event, action ≠ .io event) (hio : t.io = s.io)
      (hstatus : t.connectStatus = s.connectStatus)
      (hsessions : t.history.sessions = s.history.sessions)

namespace SessionCases

private theorem proceed (h : Threads s) (action : Action) {holder : Holder}
    {next : Section} (hmutex : s.mutex = some (holder, next)) :
    SessionCases s action (s.proceed holder next) ∧ s.io = .finished ∨
      (s.proceed holder next).io = s.io ∧
        (s.proceed holder next).connectStatus = s.connectStatus ∧
        (s.proceed holder next).history.sessions = s.history.sessions := by
  cases next with
  | connect =>
      simp only [TcpClient.proceed]
      split
      · exact .inr ⟨rfl, rfl, rfl⟩
      · next hnull =>
          have hio := h.finished_of_connect hmutex (Bool.eq_false_iff.mpr hnull)
          exact .inl ⟨.begins hio rfl rfl rfl, hio⟩
  | _ => exact .inr ⟨rfl, rfl, rfl⟩

private theorem userStep (h : Threads s) {call : UserCall}
    (hs : s.userStep call = some t) : SessionCases s (.user call) t := by
  have haction (event : IoEvent) : Action.user call ≠ .io event := by simp
  cases userStep_cases hs with
  | enterConnect hfree => exact .aside haction rfl rfl rfl
  | enterDisconnect code shouldReconnect hfree => exact .aside haction rfl rfl rfl
  | enterSend type payload data hasCallback hfree =>
      obtain ⟨mutex, calls, invoked, heq⟩ :=
        s.enterSend_eq type payload data hasCallback
      rw [heq]
      exact .aside haction rfl rfl rfl
  | enterPush message hfree =>
      obtain ⟨mutex, calls, heq⟩ := s.enterPush_eq message
      rw [heq]
      exact .aside haction rfl rfl rfl
  | inside next hcall hmutex =>
      rcases proceed h _ hmutex with ⟨hbegins, -⟩ | ⟨hio, hstatus, hsessions⟩
      · exact hbegins
      · exact .aside haction hio hstatus hsessions

private theorem ioStep (h : Threads s) {event : IoEvent}
    (hs : s.ioStep event = some t) : SessionCases s (.io event) t := by
  cases ioStep_cases hs with
  | move io hmove =>
      obtain ⟨hio, hnext, hstored⟩ := hmove.session
      exact .inside hio hmove.running hnext hstored rfl rfl
  | alarm alarmAction timers io halarm =>
      rcases halarm.session with ⟨hio, rfl⟩ | ⟨hio, hnext, hstored⟩
      · exact .returns hio rfl rfl rfl
      · exact .inside hio halarm.running hnext hstored rfl rfl
  | status status io hstatus => exact .sets event rfl hstatus rfl
  | timer u io htimer =>
      obtain ⟨hio, hnext, hstored⟩ := htimer.session
      obtain ⟨timers, map, pool, created, armed, rfl⟩ := htimer.eq
      exact .inside hio htimer.running hnext hstored rfl rfl
  | inside next hio hmutex =>
      rcases proceed h (.io event) hmutex with ⟨-, hfinished⟩ | ⟨hsame, hstatus, hsessions⟩
      · cases hio.symm.trans hfinished
      · refine .inside ?_ ?_ ?_ ?_ hstatus hsessions
        all_goals simp [hsame, hio, IoPc.status?]
  | encode readable queued rest hio hqueue =>
      have hnext := behindEncode_session readable queued.call queued.message
      refine .inside ?_ ?_ hnext.1 ?_ rfl rfl
      · simp [hio, IoPc.status?]
      · simp [hio]
      · rw [hio]
        exact hnext.2
  | refuse | clear | pingTimeout | pop | noCallback | takeCallback | callBack
    | enter =>
      refine .inside ?_ ?_ ?_ ?_ rfl rfl
      all_goals simp [*, IoPc.status?, IoPc.stored]

private theorem queueStep (h : Threads s) (hs : s.queueStep = some t) :
    SessionCases s .queue t := by
  have haction (event : IoEvent) : Action.queue ≠ .io event := by simp
  cases queueStep_cases hs with
  | timer u callback htimer =>
      obtain ⟨timers, map, pool, canceled, rfl⟩ := htimer.eq
      exact .aside haction rfl rfl rfl
  | inside next hcallback hmutex =>
      rcases proceed h _ hmutex with ⟨hbegins, -⟩ | ⟨hio, hstatus, hsessions⟩
      · exact hbegins
      · exact .aside haction hio hstatus hsessions
  | _ => exact .aside haction rfl rfl rfl

theorem of_step (h : Threads s) (hs : s.step action = some t) :
    SessionCases s action t := by
  cases action with
  | user call => exact userStep h hs
  | io event => exact ioStep h hs
  | queue => exact queueStep h hs
  | tick nanoseconds =>
      cases hs
      exact .aside (by simp) rfl rfl rfl
  | pipes ok =>
      cases hs
      exact .aside (by simp) rfl rfl rfl

end SessionCases

def underWay (self : TcpClient) : List ConnectStatus :=
  [.kConnecting, self.connectStatus].take self.io.stored

/-- The status is the one that the place of the I/O thread tells. -/
structure StatusFits (s : TcpClient) : Prop where
  idle : s.io = .start → s.connectStatus = .kConnectIdle
  connecting : s.io.stored = 1 → s.connectStatus = .kConnecting
  result : s.io.stored = 2 → s.connectStatus.isResult = true

namespace StatusFits

theorem ne (h : StatusFits s) {status : ConnectStatus}
    (hstatus : s.io.status? = some status) : status ≠ s.connectStatus := by
  obtain ⟨hidle, hconnecting, hresult⟩ := h
  generalize s.io = io at hstatus hidle hconnecting hresult
  cases io with
  | start =>
      rw [hidle rfl]
      rintro rfl
      cases hstatus
  | setConnectStatus ret =>
      rw [hconnecting rfl]
      rintro rfl
      cases ret <;> cases hstatus
  | setDisconnected =>
      rintro rfl
      have hclosed := hresult rfl
      rw [← Option.some.inj hstatus] at hclosed
      cases hclosed
  | _ => cases hstatus

theorem set (h : IoStatus s.io t.connectStatus t.io) : StatusFits t := by
  have hfits : (t.io = .start → t.connectStatus = .kConnectIdle) ∧
      (t.io.stored = 1 → t.connectStatus = .kConnecting) ∧
        (t.io.stored = 2 → t.connectStatus.isResult = true) := by
    generalize s.io = io, t.io = next, t.connectStatus = status at h ⊢
    cases h with
    | failed ret hret =>
        refine ⟨by simp, by simp [IoPc.stored], fun _ => ?_⟩
        cases ret <;> rfl
    | _ => simp [IoPc.stored, ConnectStatus.isResult]
  obtain ⟨hidle, hconnecting, hresult⟩ := hfits
  exact ⟨hidle, hconnecting, hresult⟩

/-- A status that is stored belongs to the round under way, and the last one
closes it. -/
theorem round (h : StatusFits s) (hset : IoStatus s.io t.connectStatus t.io)
    {whole : List ConnectStatus} (hwhole : Rounds StatusRound whole) :
    ∃ whole', Rounds StatusRound whole' ∧
      whole ++ s.underWay ++ [t.connectStatus] = whole' ++ t.underWay := by
  have hresult := h.result
  unfold underWay
  generalize s.io = io, t.io = next, t.connectStatus = status at hset hresult
  cases hset with
  | disconnected =>
      have hround : StatusRound [.kConnecting, s.connectStatus, .kDisconnected] :=
        ⟨s.connectStatus, hresult rfl, rfl⟩
      exact ⟨_, hwhole.snoc hround, by simp [IoPc.stored]⟩
  | _ => exact ⟨whole, hwhole, by simp [IoPc.stored]⟩

end StatusFits

end TcpClient

/-! ## Every run -/

namespace StatusTrace

variable {s t : StatusTrace}

def coming (self : StatusTrace) : List ConnectStatus :=
  match self.statusPc with
  | .call status => [status]
  | _ => []

structure InRounds (s : StatusTrace) : Prop where
  statuses : s.notifies = true → ∃ whole, Rounds StatusRound whole ∧
    s.statuses ++ s.coming = whole ++ s.client.underWay
  silent : s.notifies = false → s.statuses = []
  fits : s.client.StatusFits
  storing : ∀ status, s.statusPc = .store status →
    s.client.io.status? = some status
  threads : s.client.history.sessions =
    s.returned + if s.client.io = .finished then 0 else 1

namespace InRounds

theorem init (notifies : Bool) : InRounds { notifies } := by
  constructor
  case statuses => exact fun _ => ⟨[], .nil, rfl⟩
  case fits => constructor <;> simp [TcpClient.init, IoPc.stored]
  all_goals simp [TcpClient.init]

private theorem elsewhere (h : InRounds s) {client : TcpClient} {returned : Nat}
    (hnone : s.client.io.status? = none)
    (hunderWay : client.underWay = s.client.underWay) (hfits : client.StatusFits)
    (hthreads : client.history.sessions =
      returned + if client.io = .finished then 0 else 1) :
    InRounds { s with client, returned } := by
  constructor
  case statuses =>
    dsimp only
    rw [hunderWay]
    exact h.statuses
  case silent => exact h.silent
  case fits => exact hfits
  case storing =>
    exact fun status hstore => by
      cases (h.storing status hstore).symm.trans hnone
  case threads => exact hthreads

private theorem move (h : InRounds s) (hthreads : s.client.Threads)
    {action : Action} (hs : s.move action = some t)
    (haction : (∀ event, action ≠ .io event) ∨ s.client.io.status? = none) :
    InRounds t := by
  obtain ⟨client, hclient, rfl⟩ := Option.map_eq_some_iff.mp hs
  have hthread := h.threads
  cases TcpClient.SessionCases.of_step hthreads hclient with
  | begins hio hnext hstatus hsessions =>
      have hunderWay : client.underWay = s.client.underWay := by
        rw [TcpClient.underWay, TcpClient.underWay, hio, hnext]
        rfl
      refine h.elsewhere (by rw [hio]; rfl) hunderWay ?_ ?_
      · constructor <;> simp [hnext, hstatus, IoPc.stored]
      · rw [hio] at hthread
        simp [hsessions, hthread, hio, hnext]
  | sets event hevent hset hsessions =>
      rcases haction with hother | hnone
      · exact absurd hevent (hother event)
      · cases hset.status?.symm.trans hnone
  | returns hio hnext hstatus hsessions =>
      have hunderWay : client.underWay = s.client.underWay := by
        rw [TcpClient.underWay, TcpClient.underWay, hio, hnext]
        rfl
      refine h.elsewhere (by rw [hio]; rfl) hunderWay ?_ ?_
      · constructor <;> simp [hnext, IoPc.stored]
      · rw [hio] at hthread
        simp [hsessions, hthread, hio, hnext]
  | inside hio hrunning hnext hstored hstatus hsessions =>
      have hunderWay : client.underWay = s.client.underWay := by
        rw [TcpClient.underWay, TcpClient.underWay, hstored, hstatus]
      refine h.elsewhere hio hunderWay ?_ ?_
      · constructor
        case idle => exact fun hstart => absurd hstart hnext.1
        case connecting =>
          rw [hstored, hstatus]
          exact h.fits.connecting
        case result =>
          rw [hstored, hstatus]
          exact h.fits.result
      · simp [hsessions, hthread, hnext.2, hrunning]
  | aside hother hio hstatus hsessions =>
      constructor
      case statuses =>
        have hstatuses := h.statuses
        rw [TcpClient.underWay, ← hio, ← hstatus] at hstatuses
        exact hstatuses
      case silent => exact h.silent
      case fits =>
        obtain ⟨hidle, hconnecting, hresult⟩ := h.fits
        rw [← hio, ← hstatus] at hidle hconnecting hresult
        exact ⟨hidle, hconnecting, hresult⟩
      case storing =>
        rw [hio]
        exact h.storing
      case threads =>
        rw [hio, hsessions, hthread]
        split <;> simp_all

private theorem store (h : InRounds s) (hthreads : s.client.Threads)
    {event : IoEvent} {status : ConnectStatus} (hpc : s.statusPc = .store status)
    (hs : s.move (.io event) = some t) :
    InRounds { t with statusPc := .call status } := by
  obtain ⟨client, hclient, rfl⟩ := Option.map_eq_some_iff.mp hs
  have hstatus := h.storing status hpc
  cases TcpClient.SessionCases.of_step hthreads hclient with
  | begins hio =>
      rw [hio] at hstatus
      cases hstatus
  | returns hio =>
      rw [hio] at hstatus
      cases hstatus
  | inside hio => cases hstatus.symm.trans hio
  | aside hother => exact absurd rfl (hother event)
  | sets event' _ hset hsessions =>
      have heq : status = client.connectStatus :=
        Option.some.inj (hstatus.symm.trans hset.status?)
      have hcoming : s.coming = [] := by rw [coming, hpc]
      constructor
      case statuses =>
        intro hnotifies
        obtain ⟨whole, hwhole, hstatuses⟩ := h.statuses hnotifies
        rw [hcoming, List.append_nil] at hstatuses
        obtain ⟨whole', hwhole', hround⟩ := h.fits.round hset hwhole
        refine ⟨whole', hwhole', ?_⟩
        rw [← hround, ← hstatuses, ← heq]
        rfl
      case silent => exact h.silent
      case fits => exact .set hset
      case storing => simp
      case threads =>
        simp [hsessions, h.threads, hset.running, hset.staysInside]

private theorem call (h : InRounds s) {status : ConnectStatus}
    (hpc : s.statusPc = .call status) :
    InRounds { s with
      statusPc := .outside
      statuses := if s.notifies then s.statuses ++ [status] else s.statuses } := by
  constructor
  case statuses =>
    intro hnotifies
    change s.notifies = true at hnotifies
    have hstatuses := h.statuses hnotifies
    rw [coming, hpc] at hstatuses
    simpa [coming, hnotifies] using hstatuses
  case silent =>
    intro hsilent
    change s.notifies = false at hsilent
    simp [hsilent, h.silent hsilent]
  case fits => exact h.fits
  case storing => simp
  case threads => exact h.threads

theorem step (h : InRounds s) (hthreads : s.client.Threads) {action : Action}
    (hs : s.step action = some t) : InRounds t := by
  cases action with
  | io event =>
      change s.ioStep event = some t at hs
      unfold ioStep at hs
      split at hs
      · next status hpc hstatus =>
          rw [if_neg (h.fits.ne hstatus)] at hs
          cases hs
          exact
            { h with
              statuses := by
                have hstatuses := h.statuses
                rwa [coming, hpc] at hstatuses
              storing := fun _ hstore => by
                cases hstore
                exact hstatus }
      · next hpc hnone => exact h.move hthreads hs (.inr hnone)
      · next status hpc =>
          obtain ⟨u, hmove, rfl⟩ := Option.map_eq_some_iff.mp hs
          exact h.store hthreads hpc hmove
      · next status hpc =>
          cases hs
          exact h.call hpc
  | _ => exact h.move hthreads hs (.inl (by simp))

theorem begins (h : InRounds s) : BeginsRounds StatusRound s.statuses := by
  cases hnotifies : s.notifies with
  | false =>
      rw [h.silent hnotifies]
      exact Rounds.nil.begins
  | true =>
      obtain ⟨whole, hwhole, hstatuses⟩ := h.statuses hnotifies
      have hstored : BeginsRounds StatusRound (whole ++ s.client.underWay) := by
        unfold TcpClient.underWay
        by_cases hresult : s.client.io.stored = 2
        · have hround : StatusRound
              [.kConnecting, s.client.connectStatus, .kDisconnected] :=
            ⟨s.client.connectStatus, h.fits.result hresult, rfl⟩
          rw [hresult]
          exact hwhole.begins_append hround ⟨[.kDisconnected], rfl⟩
        · have hround : StatusRound [.kConnecting, .kConnected, .kDisconnected] :=
            ⟨.kConnected, rfl, rfl⟩
          refine hwhole.begins_append hround ?_
          generalize s.client.io = io at hresult
          cases io <;> simp_all [IoPc.stored]
      rw [← hstatuses] at hstored
      exact hstored.of_prefix (List.prefix_append _ _)

end InRounds

theorem client_reachable {notifies : Bool}
    (h : Reachable step AnyStep { notifies } s) :
    Reachable TcpClient.step AnyStep .init s.client := by
  have hmove {u v : StatusTrace} {action : Action} (hs : u.move action = some v) :
      Reachable TcpClient.step AnyStep u.client v.client := by
    obtain ⟨client, hclient, rfl⟩ := Option.map_eq_some_iff.mp hs
    exact .single action trivial hclient
  refine h.project StatusTrace.client fun u action v _ _ hs => ?_
  cases action with
  | io event =>
      change u.ioStep event = some v at hs
      unfold ioStep at hs
      split at hs
      · split at hs
        · exact hmove hs
        · cases hs
          exact .refl
      · exact hmove hs
      · obtain ⟨w, hw, rfl⟩ := Option.map_eq_some_iff.mp hs
        have hreach := hmove hw
        exact hreach
      · cases hs
        exact .refl
  | _ => exact hmove hs

theorem inRounds_of_reachable {notifies : Bool}
    (h : Reachable step AnyStep { notifies } s) : InRounds s :=
  h.invariant (.init notifies) fun _ _ _ hreach hrounds _ hs =>
    hrounds.step (.of_reachable (client_reachable hreach)) hs

/-- One I/O thread at most, and whole rounds but for the last one. -/
theorem sessions_in_rounds {notifies : Bool}
    (h : Reachable step AnyStep { notifies } s) :
    s.ioThreads ≤ 1 ∧ BeginsRounds StatusRound s.statuses := by
  have hrounds := inRounds_of_reachable h
  have hthreads := hrounds.threads
  refine ⟨?_, hrounds.begins⟩
  unfold ioThreads
  split at hthreads <;> omega

def reconnected : List Action :=
  [.user .makeSureConnected, .user .proceed, .user .proceed] ++
    List.replicate 3 (.io .none) ++ [.io (.connected .kRetConnFailed)] ++
    List.replicate 7 (.io .none) ++ List.replicate 16 .queue ++
    List.replicate 3 (.io .none)

theorem sessions_in_rounds_reconnected : ∃ s : StatusTrace,
    s.statuses = [.kConnecting, .kConnectFailed, .kDisconnected, .kConnecting] ∧
      s.ioThreads ≤ 1 ∧ BeginsRounds StatusRound s.statuses := by
  have hmap : (run step { notifies := true } reconnected).map (·.statuses) =
      some [.kConnecting, .kConnectFailed, .kDisconnected, .kConnecting] := by
    decide +kernel
  obtain ⟨s, hreach, hstatuses⟩ := Reachable.of_run_map hmap
  exact ⟨s, hstatuses, sessions_in_rounds hreach⟩

end StatusTrace

end GoSocket.Client
