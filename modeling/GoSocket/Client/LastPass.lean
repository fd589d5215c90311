import GoSocket.Client.FrontMessage
import GoSocket.Foundation.Tally

/-!
# The last pass of the loop

`__RunReadWrite` looks at `_disCode` once in a pass, behind its `Select`.  Where a code
is set behind that look, the rest of the pass is still done, and where it is set in
`__RunConnect`, the connection is still made.
-/

namespace GoSocket.Client

open GoSocket.Common GoSocket.Foundation

/-- What the I/O thread does with the socket; `connect` is all of `__RunConnect`, which
writes the `Connect` and decodes the `ConnAck`. -/
inductive PassAct where
  | connect
  | write
  | decode
  | ping
  | poll
  deriving DecidableEq, Repr

namespace IoPc

def act : IoPc → List PassAct
  | .runConnect => [.connect]
  | .encode _ => [.write]
  | .read true => [.decode]
  | .sendPing => [.ping]
  | .select _ => [.poll]
  | _ => []

def remaining : IoPc → List PassAct
  | .checkPingTimeout _ _ | .checkQueue _ _ | .encode _ =>
      [.write, .decode, .ping, .poll]
  | .getAlarm _ _ | .setUserData _ _ _ | .setCallback _ _ _ | .startAlarm _ _ _
  | .recordAlarm _ _ _ | .pop _ | .cancelPing _ | .restartPing _ | .read _ =>
      [.decode, .ping, .poll]
  | .cancelPingTimeout | .cancelTimer _ | .getCallback _ | .callBack _
  | .disconnectAsync | .disconnecting | .checkPing | .sendPing => [.ping, .poll]
  | .start | .runConnect => [.connect, .poll]
  | .setConnectStatus _ | .resetPingTimeout | .startPingTimeout | .loop | .sample
  | .select _ => [.poll]
  | .clear _ _ _ | .checkDisCode _ _ _ | .leave | .leavePingTimeout
  | .setDisconnected | .startReconnect | .finished => []

/-- The steps of `__Run` that are left as long as a code is set, without those inside
of `DisconnectAsync`. -/
def stepsLeft : IoPc → Nat
  | .finished => 0
  | .startReconnect => 1
  | .setDisconnected => 2
  | .leavePingTimeout => 3
  | .leave => 4
  | .checkDisCode _ _ _ => 5
  | .clear _ _ _ => 6
  | .select _ => 7
  | .sample => 8
  | .loop => 9
  | .setConnectStatus _ => 10
  | .runConnect => 11
  | .start => 12
  | .startPingTimeout => 10
  | .resetPingTimeout => 11
  | .sendPing => 12
  | .checkPing => 13
  | .disconnecting => 14
  | .disconnectAsync => 15
  | .cancelPingTimeout => 14
  | .callBack _ => 14
  | .getCallback _ => 15
  | .cancelTimer _ => 16
  | .read _ => 17
  | .restartPing _ => 18
  | .cancelPing _ => 19
  | .pop _ => 20
  | .recordAlarm _ _ _ => 21
  | .startAlarm _ _ _ => 22
  | .setCallback _ _ _ => 23
  | .setUserData _ _ _ => 24
  | .getAlarm _ _ => 25
  | .encode _ => 26
  | .checkQueue _ _ => 27
  | .checkPingTimeout _ _ => 28

theorem remaining_sublist (io : IoPc) :
    io.remaining.Sublist [.connect, .write, .decode, .ping, .poll] := by
  cases io <;> simp only [remaining] <;> decide

theorem stepsLeft_le (io : IoPc) : io.stepsLeft ≤ 28 := by
  cases io <;> simp [stepsLeft]

/-- The step that leads there leaves less to be done. -/
structure LeadsTo (io next : IoPc) : Prop where
  acts : (io.act ++ next.remaining).Sublist io.remaining
  steps : next.stepsLeft < io.stepsLeft

end IoPc

namespace TcpClient

variable {s t : TcpClient} {action : Action}

theorem IoMove.leadsTo {io : IoPc} (h : IoMove s io) (hcode : s.disCode ≠ .kDisCodeNone) :
    s.io.LeadsTo io := by
  cases h with
  | checkDisCode readable writable hio hnone => exact absurd hnone hcode
  | _ => constructor <;> simp [*, IoPc.act, IoPc.remaining, IoPc.stepsLeft]

theorem IoAlarm.leadsTo {io next : IoPc} {action : AlarmAction ClientAlarm}
    (h : IoAlarm io action next) : io.LeadsTo next := by
  cases h <;> constructor <;> simp [IoPc.act, IoPc.remaining, IoPc.stepsLeft]

theorem IoStatus.leadsTo {io next : IoPc} {status : ConnectStatus}
    (h : IoStatus io status next) : io.LeadsTo next := by
  cases h <;> constructor <;> simp [IoPc.act, IoPc.remaining, IoPc.stepsLeft]

theorem IoTimer.leadsTo {u : TcpClient} {io : IoPc} (h : IoTimer s u io) :
    s.io.LeadsTo io := by
  cases h <;> constructor <;> simp [*, IoPc.act, IoPc.remaining, IoPc.stepsLeft]

/-! ## What is left -/

def remaining (self : TcpClient) : List PassAct :=
  if self.disCode = .kDisCodeNone then [] else self.io.remaining

def stepsLeft (self : TcpClient) : Nat :=
  if self.disCode = .kDisCodeNone then 0 else self.io.stepsLeft

/-- Where `__Run` takes the step, outside of `DisconnectAsync`. -/
def moves (self : TcpClient) : Action → List IoPc
  | .io _ => if self.io = .disconnecting then [] else [self.io]
  | _ => []

/-- What was done from that place on, and what is left, were left there. -/
structure WindsDown (origin : IoPc) (moved : List IoPc) (s : TcpClient) : Prop where
  acts : (moved.reverse.flatMap IoPc.act ++ s.remaining).Sublist origin.remaining
  steps : moved.length + s.stepsLeft ≤ origin.stepsLeft

theorem remaining_sublist (s : TcpClient) : s.remaining.Sublist s.io.remaining := by
  unfold remaining
  split
  · exact List.nil_sublist _
  · exact List.Sublist.refl _

theorem stepsLeft_le (s : TcpClient) : s.stepsLeft ≤ s.io.stepsLeft := by
  unfold stepsLeft
  split
  · exact Nat.zero_le _
  · exact Nat.le_refl _

private theorem WindsDown.of_still (hmoves : s.moves action = [])
    (h : t.io = s.io ∨ t.disCode = .kDisCodeNone) : WindsDown s.io (s.moves action) t := by
  rcases h with hsame | hnone
  · constructor
    · rw [hmoves, ← hsame]
      exact t.remaining_sublist
    · rw [hmoves, ← hsame, List.length_nil, Nat.zero_add]
      exact t.stepsLeft_le
  · constructor
    · simp [hmoves, remaining, hnone]
    · simp [hmoves, stepsLeft, hnone]

private theorem WindsDown.of_leadsTo {event : IoEvent} (h : s.io.LeadsTo t.io) :
    WindsDown s.io (s.moves (.io event)) t := by
  have hacts : ((s.moves (.io event)).reverse.flatMap IoPc.act).Sublist s.io.act := by
    unfold moves
    dsimp only
    split
    · exact List.nil_sublist _
    · rw [List.reverse_singleton, List.flatMap_singleton]
  have hlength : (s.moves (.io event)).length ≤ 1 := by
    unfold moves
    dsimp only
    split <;> simp
  refine ⟨(hacts.append t.remaining_sublist).trans h.acts, ?_⟩
  have hleft := t.stepsLeft_le
  have hlt := h.steps
  omega

private theorem windsDown_io (hcode : s.disCode ≠ .kDisCodeNone) {event : IoEvent}
    (hs : s.ioStep event = some t) : WindsDown s.io (s.moves (.io event)) t := by
  have direct {io : IoPc} (hio : s.io = io) (h : io.LeadsTo t.io) :
      WindsDown s.io (s.moves (.io event)) t :=
    .of_leadsTo (hio ▸ h)
  cases ioStep_cases hs with
  | move io hmove => exact .of_leadsTo (hmove.leadsTo hcode)
  | alarm action timers io halarm => exact .of_leadsTo halarm.leadsTo
  | status status io hstatus => exact .of_leadsTo hstatus.leadsTo
  | timer u io htimer => exact .of_leadsTo htimer.leadsTo
  | encode readable queued rest hio hqueue =>
      refine direct hio ?_
      show (IoPc.encode readable).LeadsTo (behindEncode readable queued.call queued.message)
      unfold behindEncode
      split <;> constructor <;> simp [IoPc.act, IoPc.remaining, IoPc.stepsLeft]
  | inside next hio hmutex =>
      exact .of_still (by simp [moves, hio])
        ((s.front_proceed .io next).imp And.left And.right)
  | refuse ret hio | clear error readable writable hio | pingTimeout readable writable hio
    | pop readable hio hmutex | noCallback messageId hio hnone
    | takeCallback messageId call hio hsome | callBack call hio | enter hio hmutex =>
      refine direct hio ?_
      constructor <;> simp [IoPc.act, IoPc.remaining, IoPc.stepsLeft]

theorem windsDown_step (hcode : s.disCode ≠ .kDisCodeNone)
    (hs : s.step action = some t) : WindsDown s.io (s.moves action) t := by
  cases action with
  | io event => exact windsDown_io hcode hs
  | _ => exact .of_still rfl ((front_aside (by simp) hs).imp And.left And.right)

theorem WindsDown.refl (s : TcpClient) : WindsDown s.io [] s :=
  ⟨s.remaining_sublist, by simpa using s.stepsLeft_le⟩

theorem WindsDown.step {origin : IoPc} {moved : List IoPc} (h : WindsDown origin moved s)
    (hcode : s.disCode ≠ .kDisCodeNone) (hs : s.step action = some t) :
    WindsDown origin (s.moves action ++ moved) t := by
  have hnext := windsDown_step hcode hs
  have hremaining : s.remaining = s.io.remaining := if_neg hcode
  have hleft : s.stepsLeft = s.io.stepsLeft := if_neg hcode
  constructor
  · rw [List.reverse_append, List.flatMap_append, List.append_assoc]
    exact ((hremaining ▸ hnext.acts).append_left _).trans h.acts
  · have hsteps := h.steps
    have hnextSteps := hnext.steps
    rw [List.length_append]
    omega

/-- As long as a code is set, `__Run` connects, writes, decodes and pings at most once
more, in that order, and then waits at most once; it takes at most 28 steps, not counting
those inside of `DisconnectAsync`. -/
theorem last_pass {actions : List Action}
    (hmeets : Meets step (fun u _ => u.disCode ≠ .kDisCodeNone) s actions)
    (hrun : run step s actions = some t) :
    ((tally step moves s actions).reverse.flatMap IoPc.act).Sublist s.io.remaining ∧
      s.io.remaining.Sublist [.connect, .write, .decode, .ping, .poll] ∧
      (tally step moves s actions).length ≤ s.io.stepsLeft ∧ s.io.stepsLeft ≤ 28 := by
  have hstep (u : TcpClient) (action : Action) (v : TcpClient) (moved : List IoPc)
      (h : WindsDown s.io moved u) (hcode : u.disCode ≠ .kDisCodeNone)
      (hs : u.step action = some v) : WindsDown s.io (u.moves action ++ moved) v :=
    h.step hcode hs
  have hwound := tally_run hstep (.refl s) hmeets hrun
  rw [List.append_nil] at hwound
  have hsteps := hwound.steps
  exact ⟨(List.sublist_append_left _ _).trans hwound.acts, s.io.remaining_sublist,
    by omega, s.io.stepsLeft_le⟩

def loggingOut : List Action :=
  encoding ++ [.user (.disconnectAsync .kDisCodeLogout false), .user .proceed]

def windingDown : List Action :=
  List.replicate 3 (.user .proceed) ++ [.io (.encoded true)] ++
    List.replicate 8 (.io .none) ++ [.io (.received (some (.pingResp {})))] ++
    List.replicate 4 (.io .none) ++ [.io (.selected true false)] ++
    List.replicate 6 (.io .none)

theorem last_pass_loggingOut :
    ∃ s t : TcpClient, run step s windingDown = some t ∧ t.io = .finished ∧
      (tally step moves s windingDown).reverse.flatMap IoPc.act =
        [.write, .decode, .poll] ∧
      ((tally step moves s windingDown).reverse.flatMap IoPc.act).Sublist
        s.io.remaining ∧
      s.io.remaining.Sublist [.connect, .write, .decode, .ping, .poll] ∧
      (tally step moves s windingDown).length ≤ s.io.stepsLeft ∧
      s.io.stepsLeft ≤ 28 := by
  have hmap : (run step init loggingOut).bind (fun s => (run step s windingDown).map
      fun t => (t.io, (tally step moves s windingDown).reverse.flatMap IoPc.act,
        decide (Meets step (fun u _ => u.disCode ≠ .kDisCodeNone) s windingDown))) =
          some (.finished, [.write, .decode, .poll], true) := by
    decide +kernel
  obtain ⟨s, hs, hmap⟩ := Option.bind_eq_some_iff.mp hmap
  obtain ⟨t, hrun, hstate⟩ := Option.map_eq_some_iff.mp hmap
  simp only [Prod.mk.injEq, decide_eq_true_eq] at hstate
  obtain ⟨hio, hacts, hmeets⟩ := hstate
  exact ⟨s, t, hrun, hio, hacts, last_pass hmeets hrun⟩

end TcpClient

end GoSocket.Client
