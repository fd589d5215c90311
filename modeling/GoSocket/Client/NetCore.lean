import GoSocket.Client.Delivery
import GoSocket.Client.KeepAlive

/-!
# The last frame of a session

`NetCore::DisconnectAsync` queues a `Disconnect` in one section of `_mutex` and
sets `_disCode` in another one.  The loop looks at `_disCode` before it looks at
the queue.  `NetCore` is the client, with the calls that stand between the two.
-/

namespace GoSocket.Client

open GoSocket.Common GoSocket.Foundation

def IoEvent.serves : IoEvent → Bool
  | .selectError => false
  | .selected _ writable => writable
  | .encoded ok => ok
  | .received message => message.isSome
  | _ => true

def IoPc.failed : IoPc → Bool
  | .clear error _ _ => error
  | .checkDisCode error _ _ => error
  | _ => false

/-- Between its look at `_disCode` and the frame that it writes. -/
def IoPc.beforeWrite : IoPc → Bool
  | .checkPingTimeout _ writable => writable
  | .checkQueue _ writable => writable
  | .encode _ => true
  | _ => false

namespace TcpClient

/-- The step writes a code into `_disCode`. -/
def setsCode (self : TcpClient) (action : Action) : Bool :=
  match action, self.mutex, self.io with
  | .user .proceed, some (.user, .disconnect code _), _ => code ≠ .kDisCodeNone
  | .queue, some (.queue, .disconnect code _), _ => code ≠ .kDisCodeNone
  | .io _, some (.io, .disconnect code _), .disconnecting => code ≠ .kDisCodeNone
  | .io _, _, .checkPingTimeout _ _ =>
      (self.timers.alarms .pingTimeoutAlarm).isAlarm
  | _, _, _ => false

def headCall? (self : TcpClient) : Option Nat :=
  self.messageQueue.head?.map (·.call)

/-- The loop is past its look at `_disCode`, and the frame is the one it writes. -/
def writesNext (self : TcpClient) (call : Nat) : Bool :=
  self.headCall? = some call &&
    match self.io with
    | .checkPingTimeout _ writable =>
        writable && !(self.timers.alarms .pingTimeoutAlarm).isAlarm
    | io => io.beforeWrite

end TcpClient

structure NetCore where
  client : TcpClient := .init
  -- what the calls that have begun will pass on to `_client.DisconnectAsync`
  calls : List (DisconnectCode × Bool) := []
  -- the frames of the calls that found `kConnected`, behind their sessions
  frames : List (Nat × Nat) := []

inductive NetCoreAction where
  -- `DisconnectAsync` up to the check of the status in `SendDisconnect`
  | sendDisconnect (code : DisconnectCode) (shouldReconnect : Bool)
  | disconnectAsync (code : DisconnectCode) (shouldReconnect : Bool)
  | client (action : Action)
  deriving DecidableEq, Repr

namespace NetCore

def step (self : NetCore) : NetCoreAction → Option NetCore
  | .sendDisconnect code shouldReconnect =>
      (self.client.step (.user .sendDisconnect)).map fun client =>
        { client
          calls := (code, shouldReconnect) :: self.calls
          frames :=
            if self.client.connectStatus = .kConnected then
              (self.client.history.sessions, self.client.history.calls) :: self.frames
            else self.frames }
  | .disconnectAsync code shouldReconnect =>
      if (code, shouldReconnect) ∈ self.calls then
        (self.client.step (.user (.disconnectAsync code shouldReconnect))).map
          fun client =>
            { self with client, calls := self.calls.erase (code, shouldReconnect) }
      else none
  | .client action =>
      (self.client.step action).map fun client => { self with client }

def SocketServes (_ : NetCore) : NetCoreAction → Prop
  | .client (.io event) => event.serves = true
  | _ => True

/-- The frames of the session that are not written yet. -/
def waiting (self : NetCore) : List Nat :=
  (Outbox.inSession self.client.history.sessions self.frames).filter
    (· ∉ self.client.writtenIn self.client.history.sessions)

/-- A call finds `kConnected` only in the loop and without a code, and a code is
set only where no frame waits, or the loop is about to write the one that does. -/
def InTime (self : NetCore) : NetCoreAction → Prop
  | .sendDisconnect _ _ =>
      self.client.connectStatus = .kConnected →
        self.client.io.inLoop = true ∧ self.client.disCode = .kDisCodeNone
  | .disconnectAsync _ _ => True
  | .client action =>
      self.client.setsCode action = true →
        ∀ call ∈ self.waiting, self.client.writesNext call = true

instance (s : NetCore) (action : NetCoreAction) : Decidable (SocketServes s action) := by
  unfold SocketServes
  split <;> infer_instance

instance (s : NetCore) (action : NetCoreAction) : Decidable (InTime s action) := by
  unfold InTime
  split <;> infer_instance

/-- When the I/O thread has left the loop, the frame is written, and all that was
accepted before it. -/
def Sent (s : NetCore) : Prop :=
  ∀ session call, (session, call) ∈ s.frames →
    session < s.client.history.sessions ∨ s.client.io.inLoop = false →
      call ∈ s.client.writtenIn session ∧
        ∀ before after, s.client.acceptedIn session = before ++ call :: after →
          before ++ [call] <+: s.client.writtenIn session

end NetCore

/-! ## What a step does to a frame that waits -/

namespace TcpClient

variable {s t : TcpClient}

/-- The I/O thread does not move. -/
structure Unmoved (s t : TcpClient) (action : Action) : Prop where
  io : t.io = s.io
  sessions : t.history.sessions = s.history.sessions
  written : t.history.written = s.history.written
  head : ∀ call, s.headCall? = some call → t.headCall? = some call
  code : t.disCode ≠ .kDisCodeNone →
    t.disCode = s.disCode ∨ s.setsCode action = true

/-- A session begins. -/
structure Renews (s t : TcpClient) : Prop where
  io : s.io = .finished
  failed : t.io.failed = false
  sessions : t.history.sessions = s.history.sessions + 1
  written : t.history.written = s.history.written

theorem headCall?_push (s : TcpClient) (call : Nat) (message : Packet.MessageBase)
    {first : Nat} (h : s.headCall? = some first) :
    (s.push call message).headCall? = some first := by
  unfold headCall? at h ⊢
  cases hqueue : s.messageQueue with
  | nil =>
      rw [hqueue] at h
      cases h
  | cons queued rest =>
      rw [hqueue] at h
      simpa [push, hqueue] using h

theorem proceed_unmoved (h : Threads s) {holder : Holder} {next : Section}
    {action : Action} (hmutex : s.mutex = some (holder, next))
    (hsets : ∀ code shouldReconnect, next = .disconnect code shouldReconnect →
      code ≠ .kDisCodeNone → s.setsCode action = true) :
    Unmoved s (s.proceed holder next) action ∨ Renews s (s.proceed holder next) := by
  cases next with
  | connect =>
      simp only [proceed]
      split
      · exact .inl ⟨rfl, rfl, rfl, fun _ h => h, fun _ => .inl rfl⟩
      · next hthread =>
          exact .inr ⟨h.finished_of_connect hmutex (by simpa using hthread), rfl, rfl, rfl⟩
  | disconnect code shouldReconnect =>
      refine .inl ⟨rfl, rfl, rfl, fun _ h => h, fun hcode => .inr ?_⟩
      exact hsets code shouldReconnect rfl hcode
  | pushSendReq call sendReq =>
      refine .inl ⟨rfl, rfl, rfl, fun first hfirst => ?_, fun _ => .inl rfl⟩
      exact s.headCall?_push call _ hfirst
  | pushMessage call message =>
      refine .inl ⟨rfl, rfl, rfl, fun first hfirst => ?_, fun _ => .inl rfl⟩
      exact s.headCall?_push call _ hfirst
  | _ => exact .inl ⟨rfl, rfl, rfl, fun _ h => h, fun _ => .inl rfl⟩

theorem unmoved_of_step (h : Threads s) {action : Action}
    (hs : s.step action = some t) (hnot : ∀ event, action ≠ .io event) :
    Unmoved s t action ∨ Renews s t := by
  have same (hio : t.io = s.io) (hsessions : t.history.sessions = s.history.sessions)
      (hwritten : t.history.written = s.history.written)
      (hqueue : t.messageQueue = s.messageQueue) (hcode : t.disCode = s.disCode) :
      Unmoved s t action ∨ Renews s t := by
    refine .inl ⟨hio, hsessions, hwritten, fun call hcall => ?_, fun _ => .inl hcode⟩
    unfold headCall? at hcall ⊢
    rwa [hqueue]
  cases action with
  | user call =>
      cases userStep_cases hs with
      | enterSend type payload data hasCallback hfree =>
          apply same
          all_goals
            obtain ⟨mutex, calls, invoked, heq⟩ :=
              s.enterSend_eq type payload data hasCallback
            rw [heq]
      | enterPush message hfree =>
          apply same
          all_goals
            obtain ⟨mutex, calls, heq⟩ := s.enterPush_eq message
            rw [heq]
      | inside next hcall hmutex =>
          subst hcall
          refine proceed_unmoved h hmutex fun code shouldReconnect heq hcode => ?_
          subst heq
          simpa [setsCode, hmutex] using hcode
      | _ => exact same rfl rfl rfl rfl rfl
  | io event => exact absurd rfl (hnot event)
  | queue =>
      cases queueStep_cases hs with
      | timer u callback htimer =>
          obtain ⟨timers, map, pool, canceled, rfl⟩ := htimer.eq
          exact same rfl rfl rfl rfl rfl
      | inside next hcallback hmutex =>
          refine proceed_unmoved h hmutex fun code shouldReconnect heq hcode => ?_
          subst heq
          simpa [setsCode, hmutex] using hcode
      | _ => exact same rfl rfl rfl rfl rfl
  | tick nanoseconds =>
      cases hs
      exact same rfl rfl rfl rfl rfl
  | pipes ok =>
      cases hs
      exact same rfl rfl rfl rfl rfl

variable {event : IoEvent}

theorem Threads.unmoved_of_inside (h : Threads s) {next : Section}
    (hio : s.io = .disconnecting) (hmutex : s.mutex = some (.io, next))
    (event : IoEvent) : Unmoved s (s.proceed .io next) (.io event) := by
  have hsets (code : DisconnectCode) (shouldReconnect : Bool)
      (heq : next = .disconnect code shouldReconnect) (hcode : code ≠ .kDisCodeNone) :
      s.setsCode (.io event) = true := by
    subst heq
    simpa [setsCode, hmutex, hio] using hcode
  rcases proceed_unmoved h hmutex hsets with hrest | hrenews
  · exact hrest
  · rw [hrenews.io] at hio
    cases hio

theorem failed_of_io (hserves : event.serves = true) (hok : s.io.failed = false)
    (hs : s.ioStep event = some t) : t.io.failed = false := by
  cases ioStep_cases hs with
  | move io hmove =>
      cases hmove with
      | select registered error readable writable hio =>
          unfold ioStep at hs
          rw [hio] at hs
          cases event with
          | selectError => cases hserves
          | selected readable writable =>
              simp only at hs
              split at hs
              · cases hs
                rfl
              · cases hs
          | _ => cases hs
      | _ => rfl
  | alarm action timers io halarm hstep =>
      generalize s.io = pc at halarm
      cases halarm <;> rfl
  | status status io hstatus =>
      generalize s.io = pc at hstatus
      cases hstatus <;> rfl
  | timer u io htimer => cases htimer <;> rfl
  | clear error readable writable hio =>
      rw [hio] at hok
      exact hok
  | encode readable queued rest hio hqueue =>
      unfold behindEncode
      simp only
      split <;> rfl
  | inside next hio hmutex =>
      rcases s.io_proceed .io next with h | h
      · rw [h]
        exact hok
      · rw [h]
        rfl
  | _ => rfl

theorem stays_of_serves
    (hio : (∃ readable, s.io = .encode readable) ∨ s.io = .read true ∨ s.io = .sendPing)
    (hserves : event.serves = true) (hs : s.ioStep event = some t) :
    t.io ≠ .leave := by
  intro hleave
  unfold ioStep at hs
  rcases hio with ⟨readable, hio⟩ | hio | hio
  all_goals rw [hio] at hs
  · cases event with
    | encoded ok =>
        cases ok with
        | false => cases hserves
        | true =>
            simp only [encoded] at hs
            split at hs
            · cases hs
            · split at hs
              all_goals
                cases hs
                cases hleave
    | _ => cases hs
  · cases event with
    | received message =>
        cases message with
        | none => cases hserves
        | some message =>
            rw [← Option.some.inj hs] at hleave
            unfold received at hleave
            split at hleave
            · cases hleave
            · cases hleave
            · split at hleave <;> cases hleave
            · cases hleave
    | _ => cases hs
  · cases event with
    | encoded ok =>
        cases ok with
        | false => cases hserves
        | true =>
            cases hs
            cases hleave
    | _ => cases hs

theorem leaves_of_io (hserves : event.serves = true) (hok : s.io.failed = false)
    (hs : s.ioStep event = some t) (hleave : t.io = .leave) :
    s.io.beforeWrite = false ∧ s.disCode ≠ .kDisCodeNone ∨
      s.setsCode (.io event) = true := by
  cases ioStep_cases hs with
  | move io hmove =>
      cases hmove with
      | fail error readable writable hio =>
          rw [hio] at hok
          have herror : error = false := hok
          subst herror
          unfold ioStep at hs
          rw [hio] at hs
          cases event with
          | none =>
              simp only at hs
              split at hs
              · next hcode => exact .inl ⟨by rw [hio]; rfl, by simpa using hcode⟩
              · cases congrArg TcpClient.io (Option.some.inj hs)
          | _ => cases hs
      | encodeError readable hio =>
          exact absurd rfl (stays_of_serves (.inl ⟨_, hio⟩) hserves hs)
      | readError hio => exact absurd rfl (stays_of_serves (.inr (.inl hio)) hserves hs)
      | pingError hio => exact absurd rfl (stays_of_serves (.inr (.inr hio)) hserves hs)
      | _ => cases hleave
  | alarm action timers io halarm hstep =>
      generalize s.io = pc at halarm
      cases halarm <;> cases hleave
  | status status io hstatus =>
      generalize s.io = pc at hstatus
      cases hstatus <;> cases hleave
  | timer u io htimer => cases htimer <;> cases hleave
  | pingTimeout readable writable hio =>
      unfold ioStep at hs
      rw [hio] at hs
      cases event with
      | none =>
          simp only at hs
          split at hs
          · next hfired => exact .inr (by simpa [setsCode, hio] using hfired)
          · cases congrArg TcpClient.io (Option.some.inj hs)
      | _ => cases hs
  | encode readable queued rest hio hqueue =>
      unfold behindEncode at hleave
      simp only at hleave
      split at hleave <;> cases hleave
  | inside next hio hmutex =>
      rcases s.io_proceed .io next with h | h
      · rw [h, hio] at hleave
        cases hleave
      · rw [h] at hleave
        cases hleave
  | _ => cases hleave

theorem inLoop_of_io (h : Threads s) (hin : s.io.inLoop = true)
    (hs : s.ioStep event = some t) :
    t.io.inLoop = true ∨ t.io = .leave := by
  cases ioStep_cases hs with
  | move io hmove =>
      cases hmove with
      | connected ret hio =>
          rw [hio] at hin
          cases hin
      | fail | encodeError | readError | pingError => exact .inr rfl
      | _ => exact .inl rfl
  | alarm action timers io halarm hstep =>
      generalize s.io = pc at halarm hin
      cases halarm <;> first | exact .inl rfl | cases hin
  | status status io hstatus =>
      generalize s.io = pc at hstatus hin
      cases hstatus <;> cases hin
  | timer u io htimer => cases htimer <;> exact .inl rfl
  | refuse ret hio =>
      rw [hio] at hin
      cases hin
  | pingTimeout readable writable hio => exact .inr rfl
  | encode readable queued rest hio hqueue =>
      refine .inl ?_
      unfold behindEncode
      simp only
      split <;> rfl
  | inside next hio hmutex =>
      rw [(h.unmoved_of_inside hio hmutex event).io]
      exact .inl hin
  | _ => exact .inl rfl

/-- The session under way has written the frame. -/
def HasWritten (s : TcpClient) (call : Nat) : Prop :=
  (s.history.sessions, call) ∈ s.outbox.delivered

theorem writes_of_io {call : Nat} (hbefore : s.io.beforeWrite = true)
    (hhead : s.headCall? = some call) (hs : s.ioStep event = some t) :
    t.io = .leave ∨ HasWritten t call ∨
      t.io.beforeWrite = true ∧ t.headCall? = some call := by
  cases ioStep_cases hs with
  | move io hmove =>
      cases hmove with
      | checkPingTimeout readable writable hio hfired =>
          rw [hio] at hbefore
          exact .inr (.inr ⟨hbefore, hhead⟩)
      | checkQueue readable writable hio hmutex hqueue => exact .inr (.inr ⟨rfl, hhead⟩)
      | skipQueue readable writable hio hmutex =>
          rw [hio] at hbefore
          have hwritable : writable = true := hbefore
          have hqueue : s.messageQueue.isEmpty = false := by
            unfold headCall? at hhead
            cases hqueue : s.messageQueue with
            | nil =>
                rw [hqueue] at hhead
                cases hhead
            | cons queued rest => rfl
          unfold ioStep at hs
          rw [hio] at hs
          cases event with
          | none =>
              simp only [hwritable, hqueue, hmutex] at hs
              cases congrArg TcpClient.io (Option.some.inj hs)
          | _ => cases hs
      | fail | encodeError | readError | pingError => exact .inl rfl
      | _ => simp [*, IoPc.beforeWrite] at hbefore
  | alarm action timers io halarm hstep =>
      generalize s.io = pc at halarm hbefore
      cases halarm <;> cases hbefore
  | status status io hstatus =>
      generalize s.io = pc at hstatus hbefore
      cases hstatus <;> cases hbefore
  | timer u io htimer => cases htimer <;> simp [*, IoPc.beforeWrite] at hbefore
  | pingTimeout readable writable hio => exact .inl rfl
  | encode readable queued rest hio hqueue =>
      refine .inr (.inl ?_)
      simp only [headCall?, hqueue, List.head?_cons, Option.map_some, Option.some.injEq]
        at hhead
      simp [HasWritten, outbox, write, hhead]
  | inside next hio hmutex =>
      rw [hio] at hbefore
      cases hbefore
  | _ => simp [*, IoPc.beforeWrite] at hbefore

theorem delivered_of_io (hthreads : Threads s) {entry : Nat × Nat}
    (h : entry ∈ s.outbox.delivered) (hs : s.ioStep event = some t) :
    entry ∈ t.outbox.delivered := by
  cases ioStep_cases hs with
  | timer u io htimer =>
      obtain ⟨timers, map, pool, created, armed, rfl⟩ := htimer.eq
      exact h
  | encode readable queued rest hio hqueue => exact List.mem_cons_of_mem _ h
  | inside next hio hmutex =>
      have hrest := hthreads.unmoved_of_inside hio hmutex event
      simp only [outbox] at h ⊢
      rwa [hrest.written]
  | _ => exact h

theorem sessions_of_io (h : Threads s) (hs : s.ioStep event = some t) :
    t.history.sessions = s.history.sessions ∧
      (t.disCode ≠ .kDisCodeNone →
        t.disCode = s.disCode ∨ s.setsCode (.io event) = true ∨ t.io = .leave) := by
  cases ioStep_cases hs with
  | timer u io htimer =>
      obtain ⟨timers, map, pool, created, armed, rfl⟩ := htimer.eq
      exact ⟨rfl, fun _ => .inl rfl⟩
  | pingTimeout readable writable hio => exact ⟨rfl, fun _ => .inr (.inr rfl)⟩
  | inside next hio hmutex =>
      have hrest := h.unmoved_of_inside hio hmutex event
      refine ⟨hrest.sessions, fun hcode => ?_⟩
      rcases hrest.code hcode with hsame | hsets
      · exact .inl hsame
      · exact .inr (.inl hsets)
  | _ => exact ⟨rfl, fun _ => .inl rfl⟩

theorem writesNext_of_setsCode (hsets : s.setsCode (.io event) = true) (call : Nat) :
    s.writesNext call = false := by
  unfold setsCode at hsets
  unfold writesNext
  split at hsets
  · contradiction
  · contradiction
  · next hio => simp [hio, IoPc.beforeWrite]
  · next hio => simp [hio, hsets]
  · cases hsets

/-- The frame is written, or the loop goes on and comes to it. -/
def Comes (s : TcpClient) (call : Nat) : Prop :=
  HasWritten s call ∨ s.io.inLoop = true ∧ (s.disCode ≠ .kDisCodeNone →
    s.io.beforeWrite = true ∧ s.headCall? = some call)

theorem writesNext_iff (s : TcpClient) {call : Nat} (h : s.writesNext call = true) :
    s.io.beforeWrite = true ∧ s.headCall? = some call := by
  unfold writesNext at h
  rw [Bool.and_eq_true, decide_eq_true_iff] at h
  refine ⟨?_, h.1⟩
  have hio := h.2
  split at hio
  · next hpc =>
      rw [Bool.and_eq_true] at hio
      rw [hpc]
      exact hio.1
  · exact hio

namespace Comes

variable {call : Nat}

theorem unmoved (h : Comes s call) {action : Action} (hrest : Unmoved s t action)
    (htime : s.setsCode action = true →
      HasWritten s call ∨ s.writesNext call = true) : Comes t call := by
  have hwritten (h : HasWritten s call) : HasWritten t call := by
    unfold HasWritten outbox at h ⊢
    simp only at h ⊢
    rwa [hrest.sessions, hrest.written]
  rcases h with h | ⟨hin, hcode⟩
  · exact .inl (hwritten h)
  · by_cases hdone : HasWritten s call
    · exact .inl (hwritten hdone)
    · refine .inr ⟨hrest.io ▸ hin, fun hnext => ?_⟩
      rw [hrest.io]
      rcases hrest.code hnext with hsame | hsets
      · obtain ⟨hbefore, hhead⟩ := hcode (hsame ▸ hnext)
        exact ⟨hbefore, hrest.head call hhead⟩
      · obtain ⟨hbefore, hhead⟩ :=
          s.writesNext_iff ((htime hsets).resolve_left hdone)
        exact ⟨hbefore, hrest.head call hhead⟩

theorem io (h : Comes s call) (hthreads : Threads s) (hserves : event.serves = true)
    (hok : s.io.failed = false)
    (htime : s.setsCode (.io event) = true →
      HasWritten s call ∨ s.writesNext call = true)
    (hs : s.ioStep event = some t) : Comes t call := by
  obtain ⟨hsessions, hnext⟩ := sessions_of_io hthreads hs
  have hwritten (h : HasWritten s call) : HasWritten t call := by
    unfold HasWritten at h ⊢
    rw [hsessions]
    exact delivered_of_io hthreads h hs
  by_cases hdone : HasWritten s call
  · exact .inl (hwritten hdone)
  · obtain ⟨hin, hcode⟩ := h.resolve_left hdone
    -- a step that sets a code writes no frame next
    have hsets : s.setsCode (.io event) = false := by
      by_contra hsets
      have hwrites := (htime (by simpa using hsets)).resolve_left hdone
      rw [writesNext_of_setsCode (by simpa using hsets)] at hwrites
      cases hwrites
    have hstays : t.io ≠ .leave := by
      intro hleave
      rcases leaves_of_io hserves hok hs hleave with ⟨hbefore, hset⟩ | hset
      · rw [(hcode hset).1] at hbefore
        cases hbefore
      · rw [hsets] at hset
        cases hset
    by_cases hset : t.disCode = .kDisCodeNone
    · exact .inr ⟨(inLoop_of_io hthreads hin hs).resolve_right hstays,
        fun hnot => absurd hset hnot⟩
    · have hsame : t.disCode = s.disCode := by
        rcases hnext hset with hsame | hnow | hleave
        · exact hsame
        · rw [hsets] at hnow
          cases hnow
        · exact absurd hleave hstays
      obtain ⟨hbefore, hhead⟩ := hcode (hsame ▸ hset)
      rcases writes_of_io hbefore hhead hs with hleave | hdone | hstill
      · exact absurd hleave hstays
      · exact .inl hdone
      · exact .inr ⟨(inLoop_of_io hthreads hin hs).resolve_right hstays, fun _ => hstill⟩

end Comes

end TcpClient

/-! ## Every frame comes to be written -/

namespace NetCore

open TcpClient

structure Tracked (s : NetCore) : Prop where
  failed : s.client.io.failed = false
  known : ∀ entry ∈ s.frames, entry.1 ≤ s.client.history.sessions
  current : ∀ call, (s.client.history.sessions, call) ∈ s.frames → s.client.Comes call
  ended : ∀ entry ∈ s.frames, entry.1 < s.client.history.sessions →
    entry ∈ s.client.outbox.delivered

variable {s t : NetCore}

theorem mem_waiting {call : Nat}
    (hframe : (s.client.history.sessions, call) ∈ s.frames)
    (hnot : ¬ s.client.HasWritten call) : call ∈ s.waiting := by
  unfold waiting writtenIn
  simp only [List.mem_filter, Outbox.mem_inSession, decide_eq_true_eq]
  exact ⟨hframe, hnot⟩

namespace Tracked

theorem init : Tracked {} where
  failed := rfl
  known := nofun
  current := nofun
  ended := nofun

private theorem unmoved (h : Tracked s) {action : Action} {client : TcpClient}
    (hrest : Unmoved s.client client action)
    (htime : ∀ call, (s.client.history.sessions, call) ∈ s.frames →
      s.client.setsCode action = true →
        s.client.HasWritten call ∨ s.client.writesNext call = true) :
    Tracked { s with client } := by
  constructor
  case failed =>
    rw [hrest.io]
    exact h.failed
  case known =>
    rw [hrest.sessions]
    exact h.known
  case current =>
    rw [hrest.sessions]
    intro call hframe
    exact (h.current call hframe).unmoved hrest (htime call hframe)
  case ended =>
    rw [hrest.sessions]
    intro entry hframe hlt
    unfold outbox
    rw [hrest.written]
    exact h.ended entry hframe hlt

theorem written (h : Tracked s) (hio : s.client.io.inLoop = false) {call : Nat}
    (hframe : (s.client.history.sessions, call) ∈ s.frames) :
    s.client.HasWritten call := by
  rcases h.current call hframe with hdone | ⟨hin, -⟩
  · exact hdone
  · rw [hio] at hin
    cases hin

private theorem renews (h : Tracked s) {client : TcpClient}
    (hfailed : client.io.failed = false) (hrenews : Renews s.client client) :
    Tracked { s with client } := by
  constructor
  case failed => exact hfailed
  case known =>
    rw [hrenews.sessions]
    exact fun entry hframe => Nat.le_succ_of_le (h.known entry hframe)
  case current =>
    rw [hrenews.sessions]
    intro call hframe
    have hle := h.known _ hframe
    omega
  case ended =>
    intro entry hframe hlt
    unfold outbox
    rw [hrenews.written]
    rcases Nat.lt_or_eq_of_le (h.known entry hframe) with hold | hnow
    · exact h.ended entry hframe hold
    · obtain ⟨session, call⟩ := entry
      subst hnow
      exact h.written (by rw [hrenews.io]; rfl) hframe

theorem client (h : Tracked s) (hthreads : s.client.Threads) {action : Action}
    {client : TcpClient} (hserves : ∀ event, action = .io event → event.serves = true)
    (htime : s.client.setsCode action = true →
      ∀ call ∈ s.waiting, s.client.writesNext call = true)
    (hs : s.client.step action = some client) : Tracked { s with client } := by
  have hsets (call : Nat) (hframe : (s.client.history.sessions, call) ∈ s.frames)
      (hcode : s.client.setsCode action = true) :
      s.client.HasWritten call ∨ s.client.writesNext call = true := by
    by_cases hdone : s.client.HasWritten call
    · exact .inl hdone
    · exact .inr (htime hcode call (mem_waiting hframe hdone))
  cases action with
  | io event =>
      have hserves := hserves event rfl
      have hsessions := (sessions_of_io hthreads hs).1
      constructor
      case failed => exact failed_of_io hserves h.failed hs
      case known =>
        rw [hsessions]
        exact h.known
      case current =>
        rw [hsessions]
        intro call hframe
        exact (h.current call hframe).io hthreads hserves h.failed (hsets call hframe) hs
      case ended =>
        rw [hsessions]
        exact fun entry hframe hlt => delivered_of_io hthreads (h.ended entry hframe hlt) hs
  | user | queue | tick | pipes =>
      rcases unmoved_of_step hthreads hs (fun _ heq => nomatch heq) with hrest | hrenews
      · exact h.unmoved hrest hsets
      · exact h.renews hrenews.failed hrenews

private theorem begins {client : TcpClient} (h : Tracked { s with client })
    (htime : s.client.io.inLoop = true ∧ s.client.disCode = .kDisCodeNone)
    (hthreads : s.client.Threads)
    (hs : s.client.step (.user .sendDisconnect) = some client)
    (call : Nat) (calls : List (DisconnectCode × Bool)) :
    Tracked { client, calls, frames := (s.client.history.sessions, call) :: s.frames } := by
  rcases unmoved_of_step hthreads hs (fun _ heq => nomatch heq) with hrest | hrenews
  · have hcode : client.disCode = .kDisCodeNone := by
      by_contra hset
      rcases hrest.code hset with hsame | hsets
      · exact hset (hsame.trans htime.2)
      · cases hsets
    constructor
    case failed => exact h.failed
    case known =>
      intro entry hframe
      rcases List.mem_cons.mp hframe with rfl | hframe
      · exact Nat.le_of_eq hrest.sessions.symm
      · exact h.known entry hframe
    case current =>
      intro call' hframe
      rcases List.mem_cons.mp hframe with - | hframe
      · exact .inr ⟨hrest.io ▸ htime.1, fun hset => absurd hcode hset⟩
      · exact h.current call' hframe
    case ended =>
      intro entry hframe hlt
      rcases List.mem_cons.mp hframe with rfl | hframe
      · exact absurd hlt (by simp [hrest.sessions])
      · exact h.ended entry hframe hlt
  · rw [hrenews.io] at htime
    cases htime.1

theorem step (h : Tracked s) (hthreads : s.client.Threads) {action : NetCoreAction}
    (hserves : SocketServes s action) (htime : InTime s action)
    (hs : s.step action = some t) : Tracked t := by
  cases action with
  | sendDisconnect code shouldReconnect =>
      obtain ⟨client, hclient, rfl⟩ := Option.map_eq_some_iff.mp hs
      have hmove : Tracked { s with client } := by
        refine h.client hthreads ?_ ?_ hclient
        · exact fun _ heq => nomatch heq
        · nofun
      split
      · next hconnected => exact hmove.begins (htime hconnected) hthreads hclient _ _
      · exact ⟨hmove.failed, hmove.known, hmove.current, hmove.ended⟩
  | disconnectAsync code shouldReconnect =>
      simp only [NetCore.step] at hs
      split at hs
      · obtain ⟨client, hclient, rfl⟩ := Option.map_eq_some_iff.mp hs
        have hmove : Tracked { s with client } := by
          refine h.client hthreads ?_ ?_ hclient
          · exact fun _ heq => nomatch heq
          · nofun
        exact ⟨hmove.failed, hmove.known, hmove.current, hmove.ended⟩
      · cases hs
  | client action =>
      obtain ⟨client, hclient, rfl⟩ := Option.map_eq_some_iff.mp hs
      refine h.client hthreads ?_ htime hclient
      rintro event rfl
      exact hserves

end Tracked

theorem client_step {action : NetCoreAction} (hs : s.step action = some t) :
    ∃ a, s.client.step a = some t.client := by
  unfold step at hs
  split at hs
  · obtain ⟨client, hclient, rfl⟩ := Option.map_eq_some_iff.mp hs
    exact ⟨_, hclient⟩
  · split at hs
    · obtain ⟨client, hclient, rfl⟩ := Option.map_eq_some_iff.mp hs
      exact ⟨_, hclient⟩
    · cases hs
  · obtain ⟨client, hclient, rfl⟩ := Option.map_eq_some_iff.mp hs
    exact ⟨_, hclient⟩

theorem client_reachable {ok : NetCore → NetCoreAction → Prop}
    (h : Reachable step ok {} s) : Reachable TcpClient.step AnyStep .init s.client := by
  refine h.project NetCore.client fun u action v _ _ hstep => ?_
  obtain ⟨a, hclient⟩ := client_step hstep
  exact .single a trivial hclient

theorem Tracked.sent (h : Tracked s) (hsound : s.client.outbox.Sound) : Sent s := by
  intro session call hframe hleft
  have hwritten : call ∈ s.client.writtenIn session := by
    unfold writtenIn
    rw [Outbox.mem_inSession]
    rcases Nat.lt_or_eq_of_le (h.known _ hframe) with hold | hnow
    · exact h.ended _ hframe hold
    · have hcurrent : session = s.client.history.sessions := hnow
      subst hcurrent
      exact h.written (hleft.resolve_left (by omega)) hframe
  exact ⟨hwritten, fun before after haccepted => hsound.delivered_before hwritten haccepted⟩

/-- Where no code is set over a frame that waits, the loop is not left before the
frame is written. -/
theorem sent_of_inTime
    (h : Reachable step (fun s action => SocketServes s action ∧ InTime s action) {} s) :
    Sent s := by
  have htracked : Tracked s := by
    refine h.invariant .init fun u action v hu ht hok hstep => ?_
    have hthreads : u.client.Threads := .of_reachable (client_reachable hu)
    exact ht.step hthreads hok.1 hok.2 hstep
  exact htracked.sent (outbox_sound (client_reachable h))

def clientSteps (actions : List Action) : List NetCoreAction := actions.map .client

def announcing : List NetCoreAction :=
  clientSteps (connecting ++ [.io .none, .io .none]) ++
    [.sendDisconnect .kDisCodeLogout false] ++
    clientSteps [.user .proceed, .user .proceed]

def leaving : List NetCoreAction :=
  .disconnectAsync .kDisCodeLogout false ::
    clientSteps (List.replicate 4 (.user .proceed))

def writingFrame : List NetCoreAction :=
  clientSteps ([.io (.selected false true)] ++ List.replicate 8 (.io .none) ++
    [.io (.selected false true)] ++ List.replicate 4 (.io .none) ++
    [.io (.encoded true)] ++ List.replicate 7 (.io .none))

def finding : List NetCoreAction :=
  clientSteps ([.io (.selected false true)] ++ List.replicate 4 (.io .none))

/-- The loop writes the frame between the two halves. -/
theorem sent_of_inTime_between : ∃ s : NetCore, s.frames = [(1, 0)] ∧
    s.client.io = .setDisconnected ∧ Sent s := by
  have hmap : (run step {} (announcing ++ writingFrame ++ leaving ++ finding)).map
      (fun s => (s.frames, s.client.io)) = some ([(1, 0)], .setDisconnected) := by
    decide +kernel
  obtain ⟨s, hrun, hstate⟩ := Option.map_eq_some_iff.mp hmap
  simp only [Prod.mk.injEq] at hstate
  have hreach : Reachable step (fun s action => SocketServes s action ∧ InTime s action)
      {} s := .of_meets (by decide +kernel) hrun
  exact ⟨s, hstate.1, hstate.2, sent_of_inTime hreach⟩

/-- The call has returned before the loop wakes up. -/
theorem unsent_disconnect :
    ¬ ∀ s : NetCore, Reachable step SocketServes {} s → Sent s := by
  intro hall
  have hmap : (run step {} (announcing ++ leaving ++ finding)).map
      (fun s => (s.frames, s.client.io, s.client.writtenIn 1)) =
        some ([(1, 0)], .setDisconnected, []) := by
    decide +kernel
  obtain ⟨s, hrun, hstate⟩ := Option.map_eq_some_iff.mp hmap
  simp only [Prod.mk.injEq] at hstate
  obtain ⟨hframes, hio, hwritten⟩ := hstate
  have hreach : Reachable step SocketServes {} s := .of_meets (by decide +kernel) hrun
  have hsent := hall s hreach 1 0 (by simp [hframes]) (.inr (by rw [hio]; rfl))
  rw [hwritten] at hsent
  exact List.not_mem_nil hsent.1

end NetCore

end GoSocket.Client
