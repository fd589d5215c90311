import GoSocket.Client.State
import GoSocket.Foundation.LockOrder
import Mathlib.Data.Fintype.Order
import Mathlib.Data.Fin.Basic
import Mathlib.Order.Fin.Basic

/-!
# The locks of the client

What each function locks, unlocks, joins and starts, in the source's order.  The
data that decides its branches is left open, but for `_thread`, which is what
`__WaitDisconnect` joins.  A callback that is started on a thread of its own, and
then detached, is one of the client threads.  `Disconnect`, which joins on the thread
of its caller, is not among the calls.
-/

namespace GoSocket.Client.Locking

open GoSocket.Common GoSocket.Foundation

inductive Mutex where
  | mutex
  | mapMutex
  | timeoutMutex
  | readWriteBreaker
  | connectBreaker
  | retBreaker
  | alarm (a : ClientAlarm)
  | objectPool
  | messageQueue
  deriving DecidableEq, Repr

/-- The threads; `υ` numbers those of the callers. -/
inductive ThreadId (υ : Type) where
  | client (u : υ)
  | io (session : Nat)
  | dns (session : Nat)
  | queue
  deriving DecidableEq, Repr

structure Shared where
  thread : Option Nat := none
  sessions : Nat := 0
  deriving Repr

abbrev Steps (υ : Type) := Program Mutex (ThreadId υ) Shared

variable {υ : Type}

/-! ## Leaves -/

def postMessage : Steps υ := .locked .messageQueue .skip

def cancelMessage : Steps υ := .locked .messageQueue .skip

def start (a : ClientAlarm) : Steps υ := .locked (.alarm a) (.optional postMessage)

def cancel (a : ClientAlarm) : Steps υ := .locked (.alarm a) (.optional cancelMessage)

/-- The `_callback` that `Alarm::SetCallback` makes of `_innerCallback`. -/
def callback (a : ClientAlarm) (innerCallback : Steps υ) : Steps υ :=
  .block [.lock (.alarm a), .unlock (.alarm a), .optional innerCallback]

def breakerBreak (breaker : Mutex) : Steps υ := .locked breaker .skip

def breakerClear (breaker : Mutex) : Steps υ := .locked breaker .skip

/-- `SocketSelect::Select`, whose `Poll` ends with a `Clear` of the breaker. -/
def select (breaker : Mutex) : Steps υ := breakerClear breaker

/-- `ObjectPool::Get`; what gives an object back takes no lock. -/
def poolGet : Steps υ := .locked .objectPool .skip

def getCallback : Steps υ := .locked .mapMutex .skip

/-! ## The calls -/

def makeSureConnected : Steps υ :=
  .locked .mutex (.optional (.read fun s =>
    match s.thread with
    | none =>
        .block [breakerClear .readWriteBreaker, breakerClear .connectBreaker,
          .spawn (.io s.sessions),
          .modify fun _ => { thread := some s.sessions, sessions := s.sessions + 1 }]
    | some _ => .skip))

def disconnectAsync : Steps υ :=
  .seq (.lock .mutex) (.read fun s =>
    match s.thread with
    | none => .block [.unlock .mutex, .optional makeSureConnected]
    | some _ =>
        .block [breakerBreak .readWriteBreaker, breakerBreak .connectBreaker,
          .unlock .mutex])

def send : Steps υ :=
  .locked .mutex
    (.optional (.block [.locked .mapMutex .skip, breakerBreak .readWriteBreaker]))

def sendNoReply : Steps υ := .locked .mutex (.optional (breakerBreak .readWriteBreaker))

def sendDisconnect : Steps υ := .locked .mutex (.optional (breakerBreak .readWriteBreaker))

def calls : Steps υ :=
  .star (.choose fun
    | 0 => makeSureConnected
    | 1 => disconnectAsync
    | 2 => send
    | 3 => sendNoReply
    | _ => sendDisconnect)

/-- A callback of the user, run by a thread of the client itself: it does not
block but in the calls it makes. -/
def userCallback : Steps υ := .optional calls

/-! ## The I/O thread -/

def setConnectStatus : Steps υ := userCallback

def getHostByName (session : Nat) : Steps υ :=
  .block [userCallback,
    .optional (.block [breakerClear .retBreaker, .spawn (.dns session),
      select .connectBreaker])]

def connectImpatient : Steps υ := .star (select .connectBreaker)

/-- `__RunConnect`; the last callback is `_getConnectInfo`. -/
def runConnect (session : Nat) : Steps υ :=
  .leaving [setConnectStatus, getHostByName session, connectImpatient, userCallback]

def handleSendResp : Steps υ :=
  .block [.locked .timeoutMutex (.optional (.choose fun n => cancel (.request n))),
    getCallback]

def handleDisconnect : Steps υ := .block [.optional disconnectAsync, userCallback]

/-- The timer of a `SendReq` that was written. -/
def setTimeout : Steps υ :=
  .block [poolGet, .choose fun n => start (.request n), .locked .timeoutMutex .skip]

/-- `_messageQueue.front()`, with the lock. -/
def front : Steps υ := .locked .mutex .skip

def writeMessage : Steps υ :=
  .block [front, .optional setTimeout, .locked .mutex .skip, cancel .pingAlarm,
    start .pingAlarm]

def readMessage : Steps υ :=
  .choose fun
    | 0 => cancel .pingTimeoutAlarm
    -- `__handleSendReq` only starts a thread for the callback
    | 1 => .skip
    | 2 => handleSendResp
    | _ => handleDisconnect

def beforeWrite : List (Steps υ) :=
  [.optional (start .pingAlarm), .locked .mutex .skip, select .readWriteBreaker,
    .locked .mutex .skip]

/-- A round of the loop of `__RunReadWrite`. -/
def round : List (Steps υ) :=
  beforeWrite ++ [.optional writeMessage, .optional readMessage,
    .optional (.block [cancel .pingTimeoutAlarm, start .pingTimeoutAlarm])]

/-- `__RunReadWrite`: the last round is left between two of its statements, or by
what `EncodeMessage` throws; the guard of the scope runs behind it. -/
def runReadWrite : Steps υ :=
  .block [.star (.block round), .either (.leaving round) (.block (beforeWrite ++ [front])),
    cancel .pingAlarm, cancel .pingTimeoutAlarm]

def run (session : Nat) : Steps υ :=
  .block [runConnect session, setConnectStatus, .optional runReadWrite, setConnectStatus,
    start .reconnectAlarm]

def getIps : Steps υ := breakerBreak .retBreaker

/-! ## The thread of the message queue -/

/-- `__WaitDisconnect`; `ReCreate` takes no lock. -/
def waitDisconnect : Steps υ :=
  .read fun s =>
    match s.thread with
    | none => .skip
    | some session =>
        .block [.join (.io session), .modify fun s => { s with thread := none },
          .locked .timeoutMutex (.star (.choose fun n => cancel (.request n))),
          .star getCallback]

/-- What the client gives to `SetCallback`. -/
def innerCallback : ClientAlarm → Steps υ
  | .reconnectAlarm => .block [waitDisconnect, .optional makeSureConnected]
  | .pingAlarm => breakerBreak .readWriteBreaker
  | .pingTimeoutAlarm => breakerBreak .readWriteBreaker
  | .request _ =>
      .block [.locked .timeoutMutex .skip, getCallback, .optional disconnectAsync]

def alarmOf : Nat → ClientAlarm
  | 0 => .reconnectAlarm
  | 1 => .pingAlarm
  | 2 => .pingTimeoutAlarm
  | n + 3 => .request n

def callbacks : Steps υ :=
  .star (.block [.locked .messageQueue .skip,
    .optional (.choose fun n => callback (alarmOf n) (innerCallback (alarmOf n)))])

/-- `_cv.wait`, which gives the lock back while it waits. -/
def wait : Steps υ := .block [.unlock .messageQueue, .lock .messageQueue]

def runLoop : Steps υ :=
  .star (.block [.locked .messageQueue .skip, callbacks,
    .locked .messageQueue (.optional wait)])

/-! ## The threads together -/

def program : ThreadId υ → Steps υ
  | .client _ => calls
  | .io session => run session
  | .dns _ => getIps
  | .queue => runLoop

def init : Machine Mutex (ThreadId υ) Shared where
  threads
    | .client u => some [program (.client u)]
    | .io _ => none
    | .dns _ => none
    | .queue => some [program .queue]
  owner _ := none
  shared := {}

/-! ## The order -/

/-- The order of the locks: each one is locked with lower ones held only. -/
def rank : Mutex → Fin 4
  | .mutex => 0
  | .timeoutMutex => 1
  | .alarm _ => 2
  | .mapMutex => 3
  | .readWriteBreaker => 3
  | .connectBreaker => 3
  | .retBreaker => 3
  | .objectPool => 3
  | .messageQueue => 3

def height : ThreadId υ → Nat
  | .queue => 1
  | _ => 0

section Keeps

variable {mayJoin : ThreadId υ → Prop} {held : List Mutex}

theorem leaf {k : Mutex} (hk : rank k = 3) (hheld : ∀ k' ∈ held, rank k' < 3) :
    Keeps rank mayJoin held (.locked k .skip : Steps υ) := by
  refine Keeps.locked ?_ Keeps.skip
  intro k' hk'
  rw [hk]
  exact hheld k' hk'

theorem alarm {a : ClientAlarm} (hheld : ∀ k ∈ held, rank k < 2) :
    Keeps rank mayJoin held
      (.locked (.alarm a) (.optional (.locked .messageQueue .skip)) : Steps υ) := by
  refine Keeps.locked hheld (Keeps.optional (leaf rfl ?_))
  intro k hk
  rcases List.mem_cons.mp hk with rfl | hk
  · simp [rank]
  · exact (hheld k hk).trans (by decide)

theorem free {r : Fin 4} : ∀ k ∈ ([] : List Mutex), rank k < r := by
  intro k hk
  cases hk

theorem onlyMutex : ∀ k ∈ [Mutex.mutex], rank k < 3 := by simp [rank]

/-! ### The calls -/

theorem makeSureConnected_keeps :
    Keeps rank mayJoin [] (makeSureConnected : Steps υ) := by
  refine Keeps.locked free (Keeps.optional (Leads.read fun s => ?_))
  split
  · refine Keeps.block ⟨?_, ?_, ?_, ?_⟩
    · exact leaf rfl onlyMutex
    · exact leaf rfl onlyMutex
    · exact Keeps.spawn _
    · exact Keeps.modify _
  · exact Keeps.skip

theorem disconnectAsync_keeps : Keeps rank mayJoin [] (disconnectAsync : Steps υ) := by
  refine (Leads.lock free).seq (Leads.read fun s => ?_)
  split
  · refine Leads.unlock.cons (Keeps.block ?_)
    exact Keeps.optional makeSureConnected_keeps
  · have hbreak {k : Mutex} (hk : rank k = 3) :
        Keeps rank mayJoin [.mutex] (breakerBreak k : Steps υ) :=
      leaf hk onlyMutex
    exact (hbreak rfl).cons ((hbreak rfl).cons (Leads.unlock.cons Keeps.skip))

theorem send_keeps : Keeps rank mayJoin [] (send : Steps υ) := by
  refine Keeps.locked free (Keeps.optional (Keeps.block ⟨?_, ?_⟩))
  · exact leaf rfl onlyMutex
  · exact leaf rfl onlyMutex

theorem sendNoReply_keeps : Keeps rank mayJoin [] (sendNoReply : Steps υ) :=
  Keeps.locked free (Keeps.optional (leaf rfl onlyMutex))

theorem sendDisconnect_keeps : Keeps rank mayJoin [] (sendDisconnect : Steps υ) :=
  Keeps.locked free (Keeps.optional (leaf rfl onlyMutex))

theorem calls_keeps : Keeps rank mayJoin [] (calls : Steps υ) := by
  refine Keeps.star (Leads.choose fun n => ?_)
  split
  · exact makeSureConnected_keeps
  · exact disconnectAsync_keeps
  · exact send_keeps
  · exact sendNoReply_keeps
  · exact sendDisconnect_keeps

theorem userCallback_keeps : Keeps rank mayJoin [] (userCallback : Steps υ) :=
  Keeps.optional calls_keeps

/-! ### The I/O thread -/

theorem runConnect_keeps {session : Nat} :
    Keeps rank mayJoin [] (runConnect session : Steps υ) := by
  refine Keeps.leaving ⟨userCallback_keeps, ?_, ?_, userCallback_keeps⟩
  · refine Keeps.block ⟨userCallback_keeps, ?_⟩
    refine Keeps.optional (Keeps.block ⟨?_, ?_, ?_⟩)
    · exact leaf rfl free
    · exact Keeps.spawn _
    · exact leaf rfl free
  · exact Keeps.star (leaf rfl free)

theorem cancelRequest_keeps :
    Keeps rank mayJoin [.timeoutMutex]
      (.choose fun n => cancel (.request n) : Steps υ) :=
  Leads.choose fun _ => alarm (by simp [rank])

theorem handleSendResp_keeps : Keeps rank mayJoin [] (handleSendResp : Steps υ) := by
  refine Keeps.block ⟨?_, leaf rfl free⟩
  exact Keeps.locked free (Keeps.optional cancelRequest_keeps)

theorem setTimeout_keeps : Keeps rank mayJoin [] (setTimeout : Steps υ) := by
  refine Keeps.block ⟨leaf rfl free, ?_, ?_⟩
  · exact Leads.choose fun n => alarm free
  · exact Keeps.locked free Keeps.skip

theorem front_keeps : Keeps rank mayJoin [] (front : Steps υ) :=
  Keeps.locked free Keeps.skip

theorem writeMessage_keeps : Keeps rank mayJoin [] (writeMessage : Steps υ) := by
  refine Keeps.block ⟨front_keeps, ?_, ?_, ?_, ?_⟩
  · exact Keeps.optional setTimeout_keeps
  · exact Keeps.locked free Keeps.skip
  · exact alarm free
  · exact alarm free

theorem readMessage_keeps : Keeps rank mayJoin [] (readMessage : Steps υ) := by
  refine Leads.choose fun n => ?_
  split
  · exact alarm free
  · exact Keeps.skip
  · exact handleSendResp_keeps
  · exact Keeps.block ⟨Keeps.optional disconnectAsync_keeps, userCallback_keeps⟩

theorem beforeWrite_keeps :
    (beforeWrite : List (Steps υ)).Forall (Keeps rank mayJoin []) := by
  refine ⟨?_, ?_, ?_, ?_⟩
  · exact Keeps.optional (alarm free)
  · exact Keeps.locked free Keeps.skip
  · exact leaf rfl free
  · exact Keeps.locked free Keeps.skip

theorem round_keeps : (round : List (Steps υ)).Forall (Keeps rank mayJoin []) := by
  refine List.forall_append.mpr ⟨beforeWrite_keeps, ?_, ?_, ?_⟩
  · exact Keeps.optional writeMessage_keeps
  · exact Keeps.optional readMessage_keeps
  · exact Keeps.optional (Keeps.block ⟨alarm free, alarm free⟩)

theorem runReadWrite_keeps : Keeps rank mayJoin [] (runReadWrite : Steps υ) := by
  have hlast : (beforeWrite ++ [front] : List (Steps υ)).Forall
      (Keeps rank mayJoin []) :=
    List.forall_append.mpr ⟨beforeWrite_keeps, front_keeps⟩
  refine Keeps.block ⟨?_, ?_, alarm free, alarm free⟩
  · exact Keeps.star (Keeps.block round_keeps)
  · exact Leads.either (Keeps.leaving round_keeps) (Keeps.block hlast)

theorem run_keeps {session : Nat} : Keeps rank mayJoin [] (run session : Steps υ) := by
  refine Keeps.block ⟨runConnect_keeps, userCallback_keeps, ?_, userCallback_keeps, ?_⟩
  · exact Keeps.optional runReadWrite_keeps
  · exact alarm free

/-! ### The thread of the message queue -/

theorem waitDisconnect_keeps (hjoin : ∀ session, mayJoin (.io session)) :
    Keeps rank mayJoin [] (waitDisconnect : Steps υ) := by
  refine Leads.read fun s => ?_
  split
  · exact Keeps.skip
  · refine Keeps.block ⟨?_, ?_, ?_, ?_⟩
    · exact Keeps.join (hjoin _)
    · exact Keeps.modify _
    · exact Keeps.locked free (Keeps.star cancelRequest_keeps)
    · exact Keeps.star (leaf rfl free)

theorem innerCallback_keeps (hjoin : ∀ session, mayJoin (.io session))
    (a : ClientAlarm) : Keeps rank mayJoin [] (innerCallback a : Steps υ) := by
  cases a with
  | reconnectAlarm =>
      refine Keeps.block ⟨waitDisconnect_keeps hjoin, ?_⟩
      exact Keeps.optional makeSureConnected_keeps
  | pingAlarm => exact leaf rfl free
  | pingTimeoutAlarm => exact leaf rfl free
  | request n =>
      refine Keeps.block ⟨?_, leaf rfl free, ?_⟩
      · exact Keeps.locked free Keeps.skip
      · exact Keeps.optional disconnectAsync_keeps

theorem callback_keeps {a : ClientAlarm} {inner : Steps υ}
    (h : Keeps rank mayJoin [] inner) : Keeps rank mayJoin [] (callback a inner) :=
  (Leads.lock free).cons (Leads.unlock.cons (Keeps.block (Keeps.optional h)))

theorem wait_keeps : Keeps rank mayJoin [.messageQueue] (wait : Steps υ) :=
  Leads.unlock.cons ((Leads.lock free).cons Keeps.skip)

theorem runLoop_keeps (hjoin : ∀ session, mayJoin (.io session)) :
    Keeps rank mayJoin [] (runLoop : Steps υ) := by
  refine Keeps.star (Keeps.block ⟨leaf rfl free, ?_, ?_⟩)
  · refine Keeps.star (Keeps.block ⟨leaf rfl free, ?_⟩)
    refine Keeps.optional (Leads.choose fun n => ?_)
    exact callback_keeps (innerCallback_keeps hjoin _)
  · exact Keeps.locked free (Keeps.optional wait_keeps)

end Keeps

theorem program_keeps (i : ThreadId υ) :
    Keeps rank (Machine.Below height i) [] (program i) := by
  cases i with
  | client u => exact calls_keeps
  | io session => exact run_keeps
  | dns session => exact leaf rfl free
  | queue =>
      have hjoin (session : Nat) :
          Machine.Below height (.queue : ThreadId υ) (.io session) :=
        Nat.zero_lt_one
      exact runLoop_keeps hjoin

theorem init_starts : (init : Machine Mutex (ThreadId υ) Shared).Starts program where
  threads := by
    intro i stack hi
    cases i with
    | client u => exact (Option.some.inj hi).symm
    | io session => cases hi
    | dns session => cases hi
    | queue => exact (Option.some.inj hi).symm
  owner _ := rfl

variable [DecidableEq υ] {s : Machine Mutex (ThreadId υ) Shared}

/-- However many callers there are: no set of threads waits for itself, and a
thread that cannot go on waits for another one. -/
theorem no_deadlock (hreach : Reachable (Machine.step program) AnyStep init s) :
    (∀ threads : Set (ThreadId υ), ¬ s.Deadlocked threads) ∧
      ∀ i, s.Blocked program i → ∃ j, s.Waits i j := by
  constructor
  · exact Machine.never_deadlocked init_starts program_keeps hreach
  · intro i hblocked
    exact hblocked.waits

/-- A caller connects and then stands inside `Send`; the I/O thread is at the
client's lock, and the queue's thread joins it. -/
def joining : List (ThreadId Nat × Nat) :=
  ([1, 0, 0, 0, 0, 1] ++ List.replicate 25 0 ++ [1, 2, 0, 0]).map (.client 0, ·) ++
    ([0, 0, 0, 0, 0, 0, 0, 1, 0, 1, 0, 0, 0, 0, 0]).map (.io 0, ·) ++
    ([1, 0, 0, 0, 0, 0, 0, 0, 0, 0, 1, 0, 0, 0, 0, 0, 0, 0, 0, 0, 1, 0, 0, 0, 0, 0, 0,
      1, 0, 0, 0]).map (.queue, ·)

theorem no_deadlock_joining :
    ∃ s : Machine Mutex (ThreadId Nat) Shared,
      s.Waits .queue (.io 0) ∧ s.Waits (.io 0) (.client 0) ∧
      (∀ threads : Set (ThreadId Nat), ¬ s.Deadlocked threads) ∧
      ∀ i, s.Blocked program i → ∃ j, s.Waits i j := by
  have hmap : (Foundation.run (Machine.step program) init joining).map (fun s =>
      (s.waitsFor .queue, s.waitsFor (.io 0))) =
        some (some (.io 0), some (.client 0)) := by
    decide +kernel
  obtain ⟨s, hreach, hstate⟩ := Reachable.of_run_map hmap
  simp only [Prod.mk.injEq] at hstate
  obtain ⟨hqueue, hio⟩ := hstate
  exact ⟨s, Machine.waits_of_waitsFor hqueue, Machine.waits_of_waitsFor hio,
    no_deadlock hreach⟩

end GoSocket.Client.Locking
