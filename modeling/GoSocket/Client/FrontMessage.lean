import GoSocket.Client.Books

/-!
# The message that is being written

`__RunReadWrite` takes a raw pointer to the front message and gives `_mutex` back
before it encodes the message and sets an alarm for it.  Until the message is popped
nobody else removes it from the queue.
-/

namespace GoSocket.Client

open Std GoSocket.Common GoSocket.Foundation GoSocket.Packet

/-- The I/O thread uses the front message, and does not hold `_mutex`. -/
def IoPc.usesFront (io : IoPc) : Bool :=
  match io with
  | .encode _ => true
  | io => io.unpopped

namespace TcpClient

variable {s t : TcpClient} {action : Action}

/-- The message is at the front of the queue, and the one that an alarm is set for. -/
structure InFront (s : TcpClient) (queued : Queued) : Prop where
  head : s.messageQueue.head? = some queued
  written : ∀ written, s.io.written? = some written → written.call = queued.call ∧
    ∃ sendReq, queued.message = .sendReq sendReq ∧ sendReq.messageId = written.messageId

/-! ## The I/O thread -/

theorem IoMove.usesFront {io : IoPc} (h : IoMove s io) (hfront : io.usesFront = true) :
    (∃ readable, io = .encode readable) ∧ s.io.usesFront = false ∧
      s.messageQueue ≠ [] := by
  cases h with
  | checkQueue readable writable hio hmutex hqueue =>
      exact ⟨⟨readable, rfl⟩, by rw [hio]; rfl, hqueue⟩
  | _ => cases hfront

theorem IoAlarm.usesFront {io next : IoPc} {action : AlarmAction ClientAlarm}
    (h : IoAlarm io action next) (hfront : next.usesFront = true) :
    io.usesFront = true := by
  cases h <;> first | rfl | cases hfront

theorem IoStatus.usesFront {io next : IoPc} {status : ConnectStatus}
    (h : IoStatus io status next) : next.usesFront = false := by
  cases h <;> rfl

theorem IoTimer.usesFront {u : TcpClient} {io : IoPc} (h : IoTimer s u io)
    (hfront : io.usesFront = true) : s.io.usesFront = true := by
  cases h with
  | cancelTimer => cases hfront
  | takeAlarm readable written hio | startAlarm readable written alarm hio
    | recordAlarm readable written alarm hio =>
      rw [hio]
      rfl

/-- The message is in front behind the step, and was in front of the queue before it
where the thread used it already. -/
def StaysInFront (s t : TcpClient) : Prop :=
  ∃ queued, InFront t queued ∧
    (s.io.usesFront = true → s.messageQueue.head? = some queued)

private theorem front_io (h : s.io.usesFront = true → ∃ queued, InFront s queued)
    {event : IoEvent} (hs : s.ioStep event = some t) (hfront : t.io.usesFront = true) :
    StaysInFront s t := by
  have keeps (hbefore : s.io.usesFront = true)
      (hqueue : t.messageQueue = s.messageQueue)
      (hwritten : ∀ written, t.io.written? = some written → s.io.written? = some written) :
      StaysInFront s t := by
    obtain ⟨queued, hqueued⟩ := h hbefore
    exact ⟨queued, ⟨hqueue ▸ hqueued.head, fun written hsome =>
      hqueued.written written (hwritten written hsome)⟩, fun _ => hqueued.head⟩
  cases ioStep_cases hs with
  | move io hmove =>
      obtain ⟨⟨readable, rfl⟩, hbefore, hne⟩ := hmove.usesFront hfront
      cases hqueue : s.messageQueue with
      | nil => exact absurd hqueue hne
      | cons queued rest =>
          refine ⟨queued, ⟨rfl, by simp [IoPc.written?]⟩, ?_⟩
          simp [hbefore]
  | alarm action timers io halarm =>
      exact keeps (halarm.usesFront hfront) rfl fun written hsome =>
        halarm.written.symm.trans hsome
  | status status io hstatus => cases hstatus.usesFront.symm.trans hfront
  | timer u io htimer =>
      refine keeps (htimer.usesFront hfront) ?_ fun written hsome => htimer.written hsome
      obtain ⟨timers, map, pool, created, armed, rfl⟩ := htimer.eq
      rfl
  | encode readable queued rest hio hqueue =>
      refine ⟨queued, ⟨by rw [TcpClient.write, hqueue]; rfl, fun written hsome => ?_⟩,
        fun _ => by rw [hqueue]; rfl⟩
      simp only [behindEncode] at hsome
      split at hsome
      · next sendReq hmessage =>
          cases hsome
          exact ⟨rfl, sendReq, hmessage, rfl⟩
      · cases hsome
  | inside next hio hmutex =>
      rcases s.front_proceed .io next with ⟨hsame, -⟩ | ⟨hstart, -⟩
      · rw [hsame, hio] at hfront
        cases hfront
      · rw [hstart] at hfront
        cases hfront
  | _ => cases hfront

theorem front_step (h : s.io.usesFront = true → ∃ queued, InFront s queued)
    (hs : s.step action = some t) (hfront : t.io.usesFront = true) : StaysInFront s t := by
  by_cases hio : ∃ event, action = .io event
  · obtain ⟨event, rfl⟩ := hio
    exact front_io h hs hfront
  rcases front_aside (fun event heq => hio ⟨event, heq⟩) hs with
    ⟨hsame, hpushed⟩ | ⟨hstart, -⟩
  · rw [hsame] at hfront
    obtain ⟨queued, hqueued⟩ := h hfront
    refine ⟨queued, ⟨?_, hsame ▸ hqueued.written⟩, fun _ => hqueued.head⟩
    obtain ⟨more, hmore⟩ := hpushed
    rw [← hmore, List.head?_append, hqueued.head]
    rfl
  · rw [hstart] at hfront
    cases hfront

theorem inFront_of_reachable (h : Reachable step AnyStep init s)
    (hfront : s.io.usesFront = true) : ∃ queued, InFront s queued := by
  induction h with
  | refl => cases hfront
  | tail _ _ _ hs ih =>
      obtain ⟨queued, hqueued, -⟩ := front_step ih hs hfront
      exact ⟨queued, hqueued⟩

/-- While the I/O thread uses the front message, whatever the other threads push and
whatever they tear down, the same message stays at the front, and its alarm is set for
its call and its id. -/
theorem front_stays (h : Reachable step AnyStep init s)
    (hrun : Reachable step (fun u _ => u.io.usesFront = true) s t)
    (hfront : t.io.usesFront = true) :
    ∃ queued, s.messageQueue.head? = some queued ∧ t.messageQueue.head? = some queued ∧
      ∀ written, t.io.written? = some written → written.call = queued.call ∧
        ∃ sendReq, queued.message = .sendReq sendReq ∧
          sendReq.messageId = written.messageId := by
  have hreach := h.trans (hrun.mono fun _ _ _ => trivial)
  obtain ⟨queued, hqueued⟩ := inFront_of_reachable hreach hfront
  refine ⟨queued, ?_, hqueued.head, hqueued.written⟩
  clear hreach
  induction hrun generalizing queued with
  | refl => exact hqueued.head
  | tail action hu hbefore hs ih =>
      have hreach := h.trans (hu.mono fun _ _ _ => trivial)
      obtain ⟨first, hfirst⟩ := inFront_of_reachable hreach hbefore
      obtain ⟨second, hsecond, hsame⟩ := front_step (fun _ => ⟨first, hfirst⟩) hs hfront
      have hqueued' : second = queued :=
        Option.some.inj (hsecond.head.symm.trans hqueued.head)
      have hfirst' : first = second :=
        Option.some.inj (hfirst.head.symm.trans (hsame hbefore))
      exact hqueued' ▸ hfirst' ▸ ih hbefore first hfirst

def encoding : List Action :=
  connecting ++ sending ++ [.io .none, .io .none, .io (.selected true true),
    .io .none, .io .none, .io .none, .io .none]

def pushedMeanwhile : List Action :=
  [.io (.encoded true)] ++ sending ++ List.replicate 4 (.io .none)

theorem front_stays_pushedMeanwhile :
    ∃ s t : TcpClient, s.messageQueue.length = 1 ∧ t.messageQueue.length = 2 ∧
      ∃ queued, s.messageQueue.head? = some queued ∧
        t.messageQueue.head? = some queued ∧ queued.call = 0 ∧
          ∃ sendReq, queued.message = .sendReq sendReq ∧ sendReq.messageId = 1 := by
  have hmap : (run step init encoding).bind (fun s => (run step s pushedMeanwhile).map
      fun t => (s.messageQueue.length, t.messageQueue.length, t.io.written?,
        t.io.usesFront,
          decide (Meets step (fun u _ => u.io.usesFront = true) s pushedMeanwhile))) =
          some (1, 2, some { call := 0, messageId := 1 }, true, true) := by
    decide +kernel
  obtain ⟨s, hs, hmap⟩ := Option.bind_eq_some_iff.mp hmap
  obtain ⟨t, ht, hstate⟩ := Option.map_eq_some_iff.mp hmap
  simp only [Prod.mk.injEq, decide_eq_true_eq] at hstate
  obtain ⟨hone, htwo, hwritten, hfront, hmeets⟩ := hstate
  obtain ⟨queued, hbefore, hbehind, hsame⟩ :=
    front_stays (.of_run hs) (.of_meets hmeets ht) hfront
  obtain ⟨hcall, sendReq, hmessage, hid⟩ := hsame _ hwritten
  exact ⟨s, t, hone, htwo, queued, hbefore, hbehind, hcall.symm, sendReq, hmessage, hid⟩

end TcpClient

end GoSocket.Client
