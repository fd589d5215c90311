import GoSocket.Client.Answers
import Mathlib.Data.List.Sort

/-!
# What a teardown leaves

`__WaitDisconnect`, when the queue's thread runs it from beginning to end and
no other thread comes between: what becomes of each timer, each callback and
each breaker, whatever the two maps hold.
-/

namespace GoSocket.Client

open Std GoSocket.Common GoSocket.Foundation

namespace TcpClient

/-- The queue's thread runs until `__WaitDisconnect` has returned. -/
def waitDisconnect : Nat → TcpClient → Option TcpClient
  | 0, _ => none
  | fuel + 1, self =>
      if self.callback = .checkReconnect then some self
      else
        match self.queueStep with
        | none => none
        | some next => waitDisconnect fuel next

def RunsTo (s t : TcpClient) : Prop := ∃ fuel, s.waitDisconnect fuel = some t

/-- The breakers that are to be made anew, the later one first. -/
def renewals (self : TcpClient) (session : Nat) : List Renewal :=
  let renewal (breaker : BreakerName) : Renewal :=
    { breaker, session, sessions := self.history.sessions }
  (if self.shouldNewConnBreaker then [renewal .connectBreaker] else []) ++
    if self.shouldNewBreaker then [renewal .readWriteBreaker] else []

/-- The callbacks of these ids are called and removed, and each breaker is made
anew that is to be. -/
structure AnswersAll (s t : TcpClient) (session : Nat) (messageIds : List UInt16) :
    Prop where
  called : t.history.invoked =
    ((messageIds.filterMap s.callback?).map (·, .kErrorCodeLoseConnect)).reverse ++
      s.history.invoked
  removed : ∀ messageId ∈ messageIds, ∀ call, s.callback? messageId = some call →
    messageId ∉ t.callbackMap
  recreated : t.history.recreated = s.renewals session ++ s.history.recreated
  breaker : s.shouldNewBreaker = true → t.breaker = s.newPipe

/-- The teardown does what it is there for. -/
structure TearsDown (s t : TcpClient) : Prop where
  canceled : ∀ (messageId : UInt16) (timer : Timer),
    s.timeoutAlarmMap[messageId]? = some timer →
      (t.timers.alarms (.request timer.alarm)).messageId = 0
  emptied : ∀ messageId : UInt16, t.timeoutAlarmMap[messageId]? = none
  answers : s.AnswersAll t s.history.sessions s.timeoutAlarmMap.keys

/-- Behind an id without a callback no other callback is left, and no breaker. -/
def NoneLeft (s : TcpClient) (messageIds : List UInt16) : Prop :=
  ∀ before messageId after, messageIds = before ++ messageId :: after →
    s.callback? messageId = none →
      (∀ other ∈ after, s.callback? other = none) ∧
        s.shouldNewBreaker = false ∧ s.shouldNewConnBreaker = false

variable {s t u : TcpClient}

theorem RunsTo.done (h : s.callback = .checkReconnect) : s.RunsTo s :=
  ⟨1, if_pos h⟩

theorem RunsTo.step (hs : s.queueStep = some u) (hpc : s.callback ≠ .checkReconnect)
    (h : u.RunsTo t) : s.RunsTo t := by
  obtain ⟨fuel, hfuel⟩ := h
  refine ⟨fuel + 1, ?_⟩
  rw [waitDisconnect, if_neg hpc, hs]
  exact hfuel

theorem RunsTo.unique {t' : TcpClient} (h : s.RunsTo t) (h' : s.RunsTo t') : t = t' := by
  obtain ⟨fuel, h⟩ := h
  obtain ⟨fuel', h'⟩ := h'
  induction fuel generalizing s fuel' with
  | zero => cases h
  | succ fuel ih =>
      cases fuel' with
      | zero => cases h'
      | succ fuel' =>
          rw [waitDisconnect] at h h'
          split at h
          · next hdone =>
              rw [if_pos hdone] at h'
              cases h
              cases h'
              rfl
          · next hdone =>
              rw [if_neg hdone] at h'
              cases hs : s.queueStep with
              | none =>
                  rw [hs] at h
                  cases h
              | some next =>
                  rw [hs] at h h'
                  exact ih h fuel' h'

/-! ## The timers -/

theorem keys_erase {α : Type} {map map' : TreeMap UInt16 α} {messageId : UInt16}
    {rest : List UInt16} (hkeys : map.keys = messageId :: rest)
    (hmap : ∀ other : UInt16, map'[other]? =
      if other = messageId then none else map[other]?) :
    map'.keys = rest := by
  have hsorted := hkeys ▸ map.ordered_keys
  have hnodup := hkeys ▸ map.nodup_keys
  rw [List.nodup_cons] at hnodup
  have : Std.Irrefl fun a b : UInt16 => compare a b = .lt :=
    ⟨fun a h => by simp at h⟩
  have : Std.Antisymm fun a b : UInt16 => compare a b = .lt :=
    ⟨fun a b h h' => by rw [OrientedCmp.gt_of_lt h'] at h; cases h⟩
  refine List.Pairwise.eq_of_mem_iff map'.ordered_keys
    (List.pairwise_cons.mp hsorted).2 fun other => ?_
  have hmem : other ∈ map.keys ↔ other = messageId ∨ other ∈ rest := by
    rw [hkeys, List.mem_cons]
  rw [TreeMap.mem_keys, TreeMap.mem_iff_isSome_getElem?] at hmem ⊢
  rw [hmap]
  by_cases heq : other = messageId
  · subst heq
    simp [hnodup.1]
  · rw [if_neg heq, hmem]
    simp [heq]

/-- Of what the teardown has still to do, the timers are none. -/
structure Kept (s u : TcpClient) : Prop where
  callbackMap : u.callbackMap = s.callbackMap
  breaker : u.breaker = s.breaker
  pipes : u.pipes = s.pipes
  shouldNewBreaker : u.shouldNewBreaker = s.shouldNewBreaker
  shouldNewConnBreaker : u.shouldNewConnBreaker = s.shouldNewConnBreaker
  invoked : u.history.invoked = s.history.invoked
  recreated : u.history.recreated = s.history.recreated
  sessions : u.history.sessions = s.history.sessions

theorem cancel_messageId (timers : Alarms ClientAlarm) (a b : ClientAlarm)
    (h : b = a ∨ (timers.alarms b).messageId = 0) :
    (((timers.cancel a).1).alarms b).messageId = 0 := by
  unfold Alarms.cancel
  split
  · next hzero =>
      rcases h with rfl | h
      · exact hzero
      · exact h
  · by_cases hb : b = a
    · subst hb
      simp [Alarms.set]
    · simpa [Alarms.set, hb] using h.resolve_left hb

theorem Kept.cancelTimer (s : TcpClient) (session : Nat) (messageId : UInt16)
    (callback : CallbackPc) :
    s.Kept { (s.loseTimer session messageId).cancelTimer messageId with callback } := by
  obtain ⟨canceled, hlose⟩ := s.loseTimer_eq session messageId
  obtain ⟨timers, timeoutAlarmMap, pool, hcancel⟩ :=
    (s.loseTimer session messageId).cancelTimer_eq messageId
  rw [hcancel, hlose]
  constructor <;> rfl

theorem alarms_cancelTimer (s : TcpClient) (session : Nat) (messageId : UInt16)
    (a : ClientAlarm)
    (h : (∃ timer, s.timeoutAlarmMap[messageId]? = some timer ∧ a = .request timer.alarm) ∨
      (s.timers.alarms a).messageId = 0) :
    (((s.loseTimer session messageId).cancelTimer messageId).timers.alarms a).messageId =
      0 := by
  obtain ⟨canceled, hlose⟩ := s.loseTimer_eq session messageId
  rw [hlose]
  unfold TcpClient.cancelTimer
  dsimp only
  split
  · next timer htimer =>
      rw [release_timers]
      apply cancel_messageId
      rcases h with ⟨timer', htimer', rfl⟩ | h
      · rw [htimer] at htimer'
        cases htimer'
        exact .inl rfl
      · exact .inr h
  · next hnone =>
      rcases h with ⟨timer', htimer', -⟩ | h
      · rw [hnone] at htimer'
        cases htimer'
      · exact h

@[simp] theorem timer_loseTimer (s : TcpClient) (session : Nat) (messageId other : UInt16) :
    ((s.loseTimer session messageId).cancelTimer messageId).timeoutAlarmMap[other]? =
      if other = messageId then none else s.timeoutAlarmMap[other]? := by
  obtain ⟨canceled, hlose⟩ := s.loseTimer_eq session messageId
  rw [timer_cancelTimer, hlose]

theorem Kept.trans {w : TcpClient} (h : s.Kept u) (h' : u.Kept w) : s.Kept w where
  callbackMap := h'.callbackMap.trans h.callbackMap
  breaker := h'.breaker.trans h.breaker
  pipes := h'.pipes.trans h.pipes
  shouldNewBreaker := h'.shouldNewBreaker.trans h.shouldNewBreaker
  shouldNewConnBreaker := h'.shouldNewConnBreaker.trans h.shouldNewConnBreaker
  invoked := h'.invoked.trans h.invoked
  recreated := h'.recreated.trans h.recreated
  sessions := h'.sessions.trans h.sessions

theorem collects {session : Nat} {messageIds : List UInt16}
    (hpc : s.callback = .cancelTimers session messageIds) :
    ∃ u, (∀ t, u.RunsTo t → s.RunsTo t) ∧
      u.callback = .getLost session (messageIds ++ s.timeoutAlarmMap.keys) ∧
      s.Kept u ∧ (∀ messageId : UInt16, u.timeoutAlarmMap[messageId]? = none) ∧
      (∀ a, (s.timers.alarms a).messageId = 0 → (u.timers.alarms a).messageId = 0) ∧
      ∀ (messageId : UInt16) (timer : Timer),
        s.timeoutAlarmMap[messageId]? = some timer →
          (u.timers.alarms (.request timer.alarm)).messageId = 0 := by
  have hnot : s.callback ≠ .checkReconnect := by simp [hpc]
  induction hkeys : s.timeoutAlarmMap.keys generalizing s messageIds with
  | nil =>
      have hs : s.queueStep = some { s with callback := .getLost session messageIds } := by
        rw [queueStep, hpc]
        simp only [hkeys]
      have hnone (messageId : UInt16) : s.timeoutAlarmMap[messageId]? = none := by
        apply TreeMap.getElem?_eq_none
        rw [← TreeMap.mem_keys, hkeys]
        exact List.not_mem_nil
      refine ⟨_, fun t ht => ht.step hs hnot, by simp, by constructor <;> rfl, hnone,
        fun _ h => h, ?_⟩
      intro messageId timer htimer
      rw [hnone messageId] at htimer
      cases htimer
  | cons messageId rest ih =>
      have hs : s.queueStep = some
          { (s.loseTimer session messageId).cancelTimer messageId with
            callback := .cancelTimers session (messageIds ++ [messageId]) } := by
        rw [queueStep, hpc]
        simp only [hkeys]
      have hmap := s.timer_loseTimer session messageId
      obtain ⟨u, hruns, hcallback, hkept, hempty, hzero, hcanceled⟩ :=
        ih (s := { (s.loseTimer session messageId).cancelTimer messageId with
            callback := .cancelTimers session (messageIds ++ [messageId]) }) rfl
          (by simp) (keys_erase hkeys hmap)
      refine ⟨u, fun t ht => (hruns t ht).step hs hnot, by simpa using hcallback,
        (Kept.cancelTimer s session messageId _).trans hkept, hempty, ?_, ?_⟩
      · intro a ha
        exact hzero a (s.alarms_cancelTimer session messageId a (.inr ha))
      · intro other timer htimer
        by_cases heq : other = messageId
        · subst heq
          exact hzero _ (s.alarms_cancelTimer session other _ (.inl ⟨timer, htimer, rfl⟩))
        · refine hcanceled other timer ?_
          have hother := hmap other
          rw [if_neg heq, htimer] at hother
          exact hother

/-! ## The callbacks and the breakers -/

/-- What the rest of the teardown leaves as it is. -/
structure Behind (s t : TcpClient) : Prop where
  timers : t.timers = s.timers
  timeoutAlarmMap : t.timeoutAlarmMap = s.timeoutAlarmMap
  callbackMap : ∀ messageId, messageId ∉ s.callbackMap → messageId ∉ t.callbackMap

theorem renewsConn (session : Nat) (hpc : s.callback = .checkNewConnBreaker session) :
    ∃ recreated, recreated =
        { s with shouldNewBreaker := false }.renewals session ++ s.history.recreated ∧
      s.RunsTo { s with
        callback := .checkReconnect
        history := { s.history with tornDown := session, recreated } } := by
  have hnot : s.callback ≠ .checkReconnect := by simp [hpc]
  by_cases hflag : s.shouldNewConnBreaker = true
  · have hs : s.queueStep = some { s with callback := .reCreateConn session } := by
      rw [queueStep, hpc]
      simp [hflag]
    refine ⟨{ breaker := .connectBreaker, session, sessions := s.history.sessions } ::
      s.history.recreated, by simp [renewals, hflag], ?_⟩
    exact ((RunsTo.done rfl).step rfl (by simp)).step hs hnot
  · have hs : s.queueStep = some (s.tearDown session) := by
      rw [queueStep, hpc]
      simp [hflag]
    exact ⟨s.history.recreated, by simp [renewals, hflag], (RunsTo.done rfl).step hs hnot⟩

theorem renewsBreakers {session : Nat} (hpc : s.callback = .checkNewBreaker session) :
    ∃ t, s.RunsTo t ∧ s.Behind t ∧ s.AnswersAll t session [] := by
  have hnot : s.callback ≠ .checkReconnect := by simp [hpc]
  by_cases hflag : s.shouldNewBreaker = true
  · have hs : s.queueStep = some { s with callback := .reCreate session } := by
      rw [queueStep, hpc]
      simp [hflag]
    obtain ⟨recreated, heq, hruns⟩ := renewsConn session
      (s := { s.renewBreaker .readWriteBreaker session with
        breaker := s.newPipe, callback := .checkNewConnBreaker session }) rfl
    refine ⟨_, (hruns.step rfl (by simp)).step hs hnot, ⟨rfl, rfl, fun _ h => h⟩, rfl,
      nofun, ?_, fun _ => rfl⟩
    simp [heq, hflag, renewals, renewBreaker]
  · have hs : s.queueStep = some { s with callback := .checkNewConnBreaker session } := by
      rw [queueStep, hpc]
      simp [hflag]
    obtain ⟨recreated, heq, hruns⟩ := renewsConn session
      (s := { s with callback := .checkNewConnBreaker session }) rfl
    refine ⟨_, hruns.step hs hnot, ⟨rfl, rfl, fun _ h => h⟩, rfl, nofun, ?_,
      fun htrue => absurd htrue hflag⟩
    simp [heq, hflag, renewals]

theorem NoneLeft.cons_of_none {messageId : UInt16} {rest : List UInt16}
    (h : s.callback? messageId = none) :
    s.NoneLeft (messageId :: rest) ↔ (∀ other ∈ rest, s.callback? other = none) ∧
      s.shouldNewBreaker = false ∧ s.shouldNewConnBreaker = false := by
  constructor
  · intro hleft
    exact hleft [] messageId rest rfl h
  · rintro ⟨hrest, hflags⟩ before other after heq -
    refine ⟨fun id hid => hrest id ?_, hflags⟩
    cases before with
    | nil =>
        cases heq
        exact hid
    | cons c before =>
        cases heq
        simp [hid]

theorem NoneLeft.cons_of_some {messageId : UInt16} {rest : List UInt16} {call : Nat}
    (h : s.callback? messageId = some call)
    (hsame : ∀ other ∈ rest, u.callback? other = s.callback? other)
    (hbreaker : u.shouldNewBreaker = s.shouldNewBreaker)
    (hconn : u.shouldNewConnBreaker = s.shouldNewConnBreaker) :
    s.NoneLeft (messageId :: rest) ↔ u.NoneLeft rest := by
  constructor
  · rintro hleft before other after rfl hnone
    rw [hsame other (by simp)] at hnone
    obtain ⟨hafter, hflags⟩ := hleft (messageId :: before) other after rfl hnone
    refine ⟨fun id hid => ?_, hbreaker ▸ hconn ▸ hflags⟩
    rw [hsame id (by simp [hid])]
    exact hafter id hid
  · intro hleft before other after heq hnone
    cases before with
    | nil =>
        cases heq
        rw [h] at hnone
        cases hnone
    | cons c before =>
        cases heq
        rw [← hsame other (by simp)] at hnone
        obtain ⟨hafter, hflags⟩ := hleft before other after rfl hnone
        refine ⟨fun id hid => ?_, hbreaker ▸ hconn ▸ hflags⟩
        rw [← hsame id (by simp [hid])]
        exact hafter id hid

theorem not_mem_dropCallback (s : TcpClient) (messageId : UInt16) {other : UInt16}
    (h : other ∉ s.callbackMap) : other ∉ (s.dropCallback messageId).callbackMap :=
  fun hmem => h (TreeMap.mem_of_mem_erase hmem)

theorem answersAll_earlyReturn {session : Nat} {messageId : UInt16} {rest : List UInt16}
    (h : s.callback? messageId = none) :
    s.AnswersAll ((s.dropCallback messageId).tearDown session) session
        (messageId :: rest) ↔
      (∀ other ∈ rest, s.callback? other = none) ∧
        s.shouldNewBreaker = false ∧ s.shouldNewConnBreaker = false := by
  constructor
  · intro hanswers
    have hcalled := hanswers.called
    have hrecreated := hanswers.recreated
    simp only [tearDown, dropCallback, List.self_eq_append_left] at hcalled hrecreated
    simp only [List.filterMap_cons, h, List.reverse_eq_nil_iff, List.map_eq_nil_iff,
      List.filterMap_eq_nil_iff] at hcalled
    unfold renewals at hrecreated
    refine ⟨hcalled, ?_, ?_⟩
    · cases hflag : s.shouldNewBreaker with
      | false => rfl
      | true => simp [hflag] at hrecreated
    · cases hflag : s.shouldNewConnBreaker with
      | false => rfl
      | true => simp [hflag] at hrecreated
  · rintro ⟨hrest, hbreaker, hconn⟩
    have hnone : (messageId :: rest).filterMap s.callback? = [] := by
      rw [List.filterMap_eq_nil_iff]
      intro other hother
      rcases List.mem_cons.mp hother with rfl | hother
      · exact h
      · exact hrest other hother
    constructor
    case called => simp [hnone, tearDown, dropCallback]
    case removed =>
      intro other hother call hsome
      rw [List.filterMap_eq_nil_iff.mp hnone other hother] at hsome
      cases hsome
    case recreated => simp [renewals, hbreaker, hconn, tearDown, dropCallback]
    case breaker =>
      intro htrue
      rw [hbreaker] at htrue
      cases htrue

theorem getsLost {session : Nat} {messageIds : List UInt16}
    (hpc : s.callback = .getLost session messageIds) (hnodup : messageIds.Nodup) :
    ∃ t, s.RunsTo t ∧ s.Behind t ∧
      (s.AnswersAll t session messageIds ↔ s.NoneLeft messageIds) := by
  have hnot : s.callback ≠ .checkReconnect := by simp [hpc]
  induction messageIds generalizing s with
  | nil =>
      have hs : s.queueStep = some { s with callback := .checkNewBreaker session } := by
        rw [queueStep, hpc]
      obtain ⟨t, hruns, hbehind, hanswers⟩ :=
        renewsBreakers (s := { s with callback := .checkNewBreaker session }) rfl
      refine ⟨t, hruns.step hs hnot, ⟨hbehind.timers, hbehind.timeoutAlarmMap,
        hbehind.callbackMap⟩, iff_of_true ⟨hanswers.called, hanswers.removed,
        hanswers.recreated, hanswers.breaker⟩ ?_⟩
      intro before messageId after heq
      simp at heq
  | cons messageId rest ih =>
      rw [List.nodup_cons] at hnodup
      cases hcallback : s.callback? messageId with
      | none =>
          have hs : s.queueStep =
              some ((s.dropCallback messageId).tearDown session) := by
            rw [queueStep, hpc]
            simp only [hcallback]
          refine ⟨_, (RunsTo.done rfl).step hs hnot, ⟨rfl, rfl, ?_⟩, ?_⟩
          · exact fun other hother => s.not_mem_dropCallback messageId hother
          · rw [NoneLeft.cons_of_none hcallback]
            exact answersAll_earlyReturn hcallback
      | some call =>
          have hs : s.queueStep = some { s.dropCallback messageId with
              callback := .callLost session call rest } := by
            rw [queueStep, hpc]
            simp only [hcallback]
          let u : TcpClient := { ((s.dropCallback messageId).callBack call
            .kErrorCodeLoseConnect).loseCallback session call with
              callback := .getLost session rest }
          have hu (other : UInt16) (hother : other ∈ rest) :
              u.callback? other = s.callback? other := by
            have hne : other ≠ messageId := fun heq => hnodup.1 (heq ▸ hother)
            have hdrop := callback?_dropCallback s messageId other
            rwa [if_neg hne] at hdrop
          have hgone : messageId ∉ u.callbackMap := by
            change messageId ∉ s.callbackMap.erase messageId
            simp
          obtain ⟨t, hruns, hbehind, hiff⟩ := ih (s := u) rfl hnodup.2 (by simp [u])
          have hfilter : rest.filterMap u.callback? = rest.filterMap s.callback? :=
            List.filterMap_congr hu
          refine ⟨t, (hruns.step rfl (by simp)).step hs hnot,
            ⟨hbehind.timers, hbehind.timeoutAlarmMap, fun other hother =>
              hbehind.callbackMap other (s.not_mem_dropCallback messageId hother)⟩, ?_⟩
          rw [NoneLeft.cons_of_some hcallback hu rfl rfl, ← hiff]
          have hinvoked : (((messageId :: rest).filterMap s.callback?).map
              (·, ErrorCode.kErrorCodeLoseConnect)).reverse ++ s.history.invoked =
                ((rest.filterMap u.callback?).map
                  (·, ErrorCode.kErrorCodeLoseConnect)).reverse ++ u.history.invoked := by
            rw [hfilter, List.filterMap_cons, hcallback]
            simp [u, loseCallback, callBack, dropCallback]
          have hpipe : u.newPipe = s.newPipe := by
            unfold newPipe
            rfl
          constructor
          · intro h
            refine ⟨h.called.trans hinvoked, ?_, h.recreated,
              fun htrue => (h.breaker htrue).trans hpipe.symm⟩
            intro other hother other' hsome
            rw [hu other hother] at hsome
            exact h.removed other (List.mem_cons_of_mem _ hother) other' hsome
          · intro h
            refine ⟨h.called.trans hinvoked.symm, ?_, h.recreated,
              fun htrue => (h.breaker htrue).trans hpipe⟩
            intro other hother other' hsome
            rcases List.mem_cons.mp hother with rfl | hother
            · exact hbehind.callbackMap other hgone
            · rw [← hu other hother] at hsome
              exact h.removed other hother other' hsome

namespace Kept

theorem callback? (h : s.Kept u) (messageId : UInt16) :
    u.callback? messageId = s.callback? messageId := by
  unfold TcpClient.callback?
  rw [h.callbackMap]

theorem renewals (h : s.Kept u) (session : Nat) :
    u.renewals session = s.renewals session := by
  unfold TcpClient.renewals
  rw [h.shouldNewBreaker, h.shouldNewConnBreaker, h.sessions]

theorem answersAll_iff (h : s.Kept u) {session : Nat} {messageIds : List UInt16} :
    u.AnswersAll t session messageIds ↔ s.AnswersAll t session messageIds := by
  have hcallback : u.callback? = s.callback? := funext h.callback?
  have hpipe : u.newPipe = s.newPipe := by
    rw [newPipe, newPipe, h.breaker, h.pipes]
  constructor
  · rintro ⟨hcalled, hremoved, hrecreated, hbreaker⟩
    rw [hcallback] at hremoved
    rw [hcallback, h.invoked] at hcalled
    rw [h.renewals, h.recreated] at hrecreated
    rw [h.shouldNewBreaker, hpipe] at hbreaker
    exact ⟨hcalled, hremoved, hrecreated, hbreaker⟩
  · rintro ⟨hcalled, hremoved, hrecreated, hbreaker⟩
    rw [← hcallback] at hremoved
    rw [← hcallback, ← h.invoked] at hcalled
    rw [← h.renewals, ← h.recreated] at hrecreated
    rw [← h.shouldNewBreaker, ← hpipe] at hbreaker
    exact ⟨hcalled, hremoved, hrecreated, hbreaker⟩

theorem noneLeft_iff (h : s.Kept u) {messageIds : List UInt16} :
    u.NoneLeft messageIds ↔ s.NoneLeft messageIds := by
  unfold NoneLeft
  simp only [h.callback?, h.shouldNewBreaker, h.shouldNewConnBreaker]

end Kept

theorem exists_runsTo (s : TcpClient) (hcall : s.callback = .waitDisconnect)
    (hthread : s.thread = true) (hio : s.io = .finished) :
    ∃ t, s.RunsTo t ∧ (s.TearsDown t ↔ s.NoneLeft s.timeoutAlarmMap.keys) := by
  have hwait : s.queueStep = some { s with callback := .join } := by
    rw [queueStep, hcall]
    simp [hthread]
  let r : TcpClient :=
    { s with thread := false, callback := .cancelTimers s.history.sessions [] }
  obtain ⟨u, hlead, hpc, hkept, hempty, -, hcanceled⟩ := collects (s := r) rfl
  obtain ⟨t, hruns, hbehind, hiff⟩ := getsLost hpc s.timeoutAlarmMap.nodup_keys
  have hjoin : ({ s with callback := .join } : TcpClient).queueStep =
      some { s with callback := .clearThread s.history.sessions } := by
    simp [queueStep, hio]
  refine ⟨t, ?_, ?_⟩
  · have hstart := hlead t hruns
    exact (((hstart.step rfl (by simp)).step rfl (by simp)).step hjoin (by simp)).step
      hwait (by simp [hcall])
  · have hsame : s.Kept u := (show s.Kept r by constructor <;> rfl).trans hkept
    have hanswers := (hsame.answersAll_iff.symm.trans hiff).trans hsame.noneLeft_iff
    constructor
    · intro h
      exact hanswers.mp h.answers
    · intro h
      refine ⟨?_, ?_, hanswers.mpr h⟩
      · intro messageId timer htimer
        rw [hbehind.timers]
        exact hcanceled messageId timer htimer
      · intro messageId
        rw [hbehind.timeoutAlarmMap]
        exact hempty messageId

/-- The teardown does all it is there for exactly if behind the first id without
a callback nothing is left to do. -/
theorem tearsDown_iff (s : TcpClient) (hcall : s.callback = .waitDisconnect)
    (hthread : s.thread = true) (hio : s.io = .finished) :
    (∃ t, s.RunsTo t) ∧
      ∀ t, s.RunsTo t → (s.TearsDown t ↔ s.NoneLeft s.timeoutAlarmMap.keys) := by
  obtain ⟨t, hruns, hiff⟩ := s.exists_runsTo hcall hthread hio
  refine ⟨⟨t, hruns⟩, fun t' hruns' => ?_⟩
  rw [hruns'.unique hruns]
  exact hiff

def beginning : List Action := List.replicate 3 .queue

theorem tearsDown_written : ∃ s t : TcpClient, s.timeoutAlarmMap.keys = [1] ∧
    s.RunsTo t ∧ s.TearsDown t := by
  let actions := connecting ++ sending ++ writingOnly ++ disconnecting ++ ending ++
    beginning
  have hmap : (run step init actions).map (fun s =>
      (s.callback, s.thread, s.io, s.timeoutAlarmMap.keys, s.callback? 1)) =
        some (.waitDisconnect, true, .finished, [1], some 0) := by
    decide +kernel
  obtain ⟨s, -, hstate⟩ := Option.map_eq_some_iff.mp hmap
  simp only [Prod.mk.injEq] at hstate
  obtain ⟨hcall, hthread, hio, hkeys, hcallback⟩ := hstate
  obtain ⟨⟨t, hruns⟩, hiff⟩ := tearsDown_iff s hcall hthread hio
  refine ⟨s, t, hkeys, hruns, (hiff t hruns).mpr ?_⟩
  intro before messageId after heq hnone
  rw [hkeys] at heq
  cases before with
  | nil =>
      cases heq
      rw [hcallback] at hnone
      cases hnone
  | cons _ before => simp at heq

def sendingNull : List Action :=
  [.user (.send [] [] none false), .user .proceed, .user .proceed, .user .proceed]

/-- A request without a callback is written in front of one that has one. -/
theorem nullCallback_ends_teardown :
    ¬ ∀ s t : TcpClient, Reachable step AnyStep init s →
      s.callback = .waitDisconnect → s.RunsTo t → s.TearsDown t := by
  intro hall
  let actions := connecting ++ sendingNull ++ sending ++ writingOnly ++ writingOnly ++
    disconnecting ++ ending ++ beginning
  have hmap : (run step init actions).map (fun s =>
      (s.callback, s.timeoutAlarmMap.keys, s.callback? 2,
        (s.waitDisconnect 20).map fun t => decide (2 ∈ t.callbackMap))) =
        some (.waitDisconnect, [1, 2], some 1, some true) := by
    decide +kernel
  obtain ⟨s, hreach, hstate⟩ := Reachable.of_run_map hmap
  simp only [Prod.mk.injEq] at hstate
  obtain ⟨hcall, hkeys, hcallback, hleft⟩ := hstate
  obtain ⟨t, hruns, hmem⟩ := Option.map_eq_some_iff.mp hleft
  have hdown := hall s t hreach hcall ⟨20, hruns⟩
  exact hdown.answers.removed 2 (by simp [hkeys]) 1 hcallback (by simpa using hmem)

end TcpClient

end GoSocket.Client
