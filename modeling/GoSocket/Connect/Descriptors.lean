import GoSocket.Connect.ConnectImpatient
import Mathlib.Data.List.Basic

/-!
# The descriptors of ConnectImpatient

A connector that has a socket object closes its descriptor.  `PreConnectSelect`
makes that object last: what it returns from before has a descriptor that
nobody knows.
-/

namespace GoSocket.Connect

open GoSocket.Foundation

namespace ConnectImpatient

private theorem count_flatMap_set {α : Type} (f : α → List Nat) (fd : Nat)
    {l : List α} {i : Nat} {x : α} (h : l[i]? = some x) :
    ∃ rest, (l.flatMap f).count fd = (f x).count fd + rest ∧
      ∀ y, ((l.set i y).flatMap f).count fd = (f y).count fd + rest := by
  induction l generalizing i with
  | nil => cases h
  | cons z l ih =>
      cases i with
      | zero =>
          cases h
          exact ⟨(l.flatMap f).count fd, by simp, by simp⟩
      | succ i =>
          obtain ⟨rest, hcount, hset⟩ := ih h
          refine ⟨(f z).count fd + rest, ?_, fun y => ?_⟩
          · rw [List.flatMap_cons, List.count_append, hcount]
            omega
          · rw [List.set_cons_succ, List.flatMap_cons, List.count_append, hset]
            omega

def fdsOf (connector : Option TcpConnector) : List Nat :=
  match connector with
  | some connector => connector.fds
  | none => []

def retFds (self : ConnectImpatient) : List Nat :=
  (self.retSocket.map ConnSocket.socket).toList

def held (self : ConnectImpatient) : List Nat :=
  self.connectors.flatMap fdsOf ++ self.retFds

/-- No `PreConnectSelect` returns early with a descriptor. -/
def NoEarlyReturn (self : ConnectImpatient) : ImpatientAction → Prop
  | .preSelect answers _ => ∀ connector ∈ self.preSelecting,
      connector.status = .ConnStatusStart → answers.socketFd ≠ none →
        ¬ connector.FailsEarly answers
  | _ => True

instance (self : ConnectImpatient) (action : ImpatientAction) :
    Decidable (self.NoEarlyReturn action) := by
  cases action <;> unfold NoEarlyReturn <;> infer_instance

/-- The open descriptors are those that are held and those that were lost. -/
structure Balanced (s : ConnectImpatient) (lost : List Nat) : Prop where
  sound : ∀ i connector, s.Has i connector → connector.Sound
  fds : ∀ fd, s.fds.count fd = s.held.count fd + lost.count fd
  ret : s.retSocket ≠ none →
    s.pc = .check ∨ (∃ i, s.pc = .close i) ∨ s.pc = .returned
  closed : ∀ i connector, s.Has i connector → s.pc ≠ .returned ∧
    ∀ j, s.pc = .close j → j ≤ i

variable {s t : ConnectImpatient} {lost : List Nat}

theorem balanced_start (conf : ComplexConnect) (withSSL : Bool)
    (addrs : List AddrInfo) (curTime : UInt64) :
    Balanced (start conf withSSL addrs curTime) [] where
  sound := by
    intro i connector h
    obtain ⟨addr, -, rfl⟩ : ∃ addr, addrs[i]? = some addr ∧
        TcpConnector.new withSSL addr conf.timeout = connector := by
      simpa [Has, start] using h
    exact TcpConnector.sound_new withSSL addr conf.timeout
  fds := by
    intro fd
    have hnil : (addrs.map fun addr => some
        (TcpConnector.new withSSL addr conf.timeout)).flatMap fdsOf = [] := by
      simp [fdsOf, TcpConnector.fds, TcpConnector.new]
    simp [start, held, retFds, hnil]
  ret := by simp [start]
  closed := by
    intro i connector h
    have hne : addrs ≠ [] := by
      rintro rfl
      simp [Has, start] at h
    simp [start, hne]

theorem held_set {i : Nat} {connector : TcpConnector}
    (hhas : s.Has i connector) (fd : Nat) : ∃ rest,
      s.held.count fd = connector.fds.count fd + rest + s.retFds.count fd ∧
        ∀ x, ((s.connectors.set i x).flatMap fdsOf).count fd =
          (fdsOf x).count fd + rest := by
  obtain ⟨rest, hcount, hset⟩ := count_flatMap_set fdsOf fd hhas
  refine ⟨rest, ?_, hset⟩
  rw [held, List.count_append, hcount, fdsOf]

/-- The descriptors behind a step at the `i`-th connector: `x` takes its place,
and what `lostNow` has is opened and not held. -/
theorem Balanced.replace (h : Balanced s lost) {i : Nat}
    {connector : TcpConnector} (x : Option TcpConnector) (lostNow : List Nat)
    (hhas : s.Has i connector) (hset : t.connectors = s.connectors.set i x)
    (hx : ∀ connector, x = some connector → connector.Sound)
    (hcount : ∀ fd,
      t.fds.count fd + connector.fds.count fd + s.retFds.count fd =
        s.fds.count fd + (fdsOf x).count fd + t.retFds.count fd + lostNow.count fd)
    (hret : t.retSocket ≠ none →
      t.pc = .check ∨ (∃ i, t.pc = .close i) ∨ t.pc = .returned)
    (hclosed : ∀ j connector, t.Has j connector → t.pc ≠ .returned ∧
      ∀ k, t.pc = .close k → k ≤ j) : Balanced t (lostNow ++ lost) where
  sound := by
    intro j connector' hj
    have hj' : (s.set i x).Has j connector' := by
      unfold Has at hj
      rwa [hset] at hj
    rcases has_set hj' with ⟨-, heq⟩ | ⟨-, hj⟩
    · exact hx connector' heq
    · exact h.sound j connector' hj
  fds := by
    intro fd
    obtain ⟨rest, hheld, hrest⟩ := held_set hhas fd
    have hfds := h.fds fd
    have hcount := hcount fd
    rw [held, hset, List.count_append, List.count_append, hrest]
    omega
  ret := hret
  closed := hclosed

theorem Balanced.count_diff (h : Balanced s lost) {i : Nat}
    {connector : TcpConnector} (hhas : s.Has i connector) (fd : Nat) :
    (s.fds.diff connector.fds).count fd + connector.fds.count fd =
      s.fds.count fd := by
  obtain ⟨rest, hheld, -⟩ := held_set hhas fd
  have hfds := h.fds fd
  have hone : connector.fds.length ≤ 1 := by
    unfold TcpConnector.fds
    cases connector.socket <;> simp
  match hlist : connector.fds, hone with
  | [], _ => simp
  | [socket], _ =>
      rw [hlist] at hheld
      rw [List.diff_cons, List.diff_nil, List.count_erase, List.count_singleton]
      rw [List.count_singleton] at hheld
      by_cases heq : (socket == fd) = true
      · rw [if_pos heq] at hheld ⊢
        omega
      · rw [if_neg heq]
        omega

def lostBy (self : ConnectImpatient) : ImpatientAction → List Nat
  | .preSelect answers _ =>
      match self.preSelecting with
      | some connector =>
          if connector.FailsEarly answers then opened connector answers else []
      | none => []
  | _ => []

theorem lostBy_eq_nil_iff (s : ConnectImpatient) (action : ImpatientAction) :
    s.lostBy action = [] ↔ s.NoEarlyReturn action := by
  cases action with
  | preSelect answers tickCount =>
      unfold lostBy NoEarlyReturn
      cases s.preSelecting with
      | none => simp
      | some connector =>
          cases hfd : answers.socketFd <;>
            by_cases hstatus : connector.status = .ConnStatusStart <;>
            by_cases hearly : connector.FailsEarly answers <;>
            simp [opened, hfd, hstatus, hearly]
  | _ => simp [lostBy, NoEarlyReturn]

private theorem count_opened {connector connector' : TcpConnector}
    {answers : PreAnswers} (hsound : connector.Sound)
    (hs : connector.PreCases answers connector') (fd : Nat) :
    (opened connector answers).count fd + connector.fds.count fd =
      connector'.fds.count fd + (if connector.FailsEarly answers then
        opened connector answers else []).count fd := by
  by_cases hstatus : connector.status = .ConnStatusStart
  · have hnil : connector.fds = [] := by
      simp [TcpConnector.fds, hsound.start hstatus]
    cases hs with
    | same hne => exact absurd hstatus hne
    | noSocket _ hfd => simp [opened, hfd, TcpConnector.fail, TcpConnector.fds]
    | failsEarly _ socketFd hfd hearly =>
        simp only [if_pos hearly]
        have : connector.fds.count fd = 0 := by simp [hnil]
        simpa [TcpConnector.fds, TcpConnector.fail] using Nat.add_comm _ _
    | connecting _ socketFd hfd hearly =>
        simp [hearly, opened, hstatus, hfd, hsound.start hstatus, TcpConnector.fds]
    | handshake _ hne =>
        rw [hstatus] at hne
        cases hne
  · simp [opened, hstatus, hs.fds_of_ne hstatus]

private theorem Balanced.top (h : Balanced s lost) {curTime startTime : UInt64}
    (hpc : s.pc = .top) : Balanced
      { s.nextAddress curTime startTime with
        tickCount := startTime
        round := startTime
        pc := .preSelect 0 } lost := by
  have hsame : (s.nextAddress curTime startTime).connectors = s.connectors ∧
      (s.nextAddress curTime startTime).fds = s.fds ∧
      (s.nextAddress curTime startTime).retSocket = s.retSocket := by
    unfold nextAddress
    dsimp only
    split
    · split
      · exact ⟨rfl, rfl, rfl⟩
      · exact ⟨rfl, rfl, rfl⟩
    · exact ⟨rfl, rfl, rfl⟩
  obtain ⟨hconnectors, hfds, hret⟩ := hsame
  constructor
  case sound => simpa [Has, hconnectors] using h.sound
  case fds => simpa [held, retFds, hconnectors, hfds, hret] using h.fds
  case ret =>
    intro hne
    have := h.ret (by simpa [hret] using hne)
    simp [hpc] at this
  case closed => simp

private theorem Balanced.preSelect (h : Balanced s lost) {answers : PreAnswers}
    {tickCount : UInt64} {i : Nat} {connector : TcpConnector}
    (hpc : s.pc = .preSelect i) (hhas : s.Has i connector) : Balanced
      { s.callPreSelect i connector answers tickCount with
        tickCount
        pc := .preSelect (i + 1) }
      ((if connector.FailsEarly answers then opened connector answers else []) ++
        lost) := by
  have hcases := TcpConnector.callPreSelect_cases connector answers s.sel
  have hsound := h.sound i connector hhas
  apply h.replace (some (connector.callPreSelect answers s.sel).1) _ hhas rfl
  case hx =>
    intro _ heq
    cases heq
    exact hsound.pre hcases
  case hcount =>
    intro fd
    have hopened := count_opened hsound hcases fd
    show (opened connector answers ++ s.fds).count fd + _ + s.retFds.count fd =
      _ + (connector.callPreSelect answers s.sel).1.fds.count fd +
        s.retFds.count fd + _
    rw [List.count_append]
    omega
  case hret =>
    intro hne
    have := h.ret hne
    simp [hpc] at this
  case hclosed => simp

private theorem Balanced.afterSelect (h : Balanced s lost)
    {answers : AfterAnswers} {i : Nat} {connector : TcpConnector}
    (hpc : s.pc = .afterSelect i) (hhas : s.Has i connector) : Balanced
      { s.callAfterSelect i connector answers with
        tickCount := answers.tickCount } lost := by
  have hcases := TcpConnector.callAfterSelect_cases connector answers
  have hsound := (h.sound i connector hhas).after hcases
  have hfds : (connector.callAfterSelect answers).fds = connector.fds := by
    simp [TcpConnector.fds, hcases.socket]
  have hnone : s.retSocket = none := by
    by_contra hne
    have := h.ret hne
    simp [hpc] at this
  have hret : s.retFds = [] := by simp [retFds, hnone]
  unfold callAfterSelect
  dsimp only
  split
  · apply h.replace none [] hhas rfl
    case hx => simp
    case hcount =>
      intro fd
      have hdiff := h.count_diff hhas fd
      rw [TcpConnector.close_eq, hfds]
      show (s.fds.diff connector.fds).count fd + _ + s.retFds.count fd =
        _ + 0 + s.retFds.count fd + 0
      omega
    case hret => exact fun hne => absurd hnone hne
    case hclosed => simp
  · apply h.replace none [] hhas rfl
    case hx => simp
    case hcount =>
      intro fd
      show s.fds.count fd + connector.fds.count fd + s.retFds.count fd =
        s.fds.count fd + 0 + (connector.callAfterSelect answers).fds.count fd + 0
      rw [hfds, hret, List.count_nil]
      omega
    case hret => exact fun _ => .inl rfl
    case hclosed => simp
  · apply h.replace (some (connector.callAfterSelect answers)) [] hhas rfl
    case hx =>
      intro _ heq
      cases heq
      exact hsound
    case hcount =>
      intro fd
      show s.fds.count fd + connector.fds.count fd + s.retFds.count fd =
        s.fds.count fd + (connector.callAfterSelect answers).fds.count fd +
          s.retFds.count fd + 0
      rw [hfds]
      omega
    case hret => exact fun hne => absurd hnone hne
    case hclosed => simp

private theorem Balanced.close (h : Balanced s lost) {i : Nat}
    {connector : TcpConnector} (hpc : s.pc = .close i)
    (hhas : s.Has i connector) : Balanced
      { (s.set i none).closeFds connector.close.1 with pc := .close (i + 1) }
      lost := by
  apply h.replace none [] hhas rfl
  case hx => simp
  case hcount =>
    intro fd
    have hdiff := h.count_diff hhas fd
    rw [TcpConnector.close_eq]
    show (s.fds.diff connector.fds).count fd + _ + s.retFds.count fd =
      _ + 0 + s.retFds.count fd + 0
    omega
  case hret => exact fun _ => .inr (.inl ⟨i + 1, rfl⟩)
  case hclosed =>
    intro j connector' hj
    refine ⟨by simp, fun k hk => ?_⟩
    cases hk
    rcases has_set hj with ⟨-, heq⟩ | ⟨hne, hj⟩
    · cases heq
    · have := (h.closed j connector' hj).2 i hpc
      omega

private theorem Balanced.turn (h : Balanced s lost) {pc : ImpatientPc}
    (hturn : Turn s pc) : Balanced { s with pc } lost := by
  have hkeep (hret : s.retSocket ≠ none →
      pc = .check ∨ (∃ i, pc = .close i) ∨ pc = .returned)
      (hclosed : ∀ i connector, s.Has i connector → pc ≠ .returned ∧
        ∀ j, pc = .close j → j ≤ i) : Balanced { s with pc } lost :=
    ⟨h.sound, h.fds, hret, hclosed⟩
  have hrace (hpc : ¬ (s.pc = .check ∨ (∃ i, s.pc = .close i) ∨ s.pc = .returned))
      (hne : pc ≠ .returned) (hclose : ∀ i, pc ≠ .close i) :
      Balanced { s with pc } lost :=
    hkeep (fun hret => absurd (h.ret hret) hpc)
      fun _ _ _ => ⟨hne, fun j hj => absurd hj (hclose j)⟩
  cases hturn with
  | preSkip i hpc => exact hrace (by simp [hpc]) (by simp) (by simp)
  | preEnd i hpc => exact hrace (by simp [hpc]) (by simp) (by simp)
  | selected selTimeout hpc => exact hrace (by simp [hpc]) (by simp) (by simp)
  | afterSkip i hpc => exact hrace (by simp [hpc]) (by simp) (by simp)
  | afterEnd i hpc => exact hrace (by simp [hpc]) (by simp) (by simp)
  | checkEnd hpc => exact hkeep (by simp) (by simp)
  | checkTop hpc hret => exact hkeep (fun hne => absurd hret hne) (by simp)
  | closeSkip i hpc hnone =>
      apply hkeep (by simp)
      intro j connector hj
      refine ⟨by simp, fun k hk => ?_⟩
      cases hk
      have hle := (h.closed j connector hj).2 i hpc
      have hne : i ≠ j := by
        rintro rfl
        exact hnone connector hj
      omega
  | closeEnd i hpc hi =>
      apply hkeep (by simp)
      intro j connector hj
      have hle := (h.closed j connector hj).2 i hpc
      have hlt := (List.getElem?_eq_some_iff.mp hj).1
      omega

theorem balanced_step {action : ImpatientAction} (h : Balanced s lost)
    (hs : s.step action = some t) : Balanced t (s.lostBy action ++ lost) := by
  cases step_cases hs with
  | top curTime startTime hpc => exact h.top hpc
  | preSelect answers tickCount i connector hpc hi hhas =>
      unfold lostBy
      rw [preSelecting_eq hpc hi hhas]
      exact h.preSelect hpc hhas
  | leave result selTimeout hpc event =>
      refine ⟨h.sound, h.fds, by simp, ?_⟩
      intro i connector _
      refine ⟨by simp, fun j hj => ?_⟩
      cases hj
      exact Nat.zero_le i
  | afterSelect answers i connector hpc hi hhas => exact h.afterSelect hpc hhas
  | close i connector hpc hhas => exact h.close hpc hhas
  | turn action pc hturn hidle =>
      have hnil : s.lostBy action = [] := by
        rw [lostBy_eq_nil_iff]
        cases action <;> simp [NoEarlyReturn, hidle]
      rw [hnil]
      exact h.turn hturn

theorem Balanced.returned (h : Balanced s lost) (hpc : s.pc = .returned) :
    s.fds = s.retFds ↔ lost = [] := by
  have hheld : s.held = s.retFds := by
    have hnil : s.connectors.flatMap fdsOf = [] := by
      rw [List.flatMap_eq_nil_iff]
      intro x hx
      cases x with
      | none => rfl
      | some connector =>
          obtain ⟨i, hi⟩ := List.getElem?_of_mem hx
          exact absurd hpc (h.closed i connector hi).1
    rw [held, hnil, List.nil_append]
  have hperm : s.fds.Perm (s.retFds ++ lost) := by
    rw [List.perm_iff_count]
    intro fd
    rw [List.count_append, ← hheld, h.fds fd]
  constructor
  · intro heq
    have hlength := hperm.length_eq
    rw [heq, List.length_append] at hlength
    exact List.length_eq_zero_iff.mp (by omega)
  · rintro rfl
    rw [List.append_nil] at hperm
    cases hret : s.retSocket with
    | none =>
        have hnil : s.retFds = [] := by simp [retFds, hret]
        rw [hnil] at hperm ⊢
        exact hperm.eq_nil
    | some socket =>
        have hone : s.retFds = [socket.socket] := by simp [retFds, hret]
        rw [hone] at hperm ⊢
        exact hperm.eq_singleton

theorem descriptors_closed_iff (conf : ComplexConnect) (withSSL : Bool)
    (addrs : List AddrInfo) (curTime : UInt64) {actions : List ImpatientAction}
    (hrun : run step (start conf withSSL addrs curTime) actions = some s)
    (hpc : s.pc = .returned) :
    s.fds = s.retFds ↔
      Meets step NoEarlyReturn (start conf withSSL addrs curTime) actions := by
  have hstep (s : ConnectImpatient) (action : ImpatientAction)
      (t : ConnectImpatient) (lost : List Nat) (h : Balanced s lost)
      (hs : s.step action = some t) : ∃ lost', Balanced t lost' ∧
        (lost' = [] ↔ lost = [] ∧ s.NoEarlyReturn action) := by
    refine ⟨s.lostBy action ++ lost, balanced_step h hs, ?_⟩
    rw [List.append_eq_nil_iff, lostBy_eq_nil_iff]
    exact And.comm
  obtain ⟨lost, hbalanced, hclean⟩ :=
    clean_iff_meets hstep (balanced_start conf withSSL addrs curTime) hrun
  rw [hbalanced.returned hpc, hclean]
  simp

def oneAtATime : ComplexConnect :=
  { timeout := 1000, interval := 500, errorInterval := 100, maxConnect := 1 }

def connectsAtOnce : List ImpatientAction :=
  [.top 0 0, .preSelect { socketFd := some 4 } 0, .preSelect {} 0, .select .done,
    .afterSelect { ready := { writeFdIsSet := true } }, .check, .close, .close]

def breaksAtOnce (answers : PreAnswers) : List ImpatientAction :=
  [.top 0 0, .preSelect answers 0, .preSelect {} 0, .select .isBreak, .close,
    .close]

def server (ip : String) : AddrInfo := { ip, port := 80, isTls := false }

theorem descriptors_closed_iff_connected :
    ∃ s, run step (start oneAtATime false [server "127.0.0.1"] 0)
      connectsAtOnce = some s ∧ s.pc = .returned ∧ s.fds = s.retFds ∧
        s.fds = [4] := by
  refine ⟨(run step (start oneAtATime false [server "127.0.0.1"] 0)
    connectsAtOnce).get (by decide +kernel), (Option.some_get _).symm,
    by decide +kernel, ?_, by decide +kernel⟩
  apply (descriptors_closed_iff oneAtATime false [server "127.0.0.1"] 0
    (Option.some_get _).symm (by decide +kernel)).mpr
  decide +kernel

/-- An empty host, a descriptor that does not get nonblocking and a `connect`
that is refused at once leave the descriptor open. -/
theorem descriptor_left_open :
    (run step (start oneAtATime false [server ""] 0)
      (breaksAtOnce { socketFd := some 4 })).map
        (fun s => (s.pc, s.retSocket, s.fds)) = some (.returned, none, [4]) ∧
    (run step (start oneAtATime false [server "127.0.0.1"] 0)
      (breaksAtOnce { socketFd := some 4, noblo := false })).map
        (fun s => (s.pc, s.retSocket, s.fds)) = some (.returned, none, [4]) ∧
    (run step (start oneAtATime false [server "127.0.0.1"] 0)
      (breaksAtOnce { socketFd := some 4, connects := false })).map
        (fun s => (s.pc, s.retSocket, s.fds)) = some (.returned, none, [4]) := by
  decide +kernel

end ConnectImpatient

end GoSocket.Connect
