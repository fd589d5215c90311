import GoSocket.Connect.DnsQuery
import GoSocket.Foundation.Tally
import GoSocket.Socket.StaleNumbers

/-!
# The numbers of `_retBreaker`

Almost every lookup finds the pipe of `_retBreaker` empty, closes it and makes another
one, while the threads of the lookups before it may still call `Break`.
-/

namespace GoSocket.Connect

open GoSocket.Foundation GoSocket.Socket

namespace DnsQuery

/-- The call of `_retBreaker` that a step is. -/
def retBreakerCall (self : DnsQuery) : DnsAction → List (Nat × BreakerAction)
  | .query (.read reads) =>
      match self.pc with
      | .clear _ => [(0, .clear reads)]
      | _ => []
  | .query .none =>
      match self.pc with
      | .close _ => [(0, .close)]
      | .reset _ => [(0, .reset)]
      | _ => []
  | .query (.pipe ok) =>
      match self.pc with
      | .create _ => [(0, .create ok)]
      | .configure _ => [(0, .configure ok)]
      | _ => []
  | .resolver n (.write ok) =>
      match self.resolvers[n]? with
      | some .breakRet => [(0, .break_ ok)]
      | _ => []
  | _ => []

def construct : List (Nat × BreakerAction) :=
  [(0, .reset), (0, .create true), (0, .configure true)]

/-- The calls of `_retBreaker` in a run, the constructor's first. -/
def retBreakerCalls (actions : List DnsAction) : List (Nat × BreakerAction) :=
  construct ++ (tally step retBreakerCall {} actions).reverse

/-- `fcntl` fails, or a thread reports between `Close` and `ReCreate`. -/
def losesNumbers (self : DnsQuery) : DnsAction → Bool
  | .query (.pipe ok) =>
      match self.pc with
      | .configure _ => !ok
      | _ => false
  | .resolver n (.write _) =>
      match self.resolvers[n]?, self.pc with
      | some .breakRet, .reset _ => !self.retBreaker.broken
      | _, _ => false
  | _ => false

/-- `fcntl` succeeds, and no thread reports between `Close` and `ReCreate`. -/
def KeepsNumbers (self : DnsQuery) (action : DnsAction) : Prop :=
  self.losesNumbers action = false

instance (s : DnsQuery) (action : DnsAction) : Decidable (KeepsNumbers s action) :=
  inferInstanceAs (Decidable (_ = _))

/-- The calls so far go to their own pipe, and tell what `_retBreaker` is. -/
structure TellsNumbers (s : DnsQuery) (calls : List (Nat × BreakerAction)) : Prop where
  meets : Meets Calls.step Calls.Current (fun _ => {}) calls
  run : ∃ x : Nat → Signals, run Calls.step (fun _ => {}) calls = some x ∧
    (x 0).breaker = s.retBreaker ∧
      ((x 0).breaker.stale = true → ∃ query, s.pc = .reset query)

namespace TellsNumbers

variable {s t : DnsQuery} {calls : List (Nat × BreakerAction)}

/-- The numbers are stale at most between `Close` and `ReCreate`. -/
def Follows (s : DnsQuery) (x : Signals) : Prop :=
  x.breaker = s.retBreaker ∧ (x.breaker.stale = true → ∃ query, s.pc = .reset query)

theorem call (h : TellsNumbers s calls) {action : BreakerAction}
    (hcall : ∀ x : Nat → Signals, Follows s (x 0) → Calls.Current x (0, action) ∧
      ∃ y, (x 0).step action = some y ∧ Follows t y) :
    TellsNumbers t (calls ++ [(0, action)]) := by
  obtain ⟨x, hrun, hfollows⟩ := h.run
  obtain ⟨hcurrent, y, hy, hnext⟩ := hcall x hfollows
  have hstep : Calls.step x (0, action) = some (Function.update x 0 y) := by
    simp [Calls.step, hy]
  refine ⟨h.meets.append hrun fun _ _ => ⟨hcurrent, trivial⟩, Function.update x 0 y, ?_,
    by rwa [Function.update_self]⟩
  rw [run_append hrun]
  simp only [Foundation.run, hstep]

theorem silent (h : TellsNumbers s calls) (hbreaker : t.retBreaker = s.retBreaker)
    (hreset : ∀ query, s.pc = .reset query → ∃ query, t.pc = .reset query) :
    TellsNumbers t calls := by
  obtain ⟨x, hrun, hsame, hstale⟩ := h.run
  refine ⟨h.meets, x, hrun, hsame.trans hbreaker.symm, fun htrue => ?_⟩
  obtain ⟨query, hpc⟩ := hstale htrue
  exact hreset query hpc

theorem Follows.not_stale {x : Signals} (h : Follows s x)
    (hpc : ∀ query, s.pc ≠ .reset query) : x.breaker.stale = false := by
  cases hstale : x.breaker.stale with
  | false => rfl
  | true =>
      obtain ⟨query, hreset⟩ := h.2 hstale
      exact absurd hreset (hpc query)

private theorem quiet (h : TellsNumbers s calls) {action : DnsAction}
    (hnone : s.retBreakerCall action = []) (hbreaker : t.retBreaker = s.retBreaker)
    (hpc : ∀ query, s.pc ≠ .reset query) :
    TellsNumbers t (calls ++ (s.retBreakerCall action).reverse) := by
  rw [hnone, List.reverse_nil, List.append_nil]
  exact h.silent hbreaker fun query hreset => absurd hreset (hpc query)

private theorem calls_own (h : TellsNumbers s calls) {event : QueryEvent}
    (action : BreakerAction) (hpc : ∀ query, s.pc ≠ .reset query)
    (hcall : s.retBreakerCall (.query event) = [(0, action)])
    (hcurrent : ∀ x : Nat → Signals, (x 0).breaker.stale = false →
      Calls.Current x (0, action))
    (hstep : ∀ x : Signals, x.breaker = s.retBreaker → x.breaker.stale = false →
      ∃ y, x.step action = some y ∧ Follows t y) :
    TellsNumbers t (calls ++ (s.retBreakerCall (.query event)).reverse) := by
  rw [hcall]
  refine h.call fun x hfollows => ?_
  have hfalse := hfollows.not_stale hpc
  exact ⟨hcurrent x hfalse, hstep (x 0) hfollows.1 hfalse⟩

theorem query (h : TellsNumbers s calls) {event : QueryEvent}
    (hkeeps : KeepsNumbers s (.query event)) (hs : s.queryStep event = some t) :
    TellsNumbers t (calls ++ (s.retBreakerCall (.query event)).reverse) := by
  unfold DnsQuery.queryStep at hs
  split at hs
  · next query hpc =>
      cases hs
      exact h.quiet rfl rfl (by simp [hpc])
  · next query ips hpc =>
      dsimp only at hs
      split at hs <;> cases hs <;> exact h.quiet rfl rfl (by simp [hpc])
  · next query reads hpc =>
      obtain ⟨⟨retBreaker, ret⟩, hclear, rfl⟩ := Option.map_eq_some_iff.mp hs
      refine h.calls_own (.clear reads) (by simp [hpc]) (by simp [retBreakerCall, hpc])
        (fun _ hfalse => hfalse) fun x hsame hfalse => ?_
      refine ⟨{ breaker := retBreaker, signalled := x.signalled && !ret },
        by simp [Signals.step, hsame, hclear], rfl, fun hstale => ?_⟩
      rw [Breaker.stale_clear hclear, ← hsame, hfalse] at hstale
      cases hstale
  · next query hpc =>
      cases hs
      refine h.calls_own .close (by simp [hpc]) (by simp [retBreakerCall, hpc])
        (fun _ hfalse => hfalse) fun x hsame hfalse => ⟨_, rfl, ?_, fun _ => ⟨query, rfl⟩⟩
      simp [hsame]
  · next query hpc =>
      cases hs
      have hcall : s.retBreakerCall (.query .none) = [(0, .reset)] := by
        simp [retBreakerCall, hpc]
      rw [hcall]
      refine h.call fun x hfollows => ⟨trivial, _, rfl, ?_, by simp⟩
      simp [hfollows.1]
  · next query ok hpc =>
      cases hs
      refine h.calls_own (.create ok) (by simp [hpc]) (by simp [retBreakerCall, hpc])
        (fun _ _ => trivial) fun x hsame hfalse => ?_
      cases ok <;> refine ⟨_, rfl, ?_, by simp⟩ <;> simp [hsame]
  · next query ok hpc =>
      cases hs
      have hok : ok = true := by simpa [KeepsNumbers, losesNumbers, hpc] using hkeeps
      cases hok
      refine h.calls_own (.configure true) (by simp [hpc]) (by simp [retBreakerCall, hpc])
        (fun _ hfalse => hfalse) fun x hsame hfalse => ⟨_, rfl, ?_, ?_⟩
      · simp [hsame]
      · simp [hfalse]
  · next query hpc =>
      cases hs
      exact h.quiet (by simp [retBreakerCall, hpc]) rfl (by simp [hpc])
  · next query hpc =>
      cases hs
      exact h.quiet (by simp [retBreakerCall, hpc]) rfl (by simp [hpc])
  · next query hpc =>
      cases hs
      exact h.quiet rfl rfl (by simp [hpc])
  · next query hpc =>
      split at hs
      · cases hs
        exact h.quiet rfl rfl (by simp [hpc])
      · cases hs
  · next query selected _ _ hpc =>
      cases hs
      exact h.quiet rfl rfl (by simp [hpc])
  · next query hpc =>
      cases hs
      exact h.quiet (by simp [retBreakerCall, hpc]) rfl (by simp [hpc])
  · cases hs

theorem resolver (h : TellsNumbers s calls) {n : Nat} {event : ResolverEvent}
    (hkeeps : KeepsNumbers s (.resolver n event)) (hs : s.resolverStep n event = some t) :
    TellsNumbers t (calls ++ (s.retBreakerCall (.resolver n event)).reverse) := by
  have quiet {t : DnsQuery} (hnone : s.retBreakerCall (.resolver n event) = [])
      (hbreaker : t.retBreaker = s.retBreaker) (hpc : t.pc = s.pc) :
      TellsNumbers t (calls ++ (s.retBreakerCall (.resolver n event)).reverse) := by
    rw [hnone, List.reverse_nil, List.append_nil]
    exact h.silent hbreaker fun query hreset => ⟨query, hpc.trans hreset⟩
  unfold DnsQuery.resolverStep at hs
  dsimp only at hs
  split at hs
  · cases hs
    exact quiet rfl rfl rfl
  · cases hs
    exact quiet rfl rfl rfl
  · cases hs
    exact quiet rfl rfl rfl
  · cases hs
    exact quiet rfl rfl rfl
  · cases hs
    exact quiet rfl rfl rfl
  · cases hs
    exact quiet rfl rfl rfl
  · next ok hpc =>
      cases hs
      have hcall : s.retBreakerCall (.resolver n (.write ok)) = [(0, .break_ ok)] := by
        simp [retBreakerCall, hpc]
      rw [hcall]
      refine h.call fun x hfollows => ⟨?_,
        { breaker := ((x 0).breaker.break_ ok).1
          signalled := (x 0).signalled || ((x 0).breaker.break_ ok).2 },
        rfl, ?_, fun hstale => hfollows.2 (by simpa using hstale)⟩
      · by_cases hstale : (x 0).breaker.stale = true
        · obtain ⟨query, hreset⟩ := hfollows.2 hstale
          left
          rw [hfollows.1]
          simpa [KeepsNumbers, losesNumbers, hpc, hreset] using hkeeps
        · exact .inr (by simpa using hstale)
      · simp [hfollows.1]
  · cases hs

end TellsNumbers

theorem tellsNumbers_init : TellsNumbers {} (construct ++ ([] : List _).reverse) := by
  refine ⟨?_, _, rfl, rfl, fun hstale => ?_⟩
  · rintro _ ⟨⟩
    refine ⟨trivial, ?_⟩
    rintro _ ⟨⟩
    refine ⟨trivial, ?_⟩
    rintro _ ⟨⟩
    exact ⟨rfl, trivial⟩
  · cases hstale

def closes : List DnsAction :=
  asking firstQuery 0 ++ [.query (.selected .timeout), .query .none,
    .resolver 0 (.answer none), .query (.getHostByName secondQuery),
    .query (.httpDns []), .query (.read false), .query .none]

def pipeClosed : List ProcessAction :=
  [.call 0 .reset (0, 0), .call 0 (.create true) (3, 4),
    .call 0 (.configure true) (0, 0), .call 0 (.clear false) (0, 0),
    .call 0 .close (0, 0), .open_ 3, .call 0 .reset (0, 0),
    .call 0 (.create true) (4, 5), .call 0 (.configure true) (0, 0),
    .call 0 (.clear false) (0, 0), .call 0 .close (0, 0), .open_ 5]

/-- The late thread of the first lookup writes its byte to whatever has the number now. -/
example :
    (run step {} (closes ++ [.resolver 0 (.write true)])).isSome ∧
      retBreakerCalls (closes ++ [.resolver 0 (.write true)]) =
        pipeClosed.filterMap ProcessAction.call? ++ [(0, .break_ true)] ∧
      (run Process.step {} (pipeClosed ++
        [.call 0 (.break_ true) (0, 0)])).map (·.touched) = some [5] := by
  decide +kernel

end DnsQuery

end GoSocket.Connect
