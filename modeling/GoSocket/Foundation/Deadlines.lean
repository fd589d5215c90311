import Mathlib.Tactic.Common

/-!
# Jobs with deadlines

A trace of jobs that are posted under a key, canceled by their key, and called.
It is in order when nothing is called in front of a pending job that is due
earlier.  Keys may come back, so jobs are told apart by their numbers.
-/

namespace GoSocket.Foundation

universe u v

variable {ι : Type u} {τ : Type v}

structure Job (ι : Type u) (τ : Type v) where
  number : Nat
  key : ι
  deadline : τ
  deriving DecidableEq, Repr

inductive JobEvent (ι : Type u) (τ : Type v) where
  | posted (job : Job ι τ)
  | canceled (key : ι)
  | called (job : Job ι τ)
  deriving DecidableEq, Repr

namespace JobEvent

/-- The jobs that are posted and neither canceled nor called; the trace is newest
first. -/
def pending [DecidableEq ι] : List (JobEvent ι τ) → List (Job ι τ)
  | [] => []
  | .posted job :: older => job :: pending older
  | .canceled key :: older => (pending older).filter (·.key ≠ key)
  | .called job :: older => (pending older).filter (·.number ≠ job.number)

def InOrder [DecidableEq ι] [LE τ] : List (JobEvent ι τ) → Prop
  | [] => True
  | .called job :: older =>
      InOrder older ∧ ∀ other ∈ pending older, job.deadline ≤ other.deadline
  | _ :: older => InOrder older

@[simp] theorem mem_pending_canceled [DecidableEq ι] {key : ι} {older : List (JobEvent ι τ)}
    {job : Job ι τ} :
    job ∈ pending (.canceled key :: older) ↔ job ∈ pending older ∧ job.key ≠ key := by
  simp [pending]

@[simp] theorem mem_pending_called [DecidableEq ι] {called : Job ι τ}
    {older : List (JobEvent ι τ)} {job : Job ι τ} :
    job ∈ pending (.called called :: older) ↔
      job ∈ pending older ∧ job.number ≠ called.number := by
  simp [pending]

theorem not_inOrder_called [DecidableEq ι] [LE τ] {job other : Job ι τ}
    {older : List (JobEvent ι τ)} (hpending : other ∈ pending older)
    (hnot : ¬ job.deadline ≤ other.deadline) : ¬ InOrder (.called job :: older) :=
  fun h => hnot (h.2 other hpending)

end JobEvent

end GoSocket.Foundation
