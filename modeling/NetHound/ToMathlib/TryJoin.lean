import Mathlib.Data.List.Basic
import Mathlib.Logic.Function.Basic
import NetHound.ToMathlib.ExceptRun

/-! # Streams drained side by side

Tasks drain a stream of pages each, and a poll lets one of them receive its next page. Polled in whatever
order, they are joined until the first failure: a task that receives an error ends the whole run with it.
What a task will have received in the end depends on its own pages alone (`drain_eq_of_run`), so a join that
finishes gives every task what it would have drained by itself, and one that fails names a task that fails by
itself. A schedule that polls every task for each of its pages gets to either end.
-/

namespace TryJoin

/-- A stream of which some pages have been received. -/
structure Progress (α ε : Type) where
  received : List α
  pending : List (Except ε (List α))

namespace Progress

variable {α ε : Type}

def start (pages : List (Except ε (List α))) : Progress α ε := ⟨[], pages⟩

/-- The next page, if there is one left. -/
def poll : Progress α ε → Except ε (Progress α ε)
  | ⟨received, []⟩ => .ok ⟨received, []⟩
  | ⟨received, .ok items :: pending⟩ => .ok ⟨received ++ items, pending⟩
  | ⟨_, .error error :: _⟩ => .error error

/-- All the pages that are left, up to the first that is an error. -/
def drain : List α → List (Except ε (List α)) → Except ε (List α)
  | received, [] => .ok received
  | received, .ok items :: pending => drain (received ++ items) pending
  | _, .error error :: _ => .error error

theorem drain_poll {progress next : Progress α ε} (polled : progress.poll = .ok next) :
    drain next.received next.pending = drain progress.received progress.pending := by
  obtain ⟨received, _ | ⟨_ | items, pending⟩⟩ := progress
  · cases polled
    rfl
  · cases polled
  · cases polled
    rfl

theorem drain_of_poll_error {progress : Progress α ε} {error : ε} (polled : progress.poll = .error error) :
    drain progress.received progress.pending = .error error := by
  obtain ⟨received, _ | ⟨_ | items, pending⟩⟩ := progress
  · cases polled
  · cases polled
    rfl
  · cases polled

theorem length_pending_poll {progress next : Progress α ε} (polled : progress.poll = .ok next) :
    next.pending.length = progress.pending.length - 1 := by
  obtain ⟨received, _ | ⟨_ | items, pending⟩⟩ := progress <;> cases polled <;> rfl

end Progress

variable {ι ε : Type} [DecidableEq ι] {Item : ι → Type}

/-- Lets one task receive its next page. -/
def step (state : ∀ i, Progress (Item i) ε) (i : ι) : Except (ι × ε) (∀ i, Progress (Item i) ε) :=
  match (state i).poll with
  | .ok next => .ok (Function.update state i next)
  | .error error => .error (i, error)

/-- Polls the tasks in the order of the schedule, until one fails. -/
def run (schedule : List ι) (state : ∀ i, Progress (Item i) ε) :
    Except (ι × ε) (∀ i, Progress (Item i) ε) :=
  schedule.foldlM step state

/-- Every task has received all its pages. -/
def Finished (state : ∀ i, Progress (Item i) ε) : Prop := ∀ i, (state i).pending = []

/-- What a task is going to have received. -/
def total (state : ∀ i, Progress (Item i) ε) (i : ι) : Except ε (List (Item i)) :=
  Progress.drain (state i).received (state i).pending

section Run

variable {state state' : ∀ i, Progress (Item i) ε} {schedule : List ι} {i i' : ι} {error : ε}

theorem total_step (stepped : step state i = .ok state') (j : ι) : total state' j = total state j := by
  rw [step] at stepped
  split at stepped
  · next next polled =>
    cases stepped
    by_cases own : j = i
    · subst own
      rw [total, Function.update_self]
      exact Progress.drain_poll polled
    · rw [total, Function.update_of_ne own]
      rfl
  · cases stepped

theorem total_of_step_error (stepped : step state i = .error (i', error)) : total state i' = .error error := by
  rw [step] at stepped
  split at stepped
  · cases stepped
  · next polled =>
    cases stepped
    exact Progress.drain_of_poll_error polled

/-- Polling changes nothing about what the tasks are going to have received. -/
theorem total_of_run (ran : run schedule state = .ok state') (j : ι) : total state' j = total state j := by
  induction schedule generalizing state with
  | nil =>
    cases ran
    rfl
  | cons i schedule ih =>
    obtain ⟨middle, first, rest⟩ := Except.bind_eq_ok_iff.mp ran
    rw [ih rest, total_step first]

/-- A join that fails names a task that fails by itself, with the same error. -/
theorem total_of_run_error (ran : run schedule state = .error (i, error)) : total state i = .error error := by
  induction schedule generalizing state with
  | nil => cases ran
  | cons j schedule ih =>
    rcases stepped : step state j with ⟨i', error'⟩ | middle
    · rw [run, List.foldlM_cons, stepped] at ran
      cases ran
      exact total_of_step_error stepped
    · rw [run, List.foldlM_cons, stepped] at ran
      rw [← total_step stepped]
      exact ih ran

/-- A join that finishes gives every task what it drains by itself. -/
theorem received_of_run (ran : run schedule state = .ok state') (finished : Finished state') (j : ι) :
    total state j = .ok (state' j).received := by
  rw [← total_of_run ran, total, finished j]
  rfl

private theorem length_pending_step (stepped : step state i = .ok state') (j : ι) :
    (state' j).pending.length = (state j).pending.length - [i].count j := by
  rw [step] at stepped
  split at stepped
  · next next polled =>
    cases stepped
    by_cases own : j = i
    · subst own
      rw [Function.update_self, Progress.length_pending_poll polled, List.count_singleton_self]
    · have other : ([i] : List ι).count j = 0 := List.count_eq_zero.mpr (by simpa using own)
      rw [Function.update_of_ne own, other]
      rfl
  · cases stepped

/-- A schedule with a poll for every page of every task gets to an end. -/
theorem ends_of_fair (fair : ∀ j, (state j).pending.length ≤ schedule.count j) :
    (∃ failure, run schedule state = .error failure) ∨
      ∃ state', run schedule state = .ok state' ∧ Finished state' := by
  induction schedule generalizing state with
  | nil =>
    refine Or.inr ⟨state, rfl, fun j => ?_⟩
    exact List.eq_nil_of_length_eq_zero (Nat.le_zero.mp (fair j))
  | cons i schedule ih =>
    rcases stepped : step state i with failure | middle
    · refine Or.inl ⟨failure, ?_⟩
      rw [run, List.foldlM_cons, stepped]
      rfl
    · have rest : run (i :: schedule) state = run schedule middle := by
        rw [run, List.foldlM_cons, stepped]
        rfl
      rw [rest]
      refine ih fun j => ?_
      have shorter := length_pending_step stepped j
      have counted := fair j
      have split : (i :: schedule).count j = [i].count j + schedule.count j := by
        rw [← List.count_append, List.singleton_append]
      omega

end Run

end TryJoin
