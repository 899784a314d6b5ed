import Mathlib.Data.List.Perm.Basic
import SchemaDocs.Proofs.Site.Steps

/-!
# Tasks in parallel

Threads run tasks as they are picked, and once one has failed those that nobody has picked are left out.
As long as none fails this is a run of all tasks one by one, in the order of the picks. So a race succeeds
exactly if its tasks succeed in that order, and nothing but a failure tells how they were shared; if it
fails, then with the failure of one of its tasks.
-/

namespace SchemaDocs

variable {α : Type}

/-- Tasks in the order of the picks, with those that are not picked behind. -/
def inOrder : List Nat → List α → List α
  | [], tasks => tasks
  | pick :: picks, tasks =>
    match tasks[pick]? with
    | none => inOrder picks tasks
    | some task => task :: inOrder picks (tasks.eraseIdx pick)

theorem inOrder_perm (picks : List Nat) (tasks : List α) : (inOrder picks tasks).Perm tasks := by
  induction picks generalizing tasks with
  | nil => exact .refl _
  | cons pick picks ih =>
    rw [inOrder]
    split
    · exact ih tasks
    · rename_i task htask
      obtain ⟨hpick, rfl⟩ := List.getElem?_eq_some_iff.mp htask
      exact ((ih _).cons _).trans (List.getElem_cons_eraseIdx_perm hpick)

namespace Build

variable {run : α → Build Unit} {reported pick : Nat} {failures : List BuildError} {picks : List Nat} {tasks : List α}
  {task : α} {start final : Workshop} {error : BuildError}

theorem racing_of_none (hpick : tasks[pick]? = none) :
    racing run reported failures (pick :: picks) tasks = racing run reported failures picks tasks := by
  rw [racing, hpick]

theorem racing_of_some (hpick : tasks[pick]? = some task) (start : Workshop) :
    racing run reported failures (pick :: picks) tasks start =
      racing run reported (failures ++ (match (run task start).1 with | .ok _ => [] | .error error => [error])) picks
        (tasks.eraseIdx pick) (run task start).2 := by
  rw [racing, hpick]
  simp only [run_bind, failure?]
  rcases run task start with ⟨outcome, middle⟩
  cases outcome <;> rfl

private theorem not_yields_racing (hfailures : failures ≠ []) :
    ¬ (racing run reported failures picks tasks).Yields start () final := by
  induction picks generalizing failures tasks start with
  | nil =>
    obtain ⟨first, failures, rfl⟩ := List.exists_cons_of_ne_nil hfailures
    exact not_yields_throw
  | cons pick picks ih =>
    cases hpick : tasks[pick]? with
    | none =>
      rw [racing_of_none hpick]
      exact ih hfailures
    | some task =>
      rw [Yields, racing_of_some hpick]
      exact ih (List.append_ne_nil_of_left_ne_nil hfailures _)

/-- Tasks that all succeed are run one by one, in the order in which they are picked. -/
theorem yields_race_iff {schedule : Schedule} :
    (race run schedule tasks).Yields start () final ↔ ((inOrder schedule.picks tasks).forM run).Yields start () final := by
  obtain ⟨picks, reported⟩ := schedule
  show (racing run reported [] picks tasks).Yields start () final ↔ ((inOrder picks tasks).forM run).Yields start () final
  induction picks generalizing tasks start with
  | nil => rfl
  | cons pick picks ih =>
    cases hpick : tasks[pick]? with
    | none =>
      rw [racing_of_none hpick, inOrder, hpick]
      exact ih
    | some task =>
      have hfirst : (inOrder (pick :: picks) tasks).forM run =
          run task >>= fun _ => (inOrder picks (tasks.eraseIdx pick)).forM run := by
        rw [inOrder, hpick]
        rfl
      rw [Yields, racing_of_some hpick, hfirst, Yields, run_bind]
      rcases run task start with ⟨outcome, middle⟩
      cases outcome with
      | ok _ => exact ih
      -- neither of them succeeds once a task has failed
      | error error => exact iff_of_false (not_yields_racing (List.cons_ne_nil _ _)) not_yields_throw

/-- What each task keeps a race keeps, whether or not tasks fail in it. -/
theorem Keeps.race {P : Workshop → Prop} (hrun : ∀ task, (run task).Keeps P) (schedule : Schedule) (tasks : List α) :
    (race run schedule tasks).Keeps P := by
  obtain ⟨picks, reported⟩ := schedule
  suffices h : ∀ failures, (racing run reported failures picks tasks).Keeps P from h []
  induction picks generalizing tasks with
  | nil =>
    rintro (_ | ⟨first, failures⟩)
    · exact .forM hrun tasks
    · exact .throw _
  | cons pick picks ih =>
    intro failures start hstart
    cases hpick : tasks[pick]? with
    | none =>
      rw [racing_of_none hpick]
      exact ih tasks failures start hstart
    | some task =>
      rw [racing_of_some hpick]
      exact ih _ _ _ (hrun task start hstart)

/-- The failure of a race is that of a task. -/
theorem exists_of_race_fails {schedule : Schedule} (h : (race run schedule tasks).Fails start error final) :
    ∃ task before after, (run task).Fails before error after := by
  obtain ⟨picks, reported⟩ := schedule
  suffices hall : ∀ failures : List BuildError,
      (∀ failure ∈ failures, ∃ task before after, (run task).Fails before failure after) →
        (racing run reported failures picks tasks).Fails start error final →
          ∃ task before after, (run task).Fails before error after from
    hall [] (List.forall_mem_nil _) h
  clear h
  induction picks generalizing tasks start with
  | nil =>
    rintro (_ | ⟨first, failures⟩) hfailures h
    · obtain ⟨_, task, _, middle, -, -, h⟩ := exists_of_forM_fails h
      exact ⟨task, middle, final, h⟩
    · obtain ⟨herror, -⟩ := Prod.mk.inj h
      rw [← Except.error.inj herror, List.getD_eq_getElem?_getD]
      cases hfound : (first :: failures)[reported]? with
      | none => exact hfailures first List.mem_cons_self
      | some failure => exact hfailures failure (List.mem_of_getElem? hfound)
  | cons pick picks ih =>
    intro failures hfailures h
    cases hpick : tasks[pick]? with
    | none =>
      rw [racing_of_none hpick] at h
      exact ih failures hfailures h
    | some task =>
      rw [Fails, racing_of_some hpick] at h
      refine ih _ (fun failure hfailure => ?_) h
      rcases List.mem_append.mp hfailure with hfailure | hfailure
      · exact hfailures failure hfailure
      · rcases hrun : run task start with ⟨outcome, middle⟩
        rw [hrun] at hfailure
        cases outcome with
        | ok _ => cases hfailure
        | error cause =>
          obtain rfl := List.mem_singleton.mp hfailure
          exact ⟨task, start, middle, hrun⟩

end Build

end SchemaDocs
