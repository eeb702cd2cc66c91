import Mathlib.Data.List.Basic
import Mathlib.Data.List.Perm.Basic

/-!
# Tasks in a list

Concurrent tasks are kept in a list and known by their position: a step of task `i` replaces the
entry there. `focus` splits the list at this entry; what follows says how a step changes what is
collected or counted over all tasks.
-/

namespace Tasks

variable {α β : Type*} {tasks : List α} {i : ℕ} {old : α}

/-- The tasks before and behind task `i`, which a step of it leaves alone. -/
theorem focus (hi : tasks[i]? = some old) : ∃ before behind, tasks = before ++ old :: behind ∧
    ∀ new, tasks.set i new = before ++ new :: behind := by
  obtain ⟨hlt, rfl⟩ := List.getElem?_eq_some_iff.1 hi
  refine ⟨tasks.take i, tasks.drop (i + 1), ?_,
    fun new ↦ List.set_eq_take_append_cons_drop.trans ?_⟩
  · rw [← List.drop_eq_getElem_cons hlt, List.take_append_drop]
  · rw [if_pos hlt]

/-- What all tasks have, they have after a step of one that has it then. -/
theorem forall_set {P : α → Prop} {new : α} (hold : ∀ task ∈ tasks, P task) (hnew : P new) :
    ∀ task ∈ tasks.set i new, P task := by
  intro task htask
  obtain h | rfl := List.mem_or_eq_of_mem_set htask
  · exact hold task h
  · exact hnew

/-- The tasks of a kind after one has arrived. -/
theorem exists_append {P : α → Prop} {new : α} :
    (∃ task, (tasks ++ [new])[i]? = some task ∧ P task) ↔
      (∃ task, tasks[i]? = some task ∧ P task) ∨ (i = tasks.length ∧ P new) := by
  obtain hlt | rfl | hgt := Nat.lt_trichotomy i tasks.length
  · rw [List.getElem?_append_left hlt, or_iff_left fun h ↦ Nat.ne_of_lt hlt h.1]
  · rw [List.getElem?_concat_length, List.getElem?_eq_none (Nat.le_refl _)]
    simp
  · rw [List.getElem?_eq_none (by simp; omega), List.getElem?_eq_none (Nat.le_of_lt hgt)]
    simp [Nat.ne_of_gt hgt]

/-- A task from which nothing was collected, and now something is. -/
theorem filterMap_set_perm {f : α → Option β} {new : α} {b : β} (hi : tasks[i]? = some old)
    (hold : f old = none) (hnew : f new = some b) :
    ((tasks.set i new).filterMap f).Perm (tasks.filterMap f ++ [b]) := by
  obtain ⟨before, behind, rfl, hset⟩ := focus hi
  rw [hset, List.filterMap_append, List.filterMap_append, List.filterMap_cons_some hnew,
    List.filterMap_cons_none hold, List.append_assoc]
  exact (List.perm_append_singleton _ _).symm.append_left _

/-- A step that collects nothing. -/
theorem filterMap_set_eq {f : α → Option β} {new : α} (hi : tasks[i]? = some old)
    (hsame : f new = f old) : (tasks.set i new).filterMap f = tasks.filterMap f := by
  obtain ⟨before, behind, rfl, hset⟩ := focus hi
  rw [hset, List.filterMap_append, List.filterMap_append, List.filterMap_cons, List.filterMap_cons,
    hsame]

/-- How a step changes the number of tasks of a kind. -/
theorem countP_set {p : α → Bool} (hi : tasks[i]? = some old) (new : α) :
    (tasks.set i new).countP p + (if p old then 1 else 0) =
      tasks.countP p + (if p new then 1 else 0) := by
  obtain ⟨before, behind, rfl, hset⟩ := focus hi
  rw [hset, List.countP_append, List.countP_append, List.countP_cons, List.countP_cons]
  omega

end Tasks
