import Mathlib.Data.List.Basic

/-!
# Machines with explicit actions

The substrate of every interleaving argument in this development: a state, and actions that are
either enabled — and then have exactly one effect — or not. All nondeterminism sits in the choice of
the next action, so a *schedule* is a list of actions, a run is a fold, and a concrete run can be
evaluated.

Nothing here knows what the states or the actions are. Three rules carry the consumers:

* `Machine.run_invariant` — what every enabled action preserves holds after every run;
  `Machine.run_invariant_along` where the actions are assumed to meet a condition, and
  `Machine.run_history` where it is about the actions taken so far as well;
* `Machine.run_iff_along` — when one action keeps a property exactly if it meets a side condition on
  the state it is taken in, a run keeps it exactly if all its actions do (`Machine.Along`);
  `Machine.run_iff_along_under` where this takes an invariant of the runs in question;
* `Machine.exists_step_of_run` — what a run brings about, one of its actions brings about.
-/

/-- A machine: what one action does in one state, and `none` where the action is not enabled. -/
structure Machine (σ α : Type*) where
  /-- The effect of an action. -/
  step : σ → α → Option σ

namespace Machine

variable {σ α τ β : Type*} (M : Machine σ α)

/-! ### Runs -/

/-- Take the actions of a schedule in order; `none` as soon as one is not enabled. -/
def run (s : σ) : List α → Option σ
  | [] => some s
  | a :: as => (M.step s a).bind fun t ↦ run t as

@[simp] theorem run_nil (s : σ) : M.run s [] = some s := rfl

theorem run_cons_eq_some {s u : σ} {a : α} {as : List α} :
    M.run s (a :: as) = some u ↔ ∃ t, M.step s a = some t ∧ M.run t as = some u := by
  rw [run, Option.bind_eq_some_iff]

/-- **The moment something becomes true.** A run from a state without a property to one with it
takes, somewhere, an action from a state without it to a state with it. -/
theorem exists_step_of_run {P : σ → Prop} {s t : σ} {as : List α} (hrun : M.run s as = some t)
    (hs : ¬P s) (ht : P t) : ∃ bs a cs u v, as = bs ++ a :: cs ∧ M.run s bs = some u ∧ ¬P u ∧
      M.step u a = some v ∧ P v := by
  induction as generalizing s with
  | nil =>
    rw [run_nil, Option.some.injEq] at hrun
    exact absurd (hrun ▸ ht) hs
  | cons a as ih =>
    obtain ⟨v, hv, hrest⟩ := M.run_cons_eq_some.1 hrun
    by_cases hp : P v
    · exact ⟨[], a, as, s, v, rfl, rfl, hs, hv, hp⟩
    · obtain ⟨bs, b, cs, u, w, rfl, hu, hnu, hw, hpw⟩ := ih hrest hp
      exact ⟨a :: bs, b, cs, u, w, rfl, M.run_cons_eq_some.2 ⟨v, hv, hu⟩, hnu, hw, hpw⟩

/-! ### Invariants -/

variable {M}

/-- **The invariant rule.** What every enabled action preserves holds after every run. -/
theorem run_invariant {I : σ → Prop} (hstep : ∀ s a t, I s → M.step s a = some t → I t)
    {s t : σ} {as : List α} (hrun : M.run s as = some t) (hs : I s) : I t := by
  induction as generalizing s with
  | nil =>
    rw [run_nil, Option.some.injEq] at hrun
    exact hrun ▸ hs
  | cons a as ih =>
    obtain ⟨u, hu, hrest⟩ := M.run_cons_eq_some.1 hrun
    exact ih hrest (hstep s a u hs hu)

/-- **The history rule.** What holds of a state and the actions that have led to it, and is kept by
every enabled action, holds after every run. -/
theorem run_history {I : List α → σ → Prop}
    (hstep : ∀ as s a t, I as s → M.step s a = some t → I (as ++ [a]) t) {s t : σ}
    {as : List α} (hrun : M.run s as = some t) (hs : I [] s) : I as t := by
  suffices h : ∀ before s, I before s → M.run s as = some t → I (before ++ as) t from
    h [] s hs hrun
  clear hs hrun s
  induction as with
  | nil =>
    intro before s hs hrun
    rw [run_nil, Option.some.injEq] at hrun
    rw [List.append_nil]
    exact hrun ▸ hs
  | cons a as ih =>
    intro before s hs hrun
    obtain ⟨u, hu, hrest⟩ := M.run_cons_eq_some.1 hrun
    rw [List.append_cons]
    exact ih (before ++ [a]) u (hstep before s a u hs hu) hrest

variable (M)

/-- Every action of the schedule meets the condition `P` in the state it is taken in. -/
def Along (P : σ → α → Prop) (s : σ) : List α → Prop
  | [] => True
  | a :: as => P s a ∧ ∀ t, M.step s a = some t → Along P t as

variable {M}

/-- **The exact rule**: if one action leads to a state with the property exactly from a state with
the property and under the condition `P`, then a run does exactly when all its actions meet `P`. The
step may use an invariant, and an assumption `E` about the environment that the run satisfies. -/
theorem run_iff_along_under {E P : σ → α → Prop} {I Q : σ → Prop}
    (hinv : ∀ s a t, I s → E s a → M.step s a = some t → I t)
    (hstep : ∀ s a t, I s → E s a → M.step s a = some t → (Q t ↔ Q s ∧ P s a)) {s t : σ}
    {as : List α} (hrun : M.run s as = some t) (henv : M.Along E s as) (hs : I s) :
    Q t ↔ Q s ∧ M.Along P s as := by
  induction as generalizing s with
  | nil =>
    rw [run_nil, Option.some.injEq] at hrun
    subst hrun
    exact (and_iff_left trivial).symm
  | cons a as ih =>
    obtain ⟨u, hu, hrest⟩ := M.run_cons_eq_some.1 hrun
    have halong : M.Along P s (a :: as) ↔ P s a ∧ M.Along P u as :=
      and_congr_right fun _ ↦
        ⟨fun h ↦ h u hu, fun h t ht ↦ Option.some.inj (hu.symm.trans ht) ▸ h⟩
    rw [ih hrest (henv.2 u hu) (hinv s a u hs henv.1 hu), hstep s a u hs henv.1 hu, halong,
      and_assoc]

/-- The invariant rule under an assumption about the environment. -/
theorem run_invariant_along {E : σ → α → Prop} {I : σ → Prop}
    (hstep : ∀ s a t, I s → E s a → M.step s a = some t → I t) {s t : σ} {as : List α}
    (hrun : M.run s as = some t) (henv : M.Along E s as) (hs : I s) : I t := by
  induction as generalizing s with
  | nil =>
    rw [run_nil, Option.some.injEq] at hrun
    exact hrun ▸ hs
  | cons a as ih =>
    obtain ⟨u, hu, hrest⟩ := M.run_cons_eq_some.1 hrun
    exact ih hrest (henv.2 u hu) (hstep s a u hs henv.1 hu)

/-- A condition that every action of the schedule meets in any state. -/
theorem along_of_forall_mem {P : σ → α → Prop} {as : List α} (h : ∀ a ∈ as, ∀ s, P s a) (s : σ) :
    M.Along P s as := by
  induction as generalizing s with
  | nil => trivial
  | cons a as ih =>
    exact ⟨h a List.mem_cons_self s, fun t _ ↦ ih (fun b hb ↦ h b (List.mem_cons_of_mem a hb)) t⟩

theorem along_of_forall {P : σ → α → Prop} (h : ∀ s a, P s a) (s : σ) (as : List α) :
    M.Along P s as :=
  along_of_forall_mem (fun a _ s ↦ h s a) s

/-- The exact rule without invariant and assumption. -/
theorem run_iff_along {P : σ → α → Prop} {Q : σ → Prop}
    (hstep : ∀ s a t, M.step s a = some t → (Q t ↔ Q s ∧ P s a)) {s t : σ} {as : List α}
    (hrun : M.run s as = some t) : Q t ↔ Q s ∧ M.Along P s as :=
  run_iff_along_under (E := fun _ _ ↦ True) (I := fun _ ↦ True) (fun _ _ _ _ _ _ ↦ trivial)
    (fun s a t _ _ ↦ hstep s a t) hrun (along_of_forall (fun _ _ ↦ trivial) s as) trivial

/-- **Swapping the condition**: two conditions that agree on every action taken in a state with the
invariant, the first of them keeping it, are met by the same schedules. -/
theorem along_congr {P Q : σ → α → Prop} {I : σ → Prop}
    (hiff : ∀ s a t, I s → M.step s a = some t → (Q s a ↔ P s a))
    (hinv : ∀ s a t, I s → Q s a → M.step s a = some t → I t) {s t : σ} {as : List α}
    (hrun : M.run s as = some t) (hs : I s) : M.Along Q s as ↔ M.Along P s as := by
  induction as generalizing s with
  | nil => exact Iff.rfl
  | cons a as ih =>
    obtain ⟨u, hu, hrest⟩ := M.run_cons_eq_some.1 hrun
    have hforall : ∀ {R : σ → Prop}, (∀ v, M.step s a = some v → R v) ↔ R u := fun {R} ↦
      ⟨fun h ↦ h u hu, fun h v hv ↦ Option.some.inj (hu.symm.trans hv) ▸ h⟩
    rw [Along, Along, hforall, hforall, ← hiff s a u hs hu]
    exact and_congr_right fun hq ↦ ih hrest (hinv s a u hs hq hu)

end Machine
