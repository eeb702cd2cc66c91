import DnsBuffer.Upstream.Hedged

/-!
# The retry engine ends in success or at its deadline

The verdict of a call is fixed at one wake-up: the one that joins a successful attempt, or one at or
after the deadline at which there is nothing to join (`verdict_of_step`). What the documentation of
the engine says — it keeps trying "until one attempt succeeds or the budget expires, the only two
possible outcomes" — follows from this and from the bookkeeping invariant `Inv`.

After the deadline every wake-up of the loop either joins an attempt or ends the loop, so the number
of attempts in flight bounds the wake-ups that are left (`inFlight_add_wakes_le`).
-/

namespace DnsBuffer

/-- The verdict that is fixed in a phase. -/
def EnginePhase.verdict? {ρ ε : Type} : EnginePhase ρ ε → Option (Verdict ρ ε)
  | .accepted answer => some (.ok answer)
  | .flagged answer => some (.ok answer)
  | .expired lastError inFlight => some (.expired lastError inFlight)
  | .stopping verdict => some verdict
  | .returned verdict => some verdict
  | _ => none

/-- The phases before `stop_attempts`. -/
def EnginePhase.inLoop {ρ ε : Type} : EnginePhase ρ ε → Bool
  | .looping => true
  | .accepted _ => true
  | .flagged _ => true
  | .expired _ _ => true
  | _ => false

/-- The action is a wake-up of the loop. -/
def EngineAction.isWake {α : Type} : EngineAction α → Bool
  | .wake _ => true
  | _ => false

namespace Engine

variable {ω τ α ρ ε : Type} {r : HedgedResolver} {inner : AsyncTask ω τ α (Except ε ρ)}
  {s t : Engine ω τ ρ ε}

/-! ### Bookkeeping -/

/-- The counter is the size of the join set, logs and join set agree, an answer is the result of an
attempt, and a call that has returned or was to panic has no attempt left. -/
structure Inv (s : Engine ω τ ρ ε) : Prop where
  flight : s.phase.inLoop → s.inFlight = s.attempts.length
  ids : ∀ a ∈ s.attempts, a.id < s.launches.length
  logged : ∀ a ∈ s.attempts, ∀ result, a.status = .finished result → (a.id, result) ∈ s.results
  own : ∀ x ∈ s.results, x.1 < s.launches.length
  answered : ∀ answer, s.phase.verdict? = some (.ok answer) → ∃ id, (id, .ok answer) ∈ s.results
  returned : ∀ verdict, s.phase = .returned verdict → s.attempts = []
  notPanicked : s.phase ≠ .panicked

theorem inv_start (r : HedgedResolver) (inner : AsyncTask ω τ α (Except ε ρ)) (world : ω)
    (now : Instant) : (start r inner world now).Inv where
  flight _ := rfl
  ids := by simp [start, spawnAttempt]
  logged := by simp [start, spawnAttempt]
  own := by simp [start, spawnAttempt]
  answered := by simp [start, spawnAttempt, EnginePhase.verdict?]
  returned := by simp [start, spawnAttempt]
  notPanicked := by simp [start, spawnAttempt]

/-- A step that changes neither the logs nor the phase, and replaces one attempt of the set. -/
theorem Inv.set {i id : ℕ} {task : τ} (h : s.Inv) (hi : s.attempts[i]? = some ⟨id, .running task⟩)
    (world : ω) {status : TaskStatus τ (Except ε ρ)} {results : List (ℕ × Except ε ρ)}
    (hresults : results = s.results ∨ ∃ result, results = s.results ++ [(id, result)])
    (hstatus : ∀ result, status = .finished result → (id, result) ∈ results) :
    { s with
      world := world
      attempts := s.attempts.set i ⟨id, status⟩
      results := results }.Inv := by
  have hid : id < s.launches.length := h.ids _ (List.mem_of_getElem? hi)
  have hsub : s.results ⊆ results := by
    rcases hresults with rfl | ⟨result, rfl⟩
    · exact List.Subset.refl _
    · exact List.subset_append_left _ _
  refine ⟨fun hphase ↦ (h.flight hphase).trans List.length_set.symm, fun a ha ↦ ?_,
    fun a ha result hr ↦ ?_, fun x hx ↦ ?_, fun answer hanswer ↦ ?_, fun verdict hphase ↦ ?_,
    h.notPanicked⟩
  · rcases List.mem_or_eq_of_mem_set ha with ha | rfl
    · exact h.ids a ha
    · exact hid
  · rcases List.mem_or_eq_of_mem_set ha with ha | rfl
    · exact hsub (h.logged a ha result hr)
    · exact hstatus result hr
  · rcases hresults with rfl | ⟨result, rfl⟩
    · exact h.own x hx
    · rcases List.mem_append.1 hx with hx | hx
      · exact h.own x hx
      · rw [List.mem_singleton.1 hx]
        exact hid
  · obtain ⟨id', hmem⟩ := h.answered answer hanswer
    exact ⟨id', hsub hmem⟩
  · rw [h.returned verdict hphase] at hi
    cases hi

/-- A step that only moves the phase on, to one with no answer of its own. -/
theorem Inv.move (h : s.Inv) {phase : EnginePhase ρ ε} (succeeded : Bool)
    (hflight : phase.inLoop → s.phase.inLoop)
    (hanswer : ∀ answer, phase.verdict? = some (.ok answer) →
      s.phase.verdict? = some (.ok answer))
    (hreturned : ∀ verdict, phase = .returned verdict → s.attempts = [])
    (hpanic : phase ≠ .panicked) : { s with succeeded := succeeded, phase := phase }.Inv :=
  ⟨fun hphase ↦ h.flight (hflight hphase), h.ids, h.logged, h.own,
    fun answer hverdict ↦ h.answered answer (hanswer answer hverdict), hreturned, hpanic⟩

/-- In the loop, the guard of the join branch hides no attempt. -/
theorem Inv.not_finished (h : s.Inv) (hphase : s.phase = .looping) (hnone : s.NothingToJoin) :
    ∀ a ∈ s.attempts, a.status.isFinished = false := by
  rcases hnone with hzero | hnone
  · rw [h.flight (by rw [hphase]; rfl), List.length_eq_zero_iff] at hzero
    rw [hzero]
    exact fun a ha ↦ absurd ha List.not_mem_nil
  · exact hnone

/-- A launch keeps the books. -/
theorem Inv.launch (h : s.Inv) (hphase : s.phase = .looping) (nextHedge : Instant) :
    ({ s with nextHedge := nextHedge }.launch inner).Inv := by
  refine ⟨fun _ ↦ ?_, fun a ha ↦ ?_, fun a ha result hr ↦ ?_, fun x hx ↦ ?_, ?_, ?_, ?_⟩
  · simpa [Engine.launch, spawnAttempt] using h.flight (by rw [hphase]; rfl)
  · simp only [Engine.launch, spawnAttempt, List.mem_append, List.mem_singleton,
      List.length_append, List.length_singleton] at ha ⊢
    rcases ha with ha | rfl
    · exact Nat.lt_succ_of_lt (h.ids a ha)
    · exact Nat.lt_succ_self _
  · simp only [Engine.launch, spawnAttempt, List.mem_append, List.mem_singleton] at ha ⊢
    rcases ha with ha | rfl
    · exact h.logged a ha result hr
    · cases hr
  · simp only [Engine.launch, spawnAttempt, List.length_append, List.length_singleton] at hx ⊢
    exact Nat.lt_succ_of_lt (h.own x hx)
  · simp [Engine.launch, spawnAttempt, hphase, EnginePhase.verdict?]
  · simp [Engine.launch, spawnAttempt, hphase]
  · simp [Engine.launch, spawnAttempt, hphase]

/-- The join branch keeps the books. -/
theorem Inv.joined {i id : ℕ} {result : Except ε ρ} (h : s.Inv) (hphase : s.phase = .looping)
    (hi : s.attempts[i]? = some ⟨id, .finished result⟩) : (s.joined i result).Inv := by
  obtain ⟨hlt, -⟩ := List.getElem?_eq_some_iff.1 hi
  have hflight : s.inFlight - 1 = (s.attempts.eraseIdx i).length := by
    rw [h.flight (by rw [hphase]; rfl), List.length_eraseIdx_of_lt hlt]
  have hmem : ∀ a ∈ s.attempts.eraseIdx i, a ∈ s.attempts := fun a ↦ List.mem_of_mem_eraseIdx
  have hlogged := h.logged _ (List.mem_of_getElem? hi) result rfl
  cases result with
  | ok answer =>
    refine ⟨fun _ ↦ hflight, fun a ha ↦ h.ids a (hmem a ha), fun a ha ↦ h.logged a (hmem a ha),
      h.own, fun answer' hanswer ↦ ⟨id, ?_⟩, by simp [Engine.joined], by simp [Engine.joined]⟩
    cases hanswer
    exact hlogged
  | error error =>
    exact ⟨fun _ ↦ hflight, fun a ha ↦ h.ids a (hmem a ha), fun a ha ↦ h.logged a (hmem a ha),
      h.own, h.answered, by simp [Engine.joined, hphase], h.notPanicked⟩

/-- **One step keeps the books.** -/
theorem Inv.step {a : EngineAction α} (h : s.Inv) (hstep : (machine r inner).step s a = some t) :
    t.Inv := by
  cases step_of_machine hstep with
  | tick =>
    exact ⟨h.flight, h.ids, h.logged, h.own, h.answered, h.returned, h.notPanicked⟩
  | @advance i id task task' action world hi =>
    exact h.set hi world (Or.inl rfl) (by simp)
  | @complete i id task action world result hi =>
    exact h.set hi world (Or.inr ⟨result, rfl⟩) (fun _ hr ↦ by cases hr; simp)
  | @cancel i id task habort hi =>
    exact h.set hi _ (Or.inl rfl) (by simp)
  | panic hphase hflight hempty =>
    -- the counter is the size of the set, so the `expect` cannot fire
    rw [h.flight (by rw [hphase]; rfl), hempty] at hflight
    cases hflight
  | join hphase _ hi => exact h.joined hphase hi
  | expire hphase =>
    exact h.move s.succeeded (fun _ ↦ by rw [hphase]; rfl) (by simp [EnginePhase.verdict?])
      (by simp) (by simp)
  | hedge hphase => exact h.launch hphase _
  | hedgeFull hphase =>
    exact ⟨h.flight, h.ids, h.logged, h.own, h.answered, h.returned, h.notPanicked⟩
  | retry hphase => exact h.launch hphase s.nextHedge
  | raiseFlag hphase =>
    refine h.move true (fun _ ↦ by rw [hphase]; rfl) ?_ (by simp) (by simp)
    rw [hphase]
    exact fun _ ↦ id
  | abortWon hphase =>
    refine h.move s.succeeded (by simp [EnginePhase.inLoop]) ?_ (by simp) (by simp)
    rw [hphase]
    exact fun _ ↦ id
  | abortExpired hphase =>
    exact h.move s.succeeded (by simp [EnginePhase.inLoop]) (by simp [EnginePhase.verdict?])
      (by simp) (by simp)
  | joinStopped hphase hi hended =>
    refine ⟨fun hp ↦ ?_, fun a ha ↦ h.ids a (List.mem_of_mem_eraseIdx ha),
      fun a ha ↦ h.logged a (List.mem_of_mem_eraseIdx ha), h.own, h.answered,
      fun v hp ↦ ?_, h.notPanicked⟩
    · rw [hphase] at hp
      cases hp
    · rw [hphase] at hp
      cases hp
  | finish hphase hempty =>
    refine h.move s.succeeded (by simp [EnginePhase.inLoop]) ?_ (fun _ _ ↦ hempty) (by simp)
    rw [hphase]
    exact fun _ ↦ id
  | drop =>
    exact h.move s.succeeded (by simp [EnginePhase.inLoop]) (by simp [EnginePhase.verdict?])
      (by simp) (by simp)

theorem inv_of_run {world : ω} {now : Instant} {as : List (EngineAction α)}
    (hrun : (machine r inner).run (start r inner world now) as = some s) : s.Inv :=
  Machine.run_invariant (fun _ _ _ h hstep ↦ Inv.step h hstep) hrun (inv_start r inner world now)

/-! ### The verdict -/

/-- The wake-up at which a verdict is fixed: it joins the attempt whose answer it is, or it comes at
or after the deadline and finds no finished attempt. -/
def Decides (s : Engine ω τ ρ ε) (i : ℕ) : Verdict ρ ε → Prop
  | .ok answer => ∃ id, s.attempts[i]? = some ⟨id, .finished (.ok answer)⟩
  | .expired lastError inFlight => s.deadline ≤ s.now ∧
      (∀ a ∈ s.attempts, a.status.isFinished = false) ∧ lastError = s.lastError ∧
      inFlight = s.inFlight

/-- **Where verdicts come from.** -/
theorem verdict_of_step {a : EngineAction α} {verdict : Verdict ρ ε} (h : s.Inv)
    (hstep : (machine r inner).step s a = some t) (ht : t.phase.verdict? = some verdict) :
    s.phase.verdict? = some verdict ∨
      (s.phase = .looping ∧ ∃ i, a = .wake i ∧ s.Decides i verdict) := by
  cases step_of_machine hstep with
  | tick => exact Or.inl ht
  | advance => exact Or.inl ht
  | complete => exact Or.inl ht
  | cancel => exact Or.inl ht
  | panic => cases ht
  | @join i id result hphase hflight hi =>
    cases result with
    | ok answer =>
      cases ht
      exact Or.inr ⟨hphase, i, rfl, id, hi⟩
    | error error => exact Or.inl ht
  | @expire i hphase hnone hdeadline =>
    cases ht
    exact Or.inr ⟨hphase, i, rfl, hdeadline, h.not_finished hphase hnone, rfl, rfl⟩
  | hedge => exact Or.inl ht
  | hedgeFull => exact Or.inl ht
  | retry => exact Or.inl ht
  | raiseFlag hphase =>
    rw [hphase]
    exact Or.inl ht
  | abortWon hphase =>
    rw [hphase]
    exact Or.inl ht
  | abortExpired hphase =>
    rw [hphase]
    exact Or.inl ht
  | joinStopped => exact Or.inl ht
  | finish hphase =>
    rw [hphase]
    exact Or.inl ht
  | drop => cases ht

/-- A run that reaches a verdict has taken the wake-up that decides it. -/
theorem exists_decides_of_run {world : ω} {now : Instant} {as : List (EngineAction α)}
    {verdict : Verdict ρ ε}
    (hrun : (machine r inner).run (start r inner world now) as = some s)
    (hs : s.phase.verdict? = some verdict) :
    ∃ bs i cs u, as = bs ++ .wake i :: cs ∧
      (machine r inner).run (start r inner world now) bs = some u ∧ u.phase = .looping ∧
      u.Decides i verdict := by
  have hstart : (start r inner world now).phase.verdict? ≠ some verdict := by
    simp [start, spawnAttempt, EnginePhase.verdict?]
  obtain ⟨bs, a, cs, u, v, rfl, hu, hnot, hstep, hv⟩ := (machine r inner).exists_step_of_run
    (P := fun s ↦ s.phase.verdict? = some verdict) hrun hstart hs
  rcases verdict_of_step (inv_of_run hu) hstep hv with hverdict | ⟨hphase, i, rfl, hdecides⟩
  · exact absurd hverdict hnot
  · exact ⟨bs, i, cs, u, rfl, hu, hphase, hdecides⟩

/-- **Launches happen before the deadline**, at wake-ups. -/
theorem launches_of_step {a : EngineAction α} (hstep : (machine r inner).step s a = some t)
    (hne : t.launches ≠ s.launches) : (∃ i, a = .wake i) ∧ s.now < s.deadline := by
  cases step_of_machine hstep with
  | @join i id result hphase hflight hi => cases result <;> exact absurd rfl hne
  | hedge _ hbefore => exact ⟨⟨_, rfl⟩, hbefore⟩
  | retry _ hbefore => exact ⟨⟨_, rfl⟩, hbefore⟩
  | _ => exact absurd rfl hne

/-- An error that is joined does not end the loop. -/
theorem looping_of_error {i id : ℕ} {error : ε} (h : s.Inv) (hphase : s.phase = .looping)
    (hi : s.attempts[i]? = some ⟨id, .finished (.error error)⟩)
    (hstep : (machine r inner).step s (.wake i) = some t) : t.phase = .looping := by
  have hmem := List.mem_of_getElem? hi
  cases step_of_machine hstep with
  | panic _ _ hempty =>
    rw [hempty] at hmem
    cases hmem
  | @join _ id' result _ _ hi' =>
    rw [hi] at hi'
    cases hi'
    exact hphase
  | expire _ hnone =>
    -- the error is there to be joined, and the join branch comes first
    cases h.not_finished hphase hnone _ hmem
  | hedge => exact hphase
  | hedgeFull => exact hphase
  | retry => exact hphase

/-! ### After the deadline -/

/-- The deadline stands, and the clock does not run backwards. -/
theorem clock_of_step {a : EngineAction α} (hstep : (machine r inner).step s a = some t) :
    t.deadline = s.deadline ∧ s.now ≤ t.now := by
  cases step_of_machine hstep with
  | tick nanos => exact ⟨rfl, Nat.le_add_right _ _⟩
  | @join i id result hphase hflight hi => cases result <;> exact ⟨rfl, le_rfl⟩
  | _ => exact ⟨rfl, le_rfl⟩

/-- A step after the deadline that leaves the call in its loop: a wake-up has used up an attempt. -/
theorem loop_step_after_deadline {a : EngineAction α} (hdeadline : s.deadline ≤ s.now)
    (hstep : (machine r inner).step s a = some t) (ht : t.phase = .looping) :
    s.phase = .looping ∧ t.inFlight + (if a.isWake then 1 else 0) ≤ s.inFlight := by
  cases step_of_machine hstep with
  | tick => exact ⟨ht, le_rfl⟩
  | advance => exact ⟨ht, le_rfl⟩
  | complete => exact ⟨ht, le_rfl⟩
  | cancel => exact ⟨ht, le_rfl⟩
  | panic => cases ht
  | @join i id result hphase hflight hi =>
    cases result with
    | ok answer => cases ht
    | error error => exact ⟨hphase, (Nat.sub_add_cancel hflight).le⟩
  | expire => cases ht
  | hedge _ hbefore => exact absurd hdeadline (Nat.not_le.2 hbefore)
  | hedgeFull _ hbefore => exact absurd hdeadline (Nat.not_le.2 hbefore)
  | retry _ hbefore => exact absurd hdeadline (Nat.not_le.2 hbefore)
  | raiseFlag => cases ht
  | abortWon => cases ht
  | abortExpired => cases ht
  | joinStopped => exact ⟨ht, le_rfl⟩
  | finish => cases ht
  | drop => cases ht

/-- **The attempts in flight bound the wake-ups after the deadline.** -/
theorem inFlight_add_wakes_le {bs : List (EngineAction α)} (hdeadline : s.deadline ≤ s.now)
    (hrun : (machine r inner).run s bs = some t) (ht : t.phase = .looping) :
    s.phase = .looping ∧ t.inFlight + bs.countP EngineAction.isWake ≤ s.inFlight := by
  induction bs generalizing s with
  | nil =>
    rw [Machine.run_nil, Option.some.injEq] at hrun
    subst hrun
    exact ⟨ht, le_rfl⟩
  | cons a bs ih =>
    obtain ⟨u, hu, hrest⟩ := (machine r inner).run_cons_eq_some.1 hrun
    -- the run is after the deadline all along, so every wake-up in it uses up an attempt
    obtain ⟨hfixed, hclock⟩ := clock_of_step hu
    obtain ⟨huloop, hcount⟩ := ih (hfixed ▸ hdeadline.trans hclock) hrest
    obtain ⟨hsloop, hstep⟩ := loop_step_after_deadline hdeadline hu huloop
    refine ⟨hsloop, ?_⟩
    rw [List.countP_cons]
    omega

/-- In the loop, after the deadline, some wake-up is always possible. -/
theorem exists_wake_after_deadline (hphase : s.phase = .looping)
    (hdeadline : s.deadline ≤ s.now) : ∃ i t, (machine r inner).step s (.wake i) = some t := by
  simp only [machine, hphase, wake]
  by_cases hpanic : 0 < s.inFlight ∧ s.attempts = []
  · exact ⟨0, _, if_pos hpanic⟩
  · simp only [if_neg hpanic, if_pos hdeadline]
    by_cases hready : 0 < s.inFlight ∧ s.attempts.any fun a ↦ a.status.isFinished
    · simp only [if_pos hready]
      obtain ⟨a, ha, hfinished⟩ := List.any_eq_true.1 hready.2
      obtain ⟨i, hi⟩ := List.mem_iff_getElem?.1 ha
      rcases a with ⟨id, task | result | _⟩
      · cases hfinished
      · exact ⟨i, s.joined i result, by simp only [hi]⟩
      · cases hfinished
    · exact ⟨0, _, if_neg hready⟩

/-- **Success or expiry.** Whatever the inner resolver does, for every interval, budget and
schedule:

* a call that returns an answer has joined an attempt of its own with this result;
* a call that returns an error has taken a wake-up at or after the deadline that found no finished
  attempt in the join set;
* joining an error leaves the call in its loop;
* attempts are launched only at wake-ups before the deadline;
* after the deadline a wake-up is always possible, and the loop outlasts no more wake-ups than there
  are attempts in flight;
* a call that has returned has no attempt left, and the `expect` of the join branch never fires. -/
theorem ends_in_success_or_expiry (r : HedgedResolver) (inner : AsyncTask ω τ α (Except ε ρ))
    (world : ω) (now : Instant) (as : List (EngineAction α)) (s : Engine ω τ ρ ε)
    (hrun : (machine r inner).run (start r inner world now) as = some s) :
    (∀ answer, s.phase = .returned (.ok answer) →
      ∃ id, id < s.launches.length ∧ (id, .ok answer) ∈ s.results) ∧
    (∀ lastError inFlight, s.phase = .returned (.expired lastError inFlight) →
      ∃ bs i cs u, as = bs ++ .wake i :: cs ∧
        (machine r inner).run (start r inner world now) bs = some u ∧ u.phase = .looping ∧
        u.deadline ≤ u.now ∧ ∀ a ∈ u.attempts, a.status.isFinished = false) ∧
    (∀ i id error t, s.phase = .looping → s.attempts[i]? = some ⟨id, .finished (.error error)⟩ →
      (machine r inner).step s (.wake i) = some t → t.phase = .looping) ∧
    (∀ a t, (machine r inner).step s a = some t → t.launches ≠ s.launches →
      (∃ i, a = .wake i) ∧ s.now < s.deadline) ∧
    (s.phase = .looping → s.deadline ≤ s.now →
      (∃ i t, (machine r inner).step s (.wake i) = some t) ∧
      ∀ bs t, (machine r inner).run s bs = some t → t.phase = .looping →
        bs.countP EngineAction.isWake ≤ s.inFlight) ∧
    (∀ verdict, s.phase = .returned verdict → s.attempts = []) ∧ s.phase ≠ .panicked := by
  have hinv := inv_of_run hrun
  refine ⟨fun answer hphase ↦ ?_, fun lastError inFlight hphase ↦ ?_,
    fun i id error t hphase hi hstep ↦ looping_of_error hinv hphase hi hstep,
    fun a t hstep hne ↦ launches_of_step hstep hne, fun hphase hdeadline ↦ ⟨?_, ?_⟩,
    hinv.returned, hinv.notPanicked⟩
  · obtain ⟨id, hid⟩ := hinv.answered answer (by rw [hphase]; rfl)
    exact ⟨id, hinv.own _ hid, hid⟩
  · have hverdict : s.phase.verdict? = some (.expired lastError inFlight) := by rw [hphase]; rfl
    obtain ⟨bs, i, cs, u, has, hu, hloop, hdecides⟩ := exists_decides_of_run hrun hverdict
    exact ⟨bs, i, cs, u, has, hu, hloop, hdecides.1, hdecides.2.1⟩
  · exact exists_wake_after_deadline hphase hdeadline
  · intro bs t hrun' ht
    exact le_trans (Nat.le_add_left _ _) (inFlight_add_wakes_le hdeadline hrun' ht).2

end Engine

/-- A task that ends, in one step, with whatever the schedule says. -/
def promptTask : AsyncTask Unit Unit (Except Unit ℕ) (Except Unit ℕ) where
  start := ()
  step _ _ result := some ((), .inr result)
  cancel _ _ _ := ()

/-- A hedged attempt answers while the first one is still running. -/
theorem ends_in_success_hedged :
    let M := Engine.machine ⟨10, 100⟩ promptTask
    let schedule : List (EngineAction (Except Unit ℕ)) :=
      [.tick 10, .wake 0, .progress 1 (.ok 7), .wake 1, .raiseFlag, .abortAll, .cancel 0, .join 0,
        .finish]
    ∃ s, M.run (Engine.start ⟨10, 100⟩ promptTask () 0) schedule = some s ∧
      s.phase = .returned (.ok 7) ∧ s.attempts = [] ∧ ∃ id, (id, .ok 7) ∈ s.results := by
  intro M schedule
  have hrun : (M.run (Engine.start ⟨10, 100⟩ promptTask () 0) schedule).any
      fun s ↦ s.phase = .returned (.ok 7) := by
    decide +kernel
  obtain ⟨s, hs, hprop⟩ := (Option.any_eq_true _ _).1 hrun
  have hphase := of_decide_eq_true hprop
  obtain ⟨hok, -, -, -, -, hempty, -⟩ :=
    Engine.ends_in_success_or_expiry ⟨10, 100⟩ promptTask () 0 schedule s hs
  obtain ⟨id, -, hid⟩ := hok 7 hphase
  exact ⟨s, hs, hphase, hempty _ hphase, id, hid⟩

end DnsBuffer
