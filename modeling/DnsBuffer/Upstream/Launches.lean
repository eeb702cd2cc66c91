import DnsBuffer.Upstream.Budget

/-!
# How many attempts a call launches

Two timers launch attempts. The hedge timer fires once per interval, whether or not it launches one;
the retry timer fires only while nothing is in flight, and is set, whenever the last attempt fails,
to at least 50 ms after the latest launch of either kind. So the launches of the second kind are 50
ms apart from what comes before them, both kinds stop at the deadline, and the two together are at
most one for each interval and one for each 50 ms of the budget (`Paced`).
-/

namespace DnsBuffer

namespace Engine

variable {ω τ α ρ ε : Type} {r : HedgedResolver} {inner : AsyncTask ω τ α (Except ε ρ)}
  {s t : Engine ω τ ρ ε} {began : Instant}

/-- The launches so far: the first one, those of the retry timer and those of the hedge timer. -/
structure Tally (r : HedgedResolver) (began : Instant) (s : Engine ω τ ρ ε)
    (retries hedges : ℕ) : Prop where
  total : s.launches.length = 1 + retries + hedges
  retried : began + retries * retryFloor ≤ s.lastSpawn
  retriedBefore : retries * retryFloor ≤ r.maxWait
  hedged : began + (hedges + 1) * r.interval ≤ s.nextHedge
  hedgedBefore : hedges * r.interval ≤ r.maxWait
  serial : r.interval = 0 → hedges = 0

/-- What keeps the launches of a call that began at this instant apart. -/
structure Paced (r : HedgedResolver) (began : Instant) (s : Engine ω τ ρ ε) : Prop where
  deadline : s.deadline = began + r.maxWait
  spawned : s.lastSpawn ≤ s.now
  latest : s.launches.getLast? = some s.lastSpawn
  room : s.inFlight ≤ r.maxInFlight
  retry : s.phase = .looping → s.inFlight = 0 → s.lastSpawn + retryFloor ≤ s.retryAt
  tally : ∃ retries hedges, Tally r began s retries hedges

theorem one_le_maxInFlight (r : HedgedResolver) : 1 ≤ r.maxInFlight := by
  unfold HedgedResolver.maxInFlight
  split <;> omega

theorem paced_start (r : HedgedResolver) (inner : AsyncTask ω τ α (Except ε ρ)) (world : ω)
    (now : Instant) : Paced r now (start r inner world now) where
  deadline := rfl
  spawned := le_rfl
  latest := rfl
  room := one_le_maxInFlight r
  retry _ hzero := absurd hzero (Nat.succ_ne_zero 0)
  tally := by
    refine ⟨0, 0, rfl, ?_, ?_, ?_, ?_, fun _ ↦ rfl⟩
    · rw [Nat.zero_mul]
      exact le_rfl
    · rw [Nat.zero_mul]
      exact Nat.zero_le _
    · rw [Nat.zero_add, Nat.one_mul]
      exact le_rfl
    · rw [Nat.zero_mul]
      exact Nat.zero_le _

/-- The variables that decide about launches. -/
def pacing (s : Engine ω τ ρ ε) :
    Instant × Instant × Instant × Instant × ℕ × List Instant :=
  (s.deadline, s.nextHedge, s.lastSpawn, s.retryAt, s.inFlight, s.launches)

/-- A step that leaves these variables alone and does not enter the loop. -/
theorem Paced.keep (h : Paced r began s) (hsame : t.pacing = s.pacing) (hnow : s.now ≤ t.now)
    (hphase : t.phase = .looping → s.phase = .looping) : Paced r began t := by
  simp only [pacing, Prod.mk.injEq] at hsame
  obtain ⟨hdeadline, hhedge, hspawn, hretry, hflight, hlaunches⟩ := hsame
  obtain ⟨retries, hedges, htally⟩ := h.tally
  refine ⟨hdeadline.trans h.deadline, ?_, ?_, hflight ▸ h.room, fun hloop hzero ↦ ?_, retries,
    hedges, ?_⟩
  · rw [hspawn]
    exact h.spawned.trans hnow
  · rw [hlaunches, hspawn]
    exact h.latest
  · rw [hspawn, hretry]
    exact h.retry (hphase hloop) (hflight ▸ hzero)
  · exact ⟨hlaunches ▸ htally.total, hspawn ▸ htally.retried, htally.retriedBefore,
      hhedge ▸ htally.hedged, htally.hedgedBefore, htally.serial⟩

/-- The join branch: where the last attempt fails, the retry timer is set. -/
theorem Paced.joined (h : Paced r began s) (i : ℕ) (result : Except ε ρ) :
    Paced r began (s.joined i result) := by
  obtain ⟨retries, hedges, htally⟩ := h.tally
  have hroom : s.inFlight - 1 ≤ r.maxInFlight := (Nat.sub_le _ _).trans h.room
  cases result with
  | ok answer =>
    refine ⟨h.deadline, h.spawned, h.latest, hroom, fun hloop ↦ ?_, retries, hedges, htally.total,
      htally.retried, htally.retriedBefore, htally.hedged, htally.hedgedBefore, htally.serial⟩
    cases hloop
  | error error =>
    refine ⟨h.deadline, h.spawned, h.latest, hroom, fun _ hzero ↦ ?_, retries, hedges,
      htally.total, htally.retried, htally.retriedBefore, htally.hedged, htally.hedgedBefore,
      htally.serial⟩
    change s.inFlight - 1 = 0 at hzero
    show s.lastSpawn + retryFloor ≤ if s.inFlight - 1 = 0 then _ else _
    rw [if_pos hzero]
    exact le_max_right _ _

/-- A launch, by either timer, while there is room and before the deadline. -/
theorem Paced.launch (h : Paced r began s) (nextHedge : Instant)
    (hroom : s.inFlight < r.maxInFlight) (retries hedges : ℕ)
    (htally : Tally r began ({ s with nextHedge := nextHedge }.launch inner) retries hedges) :
    Paced r began ({ s with nextHedge := nextHedge }.launch inner) where
  deadline := h.deadline
  spawned := le_rfl
  latest := List.getLast?_concat
  room := hroom
  retry _ hzero := absurd hzero (Nat.succ_ne_zero _)
  tally := ⟨retries, hedges, htally⟩

/-- A launch by the hedge timer. -/
theorem Paced.hedge (h : Paced r began s) (hbefore : s.now < s.deadline)
    (hinterval : r.interval ≠ 0) (hdue : s.nextHedge ≤ s.now) (hroom : s.inFlight < r.maxInFlight) :
    Paced r began ({ s with nextHedge := s.nextHedge + r.interval }.launch inner) := by
  obtain ⟨retries, hedges, htally⟩ := h.tally
  have hfired := htally.hedged
  rw [h.deadline] at hbefore
  refine h.launch _ hroom retries (hedges + 1) ⟨?_, ?_,
    htally.retriedBefore, ?_, ?_, fun hzero ↦ absurd hzero hinterval⟩
  · show (s.launches ++ [s.now]).length = _
    rw [List.length_append, List.length_singleton, htally.total]
    rfl
  · exact htally.retried.trans h.spawned
  · show began + (hedges + 1 + 1) * r.interval ≤ s.nextHedge + r.interval
    rw [Nat.add_one_mul (hedges + 1), ← Nat.add_assoc]
    exact Nat.add_le_add_right hfired _
  · exact Nat.le_of_add_le_add_left ((hfired.trans hdue).trans hbefore.le)

/-- A launch by the retry timer. -/
theorem Paced.relaunch (h : Paced r began s) (hphase : s.phase = .looping)
    (hbefore : s.now < s.deadline) (hzero : s.inFlight = 0) (hdue : s.retryAt ≤ s.now) :
    Paced r began (s.launch inner) := by
  obtain ⟨retries, hedges, htally⟩ := h.tally
  have hpaced : began + (retries + 1) * retryFloor ≤ s.now := by
    rw [Nat.add_one_mul, ← Nat.add_assoc]
    exact (Nat.add_le_add_right htally.retried _).trans ((h.retry hphase hzero).trans hdue)
  rw [h.deadline] at hbefore
  have hroom : s.inFlight < r.maxInFlight := by
    rw [hzero]
    exact one_le_maxInFlight r
  refine h.launch s.nextHedge hroom (retries + 1) hedges ⟨?_, hpaced,
    Nat.le_of_add_le_add_left (hpaced.trans hbefore.le), htally.hedged, htally.hedgedBefore,
    htally.serial⟩
  show (s.launches ++ [s.now]).length = _
  rw [List.length_append, List.length_singleton, htally.total]
  omega

/-- **One step keeps the launches apart.** -/
theorem Paced.step {a : EngineAction α} (h : Paced r began s)
    (hstep : (machine r inner).step s a = some t) : Paced r began t := by
  cases step_of_machine hstep with
  | tick nanos => exact h.keep rfl (Nat.le_add_right _ _) id
  | advance => exact h.keep rfl le_rfl id
  | complete => exact h.keep rfl le_rfl id
  | cancel => exact h.keep rfl le_rfl id
  | panic hphase => exact h.keep rfl le_rfl fun _ ↦ hphase
  | join => exact h.joined _ _
  | expire hphase => exact h.keep rfl le_rfl fun _ ↦ hphase
  | hedge _ hbefore hinterval hdue hroom => exact h.hedge hbefore hinterval hdue hroom
  | hedgeFull =>
    -- the timer moves on without a launch
    obtain ⟨retries, hedges, htally⟩ := h.tally
    exact ⟨h.deadline, h.spawned, h.latest, h.room, h.retry, retries, hedges, htally.total,
      htally.retried, htally.retriedBefore, htally.hedged.trans (Nat.le_add_right _ _),
      htally.hedgedBefore, htally.serial⟩
  | retry hphase hbefore hzero hdue => exact h.relaunch hphase hbefore hzero hdue
  | raiseFlag => exact h.keep rfl le_rfl fun hloop ↦ by cases hloop
  | abortWon => exact h.keep rfl le_rfl fun hloop ↦ by cases hloop
  | abortExpired => exact h.keep rfl le_rfl fun hloop ↦ by cases hloop
  | joinStopped => exact h.keep rfl le_rfl id
  | finish => exact h.keep rfl le_rfl fun hloop ↦ by cases hloop
  | drop => exact h.keep rfl le_rfl fun hloop ↦ by cases hloop

theorem paced_of_run {world : ω} {now : Instant} {as : List (EngineAction α)}
    (hrun : (machine r inner).run (start r inner world now) as = some s) : Paced r now s :=
  Machine.run_invariant (fun _ _ _ h hstep ↦ Paced.step h hstep) hrun
    (paced_start r inner world now)

/-- One launch, one for each 50 ms of the budget, and one for each interval of it. -/
theorem Paced.length_launches_le (h : Paced r began s) : s.launches.length ≤
    1 + r.maxWait / retryFloor + if r.interval = 0 then 0 else r.maxWait / r.interval := by
  obtain ⟨retries, hedges, htally⟩ := h.tally
  have hretries : retries ≤ r.maxWait / retryFloor :=
    (Nat.le_div_iff_mul_le (by decide)).2 htally.retriedBefore
  rw [htally.total]
  split
  · rename_i hzero
    rw [htally.serial hzero]
    omega
  · rename_i hpos
    have hhedges : hedges ≤ r.maxWait / r.interval :=
      (Nat.le_div_iff_mul_le (Nat.pos_of_ne_zero hpos)).2 htally.hedgedBefore
    omega

/-- A launch while the hedge timer is not due is one of the retry timer, and comes at least 50 ms
after the launch before it. -/
theorem Paced.retry_launch (h : Paced r began s) {a : EngineAction α}
    (hstep : (machine r inner).step s a = some t) (hne : t.launches ≠ s.launches)
    (hhedge : r.interval = 0 ∨ s.now < s.nextHedge) :
    s.inFlight = 0 ∧ t.launches = s.launches ++ [s.now] ∧
      ∃ previous, s.launches.getLast? = some previous ∧ previous + retryFloor ≤ s.now := by
  cases step_of_machine hstep with
  | @join i id result hphase hflight hi => cases result <;> exact absurd rfl hne
  | hedge _ _ hinterval hdue => exact absurd hdue (Nat.not_le.2 (hhedge.resolve_left hinterval))
  | retry hphase _ hzero hdue =>
    exact ⟨hzero, rfl, s.lastSpawn, h.latest, (h.retry hphase hzero).trans hdue⟩
  | _ => exact absurd rfl hne

/-- **Hedging is bounded.** In every state that a call can reach, whatever its attempts do:

* while the call is in its loop, `in_flight` is the number of attempts in the join set, and the
  `expect` on the joined attempt never fires;
* no more than one attempt, or eight with hedging, are in flight;
* in the loop with nothing in flight, the retry timer is at least 50 ms after the latest launch, so
  a launch by the retry timer is at least 50 ms after the one before it;
* the attempts launched are at most one, and one for each 50 ms and, with hedging, one for each
  interval of the budget. -/
theorem hedging_bounded (r : HedgedResolver) (inner : AsyncTask ω τ α (Except ε ρ)) (world : ω)
    (now : Instant) (as : List (EngineAction α)) (s : Engine ω τ ρ ε)
    (hrun : (machine r inner).run (start r inner world now) as = some s) :
    ((s.phase.inLoop → s.inFlight = s.attempts.length) ∧ s.phase ≠ .panicked) ∧
    s.inFlight ≤ (if r.interval = 0 then 1 else 8) ∧
    (s.phase = .looping → s.inFlight = 0 → s.lastSpawn + retryFloor ≤ s.retryAt) ∧
    (∀ a t, (machine r inner).step s a = some t → t.launches ≠ s.launches →
      (r.interval = 0 ∨ s.now < s.nextHedge) → s.inFlight = 0 ∧ t.launches = s.launches ++ [s.now] ∧
        ∃ previous, s.launches.getLast? = some previous ∧ previous + retryFloor ≤ s.now) ∧
    s.launches.length ≤
      1 + r.maxWait / retryFloor + if r.interval = 0 then 0 else r.maxWait / r.interval := by
  have hinv := inv_of_run hrun
  have hpaced := paced_of_run hrun
  exact ⟨⟨hinv.flight, hinv.notPanicked⟩, hpaced.room, hpaced.retry,
    fun a t hstep hne hhedge ↦ hpaced.retry_launch hstep hne hhedge, hpaced.length_launches_le⟩

end Engine

/-- Attempts that fail at once: after 100 ms of the budget, without hedging, the call has launched
three. -/
theorem hedging_bounded_serial :
    let M := Engine.machine ⟨0, 120000000⟩ promptTask
    let schedule : List (EngineAction (Except Unit ℕ)) :=
      [.progress 0 (.error ()), .wake 0, .tick 50000000, .wake 0, .progress 0 (.error ()), .wake 0,
        .tick 50000000, .wake 0]
    ∃ s, M.run (Engine.start ⟨0, 120000000⟩ promptTask () 0) schedule = some s ∧
      s.launches = [0, 50000000, 100000000] ∧ s.launches.length ≤ 3 ∧ s.inFlight ≤ 1 := by
  intro M schedule
  have hrun : (M.run (Engine.start ⟨0, 120000000⟩ promptTask () 0) schedule).any
      fun s ↦ s.launches = [0, 50000000, 100000000] := by
    decide +kernel
  obtain ⟨s, hs, hprop⟩ := (Option.any_eq_true _ _).1 hrun
  have hbounded := Engine.hedging_bounded ⟨0, 120000000⟩ promptTask () 0 schedule s hs
  exact ⟨s, hs, of_decide_eq_true hprop, hbounded.2.2.2.2, hbounded.2.1⟩

end DnsBuffer
