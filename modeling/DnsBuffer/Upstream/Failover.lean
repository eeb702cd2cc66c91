import DnsBuffer.Foundation.Simulation
import DnsBuffer.Upstream.Launches

/-!
# From the primary group to the fallback

`Pipeline::resolve_upstream` waits for the resolver that `build_pipeline` has put together, for the
time a query may take: an engine over the primary group and, where a fallback is configured, a
`FallbackResolver` that asks a second engine once the first has failed.

An engine fails by running out of its budget, and in no other way. So the fallback is not a reaction
to an error: however fast the primary fails, its attempts are repeated until the budget is gone, and
the fallback is asked then, when no attempt of the primary is left.

The engines are those of `Engine.machine`, on one clock; the timeout drops the one that is waited
for. What is proved here about an engine inside the chain goes through its own run
(`Resolving.Inv.primary`, `Resolving.Inv.fallback`).
-/

namespace DnsBuffer

/-! ### More about one engine -/

/-- The call has returned, or its future is gone. -/
def EnginePhase.isOver {ρ ε : Type} : EnginePhase ρ ε → Bool
  | .returned _ => true
  | .dropped => true
  | _ => false

namespace Engine

variable {ω τ α ρ ε : Type} {r : HedgedResolver} {inner : AsyncTask ω τ α (Except ε ρ)}
  {s t : Engine ω τ ρ ε} {world : ω} {began : Instant}

/-- A call that is over stays what it is. -/
theorem phase_of_step {a : EngineAction α} (hstep : (machine r inner).step s a = some t)
    (h : s.phase.isOver = true) : t.phase = s.phase := by
  -- every step that moves the call needs a phase in which it is not over
  have hmoves : ∀ {phase : EnginePhase ρ ε}, s.phase = phase → phase.isOver = false → False :=
    fun hphase hnot ↦ by cases hnot.symm.trans (hphase ▸ h)
  cases step_of_machine hstep with
  | @join i id result hphase => exact (hmoves hphase rfl).elim
  | panic hphase => exact (hmoves hphase rfl).elim
  | expire hphase => exact (hmoves hphase rfl).elim
  | hedge hphase => exact (hmoves hphase rfl).elim
  | hedgeFull hphase => exact (hmoves hphase rfl).elim
  | retry hphase => exact (hmoves hphase rfl).elim
  | raiseFlag hphase => exact (hmoves hphase rfl).elim
  | abortWon hphase => exact (hmoves hphase rfl).elim
  | abortExpired hphase => exact (hmoves hphase rfl).elim
  | finish hphase => exact (hmoves hphase rfl).elim
  | drop hphase =>
    obtain hphase | ⟨verdict, hphase⟩ := hphase
    · exact (hmoves hphase rfl).elim
    · exact (hmoves hphase rfl).elim
  | _ => rfl

/-- Only a tick moves the clock of an engine. -/
theorem now_of_step {a : EngineAction α} (hstep : (machine r inner).step s a = some t)
    (hne : ∀ nanos, a ≠ .tick nanos) : t.now = s.now := by
  cases step_of_machine hstep with
  | tick nanos => exact absurd rfl (hne nanos)
  | @join i id result => cases result <;> rfl
  | _ => rfl

theorem dropped_of_drop (hstep : (machine r inner).step s .drop = some t) :
    t.phase = .dropped := by
  cases step_of_machine hstep with
  | drop => rfl

/-- Only a call in its loop launches attempts. -/
theorem launches_of_not_looping {a : EngineAction α}
    (hstep : (machine r inner).step s a = some t) (h : s.phase ≠ .looping) :
    t.launches = s.launches := by
  cases step_of_machine hstep with
  | @join i id result => cases result <;> rfl
  | hedge hphase => exact absurd hphase h
  | retry hphase => exact absurd hphase h
  | _ => rfl

/-- The attempts of a call: never more than it may have, and none from before it began. -/
structure Bounded (r : HedgedResolver) (began : Instant) (s : Engine ω τ ρ ε) : Prop where
  attempts : s.attempts.length ≤ r.maxInFlight
  launches : ∀ at' ∈ s.launches, began ≤ at'
  clock : began ≤ s.now

theorem bounded_start (r : HedgedResolver) (inner : AsyncTask ω τ α (Except ε ρ)) (world : ω)
    (began : Instant) : Bounded r began (start r inner world began) where
  attempts := one_le_maxInFlight r
  launches := by simp [start, spawnAttempt]
  clock := le_rfl

theorem Bounded.launch (h : Bounded r began s) (hinv : s.Inv) (hphase : s.phase = .looping)
    (hroom : s.inFlight < r.maxInFlight) (nextHedge : Instant) :
    Bounded r began ({ s with nextHedge := nextHedge }.launch inner) where
  attempts := by
    show (s.attempts ++ [_]).length ≤ r.maxInFlight
    rw [List.length_append, List.length_singleton, ← hinv.flight (by rw [hphase]; rfl)]
    exact hroom
  launches := by
    show ∀ at' ∈ s.launches ++ [s.now], began ≤ at'
    rw [List.forall_mem_append, List.forall_mem_singleton]
    exact ⟨h.launches, h.clock⟩
  clock := h.clock

theorem Bounded.step {a : EngineAction α} (h : Bounded r began s) (hinv : s.Inv)
    (hstep : (machine r inner).step s a = some t) : Bounded r began t := by
  cases step_of_machine hstep with
  | tick nanos => exact ⟨h.attempts, h.launches, h.clock.trans (Nat.le_add_right _ _)⟩
  | advance => exact ⟨by rw [List.length_set]; exact h.attempts, h.launches, h.clock⟩
  | complete => exact ⟨by rw [List.length_set]; exact h.attempts, h.launches, h.clock⟩
  | cancel => exact ⟨by rw [List.length_set]; exact h.attempts, h.launches, h.clock⟩
  | @join i id result =>
    have hle := List.length_eraseIdx_le s.attempts i
    cases result <;> exact ⟨hle.trans h.attempts, h.launches, h.clock⟩
  | hedge hphase _ _ _ hroom => exact h.launch hinv hphase hroom _
  | retry hphase _ hzero _ =>
    exact h.launch hinv hphase (by rw [hzero]; exact one_le_maxInFlight r) s.nextHedge
  | @joinStopped i => exact ⟨(List.length_eraseIdx_le s.attempts i).trans h.attempts, h.launches,
      h.clock⟩
  | _ => exact ⟨h.attempts, h.launches, h.clock⟩

theorem bounded_of_run {as : List (EngineAction α)}
    (hrun : (machine r inner).run (start r inner world began) as = some s) :
    Bounded r began s :=
  (Machine.run_invariant (I := fun s ↦ s.Inv ∧ Bounded r began s)
    (fun _ _ _ h hstep ↦ ⟨h.1.step hstep, h.2.step h.1 hstep⟩) hrun
    ⟨inv_start r inner world began, bounded_start r inner world began⟩).2

/-- **A call fails after its budget.** -/
theorem budget_le_of_expired {as : List (EngineAction α)} {lastError : Option ε} {inFlight : ℕ}
    (hrun : (machine r inner).run (start r inner world began) as = some s)
    (h : s.phase = .returned (.expired lastError inFlight)) : began + r.maxWait ≤ s.now := by
  obtain ⟨bs, i, cs, u, rfl, hu, -, hdecides⟩ := exists_decides_of_run hrun (by rw [h]; rfl)
  obtain ⟨v, hv, hrest⟩ := Machine.exists_run_of_append hrun
  obtain rfl := Option.some.inj (hu.symm.trans hv)
  have hdeadline : u.deadline = began + r.maxWait := (paced_of_run hu).deadline
  have hnow : u.now ≤ s.now := Machine.run_invariant (I := fun s ↦ u.now ≤ s.now)
    (fun _ _ _ h hstep ↦ h.trans (clock_of_step hstep).2) hrest le_rfl
  exact hdeadline ▸ hdecides.1.trans hnow

end Engine

/-! ### The chain -/

/-- What `build_pipeline` makes of the two groups, and the timeout of a query. -/
structure UpstreamChain (ω τ α ρ ε : Type) where
  engine : HedgedResolver
  queryTimeout : ℕ
  primary : AsyncTask ω τ α (Except ε ρ)
  fallback : Option (AsyncTask ω τ α (Except ε ρ))

/-- Where `resolve_upstream` is. -/
inductive ResolvePhase (ρ ε : Type)
  | primary
  | fallback
  | returned (verdict : Verdict ρ ε)
  | timedOut
  /-- The task that has called `resolve_upstream` was cancelled. -/
  | dropped
deriving DecidableEq

/-- A call of `resolve_upstream`. -/
structure Resolving (ω τ ρ ε : Type) where
  now : Instant
  deadline : Instant
  primary : Engine ω τ ρ ε
  fallback : Option (Engine ω τ ρ ε)
  phase : ResolvePhase ρ ε

inductive ResolveAction (ω α : Type)
  | tick (nanos : ℕ)
  | primary (action : EngineAction α)
  | fallback (action : EngineAction α)
  /-- The engine that is waited for has returned; the group of the next one is found like this. -/
  | await (world : ω)
  | timeout
  | drop

namespace Resolving

variable {ω τ α ρ ε : Type}

/-- The first engine begins. -/
def start (c : UpstreamChain ω τ α ρ ε) (world : ω) (began : Instant) : Resolving ω τ ρ ε where
  now := began
  deadline := began + c.queryTimeout
  primary := .start c.engine c.primary world began
  fallback := none
  phase := .primary

/-- What an engine does by itself. -/
def isInner : EngineAction α → Bool
  | .tick _ => false
  | .drop => false
  | _ => true

/-- The clock of an engine. -/
def advance (nanos : ℕ) (e : Engine ω τ ρ ε) : Engine ω τ ρ ε := { e with now := e.now + nanos }

/-- The future of the engine that is waited for is dropped. -/
def giveUp (c : UpstreamChain ω τ α ρ ε) (s : Resolving ω τ ρ ε) (phase : ResolvePhase ρ ε) :
    Option (Resolving ω τ ρ ε) :=
  match s.phase with
  | .primary => ((Engine.machine c.engine c.primary).step s.primary .drop).map fun e ↦
      { s with primary := e, phase := phase }
  | .fallback => do
      let inner ← c.fallback
      let e ← s.fallback
      let e ← (Engine.machine c.engine inner).step e .drop
      return { s with fallback := some e, phase := phase }
  | _ => none

/-- `resolve_upstream` as a machine. -/
def machine (c : UpstreamChain ω τ α ρ ε) : Machine (Resolving ω τ ρ ε) (ResolveAction ω α) where
  step s
    | .tick nanos => some { s with
        now := s.now + nanos
        primary := advance nanos s.primary
        fallback := s.fallback.map (advance nanos) }
    | .primary action =>
      if isInner action then
        ((Engine.machine c.engine c.primary).step s.primary action).map fun e ↦
          { s with primary := e }
      else none
    | .fallback action =>
      if isInner action then do
        let inner ← c.fallback
        let e ← s.fallback
        let e ← (Engine.machine c.engine inner).step e action
        return { s with fallback := some e }
      else none
    | .await world =>
      match s.phase, s.primary.phase, s.fallback.map Engine.phase with
      | .primary, .returned (.ok answer), _ => some { s with phase := .returned (.ok answer) }
      | .primary, .returned (.expired lastError inFlight), _ =>
        -- any error of the primary leads to the fallback
        match c.fallback with
        | some inner => some { s with
            phase := .fallback
            fallback := some (.start c.engine inner world s.now) }
        | none => some { s with phase := .returned (.expired lastError inFlight) }
      | .fallback, _, some (.returned verdict) => some { s with phase := .returned verdict }
      | _, _, _ => none
    | .timeout => if s.deadline ≤ s.now then s.giveUp c .timedOut else none
    | .drop => s.giveUp c .dropped

/-! ### What one step can do -/

variable {c : UpstreamChain ω τ α ρ ε} {s t : Resolving ω τ ρ ε}

/-- Giving up: the caller is cancelled, or the time of the query is over. -/
def GivesUp (s : Resolving ω τ ρ ε) (phase : ResolvePhase ρ ε) : Prop :=
  phase = .dropped ∨ (phase = .timedOut ∧ s.deadline ≤ s.now)

/-- The enabled steps and their effects. -/
inductive Step (c : UpstreamChain ω τ α ρ ε) (s : Resolving ω τ ρ ε) :
    ResolveAction ω α → Resolving ω τ ρ ε → Prop
  | tick (nanos : ℕ) : Step c s (.tick nanos)
      { s with
        now := s.now + nanos
        primary := advance nanos s.primary
        fallback := s.fallback.map (advance nanos) }
  | primary {action : EngineAction α} {e : Engine ω τ ρ ε} (hinner : isInner action = true)
      (hstep : (Engine.machine c.engine c.primary).step s.primary action = some e) :
      Step c s (.primary action) { s with primary := e }
  | fallback {action : EngineAction α} {inner : AsyncTask ω τ α (Except ε ρ)}
      {e e' : Engine ω τ ρ ε} (hinner : isInner action = true) (hc : c.fallback = some inner)
      (he : s.fallback = some e) (hstep : (Engine.machine c.engine inner).step e action = some e') :
      Step c s (.fallback action) { s with fallback := some e' }
  | answered {answer : ρ} (world : ω) (hphase : s.phase = .primary)
      (hprimary : s.primary.phase = .returned (.ok answer)) :
      Step c s (.await world) { s with phase := .returned (.ok answer) }
  | failOver {lastError : Option ε} {inFlight : ℕ} {inner : AsyncTask ω τ α (Except ε ρ)}
      (world : ω) (hphase : s.phase = .primary)
      (hprimary : s.primary.phase = .returned (.expired lastError inFlight))
      (hc : c.fallback = some inner) :
      Step c s (.await world)
        { s with phase := .fallback, fallback := some (.start c.engine inner world s.now) }
  | failed {lastError : Option ε} {inFlight : ℕ} (world : ω) (hphase : s.phase = .primary)
      (hprimary : s.primary.phase = .returned (.expired lastError inFlight))
      (hc : c.fallback = none) :
      Step c s (.await world) { s with phase := .returned (.expired lastError inFlight) }
  | fellBack {verdict : Verdict ρ ε} {e : Engine ω τ ρ ε} (world : ω) (hphase : s.phase = .fallback)
      (he : s.fallback = some e) (hreturned : e.phase = .returned verdict) :
      Step c s (.await world) { s with phase := .returned verdict }
  | giveUpPrimary {a : ResolveAction ω α} {phase : ResolvePhase ρ ε} {e : Engine ω τ ρ ε}
      (hgives : s.GivesUp phase) (hphase : s.phase = .primary)
      (hstep : (Engine.machine c.engine c.primary).step s.primary .drop = some e) :
      Step c s a { s with primary := e, phase := phase }
  | giveUpFallback {a : ResolveAction ω α} {phase : ResolvePhase ρ ε}
      {inner : AsyncTask ω τ α (Except ε ρ)} {e e' : Engine ω τ ρ ε} (hgives : s.GivesUp phase)
      (hphase : s.phase = .fallback) (hc : c.fallback = some inner) (he : s.fallback = some e)
      (hstep : (Engine.machine c.engine inner).step e .drop = some e') :
      Step c s a { s with fallback := some e', phase := phase }

theorem step_giveUp {phase : ResolvePhase ρ ε} (hgives : s.GivesUp phase) (a : ResolveAction ω α)
    (h : s.giveUp c phase = some t) : Step c s a t := by
  rw [giveUp] at h
  split at h
  · rename_i hphase
    obtain ⟨e, hstep, rfl⟩ := Option.map_eq_some_iff.1 h
    exact .giveUpPrimary hgives hphase hstep
  · rename_i hphase
    simp only [Option.bind_eq_bind, Option.bind_eq_some_iff] at h
    obtain ⟨inner, hc, e, he, e', hstep, ht⟩ := h
    cases ht
    exact .giveUpFallback hgives hphase hc he hstep
  · cases h

theorem step_await {world : ω} (h : (machine c).step s (.await world) = some t) :
    Step c s (.await world) t := by
  simp only [machine] at h
  split at h
  · rename_i answer hphase hprimary
    cases h
    exact .answered world hphase hprimary
  · rename_i lastError inFlight hphase hprimary
    split at h
    · rename_i inner hc
      cases h
      exact .failOver world hphase hprimary hc
    · rename_i hc
      cases h
      exact .failed world hphase hprimary hc
  · rename_i verdict hphase hfallback
    obtain ⟨e, he, hreturned⟩ := Option.map_eq_some_iff.1 hfallback
    cases h
    exact .fellBack world hphase he hreturned
  · cases h

/-- **Inversion of the machine.** -/
theorem step_of_machine {a : ResolveAction ω α} (h : (machine c).step s a = some t) :
    Step c s a t := by
  cases a with
  | tick nanos =>
    cases h
    exact .tick nanos
  | primary action =>
    simp only [machine] at h
    split at h
    · rename_i hinner
      obtain ⟨e, hstep, rfl⟩ := Option.map_eq_some_iff.1 h
      exact .primary hinner hstep
    · cases h
  | fallback action =>
    simp only [machine] at h
    split at h
    · rename_i hinner
      simp only [Option.bind_eq_bind, Option.bind_eq_some_iff] at h
      obtain ⟨inner, hc, e, he, e', hstep, ht⟩ := h
      cases ht
      exact .fallback hinner hc he hstep
    · cases h
  | await world => exact step_await h
  | timeout =>
    simp only [machine] at h
    split at h
    · rename_i hdue
      exact step_giveUp (Or.inr ⟨rfl, hdue⟩) .timeout h
    · cases h
  | drop => exact step_giveUp (Or.inl rfl) .drop h

/-! ### The engines of the chain -/

/-- The engine is in a run of its own, from this instant on, and on the clock of the chain. -/
def RunOf (r : HedgedResolver) (inner : AsyncTask ω τ α (Except ε ρ)) (began now : Instant)
    (e : Engine ω τ ρ ε) : Prop :=
  (∃ world as, (Engine.machine r inner).run (.start r inner world began) as = some e) ∧ e.now = now

theorem runOf_start (r : HedgedResolver) (inner : AsyncTask ω τ α (Except ε ρ)) (world : ω)
    (began : Instant) : RunOf r inner began began (.start r inner world began) :=
  ⟨⟨world, [], rfl⟩, rfl⟩

/-- One more step of the engine. -/
theorem RunOf.step {r : HedgedResolver} {inner : AsyncTask ω τ α (Except ε ρ)}
    {began now now' : Instant} {e e' : Engine ω τ ρ ε} {a : EngineAction α}
    (h : RunOf r inner began now e) (hstep : (Engine.machine r inner).step e a = some e')
    (hnow : e.now = now → e'.now = now') : RunOf r inner began now' e' := by
  obtain ⟨⟨world, as, hrun⟩, hclock⟩ := h
  refine ⟨⟨world, as ++ [a], ?_⟩, hnow hclock⟩
  exact Machine.run_append_eq_some hrun (Machine.run_cons_eq_some _ |>.2 ⟨e', hstep, rfl⟩)

/-- Both engines are over. -/
def Stopped (s : Resolving ω τ ρ ε) : Prop :=
  s.primary.phase.isOver = true ∧ ∀ e, s.fallback = some e → e.phase.isOver = true

/-- What holds where the call is. -/
def Phased (c : UpstreamChain ω τ α ρ ε) (s : Resolving ω τ ρ ε) : Prop :=
  match s.phase with
  | .primary => s.fallback = none
  | .fallback => s.fallback ≠ none
  | .returned verdict =>
    (s.fallback = none ∧ s.primary.phase = .returned verdict ∧
      ∀ lastError inFlight, verdict = .expired lastError inFlight → c.fallback = none) ∨
    ∃ e, s.fallback = some e ∧ e.phase = .returned verdict
  | .timedOut => s.deadline ≤ s.now ∧ s.Stopped
  | .dropped => s.Stopped

structure Inv (c : UpstreamChain ω τ α ρ ε) (began : Instant) (s : Resolving ω τ ρ ε) : Prop where
  deadline : s.deadline = began + c.queryTimeout
  primary : RunOf c.engine c.primary began s.now s.primary
  /-- The second engine has begun when the budget of the first was gone. -/
  fallback : ∀ e, s.fallback = some e → ∃ inner failedAt, c.fallback = some inner ∧
    began + c.engine.maxWait ≤ failedAt ∧ RunOf c.engine inner failedAt s.now e
  expired : s.fallback ≠ none →
    ∃ lastError inFlight, s.primary.phase = .returned (.expired lastError inFlight)
  phased : s.Phased c

variable {began : Instant}

theorem inv_start (c : UpstreamChain ω τ α ρ ε) (world : ω) (began : Instant) :
    (start c world began).Inv c began where
  deadline := rfl
  primary := runOf_start c.engine c.primary world began
  fallback e he := by cases he
  expired h := absurd rfl h
  phased := rfl

/-- What the phase promises is kept by what the engines do and by the clock. -/
theorem Phased.frame (h : s.Phased c) (hphase : t.phase = s.phase)
    (hdeadline : t.deadline = s.deadline) (hnow : s.now ≤ t.now)
    (hnone : s.fallback = none → t.fallback = none)
    (hsome : ∀ e, s.fallback = some e → ∃ e', t.fallback = some e' ∧
      (e.phase.isOver = true → e'.phase = e.phase))
    (hprimary : s.primary.phase.isOver = true → t.primary.phase = s.primary.phase) :
    t.Phased c := by
  have hstopped : s.Stopped → t.Stopped := fun ⟨hover, hall⟩ ↦ by
    refine ⟨by rw [hprimary hover]; exact hover, fun e' he' ↦ ?_⟩
    cases hs : s.fallback with
    | none => cases (hnone hs).symm.trans he'
    | some e =>
      obtain ⟨e'', he'', hsame⟩ := hsome e hs
      cases he'.symm.trans he''
      rw [hsame (hall e hs)]
      exact hall e hs
  rw [Phased] at h ⊢
  rw [hphase]
  cases hs : s.phase with
  | primary =>
    rw [hs] at h
    exact hnone h
  | fallback =>
    rw [hs] at h
    obtain ⟨e, he⟩ := Option.ne_none_iff_exists'.1 h
    obtain ⟨e', he', -⟩ := hsome e he
    exact he' ▸ Option.some_ne_none e'
  | returned verdict =>
    rw [hs] at h
    obtain ⟨hs', hreturned, hc⟩ | ⟨e, he, hreturned⟩ := h
    · refine Or.inl ⟨hnone hs', ?_, hc⟩
      rw [hprimary (by rw [hreturned]; rfl), hreturned]
    · obtain ⟨e', he', hsame⟩ := hsome e he
      refine Or.inr ⟨e', he', ?_⟩
      rw [hsame (by rw [hreturned]; rfl), hreturned]
  | timedOut =>
    rw [hs] at h
    exact ⟨hdeadline ▸ h.1.trans hnow, hstopped h.2⟩
  | dropped =>
    rw [hs] at h
    exact hstopped h

theorem isInner_ne_tick {action : EngineAction α} (h : isInner action = true) :
    ∀ nanos, action ≠ .tick nanos := by
  rintro _ rfl
  cases h

/-- What the phase of a call that was given up is. -/
theorem phased_of_givesUp {phase : ResolvePhase ρ ε} (hgives : s.GivesUp phase)
    (hphase : t.phase = phase) (hdeadline : t.deadline = s.deadline) (hnow : t.now = s.now)
    (hstopped : t.Stopped) : t.Phased c := by
  rw [Phased, hphase]
  obtain rfl | ⟨rfl, hdue⟩ := hgives
  · exact hstopped
  · exact ⟨hdeadline ▸ hnow ▸ hdue, hstopped⟩

/-- **One step preserves the invariant.** -/
theorem Inv.step {a : ResolveAction ω α} (h : s.Inv c began)
    (hstep : (machine c).step s a = some t) : t.Inv c began := by
  cases step_of_machine hstep with
  | tick nanos =>
    refine ⟨h.deadline, h.primary.step (a := .tick nanos) rfl (congrArg (· + nanos)),
      fun e' he' ↦ ?_, fun hne ↦ ?_, h.phased.frame rfl rfl (Nat.le_add_right _ _) (fun hs ↦ ?_)
        (fun e he ↦ ?_) fun _ ↦ rfl⟩
    · obtain ⟨e, he, rfl⟩ := Option.map_eq_some_iff.1 he'
      obtain ⟨inner, failedAt, hc, hle, hrun⟩ := h.fallback e he
      exact ⟨inner, failedAt, hc, hle, hrun.step (a := .tick nanos) rfl (congrArg (· + nanos))⟩
    · exact h.expired fun hs ↦ hne (by rw [hs]; rfl)
    · show s.fallback.map (advance nanos) = none
      rw [hs]
      rfl
    · exact ⟨advance nanos e, by rw [he]; rfl, fun _ ↦ rfl⟩
  | @primary action e hinner hengine =>
    have hnow := Engine.now_of_step hengine (isInner_ne_tick hinner)
    refine ⟨h.deadline, h.primary.step hengine hnow.trans, h.fallback, fun hne ↦ ?_,
      h.phased.frame rfl rfl le_rfl id (fun e he ↦ ⟨e, he, fun _ ↦ rfl⟩)
        (Engine.phase_of_step hengine)⟩
    obtain ⟨lastError, inFlight, hexpired⟩ := h.expired hne
    refine ⟨lastError, inFlight, ?_⟩
    rw [Engine.phase_of_step hengine (by rw [hexpired]; rfl), hexpired]
  | @fallback action inner e e' hinner hc he hengine =>
    have hnow := Engine.now_of_step hengine (isInner_ne_tick hinner)
    refine ⟨h.deadline, h.primary, fun e'' he'' ↦ ?_, fun _ ↦ h.expired (by rw [he]; rintro ⟨⟩),
      h.phased.frame rfl rfl le_rfl (fun hs ↦ by cases he.symm.trans hs) (fun e'' he'' ↦ ?_)
        fun _ ↦ rfl⟩
    · cases he''
      obtain ⟨inner', failedAt, hc', hle, hrun⟩ := h.fallback e he
      cases hc.symm.trans hc'
      exact ⟨inner, failedAt, hc, hle, hrun.step hengine hnow.trans⟩
    · cases he.symm.trans he''
      exact ⟨e', rfl, Engine.phase_of_step hengine⟩
  | answered _ hphase hprimary =>
    have hnone := h.phased
    rw [Phased, hphase] at hnone
    refine ⟨h.deadline, h.primary, h.fallback, h.expired, Or.inl ⟨hnone, hprimary, ?_⟩⟩
    rintro _ _ ⟨⟩
  | @failOver lastError inFlight inner world hphase hprimary hc =>
    obtain ⟨⟨world', as, hrun⟩, hclock⟩ := h.primary
    have hbudget := Engine.budget_le_of_expired hrun hprimary
    refine ⟨h.deadline, h.primary, fun e he ↦ ?_, fun _ ↦ ⟨lastError, inFlight, hprimary⟩, ?_⟩
    · cases he
      exact ⟨inner, s.now, hc, hclock ▸ hbudget, runOf_start c.engine inner world s.now⟩
    · rintro ⟨⟩
  | failed _ hphase hprimary hc =>
    have hnone := h.phased
    rw [Phased, hphase] at hnone
    exact ⟨h.deadline, h.primary, h.fallback, h.expired,
      Or.inl ⟨hnone, hprimary, fun _ _ _ ↦ hc⟩⟩
  | fellBack _ hphase he hreturned =>
    exact ⟨h.deadline, h.primary, h.fallback, h.expired, Or.inr ⟨_, he, hreturned⟩⟩
  | giveUpPrimary hgives hphase hengine =>
    have hnone := h.phased
    rw [Phased, hphase] at hnone
    have hnow := Engine.now_of_step hengine (by rintro _ ⟨⟩)
    have hdropped := Engine.dropped_of_drop hengine
    refine ⟨h.deadline, h.primary.step hengine hnow.trans, h.fallback, fun hne ↦ absurd hnone hne,
      phased_of_givesUp hgives rfl rfl rfl ⟨by rw [hdropped]; rfl, fun e he ↦ ?_⟩⟩
    cases hnone.symm.trans he
  | @giveUpFallback _ _ inner e e' hgives hphase hc he hengine =>
    have hnow := Engine.now_of_step hengine (by rintro _ ⟨⟩)
    have hdropped := Engine.dropped_of_drop hengine
    obtain ⟨lastError, inFlight, hexpired⟩ := h.expired (by rw [he]; rintro ⟨⟩)
    refine ⟨h.deadline, h.primary, fun e'' he'' ↦ ?_, fun _ ↦ ⟨lastError, inFlight, hexpired⟩,
      phased_of_givesUp hgives rfl rfl rfl ⟨by rw [hexpired]; rfl, fun e'' he'' ↦ ?_⟩⟩
    · cases he''
      obtain ⟨inner', failedAt, hc', hle, hrun⟩ := h.fallback e he
      cases hc.symm.trans hc'
      exact ⟨inner, failedAt, hc, hle, hrun.step hengine hnow.trans⟩
    · cases he''
      rw [hdropped]
      rfl

/-- A call that has come to an end has stopped its engines. -/
theorem Inv.stopped (h : s.Inv c began) (hprimary : s.phase ≠ .primary)
    (hfallback : s.phase ≠ .fallback) : s.Stopped := by
  have hphased := h.phased
  rw [Phased] at hphased
  cases hphase : s.phase with
  | primary => exact absurd hphase hprimary
  | fallback => exact absurd hphase hfallback
  | returned verdict =>
    rw [hphase] at hphased
    obtain ⟨hnone, hreturned, -⟩ | ⟨e, he, hreturned⟩ := hphased
    · refine ⟨by rw [hreturned]; rfl, fun e he ↦ ?_⟩
      cases hnone.symm.trans he
    · obtain ⟨lastError, inFlight, hexpired⟩ := h.expired (by rw [he]; rintro ⟨⟩)
      refine ⟨by rw [hexpired]; rfl, fun e' he' ↦ ?_⟩
      cases he.symm.trans he'
      rw [hreturned]
      rfl
  | timedOut =>
    rw [hphase] at hphased
    exact hphased.2
  | dropped =>
    rw [hphase] at hphased
    exact hphased

/-- A call that has come to its end, and what it launched until then. -/
structure EndsAs (s t : Resolving ω τ ρ ε) : Prop where
  phase : t.phase = s.phase
  primary : t.primary.launches = s.primary.launches
  fallback : t.fallback.map Engine.launches = s.fallback.map Engine.launches

/-- Engines that are over launch nothing. -/
theorem Stopped.endsAs {a : ResolveAction ω α} (h : s.Stopped) (hprimary : s.phase ≠ .primary)
    (hfallback : s.phase ≠ .fallback) (hstep : (machine c).step s a = some t) : s.EndsAs t := by
  have hnot : ∀ {e : Engine ω τ ρ ε}, e.phase.isOver = true → e.phase ≠ .looping :=
    fun hover hphase ↦ by
      rw [hphase] at hover
      cases hover
  cases step_of_machine hstep with
  | tick nanos =>
    refine ⟨rfl, rfl, ?_⟩
    rw [Option.map_map]
    rfl
  | primary _ hengine => exact ⟨rfl, Engine.launches_of_not_looping hengine (hnot h.1), rfl⟩
  | @fallback action inner e e' _ hc he hengine =>
    refine ⟨rfl, rfl, ?_⟩
    rw [he, Option.map_some, Option.map_some,
      Engine.launches_of_not_looping hengine (hnot (h.2 e he))]
  | answered _ hphase => exact absurd hphase hprimary
  | failOver _ hphase => exact absurd hphase hprimary
  | failed _ hphase => exact absurd hphase hprimary
  | fellBack _ hphase => exact absurd hphase hfallback
  | giveUpPrimary _ hphase => exact absurd hphase hprimary
  | giveUpFallback _ hphase => exact absurd hphase hfallback

/-- The end is the end: nothing changes it, and nothing is launched after it. -/
theorem Inv.endsAs {as : List (ResolveAction ω α)} (h : s.Inv c began)
    (hprimary : s.phase ≠ .primary) (hfallback : s.phase ≠ .fallback)
    (hrun : (machine c).run s as = some t) : s.EndsAs t := by
  have hkept : t.Inv c began ∧ s.EndsAs t := by
    refine Machine.run_invariant (I := fun u ↦ u.Inv c began ∧ s.EndsAs u)
      (fun u a v hu hstep ↦ ?_) hrun ⟨h, rfl, rfl, rfl⟩
    obtain ⟨hinv, hphase, hlaunches, hlaunches'⟩ := hu
    have hstopped := hinv.stopped (hphase ▸ hprimary) (hphase ▸ hfallback)
    have hends := hstopped.endsAs (hphase ▸ hprimary) (hphase ▸ hfallback) hstep
    exact ⟨hinv.step hstep, hends.phase.trans hphase, hends.primary.trans hlaunches,
      hends.fallback.trans hlaunches'⟩
  exact hkept.2

/-- **The fallback is asked when the primary's budget is gone.** Whatever the groups do, for every
interval, budget and timeout, and however timers and wake-ups are delayed:

* the fallback has begun only after the primary has failed, which takes its whole budget, and no
  attempt of the primary is left then;
* the attempts under way, of both groups together, are never more than one engine may have;
* an answer is the result of an attempt of one of the two groups;
* a call fails by itself only after the budgets of all groups there are;
* it times out only after the time of the query;
* its end is the end, whatever comes after it, and nothing is launched any more. -/
theorem falls_back_after_budget (c : UpstreamChain ω τ α ρ ε) (world : ω) (began : Instant)
    (as : List (ResolveAction ω α)) (s : Resolving ω τ ρ ε)
    (hrun : (machine c).run (start c world began) as = some s) :
    (∀ e, s.fallback = some e →
      (∃ lastError inFlight, s.primary.phase = .returned (.expired lastError inFlight)) ∧
      s.primary.attempts = [] ∧ ∀ launch ∈ e.launches, began + c.engine.maxWait ≤ launch) ∧
    s.primary.attempts.length + s.fallback.elim 0 (fun e ↦ e.attempts.length) ≤
      c.engine.maxInFlight ∧
    (∀ answer, s.phase = .returned (.ok answer) →
      ∃ e id, (e = s.primary ∨ s.fallback = some e) ∧ (id, .ok answer) ∈ e.results) ∧
    (∀ lastError inFlight, s.phase = .returned (.expired lastError inFlight) →
      began + (if c.fallback.isSome then 2 else 1) * c.engine.maxWait ≤ s.now) ∧
    (s.phase = .timedOut → began + c.queryTimeout ≤ s.now) ∧
    (s.phase ≠ .primary → s.phase ≠ .fallback → ∀ bs t, (machine c).run s bs = some t →
      s.EndsAs t) := by
  have h : s.Inv c began :=
    Machine.run_invariant (fun _ _ _ h hstep ↦ h.step hstep) hrun (inv_start c world began)
  obtain ⟨⟨world', bs, hprimary⟩, hclock⟩ := h.primary
  have hfirst := Engine.inv_of_run hprimary
  have hphased := h.phased
  rw [Phased] at hphased
  have hempty : s.fallback ≠ none → s.primary.attempts = [] := fun hne ↦ by
    obtain ⟨lastError, inFlight, hexpired⟩ := h.expired hne
    exact hfirst.returned _ hexpired
  refine ⟨fun e he ↦ ?_, ?_, fun answer hphase ↦ ?_, fun lastError inFlight hphase ↦ ?_,
    fun hphase ↦ ?_, fun hp hf bs t hrest ↦ h.endsAs hp hf hrest⟩
  · obtain ⟨inner, failedAt, -, hle, ⟨world'', cs, hcs⟩, -⟩ := h.fallback e he
    have hne : s.fallback ≠ none := by
      rw [he]
      exact Option.some_ne_none e
    exact ⟨h.expired hne, hempty hne,
      fun launch hlaunch ↦ hle.trans ((Engine.bounded_of_run hcs).launches launch hlaunch)⟩
  · cases hs : s.fallback with
    | none => exact (Engine.bounded_of_run hprimary).attempts
    | some e =>
      obtain ⟨inner, failedAt, -, -, ⟨world'', cs, hcs⟩, -⟩ := h.fallback e hs
      rw [hempty (by rw [hs]; exact Option.some_ne_none e), List.length_nil, Nat.zero_add]
      exact (Engine.bounded_of_run hcs).attempts
  · rw [hphase] at hphased
    obtain ⟨-, hreturned, -⟩ | ⟨e, he, hreturned⟩ := hphased
    · obtain ⟨id, hid⟩ := hfirst.answered answer (by rw [hreturned]; rfl)
      exact ⟨s.primary, id, Or.inl rfl, hid⟩
    · obtain ⟨inner, failedAt, -, -, ⟨world'', cs, hcs⟩, -⟩ := h.fallback e he
      obtain ⟨id, hid⟩ := (Engine.inv_of_run hcs).answered answer (by rw [hreturned]; rfl)
      exact ⟨e, id, Or.inr he, hid⟩
  · rw [hphase] at hphased
    obtain ⟨-, hreturned, hc⟩ | ⟨e, he, hreturned⟩ := hphased
    · rw [hc lastError inFlight rfl, if_neg (by simp), Nat.one_mul, ← hclock]
      exact Engine.budget_le_of_expired hprimary hreturned
    · obtain ⟨inner, failedAt, hc, hle, ⟨world'', cs, hcs⟩, hnow⟩ := h.fallback e he
      have hbudget := Engine.budget_le_of_expired hcs hreturned
      rw [hnow] at hbudget
      rw [hc, Option.isSome_some, if_pos rfl, Nat.two_mul, ← Nat.add_assoc]
      exact (Nat.add_le_add_right hle _).trans hbudget
  · rw [hphase] at hphased
    exact h.deadline ▸ hphased.1

/-- The primary fails at once, again and again; the fallback answers after the budget. -/
theorem falls_back_after_budget_once :
    let c : UpstreamChain Unit Unit (Except Unit ℕ) ℕ Unit :=
      ⟨⟨0, 100⟩, 200, promptTask, some promptTask⟩
    let schedule : List (ResolveAction Unit (Except Unit ℕ)) := [.primary (.progress 0 (.error ())),
      .primary (.wake 0), .tick 100, .primary (.wake 0), .primary .abortAll, .primary .finish,
      .await (), .fallback (.progress 0 (.ok 7)), .fallback (.wake 0), .fallback .raiseFlag,
      .fallback .abortAll, .fallback .finish, .await ()]
    ∃ s, (machine c).run (start c () 0) schedule = some s ∧ s.phase = .returned (.ok 7) ∧
      ∃ e, s.fallback = some e ∧ e.launches = [100] ∧ ∀ launch ∈ e.launches, 0 + 100 ≤ launch := by
  intro c schedule
  have hrun : ((machine c).run (start c () 0) schedule).any fun s ↦
      s.phase = .returned (.ok 7) ∧ s.fallback.any (·.launches = [100]) := by
    decide +kernel
  obtain ⟨s, hs, hprop⟩ := (Option.any_eq_true _ _).1 hrun
  obtain ⟨hphase, hany⟩ := of_decide_eq_true hprop
  obtain ⟨e, he, hlaunches⟩ := (Option.any_eq_true _ _).1 hany
  obtain ⟨hfallback, -⟩ := falls_back_after_budget c () 0 schedule s hs
  exact ⟨s, hs, hphase, e, he, of_decide_eq_true hlaunches, (hfallback e he).2.2⟩

end Resolving

end DnsBuffer
