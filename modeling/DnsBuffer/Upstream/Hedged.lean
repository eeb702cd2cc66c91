import DnsBuffer.Cache.Model
import DnsBuffer.Foundation.Machine
import Mathlib.Data.List.Basic

/-!
# The retry engine

`HedgedResolver::resolve_attributed`: a loop around one `select`, over a set of attempts that run
concurrently, a deadline, a hedge timer and a retry timer. The model is a clocked machine. Attempts
make progress, finish and are cancelled between any two steps of the engine; each wake-up of the
engine takes the first ready branch in the order of the source (`Engine.wake`), where a timer branch
is ready once its instant has passed, and the join branch once some attempt has finished — which of
several finished attempts is joined is the schedule's choice.

The inner resolver stays a parameter: an attempt is any cancellable task over some shared world
(`AsyncTask`), so the results about the engine hold whatever it calls, and the group of upstreams is
plugged in below.

What the source does between two awaits without yielding, but in an order that matters to the tasks
it cancels — accept a winner, raise the flag, abort the others — is kept as three steps. Dropping
the future of the call is possible wherever it awaits.
-/

namespace DnsBuffer

/-! ### Tasks -/

/-- A cancellable task over a shared world `ω`: how a run of it begins, what one step of it does to
the world and to its own state `τ` or with which result `ρ` it ends, and what dropping it in
mid-flight does to the world. Dropping sees one flag of whoever runs the task. -/
structure AsyncTask (ω τ α ρ : Type) where
  start : τ
  step : ω → τ → α → Option (ω × (τ ⊕ ρ))
  cancel : Bool → ω → τ → ω

/-- A task in a join set. -/
inductive TaskStatus (τ ρ : Type)
  | running (task : τ)
  | finished (result : ρ)
  | cancelled
deriving DecidableEq

/-- Only running tasks make progress; a finished or cancelled one is waiting to be joined. -/
def TaskStatus.isRunning {τ ρ : Type} : TaskStatus τ ρ → Bool
  | .running _ => true
  | _ => false

/-- The task has come to an end by itself. -/
def TaskStatus.isFinished {τ ρ : Type} : TaskStatus τ ρ → Bool
  | .finished _ => true
  | _ => false

/-! ### The engine -/

/-- `HedgedResolver`, without the inner resolver. -/
structure HedgedResolver where
  interval : ℕ
  maxWait : ℕ
deriving DecidableEq

/-- `MAX_IN_FLIGHT` with hedging, one attempt without. -/
def HedgedResolver.maxInFlight (r : HedgedResolver) : ℕ := if r.interval = 0 then 1 else 8

/-- `RETRY_FLOOR`, 50 ms. -/
def retryFloor : ℕ := 50000000

/-- What the call returns: an answer, or the error it reports when its budget has expired, made from
the last error of an attempt if there was one, and else from the number of attempts in flight. -/
inductive Verdict (ρ ε : Type)
  | ok (answer : ρ)
  | expired (lastError : Option ε) (inFlight : ℕ)
deriving DecidableEq

/-- Where the call is. -/
inductive EnginePhase (ρ ε : Type)
  | looping
  /-- An attempt has succeeded; the flag is not raised yet. -/
  | accepted (answer : ρ)
  /-- The flag is raised; the other attempts are not aborted yet. -/
  | flagged (answer : ρ)
  /-- The deadline branch was taken; the attempts are not aborted yet. -/
  | expired (lastError : Option ε) (inFlight : ℕ)
  /-- `stop_attempts`: everything is aborted, and joined until nothing is left. -/
  | stopping (verdict : Verdict ρ ε)
  | returned (verdict : Verdict ρ ε)
  /-- The future of the call was dropped, and with it the join set. -/
  | dropped
  /-- The `expect` on the joined attempt fired. -/
  | panicked
deriving DecidableEq

/-- An attempt in the join set. -/
structure Attempt (τ ρ ε : Type) where
  id : ℕ
  status : TaskStatus τ (Except ε ρ)

/-- The local variables of the call, its join set, the shared world, and three logs: when each
attempt was launched (attempt `i` is the `i`-th), how attempts ended by themselves, and the answer
that was accepted as the winner. -/
structure Engine (ω τ ρ ε : Type) where
  world : ω
  now : Instant
  deadline : Instant
  nextHedge : Instant
  lastSpawn : Instant
  retryAt : Instant
  inFlight : ℕ
  lastError : Option ε
  succeeded : Bool
  attempts : List (Attempt τ ρ ε)
  phase : EnginePhase ρ ε
  launches : List Instant
  results : List (ℕ × Except ε ρ)
  winner : Option ρ

/-- The steps of the engine, its attempts and its caller. -/
inductive EngineAction (α : Type)
  | tick (nanos : ℕ)
  /-- The `i`-th attempt of the join set takes a step. -/
  | progress (i : ℕ) (action : α)
  /-- The abort of the `i`-th attempt of the join set takes effect. -/
  | cancel (i : ℕ)
  /-- The `select` wakes up; `i` is the attempt it joins if there is one to join. -/
  | wake (i : ℕ)
  /-- The success flag is raised. -/
  | raiseFlag
  /-- `abort_all`. -/
  | abortAll
  /-- `stop_attempts` joins the `i`-th attempt. -/
  | join (i : ℕ)
  /-- `stop_attempts` finds the join set empty, and the call returns. -/
  | finish
  /-- The caller drops the future of the call. -/
  | drop
deriving DecidableEq

namespace Engine

variable {ω τ α ρ ε : Type}

/-- `spawn_attempt`. -/
def spawnAttempt (inner : AsyncTask ω τ α (Except ε ρ)) (s : Engine ω τ ρ ε) : Engine ω τ ρ ε :=
  { s with
    attempts := s.attempts ++ [⟨s.launches.length, .running inner.start⟩]
    launches := s.launches ++ [s.now] }

/-- The call before its first wake-up: the deadline is set and the first attempt launched. -/
def start (r : HedgedResolver) (inner : AsyncTask ω τ α (Except ε ρ)) (world : ω) (now : Instant) :
    Engine ω τ ρ ε :=
  spawnAttempt inner
    { world := world
      now := now
      deadline := now + r.maxWait
      nextHedge := now + r.interval
      lastSpawn := now
      retryAt := now
      inFlight := 1
      lastError := none
      succeeded := false
      attempts := []
      phase := .looping
      launches := []
      results := []
      winner := none }

/-- One more attempt in flight. -/
def launch (inner : AsyncTask ω τ α (Except ε ρ)) (s : Engine ω τ ρ ε) : Engine ω τ ρ ε :=
  spawnAttempt inner { s with inFlight := s.inFlight + 1, lastSpawn := s.now }

/-- The join branch with the result of attempt `i`. -/
def joined (s : Engine ω τ ρ ε) (i : ℕ) (result : Except ε ρ) : Engine ω τ ρ ε :=
  let s := { s with inFlight := s.inFlight - 1, attempts := s.attempts.eraseIdx i }
  match result with
  | .ok answer => { s with phase := .accepted answer, winner := some answer }
  | .error error =>
    { s with
      lastError := some error
      retryAt := if s.inFlight = 0 then max s.now (s.lastSpawn + retryFloor) else s.retryAt }

/-- One wake-up: the first ready branch of the biased `select`; none if nothing is ready. -/
def wake (r : HedgedResolver) (inner : AsyncTask ω τ α (Except ε ρ)) (s : Engine ω τ ρ ε) (i : ℕ) :
    Option (Engine ω τ ρ ε) :=
  -- `join_next` on an empty set is ready at once, with `None`
  if 0 < s.inFlight ∧ s.attempts = [] then some { s with phase := .panicked }
  else if 0 < s.inFlight ∧ s.attempts.any fun a ↦ a.status.isFinished then
    match s.attempts[i]? with
    | some ⟨_, .finished result⟩ => some (s.joined i result)
    | _ => none
  else if s.deadline ≤ s.now then some { s with phase := .expired s.lastError s.inFlight }
  else if r.interval ≠ 0 ∧ s.nextHedge ≤ s.now then
    let s := { s with nextHedge := s.nextHedge + r.interval }
    -- the timer moves on even where no attempt may be added
    some (if s.inFlight < r.maxInFlight then s.launch inner else s)
  else if s.inFlight = 0 ∧ s.retryAt ≤ s.now then some (s.launch inner)
  else none

/-- A step of the `i`-th attempt. -/
def progress (inner : AsyncTask ω τ α (Except ε ρ)) (s : Engine ω τ ρ ε) (i : ℕ) (action : α) :
    Option (Engine ω τ ρ ε) :=
  match s.attempts[i]? with
  | some ⟨id, .running task⟩ =>
    (inner.step s.world task action).map fun
      | (world, .inl task) =>
        { s with world := world, attempts := s.attempts.set i ⟨id, .running task⟩ }
      | (world, .inr result) =>
        { s with
          world := world
          attempts := s.attempts.set i ⟨id, .finished result⟩
          results := s.results ++ [(id, result)] }
  | _ => none

/-- The abort of the `i`-th attempt takes effect: its future is dropped. -/
def cancel (inner : AsyncTask ω τ α (Except ε ρ)) (s : Engine ω τ ρ ε) (i : ℕ) :
    Option (Engine ω τ ρ ε) :=
  match s.attempts[i]? with
  | some ⟨id, .running task⟩ =>
    some { s with
      world := inner.cancel s.succeeded s.world task
      attempts := s.attempts.set i ⟨id, .cancelled⟩ }
  | _ => none

/-- The join set has been told to abort. -/
def aborting (s : Engine ω τ ρ ε) : Bool :=
  match s.phase with
  | .stopping _ => true
  | .dropped => true
  | _ => false

/-- The engine as a machine. -/
def machine (r : HedgedResolver) (inner : AsyncTask ω τ α (Except ε ρ)) :
    Machine (Engine ω τ ρ ε) (EngineAction α) where
  step s
    | .tick nanos => some { s with now := s.now + nanos }
    | .progress i action => s.progress inner i action
    | .cancel i => if s.aborting then s.cancel inner i else none
    | .wake i =>
      match s.phase with
      | .looping => s.wake r inner i
      | _ => none
    | .raiseFlag =>
      match s.phase with
      | .accepted answer => some { s with succeeded := true, phase := .flagged answer }
      | _ => none
    | .abortAll =>
      match s.phase with
      | .flagged answer => some { s with phase := .stopping (.ok answer) }
      | .expired lastError inFlight =>
        some { s with phase := .stopping (.expired lastError inFlight) }
      | _ => none
    | .join i =>
      match s.phase, s.attempts[i]? with
      | .stopping _, some a =>
        if a.status.isRunning then none else some { s with attempts := s.attempts.eraseIdx i }
      | _, _ => none
    | .finish =>
      match s.phase, s.attempts with
      | .stopping verdict, [] => some { s with phase := .returned verdict }
      | _, _ => none
    | .drop =>
      match s.phase with
      | .looping => some { s with phase := .dropped }
      | .stopping _ => some { s with phase := .dropped }
      | _ => none

/-! ### What one step can do -/

/-- The join branch is not ready. -/
def NothingToJoin (s : Engine ω τ ρ ε) : Prop :=
  s.inFlight = 0 ∨ ∀ a ∈ s.attempts, a.status.isFinished = false

/-- The enabled steps and their effects. -/
inductive Step (r : HedgedResolver) (inner : AsyncTask ω τ α (Except ε ρ)) (s : Engine ω τ ρ ε) :
    EngineAction α → Engine ω τ ρ ε → Prop
  | tick (nanos : ℕ) : Step r inner s (.tick nanos) { s with now := s.now + nanos }
  | advance {i id : ℕ} {task task' : τ} {action : α} {world : ω}
      (hi : s.attempts[i]? = some ⟨id, .running task⟩)
      (hstep : inner.step s.world task action = some (world, .inl task')) :
      Step r inner s (.progress i action)
        { s with world := world, attempts := s.attempts.set i ⟨id, .running task'⟩ }
  | complete {i id : ℕ} {task : τ} {action : α} {world : ω} {result : Except ε ρ}
      (hi : s.attempts[i]? = some ⟨id, .running task⟩)
      (hstep : inner.step s.world task action = some (world, .inr result)) :
      Step r inner s (.progress i action)
        { s with
          world := world
          attempts := s.attempts.set i ⟨id, .finished result⟩
          results := s.results ++ [(id, result)] }
  | cancel {i id : ℕ} {task : τ} (habort : s.aborting)
      (hi : s.attempts[i]? = some ⟨id, .running task⟩) :
      Step r inner s (.cancel i)
        { s with
          world := inner.cancel s.succeeded s.world task
          attempts := s.attempts.set i ⟨id, .cancelled⟩ }
  | panic {i : ℕ} (hphase : s.phase = .looping) (hflight : 0 < s.inFlight)
      (hempty : s.attempts = []) : Step r inner s (.wake i) { s with phase := .panicked }
  | join {i id : ℕ} {result : Except ε ρ} (hphase : s.phase = .looping) (hflight : 0 < s.inFlight)
      (hi : s.attempts[i]? = some ⟨id, .finished result⟩) :
      Step r inner s (.wake i) (s.joined i result)
  | expire {i : ℕ} (hphase : s.phase = .looping) (hnone : s.NothingToJoin)
      (hdeadline : s.deadline ≤ s.now) :
      Step r inner s (.wake i) { s with phase := .expired s.lastError s.inFlight }
  | hedge {i : ℕ} (hphase : s.phase = .looping) (hbefore : s.now < s.deadline)
      (hinterval : r.interval ≠ 0) (hdue : s.nextHedge ≤ s.now)
      (hroom : s.inFlight < r.maxInFlight) :
      Step r inner s (.wake i) ({ s with nextHedge := s.nextHedge + r.interval }.launch inner)
  | hedgeFull {i : ℕ} (hphase : s.phase = .looping) (hbefore : s.now < s.deadline)
      (hinterval : r.interval ≠ 0) (hdue : s.nextHedge ≤ s.now) :
      Step r inner s (.wake i) { s with nextHedge := s.nextHedge + r.interval }
  | retry {i : ℕ} (hphase : s.phase = .looping) (hbefore : s.now < s.deadline)
      (hzero : s.inFlight = 0) (hdue : s.retryAt ≤ s.now) :
      Step r inner s (.wake i) (s.launch inner)
  | raiseFlag {answer : ρ} (hphase : s.phase = .accepted answer) :
      Step r inner s .raiseFlag { s with succeeded := true, phase := .flagged answer }
  | abortWon {answer : ρ} (hphase : s.phase = .flagged answer) :
      Step r inner s .abortAll { s with phase := .stopping (.ok answer) }
  | abortExpired {lastError : Option ε} {inFlight : ℕ}
      (hphase : s.phase = .expired lastError inFlight) :
      Step r inner s .abortAll { s with phase := .stopping (.expired lastError inFlight) }
  | joinStopped {i : ℕ} {verdict : Verdict ρ ε} {a : Attempt τ ρ ε}
      (hphase : s.phase = .stopping verdict) (hi : s.attempts[i]? = some a)
      (hended : a.status.isRunning = false) :
      Step r inner s (.join i) { s with attempts := s.attempts.eraseIdx i }
  | finish {verdict : Verdict ρ ε} (hphase : s.phase = .stopping verdict)
      (hempty : s.attempts = []) : Step r inner s .finish { s with phase := .returned verdict }
  | drop (hphase : s.phase = .looping ∨ ∃ verdict, s.phase = .stopping verdict) :
      Step r inner s .drop { s with phase := .dropped }

variable {r : HedgedResolver} {inner : AsyncTask ω τ α (Except ε ρ)} {s t : Engine ω τ ρ ε}

theorem step_of_wake {i : ℕ} (hphase : s.phase = .looping) (h : s.wake r inner i = some t) :
    Step r inner s (.wake i) t := by
  unfold wake at h
  split at h
  · rename_i hpanic
    cases h
    exact .panic hphase hpanic.1 hpanic.2
  · split at h
    · rename_i hready
      split at h
      · rename_i id result hi
        cases h
        exact .join hphase hready.1 hi
      · cases h
    · rename_i hready
      have hnone : s.NothingToJoin := by
        rw [not_and_or, Nat.not_lt, Nat.le_zero] at hready
        exact hready.imp_right fun hany ↦ by simpa using hany
      split at h
      · rename_i hdeadline
        cases h
        exact .expire hphase hnone hdeadline
      · rename_i hbefore
        rw [Nat.not_le] at hbefore
        split at h
        · rename_i hhedge
          dsimp only at h
          split at h
          · rename_i hroom
            cases h
            exact .hedge hphase hbefore hhedge.1 hhedge.2 hroom
          · cases h
            exact .hedgeFull hphase hbefore hhedge.1 hhedge.2
        · split at h
          · rename_i hretry
            cases h
            exact .retry hphase hbefore hretry.1 hretry.2
          · cases h

theorem step_of_progress {i : ℕ} {action : α} (h : s.progress inner i action = some t) :
    Step r inner s (.progress i action) t := by
  unfold progress at h
  split at h
  · rename_i id task hi
    obtain ⟨⟨world, task' | result⟩, hstep, rfl⟩ := Option.map_eq_some_iff.1 h
    · exact .advance hi hstep
    · exact .complete hi hstep
  · cases h

/-- **Inversion of the machine.** -/
theorem step_of_machine {a : EngineAction α} (h : (machine r inner).step s a = some t) :
    Step r inner s a t := by
  cases a with
  | tick nanos =>
    cases h
    exact .tick nanos
  | progress i action => exact step_of_progress h
  | cancel i =>
    simp only [machine, cancel] at h
    split at h
    · rename_i habort
      split at h
      · rename_i id task hi
        cases h
        exact .cancel habort hi
      · cases h
    · cases h
  | wake i =>
    simp only [machine] at h
    split at h
    · rename_i hphase
      exact step_of_wake hphase h
    · cases h
  | raiseFlag =>
    simp only [machine] at h
    split at h
    · rename_i answer hphase
      cases h
      exact .raiseFlag hphase
    · cases h
  | abortAll =>
    simp only [machine] at h
    split at h
    · rename_i answer hphase
      cases h
      exact .abortWon hphase
    · rename_i lastError inFlight hphase
      cases h
      exact .abortExpired hphase
    · cases h
  | join i =>
    simp only [machine] at h
    split at h
    · rename_i verdict a hphase hi
      split at h
      · cases h
      · rename_i hended
        cases h
        exact .joinStopped hphase hi (Bool.not_eq_true _ ▸ hended)
    · cases h
  | finish =>
    simp only [machine] at h
    split at h
    · rename_i verdict hphase hempty
      cases h
      exact .finish hphase hempty
    · cases h
  | drop =>
    simp only [machine] at h
    split at h
    · rename_i hphase
      cases h
      exact .drop (Or.inl hphase)
    · rename_i verdict hphase
      cases h
      exact .drop (Or.inr ⟨verdict, hphase⟩)
    · cases h

end Engine

end DnsBuffer
