import DnsBuffer.Dashboard.Lifecycle
import DnsBuffer.Server.Drain

/-!
# The two services and the history worker together

`Runtime::run_until` polls three futures, in this order: the dashboard's HTTP server, the UDP server
and the external shutdown. The first that is ready ends the loop. The services are then told to stop
and are given two and a half seconds; after that, or when they have returned, the worker is shut
down, and `run_until` returns what the first of the futures has come to.

```
selecting --first ready--> waiting --all returned / 2.5 s--> stopping --worker let go--> returned
```

The UDP server is the machine `Server.machine`, whose loop moves only while its future is polled;
its tasks run on their own. A future that is dropped aborts its tasks. The worker is the machine
`StoreWorker.machine`. The two are tied together by what the pipeline records: a step that emits an
event sends it to the worker's channel in the same step.

The dashboard's server is taken as a future that may return at any time, and graceful shutdown as a
reason for it to do so.
-/

namespace DnsBuffer

/-- `SERVICE_SHUTDOWN_TIMEOUT`, 2.5 s. -/
def serviceShutdownTimeout : ℕ := 2500 * 1000000

/-- The outcome of a service: an error is a chain of texts, the outermost first. -/
abbrev Outcome := Except (List Text) Unit

/-- What the UDP server returns, with the context `recv_from` around an error. -/
def ServerResult.toOutcome : ServerResult → Outcome
  | .ok => .ok ()
  | .receiveError text => .error ["recv_from".toList, text]

/-- `service_result`. -/
def serviceResult (result : Outcome) (service : Text) : Outcome :=
  match result with
  | .ok () => .error [service ++ " stopped unexpectedly".toList]
  | .error chain => .error ((service ++ " stopped".toList) :: chain)

/-- The branches of the `select`, in their order. -/
inductive Branch
  | http | dns | external
deriving DecidableEq

/-- The branch that is polled next. -/
def Branch.next : Branch → Branch
  | .http => .dns
  | .dns => .external
  | .external => .http

/-- `First`: the future that was ready first. -/
inductive First
  | http (result : Outcome)
  | dns (result : ServerResult)
  | shutdown (result : Outcome)
deriving DecidableEq

/-- What `run_until` returns. -/
def First.result : First → Outcome
  | .http result => serviceResult result "dashboard HTTP server".toList
  | .dns result => serviceResult result.toOutcome "DNS UDP server".toList
  | .shutdown result => result

/-- Where `run_until` is. -/
inductive RuntimePhase
  | selecting (branch : Branch)
  | waiting (first : First) (deadline : Instant)
  /-- `shutdown_worker`. -/
  | stopping (first : First)
  | returned (first : First) (result : Outcome)
deriving DecidableEq

/-- The future of the UDP server is there and polled. -/
def RuntimePhase.polls : RuntimePhase → Bool
  | .selecting branch => branch = .dns
  | .waiting (.dns _) _ => false
  | .waiting _ _ => true
  | _ => false

/-- The services have been told to stop. -/
def RuntimePhase.told : RuntimePhase → Bool
  | .selecting _ => false
  | _ => true

/-- The futures of the services are gone. -/
def RuntimePhase.dropped : RuntimePhase → Bool
  | .stopping _ => true
  | .returned _ _ => true
  | _ => false

/-- The services, the worker, and where `run_until` is. -/
structure Runtime where
  server : Server
  store : StoreWorker
  /-- What the dashboard's server has returned. -/
  http : Option Outcome
  external : Option Outcome
  phase : RuntimePhase
  /-- The pipeline, and with it its recorder, is gone. -/
  released : Bool
  firstAt : Option Instant
  returnedAt : Option Instant
deriving DecidableEq

inductive RuntimeAction
  | tick (nanos : ℕ)
  /-- A step of the UDP server, of its tasks, or of the pipeline. -/
  | dns (action : ServerAction)
  | store (action : StoreWorkerAction)
  | httpEnds (result : Outcome)
  | externalEnds (result : Outcome)
  /-- The `select` polls a branch. -/
  | poll
  | remainingDone
  | waitTimeout
  | finish
  /-- The last owner of the pipeline drops it. -/
  | release

namespace Runtime

/-- `run_until` begins: the pipeline has a recorder, and the worker one of its own. -/
def start (pipeline : PipelineState) (cleanupInterval : ℕ) : Runtime :=
  let store := StoreWorker.start pipeline.now cleanupInterval
  { server := .start pipeline
    store := { store with
      worker := { store.worker with channel := store.worker.channel.cloneSender } }
    http := none
    external := none
    phase := .selecting .http
    released := false
    firstAt := none
    returnedAt := none }

def now (s : Runtime) : Instant := s.server.pipeline.now

/-- The steps of the UDP server that may happen now: those of its loop while it is polled, its
shutdown when it was told. -/
def allowsDns (s : Runtime) : ServerAction → Bool
  | .pipeline (.tick _) => false
  | .receive _ => s.phase.polls
  | .receiveFails _ => s.phase.polls
  | .shutdown => s.phase.polls && s.phase.told
  | .join _ => s.phase.polls
  | .drained => s.phase.polls
  | .timeout => s.phase.polls
  | _ => true

/-- What the worker's thread does by itself. -/
def isThread : WorkerAction → Bool
  | .recv => true
  | .takeShutdown => true
  | .takeTimer => true
  | .batchTimeout => true
  | .insert => true
  | .tidy => true
  | .reschedule => true
  | .test => true
  | _ => false

/-- The steps around the worker that may happen now: those of its thread, and `shutdown`. -/
def allowsStore (s : Runtime) : StoreWorkerAction → Bool
  | .worker action => isThread action
  | .threadEnds => true
  | .stop => match s.phase with
    | .stopping _ => true
    | _ => false
  | .stopped => true
  | .stopTimeout => true
  | _ => false

/-- The events that the pipeline has emitted go to the channel. -/
def observe (s : Runtime) (server : Server) : Runtime :=
  let events := server.pipeline.events.drop s.server.pipeline.events.length
  { s with
    server := server
    store := { s.store with worker := events.foldl Worker.tryRecord s.store.worker } }

/-- The result of a branch, if its future is ready. -/
def ready (s : Runtime) : Branch → Option First
  | .http => s.http.map .http
  | .dns => match s.server.phase with
    | .returned result => some (.dns result)
    | _ => none
  | .external => s.external.map .shutdown

/-- The services that are left have returned. -/
def done (s : Runtime) : First → Bool
  | .http _ => (s.ready .dns).isSome
  | .dns _ => s.http.isSome
  | .shutdown _ => s.http.isSome && (s.ready .dns).isSome

/-- Both clocks go on. -/
def advance (s : Runtime) (nanos : ℕ) : Runtime :=
  { s with
    server := { s.server with
      pipeline := { s.server.pipeline with now := s.server.pipeline.now + nanos } }
    store := { s.store with worker := { s.store.worker with now := s.store.worker.now + nanos } } }

/-- The future of the UDP server is dropped, and its join set with it. A task that is not in the
join set any more is over, and aborting it does nothing. -/
def dropFuture (s : Server) : Server := { s with handlers := s.handlers.map Handler.abort }

/-- Nobody owns the pipeline any more. -/
def orphaned (s : Runtime) : Bool :=
  (s.phase.dropped || (s.ready .dns).isSome) && s.server.handlers.all (·.stage.isOver)

variable [Lowercase] [Codec] [Display]

/-- `run_until` as a machine. -/
def machine (p : Pipeline) (cleanupInterval : ℕ) : Machine Runtime RuntimeAction where
  step s
    | .tick nanos => some (s.advance nanos)
    | .dns action =>
      if s.allowsDns action then ((Server.machine p).step s.server action).map s.observe else none
    | .store action =>
      if s.allowsStore action then
        ((StoreWorker.machine cleanupInterval).step s.store action).map fun store ↦
          { s with store := store }
      else none
    | .httpEnds result =>
      if s.http = none ∧ s.phase.dropped = false then some { s with http := some result } else none
    | .externalEnds result =>
      if s.external = none ∧ s.phase.told = false then some { s with external := some result }
      else none
    | .poll =>
      match s.phase with
      | .selecting branch =>
        match s.ready branch with
        | some first => some { s with
            phase := .waiting first (s.now + serviceShutdownTimeout)
            firstAt := some s.now }
        | none => some { s with phase := .selecting branch.next }
      | _ => none
    | .remainingDone =>
      match s.phase with
      | .waiting first _ => if s.done first then some { s with phase := .stopping first } else none
      | _ => none
    | .waitTimeout =>
      match s.phase with
      | .waiting first deadline =>
        if deadline ≤ s.now ∧ s.done first = false then
          some { s with phase := .stopping first, server := dropFuture s.server }
        else none
      | _ => none
    | .finish =>
      match s.phase with
      | .stopping first =>
        if s.store.owner = .gone then
          some { s with phase := .returned first first.result, returnedAt := some s.now }
        else none
      | _ => none
    | .release =>
      if s.released = false ∧ s.orphaned then
        some { s with
          released := true
          store := { s.store with worker := { s.store.worker with
            channel := s.store.worker.channel.dropSender } } }
      else none

/-! ### What one step can do -/

/-- The enabled steps and their effects. -/
inductive Step (p : Pipeline) (cleanupInterval : ℕ) (s : Runtime) : RuntimeAction → Runtime → Prop
  | tick (nanos : ℕ) : Step p cleanupInterval s (.tick nanos) (s.advance nanos)
  | dns {action : ServerAction} {server : Server} (hallows : s.allowsDns action = true)
      (hstep : (Server.machine p).step s.server action = some server) :
      Step p cleanupInterval s (.dns action) (s.observe server)
  | store {action : StoreWorkerAction} {store : StoreWorker} (hallows : s.allowsStore action = true)
      (hstep : (StoreWorker.machine cleanupInterval).step s.store action = some store) :
      Step p cleanupInterval s (.store action) { s with store := store }
  | httpEnds (result : Outcome) (hnone : s.http = none) :
      Step p cleanupInterval s (.httpEnds result) { s with http := some result }
  | externalEnds (result : Outcome) (hnone : s.external = none) :
      Step p cleanupInterval s (.externalEnds result) { s with external := some result }
  | first {branch : Branch} {first : First} (hphase : s.phase = .selecting branch)
      (hready : s.ready branch = some first) :
      Step p cleanupInterval s .poll
        { s with
          phase := .waiting first (s.now + serviceShutdownTimeout)
          firstAt := some s.now }
  | pending {branch : Branch} (hphase : s.phase = .selecting branch) :
      Step p cleanupInterval s .poll { s with phase := .selecting branch.next }
  | remainingDone {first : First} {deadline : Instant} (hphase : s.phase = .waiting first deadline)
      (hdone : s.done first = true) :
      Step p cleanupInterval s .remainingDone { s with phase := .stopping first }
  | waitTimeout {first : First} {deadline : Instant} (hphase : s.phase = .waiting first deadline)
      (hdue : deadline ≤ s.now) :
      Step p cleanupInterval s .waitTimeout
        { s with phase := .stopping first, server := dropFuture s.server }
  | finish {first : First} (hphase : s.phase = .stopping first) (howner : s.store.owner = .gone) :
      Step p cleanupInterval s .finish
        { s with phase := .returned first first.result, returnedAt := some s.now }
  | release (hreleased : s.released = false) (horphaned : s.orphaned = true) :
      Step p cleanupInterval s .release
        { s with
          released := true
          store := { s.store with worker := { s.store.worker with
            channel := s.store.worker.channel.dropSender } } }

theorem step_poll {p : Pipeline} {cleanupInterval : ℕ} {s t : Runtime}
    (h : (machine p cleanupInterval).step s .poll = some t) : Step p cleanupInterval s .poll t := by
  simp only [machine] at h
  split at h
  · rename_i branch hphase
    split at h
    · rename_i first hready
      cases h
      exact .first hphase hready
    · cases h
      exact .pending hphase
  · cases h

/-- **Inversion of the machine.** -/
theorem step_of_machine {p : Pipeline} {cleanupInterval : ℕ} {s t : Runtime} {a : RuntimeAction}
    (h : (machine p cleanupInterval).step s a = some t) : Step p cleanupInterval s a t := by
  cases a with
  | tick nanos =>
    cases h
    exact .tick nanos
  | dns action =>
    simp only [machine] at h
    split at h
    · rename_i hallows
      obtain ⟨server, hstep, rfl⟩ := Option.map_eq_some_iff.1 h
      exact .dns hallows hstep
    · cases h
  | store action =>
    simp only [machine] at h
    split at h
    · rename_i hallows
      obtain ⟨store, hstep, rfl⟩ := Option.map_eq_some_iff.1 h
      exact .store hallows hstep
    · cases h
  | httpEnds result =>
    simp only [machine] at h
    split at h
    · rename_i hcond
      cases h
      exact .httpEnds result hcond.1
    · cases h
  | externalEnds result =>
    simp only [machine] at h
    split at h
    · rename_i hcond
      cases h
      exact .externalEnds result hcond.1
    · cases h
  | poll => exact step_poll h
  | remainingDone =>
    simp only [machine] at h
    split at h
    · rename_i first deadline hphase
      split at h
      · rename_i hdone
        cases h
        exact .remainingDone hphase hdone
      · cases h
    · cases h
  | waitTimeout =>
    simp only [machine] at h
    split at h
    · rename_i first deadline hphase
      split at h
      · rename_i hcond
        cases h
        exact .waitTimeout hphase hcond.1
      · cases h
    · cases h
  | finish =>
    simp only [machine] at h
    split at h
    · rename_i first hphase
      split at h
      · rename_i howner
        cases h
        exact .finish hphase howner
      · cases h
    · cases h
  | release =>
    simp only [machine] at h
    split at h
    · rename_i hcond
      cases h
      exact .release hcond.1 hcond.2
    · cases h

end Runtime

end DnsBuffer
