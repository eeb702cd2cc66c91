import DnsBuffer.Dashboard.Flush
import DnsBuffer.Foundation.Simulation

/-!
# Letting go of the history worker

A `StoreWorker` is the handle of the worker's thread: a recorder, the sender of the shutdown signal,
the join handle, and the receiver of the message the thread sends last. There are three ways to let
go of it. `shutdown` tells the worker to stop and waits for two seconds at most. `detach` and `drop`
hand the join handle to a reaper thread, which keeps the sender of the signal alive, so that the
worker is told nothing and runs until the last recorder is gone.

The destructor runs after `shutdown` and `detach` as well, on what they have left of the handle. It
is the same code, `spawn_reaper`, that finds nothing to do then (`StoreWorker.onDrop_of_empty`).

The thread is the machine `Worker.machine`.
-/

namespace DnsBuffer

/-- `SHUTDOWN_TIMEOUT`, 2 s. -/
def shutdownTimeout : ℕ := 2 * nanosPerSecond

/-- Where the owner of the handle is. -/
inductive WorkerOwner
  | holding
  /-- `stop` waits for the last message of the thread. -/
  | stopping (deadline : Instant)
  | gone
deriving DecidableEq

/-- The reaper thread. -/
inductive Reaper
  | none | waiting | done
deriving DecidableEq

/-- `StoreWorker`: the four fields of the handle, which are taken one by one, around the thread. -/
structure StoreWorker where
  worker : Worker
  /-- The thread has sent its last message. -/
  stoppedSent : Bool
  owner : WorkerOwner
  recorder : Bool
  shutdown : Bool
  thread : Bool
  stopped : Bool
  reaper : Reaper
  /-- How often the thread was joined. -/
  joins : ℕ
deriving DecidableEq

/-- A step of the thread, of its environment, of the owner, or of the reaper. -/
inductive StoreWorkerAction
  /-- A step of the thread, or of the recorders other than the handle's own. -/
  | worker (action : WorkerAction)
  | threadEnds
  /-- `detach`, and whether the reaper thread could be started. -/
  | detach (started : Bool)
  /-- The handle is dropped, and whether the reaper thread could be started. -/
  | drop (started : Bool)
  /-- `shutdown`, up to its wait. -/
  | stop
  /-- The last message of the thread arrives; the thread is joined. -/
  | stopped
  | stopTimeout
  /-- The reaper gets the last message and joins the thread. -/
  | reap
deriving DecidableEq

namespace StoreWorker

/-- `StoreWorker::start`. -/
def start (now cleanupInterval : ℕ) : StoreWorker where
  worker := .start workerCapacity now cleanupInterval
  stoppedSent := false
  owner := .holding
  recorder := true
  shutdown := true
  thread := true
  stopped := true
  reaper := .none
  joins := 0

/-- The recorder of the handle is dropped, if it is still there. -/
def takeRecorder (s : StoreWorker) : StoreWorker :=
  if s.recorder then
    { s with recorder := false, worker := { s.worker with channel := s.worker.channel.dropSender } }
  else s

/-- The signal is sent, or its sender dropped, which is the same to the worker. -/
def signal (s : StoreWorker) : StoreWorker :=
  if s.shutdown then
    { s with shutdown := false, worker := { s.worker with shutdownSent := true } }
  else s

/-- `spawn_reaper`. The sender of the signal is dropped where it is not handed to the reaper. -/
def spawnReaper (s : StoreWorker) (started : Bool) : StoreWorker :=
  if !s.thread then s.signal
  else
    let s := { s with thread := false }
    if !s.stopped then s.signal
    else
      let s := { s with stopped := false }
      if started then { s with shutdown := false, reaper := .waiting } else s.signal

/-- `Drop::drop`. -/
def onDrop (s : StoreWorker) (started : Bool) : StoreWorker :=
  (s.takeRecorder).spawnReaper started

/-- `detach`, and the destructor behind it. The recorder goes to the caller. -/
def detach (s : StoreWorker) (started : Bool) : StoreWorker :=
  (({ s with recorder := false }.spawnReaper started).onDrop started)

/-- `stop` up to its wait. -/
def beginStop (s : StoreWorker) : StoreWorker :=
  let s := s.takeRecorder.signal
  { s with stopped := false, owner := .stopping (s.worker.now + shutdownTimeout) }

/-- The end of `stop`, and the destructor behind it. -/
def endStop (s : StoreWorker) (joined : Bool) : StoreWorker :=
  { ({ s with thread := false, joins := s.joins + (if joined then 1 else 0) }.onDrop true) with
    owner := .gone }

/-- The recorders other than the handle's own. -/
def others (s : StoreWorker) : ℕ := s.worker.channel.senders - (if s.recorder then 1 else 0)

/-- What the thread and the recorders do by themselves. -/
def allows (s : StoreWorker) : WorkerAction → Bool
  | .signalShutdown => false
  | .dropRecorder => 0 < s.others
  | _ => true

/-- The machine of the handle. -/
def machine (cleanupInterval : ℕ) : Machine StoreWorker StoreWorkerAction where
  step s
    | .worker action =>
      if s.allows action then
        ((Worker.machine cleanupInterval).step s.worker action).map fun worker ↦
          { s with worker := worker }
      else none
    | .threadEnds =>
      if s.worker.pc = .exited ∧ s.stoppedSent = false then some { s with stoppedSent := true }
      else none
    | .detach started =>
      if s.owner = .holding then some { s.detach started with owner := .gone } else none
    | .drop started =>
      if s.owner = .holding then some { s.onDrop started with owner := .gone } else none
    | .stop => if s.owner = .holding then some s.beginStop else none
    | .stopped =>
      match s.owner with
      | .stopping _ => if s.stoppedSent then some (s.endStop true) else none
      | _ => none
    | .stopTimeout =>
      match s.owner with
      | .stopping deadline =>
        if deadline ≤ s.worker.now ∧ s.stoppedSent = false then some (s.endStop false) else none
      | _ => none
    | .reap =>
      if s.reaper = .waiting ∧ s.stoppedSent then
        some { s with reaper := .done, joins := s.joins + 1 }
      else none

/-! ### What one step can do -/

/-- The enabled steps and their effects. -/
inductive Step (cleanupInterval : ℕ) (s : StoreWorker) : StoreWorkerAction → StoreWorker → Prop
  | worker {action : WorkerAction} {worker : Worker} (hallows : s.allows action = true)
      (hstep : (Worker.machine cleanupInterval).step s.worker action = some worker) :
      Step cleanupInterval s (.worker action) { s with worker := worker }
  | threadEnds (hpc : s.worker.pc = .exited) :
      Step cleanupInterval s .threadEnds { s with stoppedSent := true }
  | detach (started : Bool) (howner : s.owner = .holding) :
      Step cleanupInterval s (.detach started) { s.detach started with owner := .gone }
  | drop (started : Bool) (howner : s.owner = .holding) :
      Step cleanupInterval s (.drop started) { s.onDrop started with owner := .gone }
  | stop (howner : s.owner = .holding) : Step cleanupInterval s .stop s.beginStop
  | stopped {deadline : Instant} (howner : s.owner = .stopping deadline)
      (hsent : s.stoppedSent = true) : Step cleanupInterval s .stopped (s.endStop true)
  | stopTimeout {deadline : Instant} (howner : s.owner = .stopping deadline)
      (hdue : deadline ≤ s.worker.now) :
      Step cleanupInterval s .stopTimeout (s.endStop false)
  | reap (hreaper : s.reaper = .waiting) (hsent : s.stoppedSent = true) :
      Step cleanupInterval s .reap { s with reaper := .done, joins := s.joins + 1 }

/-- **Inversion of the machine.** -/
theorem step_of_machine {cleanupInterval : ℕ} {s t : StoreWorker} {a : StoreWorkerAction}
    (h : (machine cleanupInterval).step s a = some t) : Step cleanupInterval s a t := by
  cases a with
  | worker action =>
    simp only [machine] at h
    split at h
    · rename_i hallows
      obtain ⟨worker, hstep, rfl⟩ := Option.map_eq_some_iff.1 h
      exact .worker hallows hstep
    · cases h
  | threadEnds =>
    simp only [machine] at h
    split at h
    · rename_i hcond
      cases h
      exact .threadEnds hcond.1
    · cases h
  | detach started =>
    simp only [machine] at h
    split at h
    · rename_i howner
      cases h
      exact .detach started howner
    · cases h
  | drop started =>
    simp only [machine] at h
    split at h
    · rename_i howner
      cases h
      exact .drop started howner
    · cases h
  | stop =>
    simp only [machine] at h
    split at h
    · rename_i howner
      cases h
      exact .stop howner
    · cases h
  | stopped =>
    simp only [machine] at h
    split at h
    · rename_i deadline howner
      split at h
      · rename_i hsent
        cases h
        exact .stopped howner hsent
      · cases h
    · cases h
  | stopTimeout =>
    simp only [machine] at h
    split at h
    · rename_i deadline howner
      split at h
      · rename_i hcond
        cases h
        exact .stopTimeout howner hcond.1
      · cases h
    · cases h
  | reap =>
    simp only [machine] at h
    split at h
    · rename_i hcond
      cases h
      exact .reap hcond.1 hcond.2
    · cases h

/-! ### The handle

Which of its four fields are left, and what has become of the thread, is a matter of where the owner
is. -/

/-- The fields of the handle, the reaper, the number of joins, and whether the worker was told. -/
def Held (s : StoreWorker) : Prop :=
  match s.owner with
  | .holding =>
    (s.recorder = true ∧ s.shutdown = true ∧ s.thread = true ∧ s.stopped = true) ∧
      s.reaper = .none ∧ s.joins = 0 ∧ s.worker.shutdownSent = false
  | .stopping _ =>
    (s.recorder = false ∧ s.shutdown = false ∧ s.thread = true ∧ s.stopped = false) ∧
      s.reaper = .none ∧ s.joins = 0 ∧ s.worker.shutdownSent = true
  | .gone =>
    (s.recorder = false ∧ s.shutdown = false ∧ s.thread = false ∧ s.stopped = false) ∧
      ((s.reaper = .waiting ∧ s.joins = 0 ∧ s.worker.shutdownSent = false) ∨
        (s.reaper = .done ∧ s.joins = 1 ∧ s.worker.shutdownSent = false) ∨
        (s.reaper = .none ∧ s.joins ≤ 1 ∧ s.worker.shutdownSent = true))

structure Inv (s : StoreWorker) : Prop where
  held : s.Held
  /-- The handle's own recorder is one of the senders. -/
  counted : s.recorder = true → s.worker.channel.senders ≠ 0
  ended : s.stoppedSent = true → s.worker.pc = .exited
  joined : s.joins ≠ 0 → s.stoppedSent = true

theorem inv_start (now cleanupInterval : ℕ) : (start now cleanupInterval).Inv where
  held := ⟨⟨rfl, rfl, rfl, rfl⟩, rfl, rfl, rfl⟩
  counted _ := Nat.one_ne_zero
  ended h := by cases h
  joined h := absurd rfl h

/-- What is left of a handle that its owner has let go of: the destructor finds nothing. -/
theorem onDrop_of_empty {s : StoreWorker} (hrecorder : s.recorder = false)
    (hshutdown : s.shutdown = false) (hthread : s.thread = false) (started : Bool) :
    s.onDrop started = s := by
  simp [onDrop, takeRecorder, spawnReaper, signal, hrecorder, hshutdown, hthread]

/-- A whole handle is let go of: the reaper takes over the thread and all it could be told by; or it
could not be started, and the worker is told. -/
theorem detach_of_whole {s : StoreWorker} (hshutdown : s.shutdown = true)
    (hthread : s.thread = true) (hstopped : s.stopped = true) (started : Bool) :
    s.detach started =
      { s with
        recorder := false, shutdown := false, thread := false, stopped := false
        reaper := if started then .waiting else s.reaper
        worker := { s.worker with shutdownSent := s.worker.shutdownSent || !started } } := by
  cases started <;>
    simp [detach, onDrop, takeRecorder, spawnReaper, signal, hshutdown, hthread, hstopped]

theorem onDrop_of_whole {s : StoreWorker} (hrecorder : s.recorder = true)
    (hshutdown : s.shutdown = true) (hthread : s.thread = true) (hstopped : s.stopped = true)
    (started : Bool) : s.onDrop started =
      { s with
        recorder := false, shutdown := false, thread := false, stopped := false
        reaper := if started then .waiting else s.reaper
        worker := { s.worker with
          channel := s.worker.channel.dropSender
          shutdownSent := s.worker.shutdownSent || !started } } := by
  cases started <;>
    simp [onDrop, takeRecorder, spawnReaper, signal, hrecorder, hshutdown, hthread, hstopped]

theorem beginStop_of_whole {s : StoreWorker} (hrecorder : s.recorder = true)
    (hshutdown : s.shutdown = true) : s.beginStop =
      { s with
        recorder := false, shutdown := false, stopped := false
        owner := .stopping (s.worker.now + shutdownTimeout)
        worker :=
          { s.worker with channel := s.worker.channel.dropSender, shutdownSent := true } } := by
  simp [beginStop, takeRecorder, signal, hrecorder, hshutdown]

theorem endStop_of_empty {s : StoreWorker} (hrecorder : s.recorder = false)
    (hshutdown : s.shutdown = false) (joined : Bool) : s.endStop joined =
      { s with
        thread := false, owner := .gone
        joins := s.joins + (if joined then 1 else 0) } := by
  have hdrop := onDrop_of_empty (s := { s with
    thread := false, joins := s.joins + (if joined then 1 else 0) }) hrecorder hshutdown rfl true
  rw [endStop, hdrop]

end StoreWorker

namespace Worker

variable {cleanupInterval : ℕ} {s t : Worker} {a : WorkerAction}

/-- Only the signal tells the worker. -/
theorem shutdownSent_of_step (hstep : (machine cleanupInterval).step s a = some t)
    (hne : a ≠ .signalShutdown) : t.shutdownSent = s.shutdownSent := by
  cases step_of_machine hstep with
  | signalShutdown => exact absurd rfl hne
  | _ => rfl

/-- A worker that has left its loop is not back in it. -/
theorem exited_of_step (hstep : (machine cleanupInterval).step s a = some t)
    (hpc : s.pc = .exited) : t.pc = .exited := by
  cases step_of_machine hstep with
  | tick => exact hpc
  | accept => exact hpc
  | refuse => exact hpc
  | cloneRecorder => exact hpc
  | dropRecorder => exact hpc
  | signalShutdown => exact hpc
  | exit => rfl
  | recvFirst h _ => rcases h with h | h <;> cases hpc.symm.trans h
  | recvMore h _ => cases hpc.symm.trans h
  | recvEnd h _ => rcases h with h | h <;> cases hpc.symm.trans h
  | next h _ => cases hpc.symm.trans h
  | _ =>
    rename_i h
    cases hpc.symm.trans h

/-- The senders of a worker that goes on have not become fewer, unless one is dropped. -/
theorem senders_le_of_step (hstep : (machine cleanupInterval).step s a = some t)
    (hne : a ≠ .dropRecorder) : s.channel.senders ≤ t.channel.senders := by
  cases step_of_machine hstep with
  | @accept event channel hs hsend =>
    obtain ⟨-, rfl⟩ := Channel.trySend_eq_some_iff.1 hsend
    exact le_rfl
  | cloneRecorder => exact Nat.le_succ _
  | dropRecorder => exact absurd rfl hne
  | _ => exact le_rfl

theorem now_le_of_step (hstep : (machine cleanupInterval).step s a = some t) : s.now ≤ t.now := by
  cases step_of_machine hstep with
  | tick nanos => exact Nat.le_add_right _ _
  | _ => exact le_rfl

/-- As long as the worker was not told to stop, it does not close the channel but by leaving, and it
leaves only when there is no recorder left. -/
structure Untold (s : Worker) : Prop where
  waiting : s.shutdownSent = false → s.pc ≠ .draining
  serving : s.shutdownSent = false → s.channel.rxClosed = true → s.channel.senders = 0

theorem untold_start (capacity now cleanupInterval : ℕ) :
    (start capacity now cleanupInterval).Untold :=
  ⟨fun _ ↦ by rintro ⟨⟩, fun _ ↦ by rintro ⟨⟩⟩

theorem Untold.step (h : s.Untold) (hstep : (machine cleanupInterval).step s a = some t) :
    t.Untold := by
  by_cases htake : a = .takeShutdown
  · -- the branch is open to a worker that was told only
    subst htake
    simp only [machine] at hstep
    split at hstep
    · rename_i hcond
      cases hstep
      have htold : s.shutdownSent ≠ false := by simp [hcond.2.1]
      exact ⟨fun hnot ↦ absurd hnot htold, fun hnot ↦ absurd hnot htold⟩
    · cases hstep
  cases step_of_machine hstep with
  | tick => exact ⟨h.waiting, h.serving⟩
  | @accept event channel hs hsend =>
    obtain ⟨-, rfl⟩ := Channel.trySend_eq_some_iff.1 hsend
    exact ⟨h.waiting, h.serving⟩
  | refuse => exact h
  | cloneRecorder hs => exact ⟨h.waiting, fun hsent hclosed ↦ absurd (h.serving hsent hclosed) hs⟩
  | dropRecorder =>
    exact ⟨h.waiting, fun hsent hclosed ↦ by
      rw [Channel.dropSender, h.serving hsent hclosed]⟩
  | signalShutdown => exact ⟨(by rintro ⟨⟩), (by rintro ⟨⟩)⟩
  | recvFirst => exact ⟨fun _ ↦ by unfold collected; split <;> simp, h.serving⟩
  | recvMore => exact ⟨fun _ ↦ by unfold collected; split <;> simp, h.serving⟩
  | takeShutdown => exact absurd rfl htake
  | exit hpc _ hclosed =>
    refine ⟨fun _ ↦ by rintro ⟨⟩, fun hsent _ ↦ ?_⟩
    exact (Channel.isClosed_iff.1 hclosed).elim (h.serving hsent) id
  | _ => exact ⟨fun _ ↦ by rintro ⟨⟩, h.serving⟩

end Worker

namespace StoreWorker

variable {cleanupInterval : ℕ} {s t : StoreWorker} {a : StoreWorkerAction}

/-- The thread and the recorders move on, which is of no concern to the handle. -/
theorem Inv.worker (h : s.Inv) {action : WorkerAction} {worker : Worker}
    (hallows : s.allows action = true)
    (hstep : (Worker.machine cleanupInterval).step s.worker action = some worker) :
    Inv { s with worker := worker } where
  held := by
    have hsent := Worker.shutdownSent_of_step hstep (by rintro rfl; cases hallows)
    have hheld := h.held
    rw [Held] at hheld ⊢
    rw [hsent]
    exact hheld
  counted hrecorder := by
    by_cases hdrop : action = .dropRecorder
    · subst hdrop
      -- the recorder that is dropped is another one
      have hothers : 0 < s.others := of_decide_eq_true hallows
      rw [others, if_pos hrecorder] at hothers
      simp only [Worker.machine] at hstep
      split at hstep
      · cases hstep
      · cases hstep
        exact Nat.ne_of_gt hothers
    · have hle := Worker.senders_le_of_step hstep hdrop
      exact Nat.ne_of_gt (Nat.lt_of_lt_of_le (Nat.pos_of_ne_zero (h.counted hrecorder)) hle)
  ended hsent := Worker.exited_of_step hstep (h.ended hsent)
  joined := h.joined

/-- **One step preserves the invariant.** -/
theorem Inv.step (h : s.Inv) (hstep : (machine cleanupInterval).step s a = some t) : t.Inv := by
  have hheld := h.held
  rw [Held] at hheld
  cases step_of_machine hstep with
  | worker hallows hworker => exact h.worker hallows hworker
  | threadEnds hpc => exact ⟨h.held, h.counted, fun _ ↦ hpc, fun _ ↦ rfl⟩
  | detach started howner =>
    rw [howner] at hheld
    obtain ⟨⟨hrecorder, hshutdown, hthread, hstopped⟩, hreaper, hjoins, hsent⟩ := hheld
    rw [detach_of_whole hshutdown hthread hstopped]
    refine ⟨⟨⟨rfl, rfl, rfl, rfl⟩, ?_⟩, (by rintro ⟨⟩), h.ended, h.joined⟩
    cases started <;> simp [hreaper, hjoins, hsent]
  | drop started howner =>
    rw [howner] at hheld
    obtain ⟨⟨hrecorder, hshutdown, hthread, hstopped⟩, hreaper, hjoins, hsent⟩ := hheld
    rw [onDrop_of_whole hrecorder hshutdown hthread hstopped]
    refine ⟨⟨⟨rfl, rfl, rfl, rfl⟩, ?_⟩, (by rintro ⟨⟩), h.ended, h.joined⟩
    cases started <;> simp [hreaper, hjoins, hsent]
  | stop howner =>
    rw [howner] at hheld
    obtain ⟨⟨hrecorder, hshutdown, hthread, hstopped⟩, hreaper, hjoins, hsent⟩ := hheld
    rw [beginStop_of_whole hrecorder hshutdown]
    exact ⟨⟨⟨rfl, rfl, hthread, rfl⟩, hreaper, hjoins, rfl⟩, (by rintro ⟨⟩), h.ended, h.joined⟩
  | stopped howner hended =>
    rw [howner] at hheld
    obtain ⟨⟨hrecorder, hshutdown, hthread, hstopped⟩, hreaper, hjoins, hsent⟩ := hheld
    rw [endStop_of_empty hrecorder hshutdown]
    refine ⟨⟨⟨hrecorder, hshutdown, rfl, hstopped⟩, Or.inr (Or.inr ⟨hreaper, ?_, hsent⟩)⟩,
      h.counted, h.ended, fun _ ↦ hended⟩
    exact Nat.le_of_eq (by rw [hjoins]; rfl)
  | stopTimeout howner hdue =>
    rw [howner] at hheld
    obtain ⟨⟨hrecorder, hshutdown, hthread, hstopped⟩, hreaper, hjoins, hsent⟩ := hheld
    rw [endStop_of_empty hrecorder hshutdown]
    refine ⟨⟨⟨hrecorder, hshutdown, rfl, hstopped⟩, Or.inr (Or.inr ⟨hreaper, ?_, hsent⟩)⟩,
      h.counted, h.ended, h.joined⟩
    exact Nat.le_succ_of_le (Nat.le_of_eq hjoins)
  | reap hreaper hended =>
    refine ⟨?_, h.counted, h.ended, fun _ ↦ hended⟩
    rw [Held]
    cases howner : s.owner with
    | holding =>
      rw [howner] at hheld
      cases hreaper.symm.trans hheld.2.1
    | stopping deadline =>
      rw [howner] at hheld
      cases hreaper.symm.trans hheld.2.1
    | gone =>
      rw [howner] at hheld
      obtain ⟨hempty, ⟨-, hjoins, hsent⟩ | ⟨hdone, -⟩ | ⟨hnone, -⟩⟩ := hheld
      · exact ⟨hempty, Or.inr (Or.inl ⟨rfl, by rw [hjoins], hsent⟩)⟩
      · cases hreaper.symm.trans hdone
      · cases hreaper.symm.trans hnone

/-- **The thread moves as a worker does.** Letting go of the handle drops its recorder and tells the
worker, each at most once. -/
theorem projects_worker (cleanupInterval : ℕ) :
    (machine cleanupInterval).Projects (Worker.machine cleanupInterval) StoreWorker.worker Inv := by
  intro s a t h hstep
  refine ⟨h.step hstep, ?_⟩
  have hheld := h.held
  rw [Held] at hheld
  -- a recorder is dropped where there is one
  have hdrop : s.recorder = true → (Worker.machine cleanupInterval).step s.worker .dropRecorder =
      some { s.worker with channel := s.worker.channel.dropSender } :=
    fun hrecorder ↦ if_neg (h.counted hrecorder)
  cases step_of_machine hstep with
  | worker _ hworker => exact ⟨[_], Machine.run_cons_eq_some _ |>.2 ⟨_, hworker, rfl⟩⟩
  | threadEnds => exact ⟨[], rfl⟩
  | detach started howner =>
    rw [howner] at hheld
    obtain ⟨⟨hrecorder, hshutdown, hthread, hstopped⟩, -, -, hsent⟩ := hheld
    rw [detach_of_whole hshutdown hthread hstopped]
    cases started with
    | true => exact ⟨[], by simp⟩
    | false => exact ⟨[.signalShutdown], by simp [Machine.run, Worker.machine]⟩
  | drop started howner =>
    rw [howner] at hheld
    obtain ⟨⟨hrecorder, hshutdown, hthread, hstopped⟩, -, -, hsent⟩ := hheld
    rw [onDrop_of_whole hrecorder hshutdown hthread hstopped]
    cases started with
    | true =>
      exact ⟨[.dropRecorder], Machine.run_cons_eq_some _ |>.2 ⟨_, hdrop hrecorder, by simp⟩⟩
    | false =>
      exact ⟨[.dropRecorder, .signalShutdown], Machine.run_cons_eq_some _ |>.2
        ⟨_, hdrop hrecorder, by simp [Machine.run, Worker.machine]⟩⟩
  | stop howner =>
    rw [howner] at hheld
    obtain ⟨⟨hrecorder, hshutdown, hthread, hstopped⟩, -, -, hsent⟩ := hheld
    rw [beginStop_of_whole hrecorder hshutdown]
    exact ⟨[.dropRecorder, .signalShutdown], Machine.run_cons_eq_some _ |>.2
      ⟨_, hdrop hrecorder, by simp [Machine.run, Worker.machine]⟩⟩
  | stopped howner _ =>
    rw [howner] at hheld
    rw [endStop_of_empty hheld.1.1 hheld.1.2.1]
    exact ⟨[], rfl⟩
  | stopTimeout howner _ =>
    rw [howner] at hheld
    rw [endStop_of_empty hheld.1.1 hheld.1.2.1]
    exact ⟨[], rfl⟩
  | reap => exact ⟨[], rfl⟩

end StoreWorker

/-! ### Who tells the worker, and how long its owner waits -/

/-- The ways of letting go that tell the worker: `shutdown`, and the others where the reaper could
not be started. -/
def StoreWorkerAction.signals : StoreWorkerAction → Bool
  | .stop => true
  | .detach started => !started
  | .drop started => !started
  | _ => false

namespace StoreWorker

variable {cleanupInterval : ℕ} {s t : StoreWorker} {a : StoreWorkerAction}

theorem shutdownSent_of_step (h : s.Inv) (hstep : (machine cleanupInterval).step s a = some t) :
    t.worker.shutdownSent = (s.worker.shutdownSent || a.signals) := by
  have hheld := h.held
  rw [Held] at hheld
  cases step_of_machine hstep with
  | worker hallows hworker =>
    have hsent := Worker.shutdownSent_of_step hworker (by rintro rfl; cases hallows)
    exact hsent.trans (Bool.or_false _).symm
  | detach started howner =>
    rw [howner] at hheld
    obtain ⟨⟨hrecorder, hshutdown, hthread, hstopped⟩, -⟩ := hheld
    rw [detach_of_whole hshutdown hthread hstopped]
    rfl
  | drop started howner =>
    rw [howner] at hheld
    obtain ⟨⟨hrecorder, hshutdown, hthread, hstopped⟩, -⟩ := hheld
    rw [onDrop_of_whole hrecorder hshutdown hthread hstopped]
    rfl
  | stop howner =>
    rw [howner] at hheld
    rw [beginStop_of_whole hheld.1.1 hheld.1.2.1]
    exact (Bool.or_true _).symm
  | stopped howner _ =>
    rw [howner] at hheld
    rw [endStop_of_empty hheld.1.1 hheld.1.2.1]
    exact (Bool.or_false _).symm
  | stopTimeout howner _ =>
    rw [howner] at hheld
    rw [endStop_of_empty hheld.1.1 hheld.1.2.1]
    exact (Bool.or_false _).symm
  | _ => exact (Bool.or_false _).symm

/-- The owner called `shutdown` at `since`, and waits or has waited. -/
def Waiting (since : Instant) (s : StoreWorker) : Prop :=
  s.owner = .stopping (since + shutdownTimeout) ∨
    (s.owner = .gone ∧ (s.joins ≠ 0 ∨ since + shutdownTimeout ≤ s.worker.now))

theorem Waiting.step {since : Instant} (hinv : s.Inv) (h : s.Waiting since)
    (hstep : (machine cleanupInterval).step s a = some t) : t.Waiting since := by
  have hheld := hinv.held
  rw [Held] at hheld
  cases step_of_machine hstep with
  | worker _ hworker =>
    refine h.imp id fun ⟨hgone, hjoined⟩ ↦ ⟨hgone, hjoined.imp id fun hdue ↦ ?_⟩
    exact hdue.trans (Worker.now_le_of_step hworker)
  | threadEnds => exact h
  | detach _ howner => rcases h with h | ⟨h, -⟩ <;> cases howner.symm.trans h
  | drop _ howner => rcases h with h | ⟨h, -⟩ <;> cases howner.symm.trans h
  | stop howner => rcases h with h | ⟨h, -⟩ <;> cases howner.symm.trans h
  | stopped howner _ =>
    rw [howner] at hheld
    rw [endStop_of_empty hheld.1.1 hheld.1.2.1]
    exact Or.inr ⟨rfl, Or.inl (Nat.succ_ne_zero _)⟩
  | stopTimeout howner hdue =>
    rw [howner] at hheld
    rw [endStop_of_empty hheld.1.1 hheld.1.2.1]
    refine Or.inr ⟨rfl, Or.inr ?_⟩
    rcases h with h | ⟨h, -⟩
    · cases howner.symm.trans h
      exact hdue
    · cases howner.symm.trans h
  | reap =>
    exact h.imp id fun ⟨hgone, _⟩ ↦ ⟨hgone, Or.inl (Nat.succ_ne_zero _)⟩

theorem joins_le_one (h : s.Inv) : s.joins ≤ 1 := by
  have hheld := h.held
  rw [Held] at hheld
  cases howner : s.owner with
  | holding =>
    rw [howner] at hheld
    exact Nat.le_succ_of_le (Nat.le_of_eq hheld.2.2.1)
  | stopping deadline =>
    rw [howner] at hheld
    exact Nat.le_succ_of_le (Nat.le_of_eq hheld.2.2.1)
  | gone =>
    rw [howner] at hheld
    obtain ⟨-, ⟨-, h0, -⟩ | ⟨-, h1, -⟩ | ⟨-, hle, -⟩⟩ := hheld
    · exact Nat.le_succ_of_le (Nat.le_of_eq h0)
    · exact Nat.le_of_eq h1
    · exact hle

/-- **The worker is let go of once.** In every run, whichever way its owner goes:

* once the owner is gone, the handle is empty and a destructor changes nothing;
* the thread is joined at most once, after the loop has ended, when everything accepted is written
  but for what is still in the channel;
* the worker was told to stop exactly if a step of the run tells it;
* a worker that was not told serves its recorders: it has neither closed the channel nor left its
  loop while there is one;
* an owner who has called `shutdown` is gone only after the thread was joined or two seconds have
  passed. -/
theorem let_go_once (cleanupInterval now : ℕ) (as : List StoreWorkerAction) (s : StoreWorker)
    (hrun : (machine cleanupInterval).run (start now cleanupInterval) as = some s) :
    (s.owner = .gone → s.thread = false ∧ s.stopped = false ∧ ∀ started, s.onDrop started = s) ∧
    (s.joins ≤ 1 ∧ (s.joins = 1 → s.worker.pc = .exited ∧
      s.worker.accepted = s.worker.batches.flatten ++ s.worker.channel.queue)) ∧
    (s.worker.shutdownSent = true ↔ ∃ a ∈ as, a.signals = true) ∧
    (s.worker.shutdownSent = false → s.worker.channel.senders ≠ 0 →
      s.worker.channel.rxClosed = false ∧ s.worker.pc ≠ .exited) ∧
    ∀ before after, as = before ++ .stop :: after →
      ∃ u, (machine cleanupInterval).run (start now cleanupInterval) before = some u ∧
        (s.owner = .gone → s.joins = 1 ∨ u.worker.now + shutdownTimeout ≤ s.worker.now) := by
  have hinv : ∀ {u}, Inv u → ∀ {as t}, (machine cleanupInterval).run u as = some t → t.Inv :=
    fun hu _ _ h ↦ Machine.run_invariant (fun _ _ _ h hstep ↦ h.step hstep) h hu
  have h := hinv (inv_start now cleanupInterval) hrun
  obtain ⟨bs, hworker⟩ := (projects_worker cleanupInterval).run (inv_start now cleanupInterval) hrun
  have hlaw := Worker.inv_of_run hworker
  refine ⟨fun hgone ↦ ?_, ⟨joins_le_one h, fun hjoins ↦ ?_⟩, ?_, fun hsent hsenders ↦ ?_, ?_⟩
  · have hheld := h.held
    rw [Held, hgone] at hheld
    obtain ⟨⟨hrecorder, hshutdown, hthread, hstopped⟩, -⟩ := hheld
    exact ⟨hthread, hstopped, onDrop_of_empty hrecorder hshutdown hthread⟩
  · have hpc := h.ended (h.joined (by rw [hjoins]; exact Nat.one_ne_zero))
    have hconserved := hlaw.conserved
    rw [hpc] at hconserved
    exact ⟨hpc, hconserved⟩
  · refine (Machine.run_history (I := fun as s ↦ s.Inv ∧
      (s.worker.shutdownSent = true ↔ ∃ a ∈ as, a.signals = true)) ?_ hrun
        ⟨inv_start now cleanupInterval, by simp [start, Worker.start]⟩).2
    rintro before u a v ⟨hu, hiff⟩ hstep
    refine ⟨hu.step hstep, ?_⟩
    rw [shutdownSent_of_step hu hstep, Bool.or_eq_true, hiff]
    simp [or_and_right, exists_or]
  · have huntold : s.worker.Untold :=
      Machine.run_invariant (fun _ _ _ h hstep ↦ h.step hstep) hworker (Worker.untold_start _ _ _)
    have hopen : s.worker.channel.rxClosed ≠ true :=
      fun hclosed ↦ hsenders (huntold.serving hsent hclosed)
    exact ⟨Bool.not_eq_true _ ▸ hopen, fun hpc ↦ hopen (hlaw.exited hpc)⟩
  · rintro before after rfl
    obtain ⟨u, hu, hrest⟩ := Machine.exists_run_of_append hrun
    obtain ⟨v, hv, hafter⟩ := Machine.run_cons_eq_some _ |>.1 hrest
    have huinv := hinv (inv_start now cleanupInterval) hu
    have hwaiting : v.Waiting u.worker.now := by
      cases step_of_machine hv with
      | stop howner =>
        have hheld := huinv.held
        rw [Held, howner] at hheld
        rw [beginStop_of_whole hheld.1.1 hheld.1.2.1]
        exact Or.inl rfl
    obtain ⟨-, hwaited⟩ : s.Inv ∧ s.Waiting u.worker.now :=
      Machine.run_invariant (I := fun s ↦ s.Inv ∧ s.Waiting u.worker.now)
        (fun _ _ _ h hstep ↦ ⟨h.1.step hstep, h.2.step h.1 hstep⟩) hafter
        ⟨huinv.step hv, hwaiting⟩
    refine ⟨u, hu, fun hgone ↦ ?_⟩
    rcases hwaited with hstopping | ⟨-, hjoined | hdue⟩
    · cases hgone.symm.trans hstopping
    · exact Or.inl (Nat.le_antisymm (joins_le_one h) (Nat.pos_of_ne_zero hjoined))
    · exact Or.inr hdue

/-- A worker is told to stop with an event in its channel, writes it, and is joined. -/
theorem let_go_once_shutdown :
    let schedule : List StoreWorkerAction := [.worker .cloneRecorder,
      .worker (.tryRecord (Lost.event "a.example")), .stop, .worker .takeShutdown, .worker .recv,
      .worker .recv, .worker .insert, .worker .tidy, .worker .test, .worker .recv, .worker .tidy,
      .worker .test, .threadEnds, .stopped]
    ∃ s, (machine 1000).run (start 0 1000) schedule = some s ∧ s.owner = .gone ∧ s.joins = 1 ∧
      s.worker.accepted = s.worker.batches.flatten ++ s.worker.channel.queue := by
  intro schedule
  have hrun : ((machine 1000).run (start 0 1000) schedule).any
      fun s ↦ s.owner = .gone ∧ s.joins = 1 := by
    decide +kernel
  obtain ⟨s, hs, hprop⟩ := (Option.any_eq_true _ _).1 hrun
  obtain ⟨howner, hjoins⟩ := of_decide_eq_true hprop
  exact ⟨s, hs, howner, hjoins, ((let_go_once 1000 0 schedule s hs).2.1.2 hjoins).2⟩

end StoreWorker

end DnsBuffer
