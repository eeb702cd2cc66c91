import DnsBuffer.Cache.Model
import DnsBuffer.Dashboard.Event
import DnsBuffer.Foundation.Channel
import DnsBuffer.Foundation.Machine

/-!
# The history worker

`run_store_worker_with_interval`: a loop that takes events off a bounded channel, writes them in
batches, and tidies up now and then. Recorders push events, are cloned and dropped, and the shutdown
signal may come at any moment; the worker and this environment interleave between any two accesses
to the channel. In particular the test that ends the loop looks at the channel later than the
`select` that produced the batch.

```
selecting --recv--> collecting --…--> flushing --insert--> tidying --> testing --> selecting
selecting --shutdown--> draining --recv--> collecting
selecting --recv (end) / draining --recv (end) / timer--> tidying      with an empty batch
testing --> exited      if the batch is empty and the channel is closed
```

The model keeps what the source forgets: why a batch is empty (`Wake`). No step looks at the
difference between the channel's end and the timer; the theorems do.

`accepted` is the sequence of events the channel took, `batches` the calls of `insert_events`, which
are assumed to succeed. The conservation law in `Worker.Inv` ties them together, and
`Worker.flushes_iff` says when the worker leaves nothing behind.
-/

namespace DnsBuffer

/-- `WORKER_CAPACITY`. -/
def workerCapacity : ℕ := 4096

/-- `MAX_BATCH_SIZE`. -/
def maxBatchSize : ℕ := 128

/-- `BATCH_WAIT`, 100 ms. -/
def batchWait : ℕ := 100000000

/-- What the `select` of a round came back with: events, the end of the channel, or the cleanup
timer. The last two both give an empty batch. -/
inductive Wake
  | events | ended | timer
deriving DecidableEq

/-- Where the worker is in its loop. -/
inductive WorkerPc
  | selecting
  /-- The shutdown branch has closed the channel and waits for its first event. -/
  | draining
  | collecting (events : List QueryEvent) (deadline : Instant)
  | flushing (events : List QueryEvent)
  | tidying (wake : Wake)
  | rescheduling (wake : Wake)
  | testing (wake : Wake)
  | exited
deriving DecidableEq

/-- The worker, its channel and its environment. -/
structure Worker where
  now : Instant
  channel : Channel QueryEvent
  shutdownSent : Bool
  shutdownReceived : Bool
  nextCleanup : Instant
  pc : WorkerPc
  accepted : List QueryEvent
  batches : List (List QueryEvent)
  cleanups : List Instant
deriving DecidableEq

/-- The worker before its first round, on a channel of the given capacity with one recorder. -/
def Worker.start (capacity now cleanupInterval : ℕ) : Worker where
  now := now
  channel := ⟨capacity, [], 1, false⟩
  shutdownSent := false
  shutdownReceived := false
  nextCleanup := now + cleanupInterval
  pc := .selecting
  accepted := []
  batches := []
  cleanups := []

/-- The steps of the environment and of the worker. -/
inductive WorkerAction
  | tick (nanos : ℕ)
  /-- `Recorder::try_record`. -/
  | tryRecord (event : QueryEvent)
  | cloneRecorder
  | dropRecorder
  /-- The shutdown signal is sent, or its sender dropped. -/
  | signalShutdown
  /-- A receive completes: the first branch of the `select`, or a later `recv().await`. -/
  | recv
  /-- The `select` takes its shutdown branch. -/
  | takeShutdown
  /-- The `select` takes its timer branch. -/
  | takeTimer
  /-- The wait for more events exceeds the deadline of the batch. -/
  | batchTimeout
  /-- `insert_events`. -/
  | insert
  /-- The cleanup, when it is due. -/
  | tidy
  /-- The next cleanup is scheduled. -/
  | reschedule
  /-- The test that ends the loop. -/
  | test
deriving DecidableEq

namespace Worker

/-- The batch after one more event: full ones are written. -/
def collected (events : List QueryEvent) (deadline : Instant) : WorkerPc :=
  if events.length < maxBatchSize then .collecting events deadline else .flushing events

/-- `Recorder::try_record`: an event that the channel refuses is dropped. -/
def tryRecord (s : Worker) (event : QueryEvent) : Worker :=
  match s.channel.trySend event with
  | some channel => { s with channel := channel, accepted := s.accepted ++ [event] }
  | none => s

/-- Where a completed receive leads from where the worker is. -/
def received (s : Worker) : Option QueryEvent → Option WorkerPc
  | some event =>
    match s.pc with
    -- the deadline of the batch counts from its first event
    | .selecting => some (collected [event] (s.now + batchWait))
    | .draining => some (collected [event] (s.now + batchWait))
    | .collecting events deadline => some (collected (events ++ [event]) deadline)
    | _ => none
  | none =>
    match s.pc with
    | .selecting => some (.tidying .ended)
    | .draining => some (.tidying .ended)
    | .collecting events _ => some (.flushing events)
    | _ => none

/-- The machine of the worker and its environment. -/
def machine (cleanupInterval : ℕ) : Machine Worker WorkerAction where
  step s
    | .tick nanos => some { s with now := s.now + nanos }
    | .tryRecord event => if s.channel.senders = 0 then none else some (s.tryRecord event)
    | .cloneRecorder =>
      if s.channel.senders = 0 then none else some { s with channel := s.channel.cloneSender }
    | .dropRecorder =>
      if s.channel.senders = 0 then none else some { s with channel := s.channel.dropSender }
    | .signalShutdown => some { s with shutdownSent := true }
    | .recv => do
      let (event, channel) ← s.channel.recv
      let pc ← s.received event
      return { s with channel := channel, pc := pc }
    | .takeShutdown =>
      if s.pc = .selecting ∧ s.shutdownSent ∧ ¬s.shutdownReceived then
        some { s with shutdownReceived := true, channel := s.channel.close, pc := .draining }
      else none
    -- no look at the channel: events may be waiting when the timer branch is taken
    | .takeTimer =>
      if s.pc = .selecting ∧ s.nextCleanup ≤ s.now then some { s with pc := .tidying .timer }
      else none
    | .batchTimeout =>
      match s.pc with
      | .collecting events deadline =>
        if deadline ≤ s.now then some { s with pc := .flushing events } else none
      | _ => none
    | .insert =>
      match s.pc with
      | .flushing events => some { s with batches := s.batches ++ [events], pc := .tidying .events }
      | _ => none
    | .tidy =>
      match s.pc with
      | .tidying wake =>
        if s.nextCleanup ≤ s.now then
          some { s with cleanups := s.cleanups ++ [s.now], pc := .rescheduling wake }
        else some { s with pc := .testing wake }
      | _ => none
    | .reschedule =>
      match s.pc with
      | .rescheduling wake =>
        some { s with nextCleanup := s.now + cleanupInterval, pc := .testing wake }
      | _ => none
    | .test =>
      match s.pc with
      | .testing wake =>
        if wake ≠ .events ∧ s.channel.isClosed then
          -- leaving the loop drops the receiver
          some { s with channel := s.channel.close, pc := .exited }
        else some { s with pc := .selecting }
      | _ => none

/-! ### What one step can do -/

/-- The enabled steps and their effects. -/
inductive Step (cleanupInterval : ℕ) (s : Worker) : WorkerAction → Worker → Prop
  | tick (nanos : ℕ) : Step cleanupInterval s (.tick nanos) { s with now := s.now + nanos }
  | accept {event : QueryEvent} {channel : Channel QueryEvent} (hs : s.channel.senders ≠ 0)
      (h : s.channel.trySend event = some channel) :
      Step cleanupInterval s (.tryRecord event)
        { s with channel := channel, accepted := s.accepted ++ [event] }
  | refuse {event : QueryEvent} (h : s.channel.trySend event = none) :
      Step cleanupInterval s (.tryRecord event) s
  | cloneRecorder (hs : s.channel.senders ≠ 0) :
      Step cleanupInterval s .cloneRecorder { s with channel := s.channel.cloneSender }
  | dropRecorder : Step cleanupInterval s .dropRecorder { s with channel := s.channel.dropSender }
  | signalShutdown : Step cleanupInterval s .signalShutdown { s with shutdownSent := true }
  | recvFirst {event : QueryEvent} {rest : List QueryEvent}
      (hpc : s.pc = .selecting ∨ s.pc = .draining) (hq : s.channel.queue = event :: rest) :
      Step cleanupInterval s .recv
        { s with
          channel := { s.channel with queue := rest }
          pc := collected [event] (s.now + batchWait) }
  | recvMore {events : List QueryEvent} {deadline : Instant} {event : QueryEvent}
      {rest : List QueryEvent} (hpc : s.pc = .collecting events deadline)
      (hq : s.channel.queue = event :: rest) :
      Step cleanupInterval s .recv
        { s with
          channel := { s.channel with queue := rest }
          pc := collected (events ++ [event]) deadline }
  | recvEnd (hpc : s.pc = .selecting ∨ s.pc = .draining) (hd : s.channel.Drained) :
      Step cleanupInterval s .recv { s with pc := .tidying .ended }
  | recvLast {events : List QueryEvent} {deadline : Instant}
      (hpc : s.pc = .collecting events deadline) :
      Step cleanupInterval s .recv { s with pc := .flushing events }
  | takeShutdown (hpc : s.pc = .selecting) :
      Step cleanupInterval s .takeShutdown
        { s with shutdownReceived := true, channel := s.channel.close, pc := .draining }
  | takeTimer (hpc : s.pc = .selecting) :
      Step cleanupInterval s .takeTimer { s with pc := .tidying .timer }
  | batchTimeout {events : List QueryEvent} {deadline : Instant}
      (hpc : s.pc = .collecting events deadline) :
      Step cleanupInterval s .batchTimeout { s with pc := .flushing events }
  | insert {events : List QueryEvent} (hpc : s.pc = .flushing events) :
      Step cleanupInterval s .insert
        { s with batches := s.batches ++ [events], pc := .tidying .events }
  | cleanup {wake : Wake} (hpc : s.pc = .tidying wake) :
      Step cleanupInterval s .tidy
        { s with cleanups := s.cleanups ++ [s.now], pc := .rescheduling wake }
  | skipCleanup {wake : Wake} (hpc : s.pc = .tidying wake) :
      Step cleanupInterval s .tidy { s with pc := .testing wake }
  | reschedule {wake : Wake} (hpc : s.pc = .rescheduling wake) :
      Step cleanupInterval s .reschedule
        { s with nextCleanup := s.now + cleanupInterval, pc := .testing wake }
  | exit {wake : Wake} (hpc : s.pc = .testing wake) (hwake : wake ≠ .events)
      (hclosed : s.channel.isClosed) :
      Step cleanupInterval s .test { s with channel := s.channel.close, pc := .exited }
  | next {wake : Wake} (hpc : s.pc = .testing wake)
      (hnot : ¬(wake ≠ .events ∧ s.channel.isClosed)) :
      Step cleanupInterval s .test { s with pc := .selecting }

theorem step_recv {cleanupInterval : ℕ} {s t : Worker}
    (h : (machine cleanupInterval).step s .recv = some t) : Step cleanupInterval s .recv t := by
  simp only [machine, Option.bind_eq_bind, Option.bind_eq_some_iff] at h
  obtain ⟨⟨event, channel⟩, hrecv, pc, hpc, ht⟩ := h
  cases ht
  rcases event with - | event
  · obtain ⟨hclosed, hempty, rfl⟩ := Channel.recv_eq_end_iff.1 hrecv
    simp only [received] at hpc
    split at hpc
    · rename_i hat
      cases hpc
      exact .recvEnd (Or.inl hat) ⟨hclosed, hempty⟩
    · rename_i hat
      cases hpc
      exact .recvEnd (Or.inr hat) ⟨hclosed, hempty⟩
    · rename_i events deadline hat
      cases hpc
      exact .recvLast hat
    · cases hpc
  · obtain ⟨rest, hq, rfl⟩ := Channel.recv_eq_some_iff.1 hrecv
    simp only [received] at hpc
    split at hpc
    · rename_i hat
      cases hpc
      exact .recvFirst (Or.inl hat) hq
    · rename_i hat
      cases hpc
      exact .recvFirst (Or.inr hat) hq
    · rename_i events deadline hat
      cases hpc
      exact .recvMore hat hq
    · cases hpc

/-- **Inversion of the machine.** -/
theorem step_of_machine {cleanupInterval : ℕ} {s t : Worker} {a : WorkerAction}
    (h : (machine cleanupInterval).step s a = some t) : Step cleanupInterval s a t := by
  cases a with
  | tick nanos =>
    cases h
    exact .tick nanos
  | tryRecord event =>
    simp only [machine, tryRecord] at h
    split at h
    · cases h
    · rename_i hs
      split at h
      · rename_i channel hsend
        cases h
        exact .accept hs hsend
      · rename_i hsend
        cases h
        exact .refuse hsend
  | cloneRecorder =>
    simp only [machine] at h
    split at h
    · cases h
    · rename_i hs
      cases h
      exact .cloneRecorder hs
  | dropRecorder =>
    simp only [machine] at h
    split at h
    · cases h
    · cases h
      exact .dropRecorder
  | signalShutdown =>
    cases h
    exact .signalShutdown
  | recv => exact step_recv h
  | takeShutdown =>
    simp only [machine] at h
    split at h
    · rename_i hcond
      cases h
      exact .takeShutdown hcond.1
    · cases h
  | takeTimer =>
    simp only [machine] at h
    split at h
    · rename_i hcond
      cases h
      exact .takeTimer hcond.1
    · cases h
  | batchTimeout =>
    simp only [machine] at h
    split at h
    · rename_i events deadline hpc
      split at h
      · cases h
        exact .batchTimeout hpc
      · cases h
    · cases h
  | insert =>
    simp only [machine] at h
    split at h
    · rename_i events hpc
      cases h
      exact .insert hpc
    · cases h
  | tidy =>
    simp only [machine] at h
    split at h
    · rename_i wake hpc
      split at h
      · cases h
        exact .cleanup hpc
      · cases h
        exact .skipCleanup hpc
    · cases h
  | reschedule =>
    simp only [machine] at h
    split at h
    · rename_i wake hpc
      cases h
      exact .reschedule hpc
    · cases h
  | test =>
    simp only [machine] at h
    split at h
    · rename_i wake hpc
      split at h
      · rename_i hcond
        cases h
        exact .exit hpc hcond.1 hcond.2
      · rename_i hcond
        cases h
        exact .next hpc hcond
    · cases h

end Worker

end DnsBuffer
