import DnsBuffer.Dashboard.Worker

/-!
# The history worker loses nothing but at its last test

The law behind the worker is conservation: the accepted events are, in order, those of the written
batches, those in the worker's hand, and those still buffered (`Inv.conserved`). So the written ones
are a prefix of the accepted ones in every state, and when the loop ends, with nothing in hand, the
worker has lost exactly what is still buffered.

A batch that is empty because the channel had ended is harmless: a drained channel stays drained
until the test (`Inv.ended`). A batch that is empty because of the cleanup timer is not: the channel
may have been closed, by shutdown or by the last recorder, with events in it. `TimerExit` names this
test, and `flushes_iff` says that nothing else is lost.
-/

namespace DnsBuffer

/-- The events the worker holds between channel and store. -/
def WorkerPc.inHand : WorkerPc → List QueryEvent
  | .collecting events _ => events
  | .flushing events => events
  | _ => []

/-- Why the batch of this round is empty, or that it is not, once it is done with. -/
def WorkerPc.wake? : WorkerPc → Option Wake
  | .tidying wake => some wake
  | .rescheduling wake => some wake
  | .testing wake => some wake
  | _ => none

/-- The sizes a batch in hand can have. -/
def WorkerPc.Sized : WorkerPc → Prop
  | .collecting events _ => 1 ≤ events.length ∧ events.length < maxBatchSize
  | .flushing events => 1 ≤ events.length ∧ events.length ≤ maxBatchSize
  | _ => True

namespace Worker

@[simp] theorem inHand_collected (events : List QueryEvent) (deadline : Instant) :
    (collected events deadline).inHand = events := by
  unfold collected
  split <;> rfl

@[simp] theorem wake?_collected (events : List QueryEvent) (deadline : Instant) :
    (collected events deadline).wake? = none := by
  unfold collected
  split <;> rfl

@[simp] theorem collected_ne_exited (events : List QueryEvent) (deadline : Instant) :
    collected events deadline ≠ .exited := by
  unfold collected
  split <;> simp

theorem sized_collected {events : List QueryEvent} {deadline : Instant} (h : 1 ≤ events.length)
    (hle : events.length ≤ maxBatchSize) : (collected events deadline).Sized := by
  unfold collected
  split
  · rename_i hlt
    exact ⟨h, hlt⟩
  · exact ⟨h, hle⟩

/-- The invariant of the worker. -/
structure Inv (s : Worker) : Prop where
  conserved : s.accepted = s.batches.flatten ++ (s.pc.inHand ++ s.channel.queue)
  batches : ∀ b ∈ s.batches, 1 ≤ b.length ∧ b.length ≤ maxBatchSize
  sized : s.pc.Sized
  ended : s.pc.wake? = some .ended → s.channel.Drained
  exited : s.pc = .exited → s.channel.rxClosed = true

theorem inv_start (capacity now cleanupInterval : ℕ) :
    (start capacity now cleanupInterval).Inv where
  conserved := rfl
  batches := by simp [start]
  sized := trivial
  ended := by simp [start, WorkerPc.wake?]
  exited := by simp [start]

/-- A step of the worker that only moves on, from an empty hand to an empty hand. -/
theorem Inv.move {s : Worker} (h : s.Inv) {pc : WorkerPc} (hhand : pc.inHand = s.pc.inHand)
    (hsized : pc.Sized) (hended : pc.wake? = some .ended → s.channel.Drained)
    (hexited : pc ≠ .exited) : { s with pc := pc }.Inv where
  conserved := by
    rw [h.conserved, hhand]
  batches := h.batches
  sized := hsized
  ended := hended
  exited := fun hpc ↦ absurd hpc hexited

/-- A receive of the worker: the front of the queue goes to the end of the batch in hand. -/
theorem Inv.take {s : Worker} (h : s.Inv) {event : QueryEvent} {rest events : List QueryEvent}
    {deadline : Instant} (hq : s.channel.queue = event :: rest)
    (hevents : events = s.pc.inHand ++ [event]) (hle : events.length ≤ maxBatchSize) :
    { s with
      channel := { s.channel with queue := rest }
      pc := collected events deadline }.Inv where
  conserved := by
    rw [inHand_collected, hevents, h.conserved, hq, List.append_assoc, List.singleton_append]
  batches := h.batches
  sized := sized_collected (by simp [hevents]) hle
  ended := by simp
  exited := fun hpc ↦ absurd hpc (collected_ne_exited _ _)

/-- **One step preserves the invariant.** -/
theorem Inv.step {cleanupInterval : ℕ} {s t : Worker} {a : WorkerAction} (h : s.Inv)
    (hstep : (machine cleanupInterval).step s a = some t) : t.Inv := by
  cases step_of_machine hstep with
  | tick => exact ⟨h.conserved, h.batches, h.sized, h.ended, h.exited⟩
  | @accept event channel hs hsend =>
    obtain ⟨⟨hopen, -⟩, rfl⟩ := Channel.trySend_eq_some_iff.1 hsend
    refine ⟨?_, h.batches, h.sized, fun hwake ↦ ?_, h.exited⟩
    · simp [h.conserved]
    · rw [(h.ended hwake).trySend_eq_none hs event] at hsend
      cases hsend
  | refuse => exact h
  | cloneRecorder hs =>
    exact ⟨h.conserved, h.batches, h.sized, fun hwake ↦ (h.ended hwake).cloneSender hs, h.exited⟩
  | dropRecorder =>
    exact ⟨h.conserved, h.batches, h.sized, fun hwake ↦ (h.ended hwake).dropSender, h.exited⟩
  | signalShutdown => exact ⟨h.conserved, h.batches, h.sized, h.ended, h.exited⟩
  | @recvFirst event rest hpc hq =>
    have hhand : s.pc.inHand = [] := by rcases hpc with hpc | hpc <;> rw [hpc] <;> rfl
    exact h.take hq (by rw [hhand, List.nil_append]) (by simp [maxBatchSize])
  | @recvMore events deadline event rest hpc hq =>
    have hsized := h.sized
    rw [hpc] at hsized
    refine h.take hq (by rw [hpc]; rfl) ?_
    rw [List.length_append]
    exact hsized.2
  | recvEnd hpc hd =>
    refine h.move ?_ trivial (fun _ ↦ hd) (by simp)
    rcases hpc with hpc | hpc <;> rw [hpc] <;> rfl
  | @recvLast events deadline hpc =>
    have hsized := h.sized
    rw [hpc] at hsized
    exact h.move (by rw [hpc]; rfl) ⟨hsized.1, hsized.2.le⟩ (by simp [WorkerPc.wake?]) (by simp)
  | takeShutdown hpc =>
    refine ⟨?_, h.batches, trivial, by simp [WorkerPc.wake?], by simp⟩
    simp [h.conserved, hpc, WorkerPc.inHand]
  | takeTimer hpc =>
    exact h.move (by rw [hpc]; rfl) trivial (by simp [WorkerPc.wake?]) (by simp)
  | @batchTimeout events deadline hpc =>
    have hsized := h.sized
    rw [hpc] at hsized
    exact h.move (by rw [hpc]; rfl) ⟨hsized.1, hsized.2.le⟩ (by simp [WorkerPc.wake?]) (by simp)
  | @insert events hpc =>
    have hsized := h.sized
    rw [hpc] at hsized
    refine ⟨?_, ?_, trivial, by simp [WorkerPc.wake?], by simp⟩
    · simp [h.conserved, hpc, WorkerPc.inHand]
    · rw [List.forall_mem_append, List.forall_mem_singleton]
      exact ⟨h.batches, hsized⟩
  | @cleanup wake hpc =>
    have hmove : Inv { s with pc := .rescheduling wake } := h.move (by rw [hpc]; rfl) trivial
      (fun hwake ↦ h.ended (by rwa [hpc])) (by simp)
    exact ⟨hmove.conserved, hmove.batches, hmove.sized, hmove.ended, hmove.exited⟩
  | @skipCleanup wake hpc =>
    exact h.move (by rw [hpc]; rfl) trivial (fun hwake ↦ h.ended (by rwa [hpc])) (by simp)
  | @reschedule wake hpc =>
    have hmove : Inv { s with pc := .testing wake } := h.move (by rw [hpc]; rfl) trivial
      (fun hwake ↦ h.ended (by rwa [hpc])) (by simp)
    exact ⟨hmove.conserved, hmove.batches, hmove.sized, hmove.ended, hmove.exited⟩
  | @exit wake hpc hwake hclosed =>
    refine ⟨?_, h.batches, trivial, by simp [WorkerPc.wake?], fun _ ↦ rfl⟩
    simp [h.conserved, hpc, WorkerPc.inHand]
  | @next wake hpc hnot =>
    exact h.move (by rw [hpc]; rfl) trivial (by simp [WorkerPc.wake?]) (by simp)

theorem inv_of_run {capacity now cleanupInterval : ℕ} {as : List WorkerAction} {s : Worker}
    (hrun : (machine cleanupInterval).run (start capacity now cleanupInterval) as = some s) :
    s.Inv :=
  Machine.run_invariant (fun _ _ _ h hstep ↦ Inv.step h hstep) hrun
    (inv_start capacity now cleanupInterval)

/-- The test that loses events: the cleanup timer had made the batch empty, and the channel is
closed with events in it. -/
def TimerExit (s : Worker) (a : WorkerAction) : Prop :=
  a = .test ∧ s.pc = .testing .timer ∧ s.channel.isClosed ∧ s.channel.queue ≠ []

/-- If the loop has ended, everything that was accepted has been written. -/
def Flushed (s : Worker) : Prop := s.pc = .exited → s.batches.flatten = s.accepted

/-- What a finished worker has not written is what is still buffered. -/
theorem flushed_iff_of_exited {s : Worker} (h : s.Inv) (hpc : s.pc = .exited) :
    s.Flushed ↔ s.channel.queue = [] := by
  rw [Flushed, h.conserved, hpc]
  simp [WorkerPc.inHand]

theorem flushed_of_not_exited {s : Worker} (hpc : s.pc ≠ .exited) : s.Flushed :=
  fun h ↦ absurd h hpc

/-- **One step** keeps a finished worker flushed exactly if it is not the losing test. -/
theorem step_flushed_iff {cleanupInterval : ℕ} {s t : Worker} {a : WorkerAction} (h : s.Inv)
    (hstep : (machine cleanupInterval).step s a = some t) :
    t.Flushed ↔ s.Flushed ∧ ¬TimerExit s a := by
  have ht := h.step hstep
  -- a step that neither is a test nor ends the loop changes nothing
  have hquiet : a ≠ .test → (t.Flushed ↔ s.Flushed) →
      (t.Flushed ↔ s.Flushed ∧ ¬TimerExit s a) := fun ha hiff ↦
    hiff.trans (and_iff_left fun hexit ↦ ha hexit.1).symm
  have hinside : a ≠ .test → s.pc ≠ .exited → t.pc ≠ .exited →
      (t.Flushed ↔ s.Flushed ∧ ¬TimerExit s a) := fun ha hs ht ↦
    hquiet ha (iff_of_true (flushed_of_not_exited ht) (flushed_of_not_exited hs))
  cases step_of_machine hstep with
  | tick => exact hquiet (by simp) Iff.rfl
  | @accept event channel hs hsend =>
    -- the worker closes the channel when it leaves, so nothing is accepted after that
    have hopen := (Channel.trySend_eq_some_iff.1 hsend).1.1
    have hpc : s.pc ≠ .exited := fun hpc ↦ by simp [h.exited hpc] at hopen
    exact hinside (by simp) hpc hpc
  | refuse => exact hquiet (by simp) Iff.rfl
  | cloneRecorder => exact hquiet (by simp) Iff.rfl
  | dropRecorder => exact hquiet (by simp) Iff.rfl
  | signalShutdown => exact hquiet (by simp) Iff.rfl
  | recvFirst hpc =>
    exact hinside (by simp) (by rcases hpc with hpc | hpc <;> simp [hpc]) (by simp)
  | recvMore hpc => exact hinside (by simp) (by simp [hpc]) (by simp)
  | recvEnd hpc =>
    exact hinside (by simp) (by rcases hpc with hpc | hpc <;> simp [hpc]) (by simp)
  | recvLast hpc => exact hinside (by simp) (by simp [hpc]) (by simp)
  | takeShutdown hpc => exact hinside (by simp) (by simp [hpc]) (by simp)
  | takeTimer hpc => exact hinside (by simp) (by simp [hpc]) (by simp)
  | batchTimeout hpc => exact hinside (by simp) (by simp [hpc]) (by simp)
  | insert hpc => exact hinside (by simp) (by simp [hpc]) (by simp)
  | cleanup hpc => exact hinside (by simp) (by simp [hpc]) (by simp)
  | skipCleanup hpc => exact hinside (by simp) (by simp [hpc]) (by simp)
  | reschedule hpc => exact hinside (by simp) (by simp [hpc]) (by simp)
  | @exit wake hpc hwake hclosed =>
    rw [flushed_iff_of_exited ht rfl, Channel.close_queue,
      and_iff_right (flushed_of_not_exited (by simp [hpc]))]
    constructor
    · exact fun hempty hexit ↦ hexit.2.2.2 hempty
    · intro hnot
      by_contra hne
      cases wake with
      | events => exact hwake rfl
      -- the channel had ended, and nothing can have been sent since
      | ended => exact hne (h.ended (by rw [hpc]; rfl)).empty
      | timer => exact hnot ⟨rfl, hpc, hclosed, hne⟩
  | @next wake hpc hcont =>
    refine iff_of_true (flushed_of_not_exited (by simp))
      ⟨flushed_of_not_exited (by simp [hpc]), ?_⟩
    rintro ⟨-, hpc', hclosed, -⟩
    rw [hpc, WorkerPc.testing.injEq] at hpc'
    exact hcont ⟨by simp [hpc'], hclosed⟩

/-- **What the worker writes.** In every run, for every capacity and cleanup interval: the written
batches are a prefix of the accepted events, each with 1 to 128 events; and a worker whose loop has
ended has written every accepted event if and only if no test of the run was a timer exit. -/
theorem flushes_iff (capacity now cleanupInterval : ℕ) (as : List WorkerAction) (s : Worker)
    (hrun : (machine cleanupInterval).run (start capacity now cleanupInterval) as = some s) :
    s.batches.flatten <+: s.accepted ∧
    (∀ b ∈ s.batches, 1 ≤ b.length ∧ b.length ≤ 128) ∧
    ((s.pc = .exited → s.batches.flatten = s.accepted) ↔
      (machine cleanupInterval).Along (fun s a ↦ ¬TimerExit s a)
        (start capacity now cleanupInterval) as) := by
  have hinv := inv_of_run hrun
  refine ⟨⟨_, hinv.conserved.symm⟩, hinv.batches, ?_⟩
  have hiff := Machine.run_iff_along_under (M := machine cleanupInterval) (I := Inv) (Q := Flushed)
    (E := fun _ _ ↦ True) (fun _ _ _ h _ hstep ↦ Inv.step h hstep)
    (fun _ _ _ h _ hstep ↦ step_flushed_iff h hstep) hrun
    (Machine.along_of_forall (fun _ _ ↦ trivial) _ _) (inv_start capacity now cleanupInterval)
  exact hiff.trans (and_iff_right (flushed_of_not_exited (by simp [start])))

end Worker

/-! ### A lost event

The cleanup falls due in a quiet moment, so the round is woken by the timer with nothing in hand.
While the cleanup runs, an event is recorded and the last recorder dropped. -/

namespace Lost

def event (domain : String) : QueryEvent where
  timestampMs := 0
  domain := domain.toList
  queryType := "A".toList
  responseCode := "NOERROR".toList
  durationMs := 1
  blocked := false
  cacheHit := false
  responseIps := []
  upstream := none

def schedule : List WorkerAction :=
  [.tick 10, .takeTimer, .tryRecord (event "a.example"), .dropRecorder, .tidy, .reschedule, .test]

end Lost

/-- An event accepted before the channel closed is never written. -/
theorem timer_exit_loses_event :
    ∃ s, (Worker.machine 10).run (Worker.start workerCapacity 0 10) Lost.schedule = some s ∧
      s.pc = .exited ∧ s.accepted = [Lost.event "a.example"] ∧ s.batches = [] := by
  have hrun : ((Worker.machine 10).run (Worker.start workerCapacity 0 10) Lost.schedule).any
      fun s ↦ s.pc = .exited ∧ s.accepted = [Lost.event "a.example"] ∧ s.batches = [] := by
    decide +kernel
  obtain ⟨s, hs, hprop⟩ := (Option.any_eq_true _ _).1 hrun
  exact ⟨s, hs, of_decide_eq_true hprop⟩

/-- Without the timer the same event is written before the worker ends. -/
theorem flushes_without_timer :
    let schedule : List WorkerAction := [.tryRecord (Lost.event "a.example"), .dropRecorder, .recv,
      .recv, .insert, .tidy, .test, .recv, .tidy, .test]
    ∃ s, (Worker.machine 10).run (Worker.start workerCapacity 0 10) schedule = some s ∧
      s.pc = .exited ∧
      (Worker.machine 10).Along (fun s a ↦ ¬Worker.TimerExit s a)
        (Worker.start workerCapacity 0 10) schedule := by
  intro schedule
  have hrun : ((Worker.machine 10).run (Worker.start workerCapacity 0 10) schedule).any
      fun s ↦ s.pc = .exited ∧ s.batches.flatten = s.accepted := by
    decide +kernel
  obtain ⟨s, hs, hprop⟩ := (Option.any_eq_true _ _).1 hrun
  obtain ⟨hpc, hflat⟩ := of_decide_eq_true hprop
  exact ⟨s, hs, hpc, (Worker.flushes_iff workerCapacity 0 10 schedule s hs).2.2.1 fun _ ↦ hflat⟩

end DnsBuffer
