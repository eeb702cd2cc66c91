import DnsBuffer.Runtime.Order
import DnsBuffer.Server.Replies

/-!
# The history survives a shutdown

The pipeline emits an event for each query it answers, up to its last task. If timers are served in
time, the UDP server has drained its tasks half a second before the runtime loses its patience with
it: two seconds against two and a half. So the worker is told to stop when no task is left
(`Runtime.Timely.quiet`), its channel is open whenever an event is emitted, and the only reason for
an event to be missing from the history is that the channel was full (`Runtime.Drops`).

The same constants bound the shutdown as a whole: two and a half seconds for the services and two
for the worker.
-/

namespace DnsBuffer

namespace Server

/-- Nothing to be served in time but the passing of time. -/
theorem prompt_of_ne_tick {s : Server} {a : ServerAction}
    (hne : ∀ nanos, a ≠ .pipeline (.tick nanos)) : s.Prompt a := by
  rw [Prompt]
  · trivial
  · exact hne

variable [Lowercase] [Codec] [Display] {p : Pipeline} {s t : Server} {a : ServerAction}

theorem receiving_of_step (hstep : (machine p).step s a = some t) (h : t.phase = .receiving) :
    s.phase = .receiving := by
  cases step_of_machine hstep with
  | receiveFails _ hphase => exact hphase
  | shutdown hphase => exact hphase
  | drained => cases h
  | timeout => cases h
  | _ => exact h

/-- The loop ends now, or it had ended already. -/
theorem stoppedAt_of_step (hstep : (machine p).step s a = some t) {stoppedAt : Instant}
    (h : t.stoppedAt = some stoppedAt) : s.stoppedAt = some stoppedAt ∨
      (s.phase = .receiving ∧ stoppedAt = s.pipeline.now) := by
  cases step_of_machine hstep with
  | receiveFails _ hphase => exact Or.inr ⟨hphase, (Option.some.inj h).symm⟩
  | shutdown hphase => exact Or.inr ⟨hphase, (Option.some.inj h).symm⟩
  | _ => exact Or.inl h

end Server

namespace Runtime

/-- The time a shutdown may take, 4.5 s. -/
def shutdownBudget : ℕ := serviceShutdownTimeout + shutdownTimeout

/-- Timers are served in time: the clock passes no deadline that someone waits for, and does not
move while a future that has been woken is still to be polled. -/
def Prompt (s : Runtime) : RuntimeAction → Prop
  | .tick nanos => s.server.Prompt (.pipeline (.tick nanos)) ∧
    match s.phase with
    | .selecting _ => True
    | .waiting _ deadline => s.now + nanos ≤ deadline ∧ (s.server.phase = .receiving → nanos = 0)
    | .stopping _ =>
      match s.store.owner with
      | .holding => nanos = 0
      | .stopping deadline => s.now + nanos ≤ deadline
      | .gone => nanos = 0
    | .returned _ _ => True
  | _ => True

/-- What the clock says where `run_until` is. -/
def Timed (s : Runtime) : Prop :=
  match s.phase with
  | .selecting _ => s.firstAt = none
  | .waiting _ _ => ∃ firstAt, s.firstAt = some firstAt ∧
      s.now ≤ firstAt + serviceShutdownTimeout ∧ (s.server.phase = .receiving → s.now = firstAt) ∧
      ∀ stoppedAt, s.server.stoppedAt = some stoppedAt → stoppedAt ≤ firstAt
  | .stopping _ => (∃ result, s.server.phase = .returned result) ∧
      ∃ firstAt, s.firstAt = some firstAt ∧
        match s.store.owner with
        | .holding => s.now ≤ firstAt + serviceShutdownTimeout
        | .stopping deadline => s.now ≤ deadline ∧ deadline ≤ firstAt + shutdownBudget
        | .gone => s.now ≤ firstAt + shutdownBudget
  | .returned _ _ => (∃ result, s.server.phase = .returned result) ∧
      ∃ firstAt returnedAt, s.firstAt = some firstAt ∧ s.returnedAt = some returnedAt ∧
        returnedAt ≤ firstAt + shutdownBudget

structure Timely (s : Runtime) : Prop where
  server : s.server.Inv
  inTime : s.server.InTime
  past : ∀ stoppedAt, s.server.stoppedAt = some stoppedAt → stoppedAt ≤ s.now
  timed : s.Timed

theorem timely_start (pipeline : PipelineState) (cleanupInterval : ℕ) :
    (start pipeline cleanupInterval).Timely where
  server := Server.inv_start pipeline
  inTime := trivial
  past stoppedAt h := by cases h
  timed := rfl

/-- The deadline of the wait. -/
theorem Inv.deadline_eq {s : Runtime} (h : s.Inv) {first : First} {deadline firstAt : Instant}
    (hphase : s.phase = .waiting first deadline) (hat : s.firstAt = some firstAt) :
    firstAt + serviceShutdownTimeout = deadline := by
  have hordered := h.ordered
  rw [Ordered, hphase, hat] at hordered
  exact Option.some.inj hordered.2.2

/-- Half a second is left: a server that is waited for has returned when its time is over. -/
theorem Timely.returned_of_due {s : Runtime} (h : s.Timely) {first : First} {deadline : Instant}
    (hinv : s.Inv) (hphase : s.phase = .waiting first deadline) (hdue : deadline ≤ s.now) :
    ∃ result, s.server.phase = .returned result := by
  have htimed := h.timed
  rw [Timed, hphase] at htimed
  obtain ⟨firstAt, hat, -, hreceiving, hstopped⟩ := htimed
  rw [← hinv.deadline_eq hphase hat] at hdue
  have hlt : firstAt + drainTimeout < s.now :=
    Nat.lt_of_lt_of_le (Nat.add_lt_add_left (by decide) firstAt) hdue
  refine h.server.returned_of_late h.inTime (fun hnot ↦ ?_) fun stoppedAt hs ↦ ?_
  · rw [hreceiving hnot] at hlt
    exact Nat.not_lt.2 (Nat.le_add_right _ _) hlt
  · exact Nat.lt_of_le_of_lt (Nat.add_le_add_right (hstopped stoppedAt hs) _) hlt

/-- The worker is told when no task is left. -/
theorem Timely.quiet {s : Runtime} (h : s.Timely) (hdropped : s.phase.dropped = true) :
    s.server.Quiet := by
  have htimed := h.timed
  rw [Timed] at htimed
  cases hphase : s.phase with
  | selecting branch =>
    rw [hphase] at hdropped
    cases hdropped
  | waiting first deadline =>
    rw [hphase] at hdropped
    cases hdropped
  | stopping first =>
    rw [hphase] at htimed
    obtain ⟨⟨result, hreturned⟩, -⟩ := htimed
    exact h.server.quiet hreturned
  | returned first result =>
    rw [hphase] at htimed
    obtain ⟨⟨result, hreturned⟩, -⟩ := htimed
    exact h.server.quiet hreturned

/-- A shutdown that is served in time is over when its time is. -/
theorem Timely.returned_of_late {s : Runtime} (h : s.Timely) {firstAt : Instant}
    (hat : s.firstAt = some firstAt) (hlate : firstAt + shutdownBudget < s.now) :
    ∃ first result, s.phase = .returned first result := by
  have htimed := h.timed
  have hshort : firstAt + serviceShutdownTimeout ≤ firstAt + shutdownBudget :=
    Nat.add_le_add_left (Nat.le_add_right _ _) firstAt
  rw [Timed, hat] at htimed
  cases hphase : s.phase with
  | selecting branch =>
    rw [hphase] at htimed
    cases htimed
  | waiting first deadline =>
    rw [hphase] at htimed
    obtain ⟨_, ⟨⟩, hle, -⟩ := htimed
    exact absurd (hle.trans hshort) (not_le.2 hlate)
  | stopping first =>
    rw [hphase] at htimed
    obtain ⟨-, _, ⟨⟩, htime⟩ := htimed
    refine absurd ?_ (not_le.2 hlate)
    cases howner : s.store.owner with
    | holding =>
      simp only [howner] at htime
      exact htime.trans hshort
    | stopping deadline =>
      simp only [howner] at htime
      exact htime.1.trans htime.2
    | gone =>
      simp only [howner] at htime
      exact htime
  | returned first result => exact ⟨first, result, rfl⟩

section Steps

variable [Lowercase] [Codec] [Display] {p : Pipeline} {cleanupInterval : ℕ} {s t : Runtime}

omit [Lowercase] [Codec] [Display] in
theorem Timely.tick (h : s.Timely) (hinv : s.Inv) {nanos : ℕ} (hprompt : s.Prompt (.tick nanos)) :
    (s.advance nanos).Timely := by
  refine ⟨h.server.setPipeline (Nat.le_add_right _ _), h.inTime.tick hprompt.1,
    fun stoppedAt hs ↦ (h.past stoppedAt hs).trans (Nat.le_add_right _ _), ?_⟩
  have htimed := h.timed
  have hsame : (s.advance nanos).phase = s.phase := rfl
  obtain ⟨-, hprompt⟩ := hprompt
  rw [Timed] at htimed ⊢
  rw [hsame]
  cases hphase : s.phase with
  | selecting branch =>
    rw [hphase] at htimed
    exact htimed
  | waiting first deadline =>
    rw [hphase] at htimed hprompt
    obtain ⟨firstAt, hat, -, hreceiving, hstopped⟩ := htimed
    refine ⟨firstAt, hat, ?_, fun hr ↦ ?_, hstopped⟩
    · rw [hinv.deadline_eq hphase hat]
      exact hprompt.1
    · show s.now + nanos = firstAt
      rw [hprompt.2 hr, Nat.add_zero, hreceiving hr]
  | stopping first =>
    rw [hphase] at htimed hprompt
    obtain ⟨hreturned, firstAt, hat, htime⟩ := htimed
    refine ⟨hreturned, firstAt, hat, ?_⟩
    show match s.store.owner with
      | .holding => s.now + nanos ≤ firstAt + serviceShutdownTimeout
      | .stopping deadline => s.now + nanos ≤ deadline ∧ deadline ≤ firstAt + shutdownBudget
      | .gone => s.now + nanos ≤ firstAt + shutdownBudget
    cases howner : s.store.owner with
    | holding =>
      simp only [howner] at htime hprompt
      rw [hprompt]
      exact htime
    | stopping deadline =>
      simp only [howner] at htime hprompt
      exact ⟨hprompt, htime.2⟩
    | gone =>
      simp only [howner] at htime hprompt
      rw [hprompt]
      exact htime
  | returned first result =>
    rw [hphase] at htimed
    exact htimed

/-- A step of the UDP server. -/
theorem Timely.dns (h : s.Timely) {action : ServerAction} {server : Server}
    (hallows : s.allowsDns action = true)
    (hstep : (Server.machine p).step s.server action = some server) :
    (s.observe server).Timely := by
  have hne : ∀ nanos, action ≠ .pipeline (.tick nanos) := by
    rintro _ rfl
    cases hallows
  have hclock : server.pipeline.now = s.now := Server.clock_of_step hstep hne
  have hreturned : (∃ result, s.server.phase = .returned result) →
      ∃ result, server.phase = .returned result := fun ⟨result, hphase⟩ ↦
    ⟨result, Server.returned_of_step hstep hphase⟩
  refine ⟨h.server.step hstep, h.inTime.step h.server (Server.prompt_of_ne_tick hne) hstep,
    fun stoppedAt hs ↦ ?_, ?_⟩
  · show stoppedAt ≤ server.pipeline.now
    rw [hclock]
    obtain hold | ⟨-, rfl⟩ := Server.stoppedAt_of_step hstep hs
    · exact h.past stoppedAt hold
    · exact le_rfl
  · have htimed := h.timed
    have hsame : (s.observe server).phase = s.phase := rfl
    have hnow : (s.observe server).now = s.now := hclock
    rw [Timed] at htimed ⊢
    rw [hsame, hnow]
    cases hphase : s.phase with
    | selecting branch =>
      rw [hphase] at htimed
      exact htimed
    | waiting first deadline =>
      rw [hphase] at htimed
      obtain ⟨firstAt, hat, hle, hreceiving, hstopped⟩ := htimed
      refine ⟨firstAt, hat, hle, fun hr ↦ hreceiving (Server.receiving_of_step hstep hr),
        fun stoppedAt hs ↦ ?_⟩
      -- a loop that ends now ends when it is told, without delay
      obtain hold | ⟨hr, rfl⟩ := Server.stoppedAt_of_step hstep hs
      · exact hstopped stoppedAt hold
      · exact (hreceiving hr).le
    | stopping first =>
      rw [hphase] at htimed
      exact htimed.imp hreturned id
    | returned first result =>
      rw [hphase] at htimed
      exact htimed.imp hreturned id

omit [Lowercase] [Codec] [Display] in
/-- A step of the worker, or of letting go of it. -/
theorem Timely.setStore (h : s.Timely) (hinv : s.Inv) {action : StoreWorkerAction}
    {store : StoreWorker} (hallows : s.allowsStore action = true)
    (hstep : (StoreWorker.machine cleanupInterval).step s.store action = some store) :
    Timely { s with store := store } := by
  refine ⟨h.server, h.inTime, h.past, ?_⟩
  have htimed := h.timed
  rw [Timed] at htimed ⊢
  have hsame : Runtime.phase { s with store := store } = s.phase := rfl
  rw [hsame]
  cases hphase : s.phase with
  | selecting branch =>
    rw [hphase] at htimed
    exact htimed
  | waiting first deadline =>
    rw [hphase] at htimed
    exact htimed
  | returned first result =>
    rw [hphase] at htimed
    exact htimed
  | stopping first =>
    rw [hphase] at htimed
    obtain ⟨hreturned, firstAt, hat, htime⟩ := htimed
    refine ⟨hreturned, firstAt, hat, ?_⟩
    have hheld := hinv.store.held
    rw [StoreWorker.Held] at hheld
    cases StoreWorker.step_of_machine hstep with
    | worker => exact htime
    | threadEnds => exact htime
    | detach => cases hallows
    | drop => cases hallows
    | stop howner =>
      rw [howner] at hheld
      rw [StoreWorker.beginStop_of_whole hheld.1.1 hheld.1.2.1]
      simp only [howner] at htime
      show s.now ≤ s.store.worker.now + shutdownTimeout ∧
        s.store.worker.now + shutdownTimeout ≤ firstAt + shutdownBudget
      rw [hinv.clocks, shutdownBudget, ← Nat.add_assoc]
      exact ⟨Nat.le_add_right _ _, Nat.add_le_add_right htime _⟩
    | stopped howner _ =>
      rw [howner] at hheld
      rw [StoreWorker.endStop_of_empty hheld.1.1 hheld.1.2.1]
      simp only [howner] at htime
      exact htime.1.trans htime.2
    | stopTimeout howner _ =>
      rw [howner] at hheld
      rw [StoreWorker.endStop_of_empty hheld.1.1 hheld.1.2.1]
      simp only [howner] at htime
      exact htime.1.trans htime.2
    | reap => cases hallows

/-- **One step** that is served in time keeps the times. -/
theorem Timely.step {a : RuntimeAction} (h : s.Timely) (hinv : s.Inv) (hprompt : s.Prompt a)
    (hstep : (machine p cleanupInterval).step s a = some t) : t.Timely := by
  have htimed := h.timed
  have hordered := hinv.ordered
  rw [Timed] at htimed
  rw [Ordered] at hordered
  cases step_of_machine hstep with
  | tick nanos => exact h.tick hinv hprompt
  | dns hallows hserver => exact h.dns hallows hserver
  | store hallows hstore => exact h.setStore hinv hallows hstore
  | httpEnds => exact ⟨h.server, h.inTime, h.past, h.timed⟩
  | externalEnds => exact ⟨h.server, h.inTime, h.past, h.timed⟩
  | first =>
    exact ⟨h.server, h.inTime, h.past, s.now, rfl, Nat.le_add_right _ _, fun _ ↦ rfl, h.past⟩
  | pending hphase =>
    rw [hphase] at htimed
    exact ⟨h.server, h.inTime, h.past, htimed⟩
  | @remainingDone first deadline hphase hdone =>
    rw [hphase] at htimed hordered
    obtain ⟨firstAt, hat, hle, -⟩ := htimed
    obtain ⟨howner, hagrees, -⟩ := hordered
    refine ⟨h.server, h.inTime, h.past, ?_, firstAt, hat, ?_⟩
    · cases first with
      | http result => exact exists_returned_of_ready hdone
      | dns result => exact ⟨result, hagrees.1⟩
      | shutdown result =>
        rw [done, Bool.and_eq_true] at hdone
        exact exists_returned_of_ready hdone.2
    · simp only [howner]
      exact hle
  | @waitTimeout first deadline hphase hdue =>
    obtain ⟨result, hreturned⟩ := h.returned_of_due hinv hphase hdue
    have hdrop : dropFuture s.server = s.server := by
      rw [dropFuture, (h.server.quiet hreturned).map_abort]
    rw [hphase] at htimed hordered
    obtain ⟨firstAt, hat, hle, -⟩ := htimed
    rw [hdrop]
    refine ⟨h.server, h.inTime, h.past, ⟨result, hreturned⟩, firstAt, hat, ?_⟩
    simp only [hordered.1]
    exact hle
  | finish hphase howner =>
    rw [hphase] at htimed
    obtain ⟨hreturned, firstAt, hat, htime⟩ := htimed
    simp only [howner] at htime
    exact ⟨h.server, h.inTime, h.past, hreturned, firstAt, s.now, hat, rfl, htime⟩
  | release => exact ⟨h.server, h.inTime, h.past, h.timed⟩

/-! ### The history -/

/-- The step emits an event and the channel is full. -/
def Drops (p : Pipeline) (cleanupInterval : ℕ) (s : Runtime) (a : RuntimeAction) : Prop :=
  s.store.worker.channel.capacity ≤ s.store.worker.channel.queue.length ∧
    ∃ t, (machine p cleanupInterval).step s a = some t ∧
      t.server.pipeline.events ≠ s.server.pipeline.events

/-- Everything that was emitted was taken by the channel. -/
def Complete (s : Runtime) : Prop := s.store.worker.accepted = s.server.pipeline.events

/-- A step that emits no event is of no concern to the history. -/
theorem complete_iff_of_same {a : RuntimeAction}
    (hstep : (machine p cleanupInterval).step s a = some t)
    (hevents : t.server.pipeline.events = s.server.pipeline.events)
    (haccepted : t.store.worker.accepted = s.store.worker.accepted) :
    t.Complete ↔ s.Complete ∧ ¬Drops p cleanupInterval s a := by
  rw [Complete, Complete, hevents, haccepted]
  refine (and_iff_left ?_).symm
  rintro ⟨-, u, hu, hne⟩
  cases Option.some.inj (hstep.symm.trans hu)
  exact hne hevents

omit [Lowercase] [Codec] [Display] in
/-- The channel is open as long as a task is left: the worker was not told, and the pipeline has its
recorder. -/
theorem Timely.open (h : s.Timely) (hinv : s.Inv) (huntold : s.store.worker.Untold)
    (hquiet : ¬s.server.Quiet) : s.store.worker.channel.rxClosed = false := by
  have hdropped : s.phase.dropped ≠ true := fun hdropped ↦ hquiet (h.quiet hdropped)
  have howner : s.store.owner = .holding := by
    have hordered := hinv.ordered
    rw [Ordered] at hordered
    cases hphase : s.phase with
    | selecting branch =>
      rw [hphase] at hordered
      exact hordered.1
    | waiting first deadline =>
      rw [hphase] at hordered
      exact hordered.1
    | stopping first => exact absurd (by rw [hphase]; rfl) hdropped
    | returned first result => exact absurd (by rw [hphase]; rfl) hdropped
  have hheld := hinv.store.held
  rw [StoreWorker.Held, howner] at hheld
  have hopen : s.store.worker.channel.rxClosed ≠ true := fun hclosed ↦
    hinv.senders_ne_zero hquiet (huntold.serving hheld.2.2.2 hclosed)
  exact Bool.not_eq_true _ ▸ hopen

/-- **One step** keeps the history complete exactly if it does not emit into a full channel. -/
theorem step_complete_iff {a : RuntimeAction} (hinv : s.Inv) (h : s.Timely)
    (huntold : s.store.worker.Untold) (hstep : (machine p cleanupInterval).step s a = some t) :
    t.Complete ↔ s.Complete ∧ ¬Drops p cleanupInterval s a := by
  cases step_of_machine hstep with
  | @dns action server hallows hserver =>
    obtain ⟨event, hevents, hquiet⟩ := Server.events_of_step hserver
    have hobserve := observe_eq hevents
    cases event with
    | none =>
      rw [Option.toList_none, List.append_nil] at hevents
      exact complete_iff_of_same hstep hevents (by rw [hobserve]; rfl)
    | some event =>
      have hopen := h.open hinv huntold (hquiet (Option.some_ne_none _))
      have hrecord : (s.observe server).store.worker = s.store.worker.tryRecord event := by
        rw [hobserve]
        rfl
      have hemitted : (s.observe server).server.pipeline.events =
          s.server.pipeline.events ++ [event] := hevents
      rw [Complete, Complete, hrecord, hemitted]
      obtain ⟨hnone, hsame⟩ | ⟨hsome, htaken⟩ := s.store.worker.tryRecord_cases event
      · -- the channel is open, so it is full
        have hfull : s.store.worker.channel.capacity ≤ s.store.worker.channel.queue.length := by
          by_contra hroom
          rw [Channel.trySend, if_neg (by simp [hopen, hroom])] at hnone
          cases hnone
        rw [hsame]
        refine iff_of_false (fun heq ↦ ?_) fun hdrops ↦ hdrops.2 ⟨hfull, _, hstep, ?_⟩
        · have hle := hinv.recorded.length_le
          rw [heq, List.length_append, List.length_singleton] at hle
          exact Nat.not_succ_le_self _ hle
        · rw [hemitted]
          simp
      · rw [htaken]
        have hroom : ¬s.store.worker.channel.capacity ≤ s.store.worker.channel.queue.length :=
          fun hfull ↦ hsome (by rw [Channel.trySend, if_pos (Or.inr hfull)])
        exact List.append_left_inj _ |>.trans (and_iff_left fun hdrops ↦ hroom hdrops.1).symm
  | store hallows hstore =>
    refine complete_iff_of_same hstep rfl ?_
    have hheld := hinv.store.held
    rw [StoreWorker.Held] at hheld
    cases StoreWorker.step_of_machine hstore with
    | worker _ hworker => exact (Worker.thread_frame hworker hallows).2.2
    | threadEnds => rfl
    | detach => cases hallows
    | drop => cases hallows
    | stop howner =>
      rw [howner] at hheld
      rw [StoreWorker.beginStop_of_whole hheld.1.1 hheld.1.2.1]
    | stopped howner _ =>
      rw [howner] at hheld
      rw [StoreWorker.endStop_of_empty hheld.1.1 hheld.1.2.1]
    | stopTimeout howner _ =>
      rw [howner] at hheld
      rw [StoreWorker.endStop_of_empty hheld.1.1 hheld.1.2.1]
    | reap => cases hallows
  | _ => exact complete_iff_of_same hstep rfl rfl

/-- What holds in every run that is served in time. The worker inside the runtime is a worker, so
what it keeps by itself it keeps here. -/
theorem timely_step (s : Runtime) (a : RuntimeAction) (t : Runtime)
    (h : s.Inv ∧ s.Timely ∧ s.store.worker.Untold) (hserved : Prompt s a)
    (hstep : (machine p cleanupInterval).step s a = some t) :
    t.Inv ∧ t.Timely ∧ t.store.worker.Untold := by
  obtain ⟨hinv, htimely, huntold⟩ := h
  refine ⟨hinv.step hstep, htimely.step hinv hserved hstep, ?_⟩
  obtain ⟨-, bs, hbs⟩ := projects_store p cleanupInterval s a t hinv hstep
  obtain ⟨cs, hcs⟩ := (StoreWorker.projects_worker cleanupInterval).run hinv.store hbs
  exact Machine.run_invariant (fun _ _ _ h hstep ↦ h.step hstep) hcs huntold

omit [Lowercase] [Codec] [Display] in
theorem timely_begin (pipeline : PipelineState) (cleanupInterval : ℕ) :
    (start pipeline cleanupInterval).Inv ∧ (start pipeline cleanupInterval).Timely ∧
      (start pipeline cleanupInterval).store.worker.Untold :=
  ⟨inv_start _ _, timely_start _ _, fun _ ↦ by rintro ⟨⟩, fun _ ↦ by rintro ⟨⟩⟩

/-- **A run** keeps the history complete exactly if none of its steps emits into a full channel. -/
theorem complete_iff_of_run {now : Instant} {filter : Filter} {cache : Cache}
    {as : List RuntimeAction}
    (hrun : (machine p cleanupInterval).run (start (.init now filter cache) cleanupInterval) as =
      some s)
    (hprompt : (machine p cleanupInterval).Along Prompt
      (start (.init now filter cache) cleanupInterval) as) :
    s.Complete ↔ (machine p cleanupInterval).Along (fun s a ↦ ¬Drops p cleanupInterval s a)
      (start (.init now filter cache) cleanupInterval) as :=
  (Machine.run_iff_along_under (Q := Complete) timely_step
    (fun _ _ _ h _ hstep ↦ step_complete_iff h.1 h.2.1 h.2.2 hstep) hrun hprompt
    (timely_begin _ _)).trans (and_iff_right rfl)

end Steps

end Runtime

namespace Sample

/-- A query is served; then the runtime is told to stop, and does so without delay. -/
def stopped : List RuntimeAction :=
  .tick 5 :: .poll :: served.map .dns ++ [.poll, .externalEnds (.ok ()), .poll, .dns .shutdown,
    .dns (.join 0), .dns .drained, .httpEnds (.ok ()), .remainingDone, .release, .store .stop,
    .store (.worker .takeShutdown), .store (.worker .recv), .store (.worker .recv),
    .store (.worker .insert), .store (.worker .tidy), .store (.worker .test),
    .store (.worker .recv), .store (.worker .tidy), .store (.worker .test), .store .threadEnds,
    .store .stopped, .finish]

/-- Time passes only before anything has happened. -/
theorem prompt_stopped [Lowercase] [Codec] [Display] (p : Pipeline) :
    (Runtime.machine p 1000).Along Runtime.Prompt (.start start 1000) stopped := by
  have hticks : stopped.tail.all (fun | .tick _ => false | _ => true) = true := by decide
  refine ⟨⟨trivial, trivial⟩, fun t _ ↦ Machine.along_of_forall_mem (fun a ha s ↦ ?_) t⟩
  cases a with
  | tick nanos => cases List.all_eq_true.1 hticks _ ha
  | _ => trivial

end Sample

end DnsBuffer
