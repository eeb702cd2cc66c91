import DnsBuffer.Runtime.Model

/-!
# The order of a shutdown

The worker is told to stop last: by then each of the services has returned, or two and a half
seconds have passed since the first of the futures was ready. What `run_until` returns is what that
future has come to.

A service that ends by itself is an error, whatever it returned. Of the two texts for this, "stopped
unexpectedly" and "stopped", the UDP server only ever gives the second: it returns without an error
only when it is told to stop, and it is told only after the `select`.

The events of the pipeline arrive at the channel in the order in which they were emitted; some may
be refused (`Runtime.Inv.recorded`).
-/

namespace DnsBuffer

/-! ### What the parts contribute -/

namespace Pipeline

variable [Lowercase] [WireFormat] [Display]

/-- A step of the pipeline emits at most one event, and only one of a call does. -/
theorem events_of_step {p : Pipeline} {s t : PipelineState} {a : PipelineAction}
    (hstep : p.machine.step s a = some t) : ∃ event : Option QueryEvent,
      t.events = s.events ++ event.toList ∧ (event ≠ none → Server.callOf a ≠ none) := by
  cases step_of_machine hstep with
  | @screen i call =>
    refine ⟨(p.screen s.filter call.query).bind fun answer ↦
      recordQuery call s.now answer.1 answer.2.2, ?_, fun _ ↦ Option.some_ne_none i⟩
    rw [stepScreen]
    cases p.screen s.filter call.query with
    | none => exact (List.append_nil _).symm
    | some answer => rfl
  | @lookUp i call =>
    rw [stepLookUp]
    dsimp only
    split
    · rename_i cached expired _
      exact ⟨recordQuery call s.now cached ⟨isBlockedResponse cached, true, none⟩, rfl,
        fun _ ↦ Option.some_ne_none i⟩
    · exact ⟨none, (List.append_nil _).symm, fun h ↦ absurd rfl h⟩
  | @upstreamDone i call outcome =>
    exact ⟨recordQuery call s.now (upstreamReply call.query outcome).1
      (upstreamReply call.query outcome).2.2, rfl, fun _ ↦ Option.some_ne_none i⟩
  | _ => exact ⟨none, (List.append_nil _).symm, fun h ↦ absurd rfl h⟩

end Pipeline

/-- What the loop of the UDP server has come to. -/
def ServerPhase.result? : ServerPhase → Option ServerResult
  | .receiving => none
  | .draining result _ => some result
  | .aborting result => some result
  | .returned result => some result

namespace Server

/-- All tasks are over. -/
def Quiet (s : Server) : Prop := ∀ h ∈ s.handlers, h.stage.isOver = true

theorem Inv.quiet {s : Server} (h : s.Inv) {result : ServerResult}
    (hreturned : s.phase = .returned result) : s.Quiet := by
  intro task htask
  obtain ⟨i, hi⟩ := List.mem_iff_getElem?.1 htask
  exact h.joined i task hi (by rw [h.returned result hreturned]; exact List.not_mem_nil)

/-- Aborting tasks that are over does nothing. -/
theorem Quiet.map_abort {s : Server} (h : s.Quiet) : s.handlers.map Handler.abort = s.handlers := by
  refine (List.map_congr_left fun task htask ↦ ?_).trans (List.map_id _)
  rw [Handler.abort, h task htask, Bool.not_true, Bool.or_false]
  rfl

variable [Lowercase] [Codec] [Display] {p : Pipeline} {s t : Server} {a : ServerAction}

/-- A server that has returned has returned for good. -/
theorem returned_of_step (hstep : (machine p).step s a = some t) {result : ServerResult}
    (h : s.phase = .returned result) : t.phase = .returned result := by
  cases step_of_machine hstep with
  | receiveFails _ hphase => cases h.symm.trans hphase
  | shutdown hphase => cases h.symm.trans hphase
  | drained hphase _ =>
    obtain ⟨deadline, hphase⟩ | hphase := hphase <;> cases h.symm.trans hphase
  | timeout hphase => cases h.symm.trans hphase
  | _ => exact h

/-- The loop ends without an error only when it is told to. -/
theorem result?_of_step (hstep : (machine p).step s a = some t) (hne : a ≠ .shutdown)
    (h : s.phase.result? ≠ some .ok) : t.phase.result? ≠ some .ok := by
  cases step_of_machine hstep with
  | receiveFails => rintro ⟨⟩
  | shutdown => exact absurd rfl hne
  | drained hphase _ =>
    obtain ⟨deadline, hphase⟩ | hphase := hphase <;> rw [hphase] at h <;> exact h
  | timeout hphase =>
    rw [hphase] at h
    exact h
  | _ => exact h

/-- Only a tick moves the clock of a server. -/
theorem clock_of_step (hstep : (machine p).step s a = some t)
    (hne : ∀ nanos, a ≠ .pipeline (.tick nanos)) : t.pipeline.now = s.pipeline.now := by
  cases step_of_machine hstep with
  | pipeline _ hpipeline => exact now_eq_of_step hpipeline fun nanos heq ↦ hne nanos (heq ▸ rfl)
  | called _ _ _ hpipeline => exact now_eq_of_step hpipeline (by rintro _ ⟨⟩)
  | _ => rfl

/-- A step of the server emits at most one event, and a task that is not over emits it. -/
theorem events_of_step (hstep : (machine p).step s a = some t) : ∃ event : Option QueryEvent,
    t.pipeline.events = s.pipeline.events ++ event.toList ∧ (event ≠ none → ¬s.Quiet) := by
  cases step_of_machine hstep with
  | @pipeline action pipeline hallows hpipeline =>
    obtain ⟨event, hevents, hcall⟩ := Pipeline.events_of_step hpipeline
    refine ⟨event, hevents, fun hne hquiet ↦ ?_⟩
    obtain ⟨call, hof⟩ := Option.ne_none_iff_exists'.1 (hcall hne)
    have hany : s.handlers.any (·.stage = .handling call) = true := by
      rw [allows] at hallows
      · rwa [hof, Option.all_some] at hallows
      · rintro query startedAtMs rfl
        cases hof
    obtain ⟨task, htask, hstage⟩ := List.any_eq_true.1 hany
    have hover := hquiet task htask
    rw [of_decide_eq_true hstage] at hover
    cases hover
  | called _ _ _ hpipeline =>
    obtain ⟨event, hevents, hcall⟩ := Pipeline.events_of_step hpipeline
    exact ⟨event, hevents, fun hne ↦ absurd rfl (hcall hne)⟩
  | _ => exact ⟨none, (List.append_nil _).symm, fun h ↦ absurd rfl h⟩

/-- Nothing but a datagram makes a task. -/
theorem Quiet.step (h : s.Quiet) (hstep : (machine p).step s a = some t)
    (hne : ∀ datagram, a ≠ .receive datagram) : t.Quiet := by
  -- no task can move on
  have hmoves : ∀ {i : ℕ} {task : Handler}, s.handlers[i]? = some task →
      task.stage.isOver = false → False := fun hi hover ↦ by
    cases hover.symm.trans (h _ (List.mem_of_getElem? hi))
  cases step_of_machine hstep with
  | receive datagram => exact absurd rfl (hne datagram)
  | undecodable _ hi hstage _ => exact (hmoves hi (by rw [hstage]; rfl)).elim
  | called hi hstage _ _ => exact (hmoves hi (by rw [hstage]; rfl)).elim
  | unencodable hi hstage _ _ => exact (hmoves hi (by rw [hstage]; rfl)).elim
  | encoded hi hstage _ _ => exact (hmoves hi (by rw [hstage]; rfl)).elim
  | sent hi hstage => exact (hmoves hi (by rw [hstage]; rfl)).elim
  | sendFailed hi hstage => exact (hmoves hi (by rw [hstage]; rfl)).elim
  | cancel hi _ hover => exact (hmoves hi hover).elim
  | timeout =>
    show ∀ task ∈ s.handlers.map Handler.abort, task.stage.isOver = true
    rw [h.map_abort]
    exact h
  | _ => exact h

end Server

namespace Worker

/-- An event is taken, or it is refused and nothing changes. -/
theorem tryRecord_cases (s : Worker) (event : QueryEvent) :
    (s.channel.trySend event = none ∧ s.tryRecord event = s) ∨
      (s.channel.trySend event ≠ none ∧ s.tryRecord event =
        { s with
          channel := { s.channel with queue := s.channel.queue ++ [event] }
          accepted := s.accepted ++ [event] }) := by
  rw [tryRecord]
  cases hsend : s.channel.trySend event with
  | none => exact Or.inl ⟨rfl, rfl⟩
  | some channel =>
    obtain ⟨-, rfl⟩ := Channel.trySend_eq_some_iff.1 hsend
    exact Or.inr ⟨Option.some_ne_none _, rfl⟩

/-- The parts of a worker that an event does not concern. -/
theorem tryRecord_frame (s : Worker) (event : QueryEvent) : (s.tryRecord event).now = s.now ∧
    (s.tryRecord event).channel.senders = s.channel.senders := by
  obtain ⟨-, h⟩ | ⟨-, h⟩ := s.tryRecord_cases event <;> rw [h] <;> exact ⟨rfl, rfl⟩

/-- What the thread of a worker leaves alone. -/
theorem thread_frame {cleanupInterval : ℕ} {s t : Worker} {a : WorkerAction}
    (hstep : (machine cleanupInterval).step s a = some t) (hthread : Runtime.isThread a = true) :
    t.now = s.now ∧ t.channel.senders = s.channel.senders ∧ t.accepted = s.accepted := by
  cases step_of_machine hstep with
  | tick => cases hthread
  | accept => cases hthread
  | cloneRecorder => cases hthread
  | dropRecorder => cases hthread
  | _ => exact ⟨rfl, rfl, rfl⟩

end Worker

namespace Runtime

/-! ### The invariant -/

/-- A first result is one that its future has come to. -/
def Agrees (s : Runtime) : First → Prop
  | .http result => s.http = some result
  | .dns result => s.server.phase = .returned result ∧ result ≠ .ok
  | .shutdown result => s.external = some result

/-- The services have returned, or their time is over. -/
def Served (s : Runtime) : Prop :=
  ((s.ready .dns).isSome ∧ s.http.isSome) ∨
    ∃ firstAt, s.firstAt = some firstAt ∧ firstAt + serviceShutdownTimeout ≤ s.now

/-- What holds where `run_until` is. -/
def Ordered (s : Runtime) : Prop :=
  match s.phase with
  | .selecting _ => s.store.owner = .holding ∧ s.server.phase.result? ≠ some .ok
  | .waiting first deadline => s.store.owner = .holding ∧ s.Agrees first ∧
      s.firstAt.map (· + serviceShutdownTimeout) = some deadline
  | .stopping first => s.Agrees first ∧ s.Served
  | .returned first result => s.Agrees first ∧ s.Served ∧ result = first.result ∧
      s.store.owner = .gone

structure Inv (s : Runtime) : Prop where
  store : s.store.Inv
  clocks : s.store.worker.now = s.now
  /-- The worker and the pipeline have a recorder each. -/
  senders : s.store.worker.channel.senders =
    (if s.store.recorder then 1 else 0) + (if s.released then 0 else 1)
  released : s.released = true → s.orphaned = true
  recorded : s.store.worker.accepted.Sublist s.server.pipeline.events
  ordered : s.Ordered

theorem inv_start (pipeline : PipelineState) (cleanupInterval : ℕ) :
    (start pipeline cleanupInterval).Inv where
  store := by
    have h := StoreWorker.inv_start pipeline.now cleanupInterval
    exact ⟨h.held, fun _ ↦ Nat.succ_ne_zero _, h.ended, h.joined⟩
  clocks := rfl
  senders := rfl
  released h := by cases h
  recorded := List.nil_sublist _
  ordered := ⟨rfl, by rintro ⟨⟩⟩

theorem ready_dns_of_returned {s : Runtime} {result : ServerResult}
    (h : s.server.phase = .returned result) : s.ready .dns = some (.dns result) := by
  rw [ready, h]

theorem exists_returned_of_ready {s : Runtime} (h : (s.ready .dns).isSome) :
    ∃ result, s.server.phase = .returned result := by
  rw [ready] at h
  split at h
  · rename_i result hphase
    exact ⟨result, hphase⟩
  · cases h

theorem polls_of_dropped {phase : RuntimePhase} (h : phase.dropped = true) :
    phase.polls = false := by
  cases phase with
  | selecting branch => cases h
  | waiting first deadline => cases h
  | stopping first => rfl
  | returned first result => rfl

theorem orphaned_iff {s : Runtime} : s.orphaned = true ↔
    (s.phase.dropped = true ∨ (s.ready .dns).isSome) ∧ s.server.Quiet := by
  rw [orphaned, Bool.and_eq_true, Bool.or_eq_true, List.all_eq_true]
  rfl

/-- An orphaned pipeline stays one. -/
theorem orphaned_of {s t : Runtime} (h : s.orphaned = true)
    (hdropped : s.phase.dropped = true → t.phase.dropped = true)
    (hserver : ∀ result, s.server.phase = .returned result → t.server.phase = .returned result)
    (hquiet : s.server.Quiet → t.server.Quiet) : t.orphaned = true := by
  obtain ⟨hgone, hq⟩ := orphaned_iff.1 h
  refine orphaned_iff.2 ⟨hgone.imp hdropped fun hready ↦ ?_, hquiet hq⟩
  obtain ⟨result, hphase⟩ := exists_returned_of_ready hready
  rw [ready_dns_of_returned (hserver result hphase)]
  rfl

/-- What the phase promises is kept by a step within the phase. -/
theorem Ordered.frame {s t : Runtime} (h : s.Ordered) (hphase : t.phase = s.phase)
    (hfirst : t.firstAt = s.firstAt) (hnow : s.now ≤ t.now)
    (hhttp : ∀ result, s.http = some result → t.http = some result)
    (hexternal : ∀ result, s.external = some result → t.external = some result)
    (hserver : ∀ result, s.server.phase = .returned result → t.server.phase = .returned result)
    (hresult : s.phase.told = false → s.server.phase.result? ≠ some .ok →
      t.server.phase.result? ≠ some .ok)
    (hholding : s.phase.dropped = false → s.store.owner = .holding → t.store.owner = .holding)
    (hgone : s.store.owner = .gone → t.store.owner = .gone) : t.Ordered := by
  have hagrees : ∀ first, s.Agrees first → t.Agrees first := fun first hagrees ↦ by
    cases first with
    | http result => exact hhttp result hagrees
    | dns result => exact ⟨hserver result hagrees.1, hagrees.2⟩
    | shutdown result => exact hexternal result hagrees
  have hserved : s.Served → t.Served := fun hserved ↦ by
    obtain ⟨hdns, hdone⟩ | ⟨firstAt, hat, hdue⟩ := hserved
    · obtain ⟨result, hreturned⟩ := exists_returned_of_ready hdns
      obtain ⟨outcome, houtcome⟩ := Option.isSome_iff_exists.1 hdone
      refine Or.inl ⟨?_, ?_⟩
      · rw [ready_dns_of_returned (hserver result hreturned)]
        rfl
      · rw [hhttp outcome houtcome]
        rfl
    · exact Or.inr ⟨firstAt, hfirst.trans hat, hdue.trans hnow⟩
  rw [Ordered] at h ⊢
  rw [hphase]
  cases hs : s.phase with
  | selecting branch =>
    rw [hs] at h hresult hholding
    exact ⟨hholding rfl h.1, hresult rfl h.2⟩
  | waiting first deadline =>
    rw [hs] at h hholding
    exact ⟨hholding rfl h.1, hagrees first h.2.1, hfirst ▸ h.2.2⟩
  | stopping first =>
    rw [hs] at h
    exact ⟨hagrees first h.1, hserved h.2⟩
  | returned first result =>
    rw [hs] at h
    exact ⟨hagrees first h.1, hserved h.2.1, h.2.2.1, hgone h.2.2.2⟩

/-- The event of a step goes to the channel. -/
theorem observe_eq {s : Runtime} {server : Server} {event : Option QueryEvent}
    (h : server.pipeline.events = s.server.pipeline.events ++ event.toList) : s.observe server =
      { s with
        server := server
        store := { s.store with
          worker := event.elim s.store.worker s.store.worker.tryRecord } } := by
  rw [observe, h, List.drop_left]
  cases event <;> rfl

/-- The pipeline is there as long as one of its tasks is, and has its recorder. -/
theorem Inv.senders_ne_zero {s : Runtime} (h : s.Inv) (hquiet : ¬s.server.Quiet) :
    s.store.worker.channel.senders ≠ 0 := by
  have hreleased : s.released ≠ true :=
    fun hreleased ↦ hquiet (orphaned_iff.1 (h.released hreleased)).2
  rw [h.senders, if_neg hreleased]
  exact Nat.succ_ne_zero _

theorem step_tryRecord {cleanupInterval : ℕ} {store : StoreWorker}
    (hsenders : store.worker.channel.senders ≠ 0) (event : QueryEvent) :
    (StoreWorker.machine cleanupInterval).step store (.worker (.tryRecord event)) =
      some { store with worker := store.worker.tryRecord event } := by
  simp [StoreWorker.machine, StoreWorker.allows, Worker.machine, hsenders]

theorem step_dropRecorder {cleanupInterval : ℕ} {store : StoreWorker} (h : 0 < store.others) :
    (StoreWorker.machine cleanupInterval).step store (.worker .dropRecorder) =
      some { store with
        worker := { store.worker with channel := store.worker.channel.dropSender } } := by
  have hsenders : store.worker.channel.senders ≠ 0 :=
    Nat.ne_of_gt (Nat.lt_of_lt_of_le h (Nat.sub_le _ _))
  simp [StoreWorker.machine, StoreWorker.allows, Worker.machine, h, hsenders]

section Steps

variable [Lowercase] [Codec] [Display] {p : Pipeline} {cleanupInterval : ℕ} {s t : Runtime}

/-- A step of the UDP server. -/
theorem Inv.dns (h : s.Inv) {action : ServerAction} {server : Server}
    (hallows : s.allowsDns action = true)
    (hstep : (Server.machine p).step s.server action = some server) : (s.observe server).Inv := by
  obtain ⟨event, hevents, hquiet⟩ := Server.events_of_step hstep
  have hclock : server.pipeline.now = s.server.pipeline.now :=
    Server.clock_of_step hstep (by rintro _ rfl; cases hallows)
  have hreturned : ∀ result, s.server.phase = .returned result → server.phase = .returned result :=
    fun _ ↦ Server.returned_of_step hstep
  have hresult : s.phase.told = false → s.server.phase.result? ≠ some .ok →
      server.phase.result? ≠ some .ok := fun htold ↦
    Server.result?_of_step hstep (by rintro rfl; simp [allowsDns, htold] at hallows)
  -- an orphaned pipeline stays one: nothing is received any more
  have horphaned : s.orphaned = true → { s with server := server }.orphaned = true := fun hs ↦ by
    refine orphaned_of hs id hreturned fun hq ↦ hq.step hstep ?_
    rintro datagram rfl
    have hpolls : s.phase.polls = true := hallows
    cases Server.step_of_machine hstep with
    | receive _ hreceiving =>
      obtain hdropped | hready := (orphaned_iff.1 hs).1
      · rw [polls_of_dropped hdropped] at hpolls
        cases hpolls
      · obtain ⟨result, hphase⟩ := exists_returned_of_ready hready
        cases hreceiving.symm.trans hphase
  rw [observe_eq hevents]
  cases event with
  | none =>
    refine ⟨h.store, h.clocks.trans hclock.symm, h.senders, fun hr ↦ horphaned (h.released hr), ?_,
      h.ordered.frame rfl rfl hclock.ge (fun _ ↦ id) (fun _ ↦ id) hreturned hresult (fun _ ↦ id) id⟩
    rw [hevents]
    exact h.recorded.trans (List.sublist_append_left _ _)
  | some event =>
    have hsenders := h.senders_ne_zero (hquiet (Option.some_ne_none _))
    obtain ⟨hnow, hsame⟩ := s.store.worker.tryRecord_frame event
    have hrecord : (StoreWorker.machine 0).step s.store (.worker (.tryRecord event)) = _ :=
      step_tryRecord hsenders event
    refine ⟨h.store.step hrecord, ?_, ?_,
      fun hr ↦ horphaned (h.released hr), ?_,
      h.ordered.frame rfl rfl hclock.ge (fun _ ↦ id) (fun _ ↦ id) hreturned hresult (fun _ ↦ id) id⟩
    · exact (hnow.trans h.clocks).trans hclock.symm
    · exact hsame.trans h.senders
    · show (s.store.worker.tryRecord event).accepted.Sublist server.pipeline.events
      rw [hevents]
      obtain ⟨-, heq⟩ | ⟨-, heq⟩ := s.store.worker.tryRecord_cases event
      · rw [heq]
        exact h.recorded.trans (List.sublist_append_left _ _)
      · rw [heq]
        exact h.recorded.append (List.Sublist.refl _)

omit [Lowercase] [Codec] [Display] in
/-- A step of the worker, or of letting go of it. -/
theorem Inv.setStore (h : s.Inv) {action : StoreWorkerAction} {store : StoreWorker}
    (hallows : s.allowsStore action = true)
    (hstep : (StoreWorker.machine cleanupInterval).step s.store action = some store) :
    Inv { s with store := store } := by
  have hheld := h.store.held
  rw [StoreWorker.Held] at hheld
  have hsenders := h.senders
  have hinv := h.store.step hstep
  cases StoreWorker.step_of_machine hstep with
  | @worker action worker _ hworker =>
    obtain ⟨hnow, hsame, haccepted⟩ := Worker.thread_frame hworker hallows
    refine ⟨hinv, hnow.trans h.clocks, hsame.trans hsenders, h.released, ?_,
      h.ordered.frame rfl rfl le_rfl (fun _ ↦ id) (fun _ ↦ id) (fun _ ↦ id) (fun _ ↦ id)
        (fun _ ↦ id) id⟩
    show worker.accepted.Sublist s.server.pipeline.events
    rw [haccepted]
    exact h.recorded
  | threadEnds =>
    exact ⟨hinv, h.clocks, hsenders, h.released, h.recorded,
      h.ordered.frame rfl rfl le_rfl (fun _ ↦ id) (fun _ ↦ id) (fun _ ↦ id) (fun _ ↦ id)
        (fun _ ↦ id) id⟩
  | detach => cases hallows
  | drop => cases hallows
  | stop howner =>
    rw [howner] at hheld
    obtain ⟨⟨hrecorder, hshutdown, -, -⟩, -⟩ := hheld
    rw [StoreWorker.beginStop_of_whole hrecorder hshutdown] at hinv ⊢
    refine ⟨hinv, h.clocks, ?_, h.released, h.recorded,
      h.ordered.frame rfl rfl le_rfl (fun _ ↦ id) (fun _ ↦ id) (fun _ ↦ id) (fun _ ↦ id) ?_ ?_⟩
    · rw [if_pos hrecorder, Nat.add_comm] at hsenders
      exact (Nat.pred_eq_of_eq_succ hsenders).trans (Nat.zero_add _).symm
    · -- the worker is told in the last phase only
      intro hdropped
      simp only [allowsStore] at hallows
      split at hallows
      · rename_i first hphase
        rw [hphase] at hdropped
        cases hdropped
      · cases hallows
    · rw [howner]
      rintro ⟨⟩
  | stopped howner _ =>
    rw [howner] at hheld
    rw [StoreWorker.endStop_of_empty hheld.1.1 hheld.1.2.1] at hinv ⊢
    exact ⟨hinv, h.clocks, hsenders, h.released, h.recorded,
      h.ordered.frame rfl rfl le_rfl (fun _ ↦ id) (fun _ ↦ id) (fun _ ↦ id) (fun _ ↦ id)
        (fun _ hholding ↦ by cases howner.symm.trans hholding) fun _ ↦ rfl⟩
  | stopTimeout howner _ =>
    rw [howner] at hheld
    rw [StoreWorker.endStop_of_empty hheld.1.1 hheld.1.2.1] at hinv ⊢
    exact ⟨hinv, h.clocks, hsenders, h.released, h.recorded,
      h.ordered.frame rfl rfl le_rfl (fun _ ↦ id) (fun _ ↦ id) (fun _ ↦ id) (fun _ ↦ id)
        (fun _ hholding ↦ by cases howner.symm.trans hholding) fun _ ↦ rfl⟩
  | reap => cases hallows

omit [Lowercase] [Codec] [Display] in
/-- The time of the services is over; what is left of their futures is dropped. -/
theorem Inv.waitTimeout (h : s.Inv) {first : First} {deadline : Instant}
    (hphase : s.phase = .waiting first deadline) (hdue : deadline ≤ s.now) :
    Inv { s with phase := .stopping first, server := dropFuture s.server } := by
  have hordered := h.ordered
  rw [Ordered, hphase] at hordered
  obtain ⟨-, hagrees, hdeadline⟩ := hordered
  obtain ⟨firstAt, hat, rfl⟩ := Option.map_eq_some_iff.1 hdeadline
  refine ⟨h.store, h.clocks, h.senders, fun hr ↦ ?_, h.recorded, ?_, Or.inr ⟨firstAt, hat, hdue⟩⟩
  · refine orphaned_of (h.released hr) (fun _ ↦ rfl) (fun _ ↦ id) fun hq ↦ ?_
    show ∀ task ∈ s.server.handlers.map Handler.abort, task.stage.isOver = true
    rw [hq.map_abort]
    exact hq
  · cases first <;> exact hagrees

/-- **One step preserves the invariant.** -/
theorem Inv.step {a : RuntimeAction} (h : s.Inv)
    (hstep : (machine p cleanupInterval).step s a = some t) : t.Inv := by
  have hordered := h.ordered
  rw [Ordered] at hordered
  -- a step that only moves on to another phase
  have hrest : ∀ phase : RuntimePhase, s.phase.dropped = false →
      s.released = true → { s with phase := phase }.orphaned = true := fun phase hnot hr ↦
    orphaned_of (h.released hr) (fun hdropped ↦ by cases hnot.symm.trans hdropped) (fun _ ↦ id) id
  cases step_of_machine hstep with
  | tick nanos =>
    have htick : (StoreWorker.machine 0).step s.store (.worker (.tick nanos)) = _ := rfl
    exact ⟨h.store.step htick, congrArg (· + nanos) h.clocks, h.senders, h.released, h.recorded,
      h.ordered.frame rfl rfl (Nat.le_add_right _ _) (fun _ ↦ id) (fun _ ↦ id) (fun _ ↦ id)
        (fun _ ↦ id) (fun _ ↦ id) id⟩
  | dns hallows hserver => exact h.dns hallows hserver
  | store hallows hstore => exact h.setStore hallows hstore
  | httpEnds result hnone =>
    refine ⟨h.store, h.clocks, h.senders, h.released, h.recorded,
      h.ordered.frame rfl rfl le_rfl (fun _ hsome ↦ ?_) (fun _ ↦ id) (fun _ ↦ id) (fun _ ↦ id)
        (fun _ ↦ id) id⟩
    cases hnone.symm.trans hsome
  | externalEnds result hnone =>
    refine ⟨h.store, h.clocks, h.senders, h.released, h.recorded,
      h.ordered.frame rfl rfl le_rfl (fun _ ↦ id) (fun _ hsome ↦ ?_) (fun _ ↦ id) (fun _ ↦ id)
        (fun _ ↦ id) id⟩
    cases hnone.symm.trans hsome
  | @first branch first hphase hready =>
    rw [hphase] at hordered
    refine ⟨h.store, h.clocks, h.senders, hrest _ (by rw [hphase]; rfl), h.recorded, hordered.1, ?_,
      rfl⟩
    cases branch with
    | http =>
      obtain ⟨result, hresult, rfl⟩ := Option.map_eq_some_iff.1 hready
      exact hresult
    | dns =>
      obtain ⟨result, hreturned⟩ := exists_returned_of_ready (s := s) (by rw [hready]; rfl)
      rw [ready_dns_of_returned hreturned] at hready
      cases hready
      refine ⟨hreturned, ?_⟩
      rintro rfl
      rw [hreturned] at hordered
      exact hordered.2 rfl
    | external =>
      obtain ⟨result, hresult, rfl⟩ := Option.map_eq_some_iff.1 hready
      exact hresult
  | pending hphase =>
    rw [hphase] at hordered
    exact ⟨h.store, h.clocks, h.senders, hrest _ (by rw [hphase]; rfl), h.recorded, hordered⟩
  | @remainingDone first deadline hphase hdone =>
    rw [hphase] at hordered
    obtain ⟨-, hagrees, -⟩ := hordered
    refine ⟨h.store, h.clocks, h.senders, hrest _ (by rw [hphase]; rfl), h.recorded, ?_, Or.inl ?_⟩
    · cases first <;> exact hagrees
    · cases first with
      | http result =>
        have hhttp : s.http = some result := hagrees
        exact ⟨hdone, by rw [hhttp]; rfl⟩
      | dns result =>
        refine ⟨?_, hdone⟩
        show (s.ready .dns).isSome
        rw [ready_dns_of_returned hagrees.1]
        rfl
      | shutdown result =>
        rw [done, Bool.and_eq_true] at hdone
        exact hdone.symm
  | waitTimeout hphase hdue => exact h.waitTimeout hphase hdue
  | @finish first hphase howner =>
    rw [hphase] at hordered
    obtain ⟨hagrees, hserved⟩ := hordered
    refine ⟨h.store, h.clocks, h.senders, fun hr ↦ ?_, h.recorded, ?_, hserved, rfl, howner⟩
    · exact orphaned_of (h.released hr) (fun _ ↦ rfl) (fun _ ↦ id) id
    · cases first <;> exact hagrees
  | release hreleased horphaned =>
    have hsenders := h.senders
    rw [hreleased, if_neg Bool.false_ne_true] at hsenders
    have hothers : 0 < s.store.others := by
      rw [StoreWorker.others, hsenders, Nat.add_sub_cancel_left]
      exact Nat.one_pos
    have hdrop : (StoreWorker.machine 0).step s.store (.worker .dropRecorder) = _ :=
      step_dropRecorder hothers
    refine ⟨h.store.step hdrop, h.clocks, ?_, fun _ ↦ horphaned, h.recorded,
      h.ordered.frame rfl rfl le_rfl (fun _ ↦ id) (fun _ ↦ id) (fun _ ↦ id) (fun _ ↦ id)
        (fun _ ↦ id) id⟩
    exact Nat.pred_eq_of_eq_succ hsenders

/-- The handle of the worker moves as one does by itself: its recorders are the pipeline's and its
own, and what they send is what the pipeline emits. -/
theorem projects_store (p : Pipeline) (cleanupInterval : ℕ) :
    (machine p cleanupInterval).Projects (StoreWorker.machine cleanupInterval) Runtime.store
      Inv := by
  intro s a t h hstep
  refine ⟨h.step hstep, ?_⟩
  have hone : ∀ {b store}, (StoreWorker.machine cleanupInterval).step s.store b = some store →
      ∃ bs, (StoreWorker.machine cleanupInterval).run s.store bs = some store :=
    fun hb ↦ ⟨[_], Machine.run_cons_eq_some _ |>.2 ⟨_, hb, rfl⟩⟩
  cases step_of_machine hstep with
  | tick nanos => exact hone (b := .worker (.tick nanos)) rfl
  | dns _ hserver =>
    obtain ⟨event, hevents, hquiet⟩ := Server.events_of_step hserver
    rw [observe_eq hevents]
    cases event with
    | none => exact ⟨[], rfl⟩
    | some event =>
      exact hone (step_tryRecord (h.senders_ne_zero (hquiet (Option.some_ne_none _))) event)
  | store _ hstore => exact hone hstore
  | release hreleased _ =>
    refine hone (step_dropRecorder ?_)
    rw [StoreWorker.others, h.senders, Nat.add_sub_cancel_left, hreleased]
    exact Nat.one_pos
  | _ => exact ⟨[], rfl⟩

theorem inv_of_run {pipeline : PipelineState} {as : List RuntimeAction}
    (hrun : (machine p cleanupInterval).run (start pipeline cleanupInterval) as = some s) : s.Inv :=
  Machine.run_invariant (fun _ _ _ h hstep ↦ h.step hstep) hrun (inv_start pipeline cleanupInterval)

/-- The worker of a runtime is one that has run by itself. -/
theorem exists_run_worker {pipeline : PipelineState} {as : List RuntimeAction}
    (hrun : (machine p cleanupInterval).run (start pipeline cleanupInterval) as = some s) :
    ∃ bs, (Worker.machine cleanupInterval).run
      (Worker.start workerCapacity pipeline.now cleanupInterval) bs = some s.store.worker := by
  obtain ⟨bs, hbs⟩ :=
    (projects_store p cleanupInterval).run (inv_start pipeline cleanupInterval) hrun
  obtain ⟨cs, hcs⟩ := (StoreWorker.projects_worker cleanupInterval).run
    (inv_start pipeline cleanupInterval).store hbs
  exact ⟨.cloneRecorder :: cs, Machine.run_cons_eq_some _ |>.2 ⟨_, rfl, hcs⟩⟩

/-- **The order of a shutdown.** In every run:

* the worker is told to stop when the futures of the services are gone, each of them returned or two
  and a half seconds after the first future was ready;
* when `run_until` has returned, the worker was let go of, and the result is that of the first
  future: a service that ends by itself is an error that names it, in case of the UDP server one
  that it could not receive;
* the history is in order: what is written is a prefix of what the channel took, and that a
  subsequence of what the pipeline has emitted. -/
theorem shuts_down_in_order (p : Pipeline) (pipeline : PipelineState) (cleanupInterval : ℕ)
    (as : List RuntimeAction) (s : Runtime)
    (hrun : (machine p cleanupInterval).run (start pipeline cleanupInterval) as = some s) :
    (s.store.worker.shutdownSent = true → s.phase.dropped = true ∧
      (((∃ result, s.server.phase = .returned result) ∧ s.http.isSome) ∨
        ∃ firstAt, s.firstAt = some firstAt ∧ firstAt + serviceShutdownTimeout ≤ s.now)) ∧
    (∀ first result, s.phase = .returned first result → s.store.owner = .gone ∧
      match first with
      | .http outcome => s.http = some outcome ∧
          result = serviceResult outcome "dashboard HTTP server".toList
      | .dns outcome => ∃ text, outcome = .receiveError text ∧
          result = .error ["DNS UDP server stopped".toList, "recv_from".toList, text]
      | .shutdown outcome => s.external = some outcome ∧ result = outcome) ∧
    s.store.worker.batches.flatten <+: s.store.worker.accepted ∧
    s.store.worker.accepted.Sublist s.server.pipeline.events := by
  have h : s.Inv := inv_of_run hrun
  obtain ⟨bs, hworker⟩ := exists_run_worker hrun
  have hordered := h.ordered
  rw [Ordered] at hordered
  -- as long as the handle is whole, the worker was not told
  have hwhole : s.store.owner = .holding → s.store.worker.shutdownSent ≠ true := fun howner ↦ by
    have hheld := h.store.held
    rw [StoreWorker.Held, howner] at hheld
    rw [hheld.2.2.2]
    exact Bool.false_ne_true
  have hserved : s.Served → ((∃ result, s.server.phase = .returned result) ∧ s.http.isSome) ∨
      ∃ firstAt, s.firstAt = some firstAt ∧ firstAt + serviceShutdownTimeout ≤ s.now :=
    fun hserved ↦ hserved.imp (And.imp exists_returned_of_ready id) id
  refine ⟨fun htold ↦ ?_, fun first result hphase ↦ ?_,
    ⟨_, (Worker.inv_of_run hworker).conserved.symm⟩, h.recorded⟩
  · cases hphase : s.phase with
    | selecting branch =>
      rw [hphase] at hordered
      exact absurd htold (hwhole hordered.1)
    | waiting first deadline =>
      rw [hphase] at hordered
      exact absurd htold (hwhole hordered.1)
    | stopping first =>
      rw [hphase] at hordered
      exact ⟨rfl, hserved hordered.2⟩
    | returned first result =>
      rw [hphase] at hordered
      exact ⟨rfl, hserved hordered.2.1⟩
  · rw [hphase] at hordered
    obtain ⟨hagrees, -, hresult, howner⟩ := hordered
    refine ⟨howner, ?_⟩
    cases first with
    | http outcome => exact ⟨hagrees, hresult⟩
    | dns outcome =>
      cases outcome with
      | ok => exact absurd rfl hagrees.2
      | receiveError text => exact ⟨text, rfl, hresult⟩
    | shutdown outcome => exact ⟨hagrees, hresult⟩

end Steps

/-- The socket fails; the dashboard is told to stop and does, and the worker after it. -/
theorem shuts_down_in_order_receive_error :
    let _ := asciiLowercase
    let _ := Sample.codec
    let _ : Display := ⟨fun _ ↦ [], fun _ ↦ []⟩
    ∃ s, (machine ⟨HostsMap.empty, none⟩ 1000).run (start Sample.start 1000)
        [.poll, .dns (.receiveFails "closed".toList), .dns .drained, .poll, .httpEnds (.ok ()),
          .remainingDone, .store .stop, .store (.worker .takeShutdown), .store (.worker .recv),
          .store (.worker .tidy), .store (.worker .test), .store .threadEnds, .store .stopped,
          .finish] = some s ∧
      ∃ first result, s.phase = .returned first result ∧
        s.store.owner = .gone ∧ s.store.worker.shutdownSent = true ∧
        result = .error ["DNS UDP server stopped".toList, "recv_from".toList, "closed".toList] := by
  intro _ _ _
  have hrun : ((machine ⟨HostsMap.empty, none⟩ 1000).run (start Sample.start 1000)
      [.poll, .dns (.receiveFails "closed".toList), .dns .drained, .poll, .httpEnds (.ok ()),
        .remainingDone, .store .stop, .store (.worker .takeShutdown), .store (.worker .recv),
        .store (.worker .tidy), .store (.worker .test), .store .threadEnds, .store .stopped,
        .finish]).any fun s ↦ s.store.worker.shutdownSent ∧
          s.phase = .returned (.dns (.receiveError "closed".toList))
            (.error ["DNS UDP server stopped".toList, "recv_from".toList, "closed".toList]) := by
    decide +kernel
  obtain ⟨s, hs, hprop⟩ := (Option.any_eq_true _ _).1 hrun
  obtain ⟨htold, hphase⟩ := of_decide_eq_true hprop
  obtain ⟨-, hreturned, -⟩ :=
    shuts_down_in_order ⟨HostsMap.empty, none⟩ Sample.start 1000 _ s hs
  exact ⟨s, hs, _, _, hphase, (hreturned _ _ hphase).1, htold, rfl⟩

end Runtime

end DnsBuffer
