import DnsBuffer.Server.Model

/-!
# How the server stops

When `run_udp_socket_until` returns, no task of a datagram is left running: each has ended by
itself, or it was cancelled, and the latter only after the two seconds that the tasks are given.

The join set is what makes this so: a task leaves it only when it is over, and the server returns
only when it is empty. It is not looked at while the server receives, so until then it has the task
of every datagram in it, over or not (`Server.Inv.receiving`).

How long stopping takes is up to the clock. If timers are served in time (`Server.Prompt`), the
server has returned two seconds after its loop ended at the latest (`Server.InTime`).
-/

namespace DnsBuffer

/-- The phases after an abort. -/
def ServerPhase.isLate : ServerPhase → Bool
  | .aborting _ => true
  | .returned _ => true
  | _ => false

namespace Server

/-- The time the tasks are given is over. -/
def Overdue (s : Server) : Prop :=
  s.phase.isLate = true ∧
    ∃ stoppedAt, s.stoppedAt = some stoppedAt ∧ stoppedAt + drainTimeout ≤ s.pipeline.now

structure Inv (s : Server) : Prop where
  /-- A task leaves the join set when it is over. -/
  joined : ∀ i h, s.handlers[i]? = some h → i ∉ s.joinSet → h.stage.isOver = true
  /-- Nothing leaves the join set while the server receives. -/
  receiving : s.phase = .receiving → s.joinSet = List.range s.handlers.length
  stopped : s.phase ≠ .receiving → ∃ stoppedAt, s.stoppedAt = some stoppedAt
  deadline : ∀ result deadline, s.phase = .draining result deadline →
    s.stoppedAt.map (· + drainTimeout) = some deadline
  returned : ∀ result, s.phase = .returned result → s.joinSet = []
  aborted : ∀ h ∈ s.handlers, h.aborted = true → s.Overdue
  cancelled : ∀ h ∈ s.handlers, h.stage = .cancelled → h.aborted = true

theorem inv_start (pipeline : PipelineState) : (start pipeline).Inv where
  joined i h hi := by cases hi
  receiving _ := rfl
  stopped h := absurd rfl h
  deadline result deadline h := by cases h
  returned result h := by cases h
  aborted h hh := by cases hh
  cancelled h hh := by cases hh

/-- A task moves on to a stage where it is over if it was, and is cancelled only if it was
aborted. -/
theorem Inv.setStage {s : Server} (h : s.Inv) {i : ℕ} {task : Handler} {stage : HandlerStage}
    (hi : s.handlers[i]? = some task) (hover : task.stage.isOver = false)
    (hcancelled : stage = .cancelled → task.aborted = true) :
    (s.setStage i task stage).Inv where
  joined j task' hj hmem := by
    rcases eq_or_ne i j with rfl | hne
    · -- the task was not over, so it is still in the join set
      cases hover.symm.trans (h.joined i task hi hmem)
    · exact h.joined j task' ((List.getElem?_set_ne hne).symm.trans hj) hmem
  receiving hphase := by
    show s.joinSet = List.range (s.handlers.set i _).length
    rw [List.length_set]
    exact h.receiving hphase
  stopped := h.stopped
  deadline := h.deadline
  returned := h.returned
  aborted := Tasks.forall_set h.aborted (h.aborted task (List.mem_of_getElem? hi))
  cancelled := Tasks.forall_set h.cancelled hcancelled

/-- The clock and the calls of the pipeline do not concern the join set. -/
theorem Inv.setPipeline {s : Server} (h : s.Inv) {pipeline : PipelineState}
    (hnow : s.pipeline.now ≤ pipeline.now) : Inv { s with pipeline := pipeline } where
  joined := h.joined
  receiving := h.receiving
  stopped := h.stopped
  deadline := h.deadline
  returned := h.returned
  aborted task htask haborted := by
    obtain ⟨hlate, stoppedAt, hstopped, hdue⟩ := h.aborted task htask haborted
    exact ⟨hlate, stoppedAt, hstopped, hdue.trans hnow⟩
  cancelled := h.cancelled

/-- The loop ends. -/
theorem Inv.stop {s : Server} (h : s.Inv) (hphase : s.phase = .receiving) (result : ServerResult) :
    (s.stop result).Inv where
  joined := h.joined
  receiving hreceiving := by cases hreceiving
  stopped _ := ⟨_, rfl⟩
  deadline _ _ hdraining := by
    cases hdraining
    rfl
  returned _ hreturned := by cases hreturned
  aborted task htask haborted := by
    have hlate := (h.aborted task htask haborted).1
    rw [hphase] at hlate
    cases hlate
  cancelled := h.cancelled

theorem Inv.receive {s : Server} (h : s.Inv) (hphase : s.phase = .receiving) (datagram : Datagram) :
    Inv { s with
      handlers := s.handlers ++ [⟨datagram, .spawned, false⟩]
      joinSet := s.joinSet ++ [s.handlers.length] } where
  joined i task hi hmem := by
    refine absurd (List.mem_append.2 ?_) hmem
    have hlt := (List.getElem?_eq_some_iff.1 hi).1
    rw [List.length_append, List.length_singleton] at hlt
    obtain hlt | rfl := Nat.lt_or_eq_of_le (Nat.le_of_lt_succ hlt)
    · exact Or.inl (h.receiving hphase ▸ List.mem_range.2 hlt)
    · exact Or.inr (List.mem_singleton_self _)
  receiving _ := by
    show s.joinSet ++ [s.handlers.length] = List.range (s.handlers ++ [_]).length
    rw [List.length_append, List.length_singleton, List.range_succ, h.receiving hphase]
  stopped hne := absurd hphase hne
  deadline _ _ hdraining := by cases hphase.symm.trans hdraining
  returned _ hreturned := by cases hphase.symm.trans hreturned
  aborted := by
    rw [List.forall_mem_append, List.forall_mem_singleton]
    exact ⟨h.aborted, by rintro ⟨⟩⟩
  cancelled := by
    rw [List.forall_mem_append, List.forall_mem_singleton]
    exact ⟨h.cancelled, by rintro ⟨⟩⟩

/-- The tasks have not ended in time. -/
theorem Inv.timeout {s : Server} (h : s.Inv) {result : ServerResult} {deadline : Instant}
    (hphase : s.phase = .draining result deadline) (hdue : deadline ≤ s.pipeline.now) :
    Inv { s with phase := .aborting result, handlers := s.handlers.map Handler.abort } := by
  obtain ⟨stoppedAt, hstopped, rfl⟩ := Option.map_eq_some_iff.1 (h.deadline _ _ hphase)
  have hoverdue : Overdue
      { s with phase := .aborting result, handlers := s.handlers.map Handler.abort } :=
    ⟨rfl, stoppedAt, hstopped, hdue⟩
  refine ⟨fun i task hi hmem ↦ ?_, (by rintro ⟨⟩), fun _ ↦ ⟨stoppedAt, hstopped⟩,
    (by rintro _ _ ⟨⟩), (by rintro _ ⟨⟩), fun task _ _ ↦ hoverdue, fun task htask hcancelled ↦ ?_⟩
  · rw [List.getElem?_map] at hi
    obtain ⟨old, hold, rfl⟩ := Option.map_eq_some_iff.1 hi
    exact h.joined i old hold hmem
  · obtain ⟨old, hold, rfl⟩ := List.mem_map.1 htask
    have haborted := h.cancelled old hold hcancelled
    rw [Handler.abort, haborted]
    rfl

/-- The join set is empty. -/
theorem Inv.drained {s : Server} (h : s.Inv) {result : ServerResult}
    (hphase : (∃ deadline, s.phase = .draining result deadline) ∨ s.phase = .aborting result)
    (hjoin : s.joinSet = []) : Inv { s with phase := .returned result } where
  joined := h.joined
  receiving hreceiving := by cases hreceiving
  stopped _ := h.stopped (by
    obtain ⟨deadline, hphase⟩ | hphase := hphase
    · rw [hphase]
      rintro ⟨⟩
    · rw [hphase]
      rintro ⟨⟩)
  deadline _ _ hdraining := by cases hdraining
  returned _ _ := hjoin
  aborted task htask haborted := ⟨rfl, (h.aborted task htask haborted).2⟩
  cancelled := h.cancelled

/-- A task that is over is joined. -/
theorem Inv.join {s : Server} (h : s.Inv) {i : ℕ} {task : Handler} (hi : s.handlers[i]? = some task)
    (hover : task.stage.isOver = true) (hmem : i ∈ s.joinSet) (hphase : s.phase ≠ .receiving) :
    Inv { s with joinSet := s.joinSet.erase i } where
  joined j task' hj hnot := by
    rcases eq_or_ne i j with rfl | hne
    · exact Option.some.inj (hi.symm.trans hj) ▸ hover
    · exact h.joined j task' hj fun hmem' ↦ hnot ((List.mem_erase_of_ne hne.symm).2 hmem')
  receiving hreceiving := absurd hreceiving hphase
  stopped := h.stopped
  deadline := h.deadline
  returned result hreturned := by
    rw [h.returned result hreturned] at hmem
    cases hmem
  aborted := h.aborted
  cancelled := h.cancelled

/-- What the loop was ended by, as the result says. -/
def Caused (as : List ServerAction) (s : Server) : Prop :=
  match s.phase with
  | .receiving => True
  | .draining result _ | .aborting result | .returned result =>
    match result with
    | .ok => .shutdown ∈ as
    | .receiveError text => .receiveFails text ∈ as

theorem Caused.of_phase {as : List ServerAction} {s t : Server} (a : ServerAction)
    (h : Caused as s) (hphase : t.phase = s.phase) : Caused (as ++ [a]) t := by
  rw [Caused] at h ⊢
  rw [hphase]
  split
  · trivial
  all_goals
    simp only [*] at h
    split
    all_goals
      exact List.mem_append_left _ h

/-- Timers are served in time: the clock does not pass the end of the drain before the server has
looked at it, and what was aborted is cancelled and joined at once. -/
def Prompt (s : Server) : ServerAction → Prop
  | .pipeline (.tick nanos) =>
    match s.phase with
    | .draining _ deadline => s.pipeline.now + nanos ≤ deadline
    | .aborting _ => nanos = 0
    | _ => True
  | _ => True

/-- A server that has not returned is within the time of its drain. -/
def InTime (s : Server) : Prop :=
  match s.phase with
  | .draining _ deadline => s.pipeline.now ≤ deadline
  | .aborting _ => ∀ stoppedAt, s.stoppedAt = some stoppedAt →
      s.pipeline.now ≤ stoppedAt + drainTimeout
  | _ => True

theorem InTime.of_eq {s t : Server} (h : s.InTime) (hphase : t.phase = s.phase)
    (hstopped : t.stoppedAt = s.stoppedAt) (hnow : t.pipeline.now = s.pipeline.now) : t.InTime := by
  rw [InTime] at h ⊢
  rw [hphase, hstopped, hnow]
  exact h

theorem InTime.tick {s : Server} (h : s.InTime) {nanos : ℕ}
    (hprompt : s.Prompt (.pipeline (.tick nanos))) :
    InTime { s with pipeline := { s.pipeline with now := s.pipeline.now + nanos } } := by
  simp only [InTime, Prompt] at h hprompt ⊢
  cases hphase : s.phase with
  | receiving => trivial
  | draining result deadline =>
    simp only [hphase] at hprompt ⊢
    exact hprompt
  | aborting result =>
    simp only [hphase] at h hprompt ⊢
    rw [hprompt]
    exact h
  | returned result => trivial

/-- A server that is served in time and has not returned two seconds after its loop ended does not
exist. -/
theorem Inv.returned_of_late {s : Server} (hinv : s.Inv) (h : s.InTime)
    (hstopped : s.phase ≠ .receiving) (hlate : ∀ stoppedAt, s.stoppedAt = some stoppedAt →
      stoppedAt + drainTimeout < s.pipeline.now) : ∃ result, s.phase = .returned result := by
  obtain ⟨stoppedAt, hat'⟩ := hinv.stopped hstopped
  have hlt := hlate stoppedAt hat'
  rw [InTime] at h
  cases hphase : s.phase with
  | receiving => exact absurd hphase hstopped
  | draining result deadline =>
    rw [hphase] at h
    have hdeadline := hinv.deadline _ _ hphase
    rw [hat'] at hdeadline
    cases hdeadline
    exact absurd h (not_le.2 hlt)
  | aborting result =>
    rw [hphase] at h
    exact absurd (h stoppedAt hat') (not_le.2 hlt)
  | returned result => exact ⟨result, rfl⟩

section Runs

variable [Lowercase] [Codec] [Display]

theorem Inv.step {p : Pipeline} {s t : Server} {a : ServerAction} (h : s.Inv)
    (hstep : (machine p).step s a = some t) : t.Inv := by
  cases step_of_machine hstep with
  | pipeline _ hpipeline => exact h.setPipeline (Pipeline.now_le_of_step hpipeline)
  | receive datagram hphase => exact h.receive hphase datagram.received
  | receiveFails text hphase => exact h.stop hphase _
  | shutdown hphase => exact h.stop hphase _
  | undecodable _ hi hstage _ => exact h.setStage hi (by rw [hstage]; rfl) (by rintro ⟨⟩)
  | called hi hstage _ hpipeline =>
    exact (h.setPipeline (Pipeline.now_le_of_step hpipeline)).setStage hi (by rw [hstage]; rfl)
      (by rintro ⟨⟩)
  | unencodable hi hstage _ _ => exact h.setStage hi (by rw [hstage]; rfl) (by rintro ⟨⟩)
  | encoded hi hstage _ _ => exact h.setStage hi (by rw [hstage]; rfl) (by rintro ⟨⟩)
  | sent hi hstage =>
    have hset : (s.setStage _ _ (.ended .sent)).Inv :=
      h.setStage hi (by rw [hstage]; rfl) (by rintro ⟨⟩)
    exact { hset with }
  | sendFailed hi hstage => exact h.setStage hi (by rw [hstage]; rfl) (by rintro ⟨⟩)
  | cancel hi haborted hover => exact h.setStage hi hover fun _ ↦ haborted
  | join hi hover hmem hphase => exact h.join hi hover hmem hphase
  | drained hphase hjoin => exact h.drained hphase hjoin
  | timeout hphase hdue _ => exact h.timeout hphase hdue

theorem Caused.step {p : Pipeline} {as : List ServerAction} {s t : Server} {a : ServerAction}
    (h : Caused as s) (hstep : (machine p).step s a = some t) : Caused (as ++ [a]) t := by
  cases step_of_machine hstep with
  | receiveFails text hphase => exact List.mem_append_right _ (List.mem_singleton_self _)
  | shutdown hphase => exact List.mem_append_right _ (List.mem_singleton_self _)
  | @drained result hphase _ =>
    have hcaused := h.of_phase (t := s) .drained rfl
    rw [Caused] at hcaused ⊢
    obtain ⟨deadline, hphase⟩ | hphase := hphase <;> rw [hphase] at hcaused <;> exact hcaused
  | timeout hphase _ _ =>
    have hcaused := h.of_phase (t := s) .timeout rfl
    rw [Caused, hphase] at hcaused
    exact hcaused
  | _ => exact h.of_phase _ rfl

/-- **The server drains before it returns.** While it receives, the join set has the task of every
datagram. At no time is a task aborted or cancelled before two seconds have passed since the loop
ended. When the server has returned, its loop was ended by what the result says, and every task has
ended by itself or was cancelled. -/
theorem drains_before_returning (p : Pipeline) {pipeline : PipelineState} {as : List ServerAction}
    {s : Server} (hrun : (machine p).run (start pipeline) as = some s) :
    (s.phase = .receiving → s.joinSet = List.range s.handlers.length) ∧
    (∀ h ∈ s.handlers, h.aborted = true ∨ h.stage = .cancelled →
      ∃ stoppedAt, s.stoppedAt = some stoppedAt ∧ stoppedAt + drainTimeout ≤ s.pipeline.now) ∧
    ∀ result, s.phase = .returned result →
      (result = .ok → .shutdown ∈ as) ∧
      (∀ text, result = .receiveError text → .receiveFails text ∈ as) ∧
      ∀ h ∈ s.handlers, (∃ how, h.stage = .ended how) ∨ h.stage = .cancelled := by
  have h : s.Inv := Machine.run_invariant (fun _ _ _ h hstep ↦ h.step hstep) hrun (inv_start _)
  have hcaused : Caused as s :=
    Machine.run_history (I := Caused) (fun _ _ _ _ h hstep ↦ h.step hstep) hrun trivial
  refine ⟨h.receiving, fun task htask hlost ↦ ?_, fun result hreturned ↦ ?_⟩
  · have haborted : task.aborted = true := hlost.elim id (h.cancelled task htask)
    exact (h.aborted task htask haborted).2
  rw [Caused, hreturned] at hcaused
  refine ⟨?_, ?_, fun task htask ↦ ?_⟩
  · rintro rfl
    exact hcaused
  · rintro text rfl
    exact hcaused
  · obtain ⟨i, hi⟩ := List.mem_iff_getElem?.1 htask
    have hover := h.joined i task hi (by rw [h.returned result hreturned]; exact List.not_mem_nil)
    cases hstage : task.stage with
    | ended how => exact Or.inl ⟨how, rfl⟩
    | cancelled => exact Or.inr rfl
    | _ =>
      rw [hstage] at hover
      cases hover

end Runs

/-- A datagram whose task has not started when the server is told to stop: the task is cancelled,
two seconds later. -/
theorem drains_before_returning_cancelled :
    let _ := asciiLowercase
    let _ := Sample.codec
    let _ : Display := ⟨fun _ ↦ [], fun _ ↦ []⟩
    ∃ s, (machine ⟨HostsMap.empty, none⟩).run (start Sample.start)
        [.receive ⟨⟨.v4 0xC0000201#32, 4000⟩, []⟩, .shutdown, .pipeline (.tick 2000000000),
          .timeout, .cancel 0, .join 0, .drained] = some s ∧
      s.phase = .returned .ok ∧ s.handlers.map Handler.stage = [.cancelled] ∧
      ∃ stoppedAt, s.stoppedAt = some stoppedAt ∧ stoppedAt + drainTimeout ≤ s.pipeline.now := by
  intro _ _ _
  have hrun : ((machine ⟨HostsMap.empty, none⟩).run (start Sample.start)
      [.receive ⟨⟨.v4 0xC0000201#32, 4000⟩, []⟩, .shutdown, .pipeline (.tick 2000000000),
        .timeout, .cancel 0, .join 0, .drained]).any fun s ↦
          s.phase = .returned .ok ∧ s.handlers.map Handler.stage = [.cancelled] := by
    decide +kernel
  obtain ⟨s, hs, hprop⟩ := (Option.any_eq_true _ _).1 hrun
  obtain ⟨hphase, hstages⟩ := of_decide_eq_true hprop
  obtain ⟨h, hh, hstage⟩ : ∃ h ∈ s.handlers, h.stage = .cancelled :=
    List.mem_map.1 (hstages ▸ List.mem_singleton_self _)
  obtain ⟨-, hdue, -⟩ := drains_before_returning ⟨HostsMap.empty, none⟩ hs
  exact ⟨s, hs, hphase, hstages, hdue h hh (Or.inr hstage)⟩

/-! ### Stopping in time -/

section Runs

variable [Lowercase] [Codec] [Display]

/-- Only a tick moves the clock. -/
theorem now_eq_of_step {p : Pipeline} {s t : PipelineState} {a : PipelineAction}
    (hstep : p.machine.step s a = some t) (hne : ∀ nanos, a ≠ .tick nanos) : t.now = s.now := by
  cases Pipeline.step_of_machine hstep with
  | tick nanos => exact absurd rfl (hne nanos)
  | @screen i call =>
    rw [Pipeline.stepScreen]
    split <;> rfl
  | @lookUp i call =>
    rw [Pipeline.stepLookUp]
    dsimp only
    split <;> rfl
  | _ => rfl

theorem InTime.step {p : Pipeline} {s t : Server} {a : ServerAction} (hinv : s.Inv) (h : s.InTime)
    (hprompt : s.Prompt a) (hstep : (machine p).step s a = some t) : t.InTime := by
  cases step_of_machine hstep with
  | @pipeline action pipeline _ hpipeline =>
    by_cases htick : ∃ nanos, action = .tick nanos
    · obtain ⟨nanos, rfl⟩ := htick
      cases hpipeline
      exact h.tick hprompt
    · exact h.of_eq rfl rfl (now_eq_of_step hpipeline fun nanos heq ↦ htick ⟨nanos, heq⟩)
  | receiveFails => exact Nat.le_add_right _ _
  | shutdown => exact Nat.le_add_right _ _
  | called _ _ _ hpipeline =>
    exact h.of_eq rfl rfl (now_eq_of_step hpipeline (by rintro _ ⟨⟩))
  | drained => trivial
  | @timeout result deadline hphase _ _ =>
    intro stoppedAt hstopped
    rw [InTime, hphase] at h
    have hdeadline := hinv.deadline _ _ hphase
    change s.stoppedAt = some stoppedAt at hstopped
    rw [hstopped] at hdeadline
    exact h.trans (Option.some.inj hdeadline).ge
  | _ => exact h.of_eq rfl rfl rfl

end Runs

end Server

end DnsBuffer
