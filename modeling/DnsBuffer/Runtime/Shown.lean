import DnsBuffer.Dashboard.Queries
import DnsBuffer.Pipeline.Events
import DnsBuffer.Runtime.History

/-!
# What is answered is shown

The parts put together, from the query of a client to a row of the dashboard: a call of the pipeline
that replies to a question emits one event; the channel of the worker takes it, in a run of the
runtime as a whole; the worker writes it in one of its batches; and the store makes a row of it,
which stays until a cleanup with a later cutoff.

The chain breaks in three places. The channel may be full (`Runtime.Drops`); events may be left in
it when the worker ends; and a batch is lost as a whole if its transaction is not committed, or if
the store refuses one of its events, for its timestamp or for a duration of some hundred million
years (`QueryEvent.Storable`). Nowhere else is an event lost, and none is made up or written twice.
-/

namespace DnsBuffer

/-! ### The rows of a store -/

/-- A row without its id. -/
def LogRow.content (row : LogRow) : LogRow := { row with id := 0 }

/-- No cutoff so far is after the timestamp. -/
def kept (cutoff : Option ℤ) (timestampMs : ℤ) : Bool := cutoff.all fun c ↦ c ≤ timestampMs

theorem kept_maxCutoff (a b : Option ℤ) (timestampMs : ℤ) :
    kept (StoreState.maxCutoff a b) timestampMs = (kept a timestampMs && kept b timestampMs) := by
  rcases a with - | a <;> rcases b with - | b <;> simp [kept, StoreState.maxCutoff]

/-- The batch of a call. -/
def StoreOp.batch? : StoreOp → Option (List QueryEvent)
  | .insertEvents events _ => some events
  | .cleanup _ _ _ => none

section Rows

variable [Chrono]

/-- An event that `insert_events` does not refuse. -/
def QueryEvent.Storable (e : QueryEvent) : Prop :=
  e.durationMs < 2 ^ 63 ∧ Chrono.accepts e.timestampMs = true

instance (e : QueryEvent) : Decidable e.Storable := inferInstanceAs (Decidable (_ ∧ _))

/-- The events that a call adds to the rows: all of its batch or none. -/
def StoreOp.written : StoreOp → List QueryEvent
  | .insertEvents events commits =>
    if commits ∧ ∀ e ∈ events, e.Storable then events else []
  | .cleanup _ _ _ => []

namespace Db

theorem insertEvent_of_storable (db : Db) {e : QueryEvent} (h : e.Storable) :
    db.insertEvent e = .ok (db.addEvent e) := by
  rw [insertEvent, if_neg (Nat.not_le.2 h.1), if_pos h.2]

theorem insertEvent_of_not_storable (db : Db) {e : QueryEvent} (h : ¬e.Storable) :
    ∃ error, db.insertEvent e = .error error := by
  rw [insertEvent]
  by_cases hduration : 2 ^ 63 ≤ e.durationMs
  · exact ⟨_, if_pos hduration⟩
  · rw [if_neg hduration]
    exact ⟨_, if_neg fun haccepts ↦ h ⟨Nat.not_le.1 hduration, haccepts⟩⟩

/-- A batch is inserted with one row for each event, in their order. -/
theorem insertEvents_of_storable {events : List QueryEvent} (h : ∀ e ∈ events, e.Storable)
    (db : Db) : ∃ db', db.insertEvents events = .ok db' ∧
      db'.queryLogs.map LogRow.content =
        db.queryLogs.map LogRow.content ++ events.map (LogRow.ofEvent 0) := by
  induction events generalizing db with
  | nil => exact ⟨db, rfl, (List.append_nil _).symm⟩
  | cons e events ih =>
    rw [List.forall_mem_cons] at h
    obtain ⟨db', hok, hrows⟩ := ih h.2 (db.addEvent e)
    refine ⟨db', ?_, ?_⟩
    · rw [insertEvents, List.foldlM_cons, db.insertEvent_of_storable h.1]
      exact hok
    · rw [hrows, addEvent, List.map_append, List.map_singleton, List.append_assoc]
      rfl

/-- One event that is refused is enough. -/
theorem insertEvents_of_not_storable {events : List QueryEvent}
    (h : ¬∀ e ∈ events, e.Storable) (db : Db) : ∃ error, db.insertEvents events = .error error := by
  induction events generalizing db with
  | nil => exact absurd (fun e he ↦ absurd he List.not_mem_nil) h
  | cons e events ih =>
    rw [insertEvents, List.foldlM_cons]
    by_cases he : e.Storable
    · rw [db.insertEvent_of_storable he]
      exact ih (fun hall ↦ h (List.forall_mem_cons.2 ⟨he, hall⟩)) (db.addEvent e)
    · obtain ⟨error, herror⟩ := db.insertEvent_of_not_storable he
      rw [herror]
      exact ⟨error, rfl⟩

end Db

namespace StoreState

/-- The rows that no cutoff is after are the events that none is after. -/
def Mirrors (events : List QueryEvent) (s : StoreState) : Prop :=
  (s.db.queryLogs.map LogRow.content).filter (fun row ↦ kept s.cutoff row.timestampMs) =
    (events.map (LogRow.ofEvent 0)).filter fun row ↦ kept s.cutoff row.timestampMs

variable {events : List QueryEvent} {s t : StoreState}

omit [Chrono] in
/-- A cleanup takes rows that its cutoff is after. -/
theorem Mirrors.deleteBefore (h : s.Mirrors events) (c : ℤ) :
    Mirrors events ⟨s.db.deleteBefore c, maxCutoff s.cutoff (some c)⟩ := by
  -- both sides with the old cutoff first, then with the new one
  have hsplit : ∀ rows : List LogRow,
      rows.filter (fun row ↦ kept (maxCutoff s.cutoff (some c)) row.timestampMs) =
        (rows.filter fun row ↦ kept s.cutoff row.timestampMs).filter fun row ↦
          kept (some c) row.timestampMs := by
    intro rows
    rw [List.filter_filter]
    refine List.filter_congr fun row _ ↦ ?_
    rw [kept_maxCutoff, Bool.and_comm]
  have hdeleted : ((s.db.deleteBefore c).queryLogs.map LogRow.content).filter
      (fun row ↦ kept (maxCutoff s.cutoff (some c)) row.timestampMs) =
        (s.db.queryLogs.map LogRow.content).filter fun row ↦
          kept (maxCutoff s.cutoff (some c)) row.timestampMs := by
    rw [List.filter_map, List.filter_map]
    show ((s.db.queryLogs.filter _).filter _).map _ = _
    rw [List.filter_filter]
    congr 1
    refine List.filter_congr fun row _ ↦ ?_
    have hnew : decide (¬row.timestampMs < c) = kept (some c) row.timestampMs := by
      simp [kept]
    show (kept (maxCutoff s.cutoff (some c)) row.timestampMs && decide (¬row.timestampMs < c)) =
      kept (maxCutoff s.cutoff (some c)) row.timestampMs
    rw [kept_maxCutoff, hnew, Bool.and_assoc, Bool.and_self]
  rw [Mirrors, hdeleted, hsplit, hsplit, h]

/-- What a call that inserts leaves behind. -/
theorem transact_insertEvents (db : Db) (batch : List QueryEvent) (commits : Bool) :
    (transact db commits (db.insertEvents batch)).queryLogs.map LogRow.content =
      db.queryLogs.map LogRow.content ++
        (StoreOp.insertEvents batch commits).written.map (LogRow.ofEvent 0) := by
  rw [StoreOp.written]
  by_cases hstorable : ∀ e ∈ batch, e.Storable
  · obtain ⟨db', hok, hrows⟩ := db.insertEvents_of_storable hstorable
    rw [hok]
    cases commits with
    | true =>
      rw [if_pos ⟨rfl, hstorable⟩]
      exact hrows
    | false =>
      rw [if_neg fun h ↦ Bool.false_ne_true h.1]
      exact (List.append_nil _).symm
  · obtain ⟨error, herror⟩ := db.insertEvents_of_not_storable hstorable
    rw [herror, if_neg fun h ↦ hstorable h.2]
    exact (List.append_nil _).symm

/-- **One call** adds what it writes. -/
theorem Mirrors.step {op : StoreOp} (h : s.Mirrors events) (hstep : machine.step s op = some t) :
    t.Mirrors (events ++ op.written) := by
  cases op with
  | insertEvents batch commits =>
    cases hstep
    show List.filter _ ((transact s.db commits (s.db.insertEvents batch)).queryLogs.map _) = _
    rw [transact_insertEvents, List.filter_append, List.map_append, List.filter_append]
    exact congrArg (· ++ _) h
  | cleanup retentionDays nowMs commits =>
    cases hstep
    show Mirrors (events ++ []) _
    rw [List.append_nil, Db.cleanup]
    rcases Db.cleanupCutoff retentionDays nowMs with - | ( - | c) <;> cases commits
    · exact h
    · exact h
    · exact h
    · show Mirrors events ⟨s.db, maxCutoff s.cutoff none⟩
      rwa [maxCutoff_none]
    · exact h
    · exact h.deleteBefore c

/-- **The rows of a run** are what its calls have written. -/
theorem mirrors_of_run {ops : List StoreOp} (hrun : machine.run StoreState.empty ops = some s) :
    s.Mirrors (ops.flatMap StoreOp.written) := by
  refine Machine.run_history (I := fun ops s ↦ Mirrors (ops.flatMap StoreOp.written) s) ?_ hrun rfl
  intro before u op v h hstep
  rw [List.flatMap_append, List.flatMap_singleton]
  exact h.step hstep

end StoreState

/-- Calls of which none fails write their batches. -/
theorem StoreOp.flatMap_written {ops : List StoreOp}
    (h : ∀ batch commits, .insertEvents batch commits ∈ ops →
      commits = true ∧ ∀ e ∈ batch, e.Storable) :
    ops.flatMap written = (ops.filterMap batch?).flatten := by
  induction ops with
  | nil => rfl
  | cons op ops ih =>
    have hrest := ih fun batch commits hmem ↦ h batch commits (List.mem_cons_of_mem op hmem)
    rw [List.flatMap_cons, hrest]
    cases op with
    | insertEvents batch commits =>
      rw [written, if_pos (h batch commits List.mem_cons_self)]
      rfl
    | cleanup retentionDays nowMs commits => rfl

end Rows

namespace Runtime

section Shown

variable [Lowercase] [Codec] [Display] {p : Pipeline} {cleanupInterval : ℕ} {s : Runtime}

/-- The pipeline of the runtime moves as a pipeline does. -/
theorem projects_pipeline (p : Pipeline) (cleanupInterval : ℕ) :
    (machine p cleanupInterval).Projects p.machine (fun s ↦ s.server.pipeline) fun _ ↦ True := by
  intro s a t _ hstep
  refine ⟨trivial, ?_⟩
  cases step_of_machine hstep with
  | tick nanos => exact ⟨[.tick nanos], rfl⟩
  | dns _ hserver => exact (Server.projects_pipeline p _ _ _ trivial hserver).2
  | _ => exact ⟨[], rfl⟩

/-- **What is answered is shown.** In every run from a new pipeline with timers that are served in
time and no event that finds the channel full, and with a store on which the batches of the worker
and any cleanups were run:

* the calls that have replied to a question are in correspondence with events that describe their
  replies, and these are, in order, the events of the batches, those in the hand of the worker and
  those in the channel; a worker that was joined has nothing in its hand;
* the rows of the store that no cutoff is after are the events of the batches that were written,
  each once and in their order; if no batch has failed, that is all of them. -/
theorem answers_are_shown [Chrono] (p : Pipeline) (now : Instant) (filter : Filter)
    (maxMemoryMb cleanupInterval : ℕ) (as : List RuntimeAction) (s : Runtime)
    (hrun : (machine p cleanupInterval).run
      (start (.init now filter (Cache.new maxMemoryMb)) cleanupInterval) as = some s)
    (hprompt : (machine p cleanupInterval).Along Prompt
      (start (.init now filter (Cache.new maxMemoryMb)) cleanupInterval) as)
    (hroom : (machine p cleanupInterval).Along (fun s a ↦ ¬Drops p cleanupInterval s a)
      (start (.init now filter (Cache.new maxMemoryMb)) cleanupInterval) as)
    (ops : List StoreOp) (t : StoreState)
    (hstore : StoreState.machine.run StoreState.empty ops = some t)
    (hbatches : ops.filterMap StoreOp.batch? = s.store.worker.batches) :
    (∃ pairs : List (HandleTask × QueryEvent),
      (pairs.map Prod.fst).Perm (s.server.pipeline.handles.filter HandleTask.isRecorded) ∧
      (∀ x ∈ pairs, ∃ response source, x.1.phase = .replied response source ∧
        Describes response source x.2) ∧
      pairs.map Prod.snd = (ops.filterMap StoreOp.batch?).flatten ++
        (s.store.worker.pc.inHand ++ s.store.worker.channel.queue) ∧
      (s.store.joins = 1 → s.store.worker.pc.inHand = [])) ∧
    (t.db.queryLogs.map LogRow.content).filter (fun row ↦ kept t.cutoff row.timestampMs) =
      ((ops.flatMap StoreOp.written).map (LogRow.ofEvent 0)).filter (fun row ↦
        kept t.cutoff row.timestampMs) ∧
    ((∀ batch commits, .insertEvents batch commits ∈ ops →
      commits = true ∧ ∀ e ∈ batch, e.Storable) →
        ops.flatMap StoreOp.written = (ops.filterMap StoreOp.batch?).flatten) := by
  refine ⟨?_, StoreState.mirrors_of_run hstore, StoreOp.flatMap_written⟩
  have hinv : s.Inv := inv_of_run hrun
  obtain ⟨bs, hpipeline⟩ := (projects_pipeline p cleanupInterval).run trivial hrun
  obtain ⟨pairs, hevents, hperm, hemits⟩ := (Pipeline.keepsBooks_of_run hpipeline).emitted
  obtain ⟨cs, hworker⟩ := exists_run_worker hrun
  have hcomplete : s.store.worker.accepted = s.server.pipeline.events :=
    (complete_iff_of_run hrun hprompt).2 hroom
  refine ⟨pairs, hperm, fun x hx ↦ (hemits x hx).describes, ?_, fun hjoins ↦ ?_⟩
  · rw [hevents, ← hcomplete, hbatches]
    exact (Worker.inv_of_run hworker).conserved
  · rw [hinv.store.ended (hinv.store.joined (by rw [hjoins]; exact Nat.one_ne_zero))]
    rfl

end Shown

end Runtime

/-- The event of the query is a row when `run_until` has returned. -/
theorem answers_are_shown_served :
    let _ := asciiLowercase
    let _ := Sample.codec
    let _ : Display := ⟨fun _ ↦ [], fun _ ↦ []⟩
    let _ := Chrono.utc
    let p : Pipeline := ⟨HostsMap.empty, none⟩
    ∃ s t, (Runtime.machine p 1000).run (.start Sample.start 1000) Sample.stopped = some s ∧
      StoreState.machine.run StoreState.empty
        (s.store.worker.batches.map (StoreOp.insertEvents · true)) = some t ∧
      (s.server.pipeline.handles.filter HandleTask.isRecorded).length = 1 ∧
      ((t.db.queryLogs.map LogRow.content).filter fun row ↦
        kept t.cutoff row.timestampMs).length = 1 := by
  intro _ _ _ _ p
  have hrun : ((Runtime.machine p 1000).run (.start Sample.start 1000) Sample.stopped).any fun s ↦
      (s.store.worker.accepted = s.server.pipeline.events ∧ s.store.joins = 1 ∧
        s.store.worker.channel.queue = [] ∧
        (s.server.pipeline.handles.filter HandleTask.isRecorded).length = 1) ∧
      (∀ batch ∈ s.store.worker.batches, ∀ e ∈ batch, e.Storable) ∧
      (StoreState.machine.run StoreState.empty
        (s.store.worker.batches.map (StoreOp.insertEvents · true))).any fun t ↦
          t.cutoff = none := by
    decide +kernel
  obtain ⟨s, hs, hprop⟩ := (Option.any_eq_true _ _).1 hrun
  obtain ⟨⟨haccepted, hjoins, hqueue, hlength⟩, hstorable, hstored⟩ := of_decide_eq_true hprop
  obtain ⟨t, ht, hcutoff⟩ := (Option.any_eq_true _ _).1 hstored
  have hprompt := Sample.prompt_stopped p
  have hbatches : (s.store.worker.batches.map (StoreOp.insertEvents · true)).filterMap
      StoreOp.batch? = s.store.worker.batches := by
    rw [List.filterMap_map]
    exact List.filterMap_some
  obtain ⟨⟨pairs, hperm, -, hevents, hhand⟩, hrows, hwritten⟩ :=
    Runtime.answers_are_shown p 0 (Filter.new []) 1 1000 Sample.stopped s hs hprompt
      ((Runtime.complete_iff_of_run hs hprompt).1 haccepted) _ t ht hbatches
  refine ⟨s, t, hs, ht, hlength, ?_⟩
  have hall : (s.store.worker.batches.map (StoreOp.insertEvents · true)).flatMap
      StoreOp.written = pairs.map Prod.snd := by
    rw [hevents, hhand hjoins, hqueue, List.append_nil, List.append_nil]
    refine hwritten fun batch commits hmem ↦ ?_
    obtain ⟨batch', hbatch, heq⟩ := List.mem_map.1 hmem
    cases heq
    exact ⟨rfl, hstorable batch hbatch⟩
  rw [hrows, hall, of_decide_eq_true hcutoff]
  have hpairs := hperm.length_eq
  rw [List.length_map, hlength] at hpairs
  simp [kept, hpairs]

end DnsBuffer
